import Bulletin.Html.Builder.Foreign

/-!
# In the body

The rules for running content. They also serve, with small changes, inside tables, templates and
after the end of the body.
-/

namespace Bulletin.Html.Build

/-- Elements that begin a block and end the paragraph before it. -/
def blockTags : List String :=
  ["address", "article", "aside", "blockquote", "center", "details", "dialog", "dir", "div",
   "dl", "fieldset", "figcaption", "figure", "footer", "header", "hgroup", "main", "menu", "nav",
   "ol", "p", "search", "section", "summary", "ul"]

/-- Elements that only their own end tag closes, with all that is open in them. -/
def closedBlockTags : List String :=
  ["address", "article", "aside", "blockquote", "button", "center", "details", "dialog", "dir",
   "div", "dl", "fieldset", "figcaption", "figure", "footer", "header", "hgroup", "listing",
   "main", "menu", "nav", "ol", "pre", "search", "section", "summary", "ul"]

/-- Formatting elements, the link and `nobr` apart. -/
def formattingTags : List String :=
  ["b", "big", "code", "em", "font", "i", "s", "small", "strike", "strong", "tt", "u"]

/-- Tags that mean nothing outside their place. -/
def misplacedTags : List String :=
  ["caption", "col", "colgroup", "frame", "head", "tbody", "td", "tfoot", "th", "thead", "tr"]

def isHiddenInput (t : Tag) : Bool :=
  match t.value? "type" with
  | some v => v.toLower == "hidden"
  | none => false

/-- The end of the text inside a template: the template is left. -/
def endInTemplate : Build (List Token) := do
  if ← isOpen "template" then
    leaveTemplate
    return [.endOfFile]
  else done

/-- Makes and opens an element after reopening formatting. -/
def insertInline (t : Tag) : Build Unit := do
  reopenFormatting
  let _ ← insertTag t

/-- The item that a new item of the same list ends, looking outwards. -/
def openItem? (tags : List String) : List OpenElement → Option String
  | [] => none
  | e :: rest =>
    if e.name.isHtmlIn tags then some e.name.tag
    else if e.name.isSpecial && !e.name.isHtmlIn ["address", "div", "p"] then none
    else openItem? tags rest

def startItem (t : Tag) : Build Unit := do
  keepBody
  let tags := if t.name == "li" then ["li"] else ["dd", "dt"]
  match openItem? tags (← get).stack with
  | some tag =>
    closeImpliedExcept tag
    popThroughTag tag
  | none => pure ()
  closeParagraphInScope
  let _ ← insertTag t

/-- Starts a second body, which only adds attributes to the first. -/
def mergeBody (t : Tag) : Build Unit := do
  match (← get).stack.reverse with
  | _ :: body :: _ =>
    if body.name.isHtml "body" && !(← isOpen "template") then
      keepBody
      onForest (·.addAttributes body.id t.plainAttributes)
  | _ => return

/-- Starts a frameset, which replaces a body that has nothing in it yet. -/
def startFrameset (t : Tag) : Build Unit := do
  let b ← get
  if b.framesetOk then
    match b.stack.reverse with
    | root :: body :: _ =>
      if body.name.isHtml "body" then
        onForest (·.detach body.id)
        modify fun b => { b with stack := [root] }
        let _ ← insertTag t
        setMode .inFrameset
    | _ => return

/-- Starts a form, of which none may stand in another. -/
def startForm (t : Tag) : Build Unit := do
  let inTemplate ← isOpen "template"
  if (← get).form.isNone || inTemplate then
    closeParagraphInScope
    let e ← insertTag t
    if !inTemplate then modify fun b => { b with form := some e.id }

def startSelect (t : Tag) : Build Unit := do
  insertInline t
  keepBody
  let mode := (← get).mode
  if [Mode.inTable, .inCaption, .inTableBody, .inRow, .inCell].contains mode then
    setMode .inSelectInTable
  else setMode .inSelect

def bodyStart (t : Tag) : Build (List Token) := do
  let name := t.name
  if name == "html" then mergeHtml t
  else if headTags.contains name then headElement t
  else if name == "body" then mergeBody t; done
  else if name == "frameset" then startFrameset t; done
  else if blockTags.contains name then
    closeParagraphInScope
    let _ ← insertTag t
    done
  else if headingTags.contains name then
    closeParagraphInScope
    if ← currentIn headingTags then pop
    let _ ← insertTag t
    done
  else if name == "pre" || name == "listing" then
    closeParagraphInScope
    let _ ← insertTag t
    keepBody
    modify fun b => { b with skipNewline := true }
    done
  else if name == "form" then startForm t; done
  else if ["li", "dd", "dt"].contains name then startItem t; done
  else if name == "plaintext" then
    closeParagraphInScope
    let _ ← insertTag t
    modify fun b => { b with context := { b.context with kind := .plain } }
    done
  else if name == "button" then
    if ← tagInScope ElementName.boundsScope "button" then
      closeImplied ElementName.endIsImplied
      popThroughTag "button"
    insertInline t
    keepBody
    done
  else if name == "a" then
    closeOpenLink
    reopenFormatting
    insertFormatting t
    done
  else if formattingTags.contains name then
    reopenFormatting
    insertFormatting t
    done
  else if name == "nobr" then
    reopenFormatting
    if ← tagInScope ElementName.boundsScope "nobr" then
      adopt "nobr"
      reopenFormatting
    insertFormatting t
    done
  else if ["applet", "marquee", "object"].contains name then
    insertInline t
    pushMarker
    keepBody
    done
  else if name == "table" then
    if !(← get).tablesInParagraphs then closeParagraphInScope
    let _ ← insertTag t
    keepBody
    setMode .inTable
    done
  else if ["area", "br", "embed", "img", "image", "keygen", "wbr", "input"].contains name then
    reopenFormatting
    let _ ← insertClosed { t with name := if name == "image" then "img" else name }
    if !(name == "input" && isHiddenInput t) then keepBody
    done
  else if ["param", "source", "track"].contains name then
    let _ ← insertClosed t
    done
  else if name == "hr" then
    closeParagraphInScope
    let _ ← insertClosed t
    keepBody
    done
  else if name == "textarea" then
    keepBody
    insertRaw t .referenced
    modify fun b => { b with skipNewline := true }
    done
  else if name == "xmp" then
    closeParagraphInScope
    reopenFormatting
    keepBody
    insertRaw t .raw
    done
  else if name == "iframe" then
    keepBody
    insertRaw t .raw
    done
  else if name == "noembed" || name == "noscript" then insertRaw t .raw; done
  else if name == "select" then startSelect t; done
  else if name == "optgroup" || name == "option" then
    if ← currentIs "option" then pop
    insertInline t
    done
  else if name == "rb" || name == "rtc" then
    if ← tagInScope ElementName.boundsScope "ruby" then closeImplied ElementName.endIsImplied
    let _ ← insertTag t
    done
  else if name == "rp" || name == "rt" then
    if ← tagInScope ElementName.boundsScope "ruby" then closeImpliedExcept "rtc"
    let _ ← insertTag t
    done
  else if name == "math" then insertForeign .math name t
  else if name == "svg" then insertForeign .svg name t
  else if misplacedTags.contains name then done
  else
    insertInline t
    done

/-- Ends a form, which need not be the innermost open element. -/
def endForm : Build Unit := do
  if ← isOpen "template" then
    if ← tagInScope ElementName.boundsScope "form" then
      closeImplied ElementName.endIsImplied
      popThroughTag "form"
  else
    match (← get).form with
    | none => return
    | some id =>
      modify fun b => { b with form := none }
      if ← inScope ElementName.boundsScope (·.id == id) then
        closeImplied ElementName.endIsImplied
        dropOpen id

/-- Closes the element `tag` if it is in scope, with what may be left open in it. -/
def closeInScope (bounds : ElementName → Bool) (tag : String) : Build Unit := do
  if ← tagInScope bounds tag then
    closeImpliedExcept tag
    popThroughTag tag

def bodyEnd (t : Tag) : Build (List Token) := do
  let name := t.name
  if name == "template" then closeTemplate
  else if name == "body" then
    if ← tagInScope ElementName.boundsScope "body" then setMode .afterBody
    done
  else if name == "html" then
    if ← tagInScope ElementName.boundsScope "body" then again .afterBody (.endTag t) else done
  else if closedBlockTags.contains name then
    closeInScope ElementName.boundsScope name
    done
  else if name == "form" then endForm; done
  else if name == "p" then
    if !(← tagInScope ElementName.boundsButtonScope "p") then
      let _ ← insertImplied "p"
    closeParagraph
    done
  else if name == "li" then
    closeInScope ElementName.boundsListScope name
    done
  else if name == "dd" || name == "dt" then
    closeInScope ElementName.boundsScope name
    done
  else if headingTags.contains name then
    if ← inScope ElementName.boundsScope (·.name.isHtmlIn headingTags) then
      closeImplied ElementName.endIsImplied
      popThrough (·.isHtmlIn headingTags)
    done
  else if name == "a" || name == "nobr" || formattingTags.contains name then adopt name; done
  else if ["applet", "marquee", "object"].contains name then
    if ← tagInScope ElementName.boundsScope name then
      closeImplied ElementName.endIsImplied
      popThroughTag name
      clearToMarker
    done
  else if name == "br" then bodyStart (Tag.bare "br")
  else
    closeOrdinary name
    done

def inBodyRule : Rule
  | .null => done
  | .text s => do
    reopenFormatting
    if s.toList.any (!isBlank ·) then keepBody
    addText s
    done
  | .comment s => do addComment s; done
  | .startTag t => bodyStart t
  | .endTag t => bodyEnd t
  | .doctype _ | .malformed => done
  | .endOfFile => do if (← get).templateModes.isEmpty then done else endInTemplate

def textRule : Rule
  | .text s => do addText s; done
  | .endOfFile => do
    pop
    again (← get).returnMode .endOfFile
  | _ => do
    pop
    setMode (← get).returnMode
    done

end Bulletin.Html.Build
