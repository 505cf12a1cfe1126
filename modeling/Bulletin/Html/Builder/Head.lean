import Bulletin.Html.Builder.Adoption

/-!
# Before the body

The rules for what comes before the body: the document element, the head and what may stand in
it. `resetMode` finds the mode that fits the elements that are open.
-/

namespace Bulletin.Html.Build

/-- The text as a token, unless it is empty. -/
def textTokens (cs : List Char) : List Token :=
  if cs.isEmpty then [] else [.text (String.ofList cs)]

/-- Handles the blanks at the front of a text, or else its first word, apart from the rest. -/
def splitText (s : String) (onBlanks : String → Build Unit) (onWord : Rule) :
    Build (List Token) := do
  match s.toList.span isBlank with
  | ([], rest) =>
    let (word, rest) := rest.span (!isBlank ·)
    return (← onWord (.text (String.ofList word))) ++ textTokens rest
  | (blanks, rest) =>
    onBlanks (String.ofList blanks)
    return textTokens rest

/-- Blanks that do not count. -/
def ignoreBlanks (_ : String) : Build Unit := return

/-- The mode that fits when a menu is open, by the elements around it. -/
def selectMode : List OpenElement → Mode
  | [] => .inSelect
  | e :: rest =>
    if e.name.isHtml "template" then .inSelect
    else if e.name.isHtml "table" then .inSelectInTable
    else selectMode rest

def fittingMode (b : Builder) : List OpenElement → Mode
  | [] => .inBody
  | e :: rest =>
    if e.name.space != .html then fittingMode b rest
    else
      match e.name.tag with
      | "select" => selectMode rest
      | "td" | "th" => if rest.isEmpty then .inBody else .inCell
      | "tr" => .inRow
      | "tbody" | "thead" | "tfoot" => .inTableBody
      | "caption" => .inCaption
      | "colgroup" => .inColumnGroup
      | "table" => .inTable
      | "template" => b.templateModes.headD .inTemplate
      | "head" => if rest.isEmpty then .inBody else .inHead
      | "body" => .inBody
      | "frameset" => .inFrameset
      | "html" => if b.head.isNone then .beforeHead else .afterHead
      | _ => fittingMode b rest

/-- The mode that fits what is open now. -/
def currentMode : Build Mode := do
  let b ← get
  return fittingMode b b.stack

/-- Goes to the mode that fits what is open now. -/
def resetMode : Build Unit := do setMode (← currentMode)

/-- A second start tag of the document element only adds attributes. -/
def mergeHtml (t : Tag) : Build (List Token) := do
  if !(← isOpen "template") then
    match (← get).stack.getLast? with
    | some e => onForest (·.addAttributes e.id t.plainAttributes)
    | none => pure ()
  done

/-- Makes the document element. -/
def makeRoot (attributes : List Attribute) : Build Unit := do
  let id ← make (.element (.html "html") attributes)
  onForest (·.append Forest.root id)
  push ⟨id, .html "html"⟩

/-- Before anything but a declaration or a comment has come. -/
def initialRule : Rule
  | .text s => splitText s ignoreBlanks other
  | .comment s => do addCommentTo Forest.root s; done
  | token => other token
where
  other (token : Token) : Build (List Token) := do
    modify fun b => { b with tablesInParagraphs := true }
    again .beforeHtml token

/-- Tags that end what is left out before the body; other end tags are ignored there. -/
def endsLeader (t : Tag) : Bool := ["head", "body", "html", "br"].contains t.name

def beforeHtmlRule : Rule
  | .text s => splitText s ignoreBlanks other
  | .comment s => do addCommentTo Forest.root s; done
  | .startTag t =>
    if t.name == "html" then do
      makeRoot t.plainAttributes
      setMode .beforeHead
      done
    else other (.startTag t)
  | .endTag t => if endsLeader t then other (.endTag t) else done
  | token => other token
where
  other (token : Token) : Build (List Token) := do
    makeRoot []
    again .beforeHead token

def beforeHeadRule : Rule
  | .text s => splitText s ignoreBlanks other
  | .comment s => do addComment s; done
  | .startTag t =>
    if t.name == "html" then mergeHtml t
    else if t.name == "head" then do
      let e ← insertTag t
      modify fun b => { b with head := some e, mode := .inHead }
      done
    else other (.startTag t)
  | .endTag t => if endsLeader t then other (.endTag t) else done
  | token => other token
where
  other (token : Token) : Build (List Token) := do
    let e ← insertImplied "head"
    modify fun b => { b with head := some e }
    again .inHead token

/-- Elements that may stand in a head, wherever their tags come. -/
def headTags : List String :=
  ["base", "basefont", "bgsound", "link", "meta", "noframes", "script", "style", "template",
   "title"]

/-- Whether a template asks to be the hidden tree of the element it stands in: by one of two words
as they are, and not as a child of the document element. -/
def isHiddenTree (t : Tag) : Build Bool := do
  let asked := t.value? "shadowrootmode" == some "open" || t.value? "shadowrootmode" == some "close"
  return asked && 1 < (← get).stack.length

/-- Starts a template. No hidden trees are kept: a template that asks to be one leaves its content
to the element it stands in, where the content is read by the rules of a template. -/
def openTemplate (t : Tag) : Build (List Token) := do
  if !(← isHiddenTree t) then
    let _ ← insertTag t
  pushMarker
  keepBody
  modify fun b => { b with mode := .inTemplate, templateModes := .inTemplate :: b.templateModes }
  done

def leaveTemplate : Build Unit := do
  popThroughTag "template"
  clearToMarker
  modify fun b => { b with templateModes := b.templateModes.drop 1 }
  resetMode

def closeTemplate : Build (List Token) := do
  if ← isOpen "template" then
    closeImplied ElementName.endIsImpliedThoroughly
    leaveTemplate
  done

def headElement (t : Tag) : Build (List Token) := do
  if t.name == "title" then insertRaw t .referenced; done
  else if t.name == "template" then openTemplate t
  else if t.name == "script" then insertRaw t .script; done
  else if ["noframes", "style", "noscript"].contains t.name then insertRaw t .raw; done
  else
    let _ ← insertClosed t
    done

def inHeadRule : Rule
  | .text s => splitText s addText other
  | .comment s => do addComment s; done
  | .startTag t =>
    if t.name == "html" then mergeHtml t
    else if headTags.contains t.name || t.name == "noscript" then headElement t
    else if t.name == "head" then done
    else other (.startTag t)
  | .endTag t =>
    if t.name == "head" then do
      pop
      setMode .afterHead
      done
    else if t.name == "template" then closeTemplate
    else if endsLeader t then other (.endTag t)
    else done
  | token => other token
where
  other (token : Token) : Build (List Token) := do
    pop
    again .afterHead token

def afterHeadRule : Rule
  | .text s => splitText s addText other
  | .comment s => do addComment s; done
  | .startTag t =>
    if t.name == "html" then mergeHtml t
    else if t.name == "body" then do
      let _ ← insertTag t
      keepBody
      setMode .inBody
      done
    else if t.name == "frameset" then do
      let _ ← insertTag t
      setMode .inFrameset
      done
    else if headTags.contains t.name then do
      match (← get).head with
      | none => headElement t
      | some head =>
        push head
        let more ← headElement t
        dropOpen head.id
        return more
    else if t.name == "head" then done
    else other (.startTag t)
  | .endTag t =>
    if t.name == "template" then closeTemplate
    else if endsLeader t && t.name != "head" then other (.endTag t)
    else done
  | token => other token
where
  other (token : Token) : Build (List Token) := do
    let _ ← insertImplied "body"
    again .inBody token

end Bulletin.Html.Build
