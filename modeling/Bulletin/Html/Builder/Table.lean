import Bulletin.Html.Builder.Body

/-!
# Tables, menus and templates

Between the parts of a table nothing but table parts may stand, so other content is put before the
table. Text there is gathered first: blanks alone stay in the table, anything else moves out as a
whole.
-/

namespace Bulletin.Html.Build

/-- Handles a token as in the body, with misplaced content going before the table. -/
def foster (token : Token) : Build (List Token) := do
  modify fun b => { b with fostering := true }
  let more ← inBodyRule token
  modify fun b => { b with fostering := false }
  return more

/-- Text between the parts of a table. -/
def tableText (token : Token) : Build (List Token) := do
  if ← currentIn ["table", "tbody", "tfoot", "thead", "tr"] then
    modify fun b => { b with returnMode := b.mode }
    again .inTableText token
  else foster token

def startPart (t : Tag) (mode : Mode) : Build Unit := do
  popTo ElementName.boundsTableScope
  let _ ← insertTag t
  setMode mode

def tableStart (t : Tag) : Build (List Token) := do
  let name := t.name
  let token := Token.startTag t
  if name == "caption" then
    popTo ElementName.boundsTableScope
    pushMarker
    let _ ← insertTag t
    setMode .inCaption
    done
  else if name == "colgroup" then startPart t .inColumnGroup; done
  else if name == "col" then
    startPart (Tag.bare "colgroup") .inColumnGroup
    return [token]
  else if ["tbody", "tfoot", "thead"].contains name then startPart t .inTableBody; done
  else if ["td", "th", "tr"].contains name then
    startPart (Tag.bare "tbody") .inTableBody
    return [token]
  else if name == "table" then
    if ← tagInScope ElementName.boundsTableScope "table" then
      popThroughTag "table"
      resetMode
      return [token]
    else done
  else if ["style", "script", "template"].contains name then headElement t
  else if name == "input" then
    if isHiddenInput t then
      let _ ← insertClosed t
      done
    else foster token
  else if name == "form" then
    if !(← isOpen "template") && (← get).form.isNone then
      let e ← insertClosed t
      modify fun b => { b with form := some e.id }
    done
  else foster token

def tableEnd (t : Tag) : Build (List Token) := do
  if t.name == "table" then
    if ← tagInScope ElementName.boundsTableScope "table" then
      popThroughTag "table"
      resetMode
    done
  else if ["body", "caption", "col", "colgroup", "html", "tbody", "td", "tfoot", "th", "thead",
      "tr"].contains t.name then done
  else if t.name == "template" then closeTemplate
  else foster (.endTag t)

def inTableRule : Rule
  | .null => tableText .null
  | .text s => tableText (.text s)
  | .comment s => do addComment s; done
  | .startTag t => tableStart t
  | .endTag t => tableEnd t
  | .endOfFile => inBodyRule .endOfFile
  | token => foster token

/-- Puts the gathered text into the table if it is blank, else before it. -/
def releaseTableText : Build Unit := do
  let pending := (← get).tableText.reverse
  modify fun b => { b with tableText := [] }
  if pending.any fun s => s.toList.any (!isBlank ·) then
    for s in pending do
      let _ ← foster (.text s)
  else
    for s in pending do addText s

def inTableTextRule : Rule
  | .null => done
  | .text s => do
    modify fun b => { b with tableText := s :: b.tableText }
    done
  | token => do
    releaseTableText
    again (← get).returnMode token

def partTags : List String :=
  ["caption", "col", "colgroup", "tbody", "td", "tfoot", "th", "thead", "tr"]

/-- Closes the caption; whether there was one. -/
def closeCaption : Build Bool := do
  if ← tagInScope ElementName.boundsTableScope "caption" then
    closeImplied ElementName.endIsImplied
    popThroughTag "caption"
    clearToMarker
    return true
  else return false

def inCaptionRule : Rule
  | .startTag t => do
    if partTags.contains t.name then
      if ← closeCaption then again .inTable (.startTag t) else done
    else inBodyRule (.startTag t)
  | .endTag t => do
    if t.name == "caption" then
      if ← closeCaption then setMode .inTable
      done
    else if t.name == "table" then
      if ← closeCaption then again .inTable (.endTag t) else done
    else if t.name == "body" || t.name == "html" || partTags.contains t.name then done
    else inBodyRule (.endTag t)
  | token => inBodyRule token

def inColumnGroupRule : Rule
  | .text s => splitText s addText other
  | .comment s => do addComment s; done
  | .startTag t => do
    if t.name == "html" then mergeHtml t
    else if t.name == "col" then
      let _ ← insertClosed t
      done
    else if t.name == "template" then headElement t
    else other (.startTag t)
  | .endTag t => do
    if t.name == "colgroup" then
      if ← currentIs "colgroup" then
        pop
        setMode .inTable
      done
    else if t.name == "col" then done
    else if t.name == "template" then closeTemplate
    else other (.endTag t)
  | .endOfFile => inBodyRule .endOfFile
  | token => other token
where
  other (token : Token) : Build (List Token) := do
    if ← currentIs "colgroup" then
      pop
      again .inTable token
    else done

/-- What rows stand in. -/
def holdsRows (name : ElementName) : Bool :=
  name.isHtmlIn ["tbody", "tfoot", "thead", "template", "html"]

/-- What cells stand in. -/
def holdsCells (name : ElementName) : Bool := name.isHtmlIn ["tr", "template", "html"]

/-- Leaves a group of rows for the table around it. -/
def leaveRows (token : Token) : Build (List Token) := do
  let known := (·.name.isHtmlIn ["table", "tbody", "tfoot"] : OpenElement → Bool)
  if ← inScope ElementName.boundsTableScope known then
    popTo holdsRows
    pop
    again .inTable token
  else done

/-- In a group of rows. -/
def inTableBodyRule : Rule
  | .startTag t => do
    let name := t.name
    if name == "tr" then
      popTo holdsRows
      let _ ← insertTag t
      setMode .inRow
      done
    else if name == "td" || name == "th" then
      popTo holdsRows
      let _ ← insertImplied "tr"
      again .inRow (.startTag t)
    else if partTags.contains name then leaveRows (.startTag t)
    else inTableRule (.startTag t)
  | .endTag t => do
    let name := t.name
    if ["tbody", "tfoot", "thead"].contains name then
      if ← tagInScope ElementName.boundsTableScope name then
        popTo holdsRows
        pop
        setMode .inTable
      done
    else if name == "table" then leaveRows (.endTag t)
    else if name == "body" || name == "html" || partTags.contains name then done
    else inTableRule (.endTag t)
  | token => inTableRule token

/-- Closes the row; whether there was one. -/
def closeRow : Build Bool := do
  if ← tagInScope ElementName.boundsTableScope "tr" then
    popTo holdsCells
    pop
    return true
  else return false

def inRowRule : Rule
  | .startTag t => do
    let name := t.name
    if name == "td" || name == "th" then
      popTo holdsCells
      let _ ← insertTag t
      setMode .inCell
      pushMarker
      done
    else if partTags.contains name then
      if ← closeRow then again .inTableBody (.startTag t) else done
    else inTableRule (.startTag t)
  | .endTag t => do
    let name := t.name
    if name == "tr" then
      if ← closeRow then setMode .inTableBody
      done
    else if name == "table" then
      if ← closeRow then again .inTableBody (.endTag t) else done
    else if ["tbody", "tfoot", "thead"].contains name then
      if ← tagInScope ElementName.boundsTableScope name then
        if ← closeRow then again .inTableBody (.endTag t) else done
      else done
    else if name == "body" || name == "html" || partTags.contains name then done
    else inTableRule (.endTag t)
  | token => inTableRule token

def closeCell : Build Unit := do
  closeImplied ElementName.endIsImplied
  popThrough (·.isHtmlIn ["td", "th"])
  clearToMarker

def inCellRule : Rule
  | .startTag t => do
    if partTags.contains t.name then
      let isCell := (·.name.isHtmlIn ["td", "th"] : OpenElement → Bool)
      if ← inScope ElementName.boundsTableScope isCell then
        closeCell
        again .inRow (.startTag t)
      else done
    else inBodyRule (.startTag t)
  | .endTag t => do
    let name := t.name
    if name == "td" || name == "th" then
      if ← tagInScope ElementName.boundsTableScope name then
        closeImplied ElementName.endIsImplied
        popThroughTag name
        clearToMarker
        setMode .inRow
      done
    else if ["body", "caption", "col", "colgroup", "html"].contains name then done
    else if ["table", "tbody", "tfoot", "thead", "tr"].contains name then
      if ← tagInScope ElementName.boundsTableScope name then
        closeCell
        again .inRow (.endTag t)
      else done
    else inBodyRule (.endTag t)
  | token => inBodyRule token

/-! ## Menus -/

/-- Leaves the open menu for the mode around it. -/
def leaveSelect (token : Token) : Build (List Token) := do
  popThroughTag "select"
  resetMode
  return [token]

/-- Leaves the open menu if it is in scope. -/
def leaveSelectInScope (token : Option Token) : Build (List Token) := do
  if ← tagInScope ElementName.boundsSelectScope "select" then
    popThroughTag "select"
    resetMode
    return token.toList
  else done

def selectStart (t : Tag) : Build (List Token) := do
  let name := t.name
  if name == "html" then mergeHtml t
  else if name == "option" then
    if ← currentIs "option" then pop
    let _ ← insertTag t
    done
  else if name == "optgroup" then
    if ← currentIs "option" then pop
    if ← currentIs "optgroup" then pop
    let _ ← insertTag t
    done
  else if name == "hr" then
    if ← currentIs "option" then pop
    if ← currentIs "optgroup" then pop
    let _ ← insertClosed t
    done
  else if name == "select" then leaveSelectInScope none
  else if ["input", "keygen", "textarea"].contains name then
    leaveSelectInScope (some (.startTag t))
  else if name == "script" || name == "template" then headElement t
  else done

def selectEnd (t : Tag) : Build (List Token) := do
  let name := t.name
  if name == "optgroup" then
    match (← get).stack with
    | e :: around :: _ => if e.name.isHtml "option" && around.name.isHtml "optgroup" then pop
    | _ => pure ()
    if ← currentIs "optgroup" then pop
    done
  else if name == "option" then
    if ← currentIs "option" then pop
    done
  else if name == "select" then leaveSelectInScope none
  else if name == "template" then closeTemplate
  else done

/-- In a menu. -/
def inSelectRule : Rule
  | .text s => do addText s; done
  | .comment s => do addComment s; done
  | .startTag t => selectStart t
  | .endTag t => selectEnd t
  | .endOfFile => inBodyRule .endOfFile
  | _ => done

/-- Tags that end a menu in a table. -/
def selectBreakers : List String :=
  ["caption", "table", "tbody", "tfoot", "thead", "tr", "td", "th"]

def inSelectInTableRule : Rule
  | .startTag t =>
    if selectBreakers.contains t.name then leaveSelect (.startTag t)
    else inSelectRule (.startTag t)
  | .endTag t => do
    if selectBreakers.contains t.name then
      if ← tagInScope ElementName.boundsTableScope t.name then leaveSelect (.endTag t) else done
    else inSelectRule (.endTag t)
  | token => inSelectRule token

/-! ## Templates -/

/-- What a start tag makes of a template it is the first to fill. -/
def templateContent (name : String) : Mode :=
  if ["caption", "colgroup", "tbody", "tfoot", "thead"].contains name then .inTable
  else if name == "col" then .inColumnGroup
  else if name == "tr" then .inTableBody
  else if name == "td" || name == "th" then .inRow
  else .inBody

/-- In a template whose kind of content is still open. -/
def inTemplateRule : Rule
  | .text s => inBodyRule (.text s)
  | .comment s => inBodyRule (.comment s)
  | .startTag t =>
    if headTags.contains t.name then headElement t
    else do
      let mode := templateContent t.name
      modify fun b => { b with templateModes := mode :: b.templateModes.drop 1 }
      again mode (.startTag t)
  | .endTag t => if t.name == "template" then closeTemplate else done
  | .endOfFile => endInTemplate
  | _ => done

end Bulletin.Html.Build
