import Bulletin.Html.Forest
import Bulletin.Html.Lexer

/-!
# The state of the tree builder

The builder keeps the elements that are still open, innermost first, and the formatting elements
that reopen by themselves when they were closed out of turn, latest first. Everything else is a
handful of switches. The rules that tokens follow work in the state monad `Build`.
-/

namespace Bulletin.Html

/-- Where in a document the builder is. -/
inductive Mode where
  | initial
  | beforeHtml
  | beforeHead
  | inHead
  | afterHead
  | inBody
  | text
  | inTable
  | inTableText
  | inCaption
  | inColumnGroup
  | inTableBody
  | inRow
  | inCell
  | inSelect
  | inSelectInTable
  | inTemplate
  | afterBody
  | inFrameset
  | afterFrameset
  | afterAfterBody
  | afterAfterFrameset
  deriving DecidableEq, Repr, Inhabited

/-- An element whose end has not been seen. -/
structure OpenElement where
  id : NodeId
  name : ElementName
  deriving DecidableEq, Repr, Inhabited

/-- A formatting element, with the tag to make it again from; a marker keeps formatting from
passing into or out of a cell, a caption or an object. -/
inductive Formatting where
  | marker
  | element (id : NodeId) (tag : Tag)
  deriving Inhabited

namespace Formatting

def isMarker : Formatting → Bool
  | marker => true
  | element .. => false

/-- Whether the entry is the element `id`. -/
def holds (id : NodeId) : Formatting → Bool
  | marker => false
  | element other _ => other == id

end Formatting

/-- The state of the tree builder. -/
structure Builder where
  forest : Forest := .empty
  mode : Mode := .initial
  /-- The mode to go back to behind raw text or text in a table. -/
  returnMode : Mode := .initial
  /-- The modes of the templates that are open, innermost first. -/
  templateModes : List Mode := []
  stack : List OpenElement := []
  formatting : List Formatting := []
  head : Option OpenElement := none
  form : Option NodeId := none
  framesetOk : Bool := true
  /-- A table does not end the paragraph before it, as in old browsers. -/
  tablesInParagraphs : Bool := false
  /-- Content that does not belong into a table goes before it. -/
  fostering : Bool := false
  /-- Text met between the parts of a table, latest first. -/
  tableText : List String := []
  /-- A newline right here does not count. -/
  skipNewline : Bool := false
  context : Lexer.Context := {}
  deriving Inhabited

/-- Steps of the tree builder. -/
abbrev Build := StateM Builder

/-- What a rule leaves to be handled next: nothing, or tokens for the mode it has changed to. -/
abbrev Rule := Token → Build (List Token)

namespace Build

def onForest (change : Forest → Forest) : Build Unit :=
  modify fun b => { b with forest := change b.forest }

def setMode (mode : Mode) : Build Unit := modify fun b => { b with mode }

/-- Goes to another mode and handles the token there. -/
def again (mode : Mode) (token : Token) : Build (List Token) := do
  setMode mode
  return [token]

def done : Build (List Token) := return []

/-- From here on the document keeps its body. -/
def keepBody : Build Unit := modify fun b => { b with framesetOk := false }

/-! ## The open elements -/

/-- The innermost open element. -/
def current : Build ElementName := do
  match (← get).stack with
  | e :: _ => return e.name
  | [] => return .html ""

/-- Whether the innermost open element is the HTML element `tag`. -/
def currentIs (tag : String) : Build Bool := return (← current).isHtml tag

/-- Whether the innermost open element is an HTML element listed. -/
def currentIn (tags : List String) : Build Bool := return (← current).isHtmlIn tags

/-- Closes the innermost open element. -/
def pop : Build Unit := modify fun b => { b with stack := b.stack.drop 1 }

def push (e : OpenElement) : Build Unit := modify fun b => { b with stack := e :: b.stack }

/-- Closes elements until one has been closed that satisfies `p`. -/
def popThrough (p : ElementName → Bool) : Build Unit :=
  modify fun b => { b with stack := (b.stack.dropWhile fun e => !p e.name).drop 1 }

/-- Closes elements until the HTML element `tag` has been closed. -/
def popThroughTag (tag : String) : Build Unit := popThrough (·.isHtml tag)

/-- Closes elements until the innermost satisfies `p`. -/
def popTo (p : ElementName → Bool) : Build Unit :=
  modify fun b => { b with stack := b.stack.dropWhile fun e => !p e.name }

/-- Takes an element out of the open ones, wherever it is among them. -/
def dropOpen (id : NodeId) : Build Unit :=
  modify fun b => { b with stack := b.stack.filter (·.id != id) }

def isOpen (tag : String) : Build Bool := return (← get).stack.any (·.name.isHtml tag)

/-- Whether an open element satisfies `p`, looking outwards no further than an element that
`bounds`. -/
def withinScope (bounds : ElementName → Bool) (p : OpenElement → Bool) : List OpenElement → Bool
  | [] => false
  | e :: rest => p e || (!bounds e.name && withinScope bounds p rest)

/-- Whether an open element in scope satisfies `p`. -/
def inScope (bounds : ElementName → Bool) (p : OpenElement → Bool) : Build Bool :=
  return withinScope bounds p (← get).stack

def tagInScope (bounds : ElementName → Bool) (tag : String) : Build Bool :=
  inScope bounds (·.name.isHtml tag)

end Build

/-! ## Kinds of elements -/

namespace ElementName

/-- Elements of a formula inside which plain HTML may stand. -/
def holdsMathText (name : ElementName) : Bool :=
  name.space == .math && ["mi", "mo", "mn", "ms", "mtext"].contains name.tag

/-- Elements of a drawing inside which plain HTML may stand. -/
def holdsHtml (name : ElementName) : Bool :=
  name.space == .svg && ["foreignObject", "desc", "title"].contains name.tag

/-- What ends the search for an open element. -/
def boundsScope (name : ElementName) : Bool :=
  name.isHtmlIn ["applet", "caption", "html", "table", "td", "th", "marquee", "object",
    "template"] || name.holdsMathText || name.holdsHtml

/-- What ends the search for an open list item. -/
def boundsListScope (name : ElementName) : Bool :=
  name.boundsScope || name.isHtmlIn ["ol", "ul"]

/-- What ends the search for an open paragraph. -/
def boundsButtonScope (name : ElementName) : Bool :=
  name.boundsScope || name.isHtml "button"

/-- What ends the search for an open part of a table. -/
def boundsTableScope (name : ElementName) : Bool := name.isHtmlIn ["html", "table", "template"]

/-- What ends the search for an open menu. -/
def boundsSelectScope (name : ElementName) : Bool := !name.isHtmlIn ["optgroup", "option"]

/-- Elements that no stray end tag of another closes. -/
def isSpecial (name : ElementName) : Bool :=
  name.isHtmlIn
    ["address", "applet", "area", "article", "aside", "base", "basefont", "bgsound",
     "blockquote", "body", "br", "button", "caption", "center", "col", "colgroup", "dd",
     "details", "dir", "div", "dl", "dt", "embed", "fieldset", "figcaption", "figure", "footer",
     "form", "frame", "frameset", "h1", "h2", "h3", "h4", "h5", "h6", "head", "header", "hgroup",
     "hr", "html", "iframe", "img", "input", "isindex", "li", "link", "listing", "main",
     "marquee", "menu", "meta", "nav", "noembed", "noframes", "noscript", "object", "ol", "p",
     "param", "plaintext", "pre", "script", "section", "select", "source", "style", "summary",
     "table", "tbody", "td", "template", "textarea", "tfoot", "th", "thead", "title", "tr",
     "track", "ul", "wbr", "xmp"]

/-- Elements whose end tag may be left out. -/
def endIsImplied (name : ElementName) : Bool :=
  name.isHtmlIn ["dd", "dt", "li", "option", "optgroup", "p", "rb", "rp", "rt", "rtc"]

/-- Elements whose end tag may be left out at the end of a template. -/
def endIsImpliedThoroughly (name : ElementName) : Bool :=
  name.endIsImplied ||
    name.isHtmlIn ["caption", "colgroup", "tbody", "td", "tfoot", "th", "thead", "tr"]

end ElementName

def headingTags : List String := ["h1", "h2", "h3", "h4", "h5", "h6"]

namespace Build

/-- Closes elements whose end tag may be left out. -/
def closeImplied (p : ElementName → Bool) : Build Unit := popTo fun name => !p name

/-- Closes elements whose end tag may be left out, `tag` excepted. -/
def closeImpliedExcept (tag : String) : Build Unit :=
  closeImplied fun name => name.endIsImplied && !name.isHtml tag

def closeParagraph : Build Unit := do
  closeImpliedExcept "p"
  popThroughTag "p"

def closeParagraphInScope : Build Unit := do
  if ← tagInScope ElementName.boundsButtonScope "p" then closeParagraph

/-! ## Making nodes -/

/-- Where a new node goes. -/
inductive Place where
  | lastIn (parent : NodeId)
  /-- Before `table` where it stands somewhere, else at the end of `around`. -/
  | beforeTable (table around : NodeId)

/-- Where content goes that a table cannot hold: before the innermost table, unless a template
is further in. -/
def fosterPlace : List OpenElement → Place
  | [] => .lastIn Forest.root
  | [e] => .lastIn e.id
  | e :: around :: rest =>
    if e.name.isHtml "template" then .lastIn e.id
    else if e.name.isHtml "table" then .beforeTable e.id around.id
    else fosterPlace (around :: rest)

/-- Where a node goes that is meant for `target`, or for the innermost open element. -/
def place (target : Option OpenElement) : Build Place := do
  let b ← get
  match target <|> b.stack.head? with
  | none => return .lastIn Forest.root
  | some e =>
    if b.fostering && e.name.isHtmlIn ["table", "tbody", "tfoot", "thead", "tr"] then
      return fosterPlace b.stack
    else return .lastIn e.id

def putAt (place : Place) (id : NodeId) : Build Unit :=
  onForest fun f =>
    match place with
    | .lastIn parent => f.append parent id
    | .beforeTable table around =>
      if (f.parent? table).isSome then f.insertBefore table id else f.append around id

def addText (s : String) : Build Unit := do
  match ← place none with
  | .lastIn parent => onForest (·.appendText parent s)
  | .beforeTable table around =>
    onForest fun f =>
      if (f.parent? table).isSome then f.insertTextBefore table s else f.appendText around s

/-- Makes a node that stands nowhere yet. -/
def make (content : Content) : Build NodeId :=
  modifyGet fun b =>
    let (forest, id) := b.forest.add content
    (id, { b with forest })

def addComment (s : String) : Build Unit := do
  let id ← make (.comment s)
  putAt (← place none) id

def addCommentTo (parent : NodeId) (s : String) : Build Unit := do
  let id ← make (.comment s)
  onForest (·.append parent id)

/-- Makes an element at its place without opening it. -/
def insert (name : ElementName) (attributes : List Attribute) : Build OpenElement := do
  let place ← place none
  let id ← make (.element name attributes)
  putAt place id
  return ⟨id, name⟩

def insertOpen (name : ElementName) (attributes : List Attribute) : Build OpenElement := do
  let e ← insert name attributes
  push e
  return e

end Build

def Tag.plainAttributes (t : Tag) : List Attribute :=
  t.attributes.map fun (name, value) => Attribute.plain name value

namespace Build

def insertTag (t : Tag) : Build OpenElement := insertOpen (.html t.name) t.plainAttributes

/-- Makes the HTML element a tag stands for, which is closed at once. -/
def insertClosed (t : Tag) : Build OpenElement := insert (.html t.name) t.plainAttributes

/-- Makes and opens an element that no tag asked for. -/
def insertImplied (tag : String) : Build OpenElement := insertOpen (.html tag) []

/-- Makes and opens an element whose content is raw text. -/
def insertRaw (t : Tag) (kind : TextKind) : Build Unit := do
  let _ ← insertTag t
  modify fun b =>
    { b with returnMode := b.mode, mode := .text, context := { b.context with kind } }

/-! ## Formatting -/

def pushMarker : Build Unit :=
  modify fun b => { b with formatting := .marker :: b.formatting }

/-- Drops the formatting elements up to the latest marker, and the marker. -/
def clearToMarker : Build Unit :=
  modify fun b =>
    { b with formatting := (b.formatting.dropWhile fun e => !e.isMarker).drop 1 }

def dropFormatting (id : NodeId) : Build Unit :=
  modify fun b => { b with formatting := b.formatting.filter fun e => !e.holds id }

/-- Puts an entry in the place of a formatting element. -/
def replaceFormatting (id : NodeId) (entry : Formatting) : Build Unit :=
  modify fun b =>
    { b with formatting := b.formatting.map fun e => if e.holds id then entry else e }

/-- The formatting elements behind the latest marker, latest first. -/
def recentFormatting : Build (List (NodeId × Tag)) := do
  return ((← get).formatting.takeWhile fun e => !e.isMarker).filterMap fun
    | .marker => none
    | .element id t => some (id, t)

/-- Opens the formatting elements again that were closed out of turn. -/
def reopenFormatting : Build Unit := do
  let b ← get
  let closed := b.formatting.takeWhile fun
    | .marker => false
    | .element id _ => b.stack.all (·.id != id)
  for entry in closed.reverse do
    match entry with
    | .marker => pure ()
    | .element id t =>
      let e ← insertTag t
      replaceFormatting id (.element e.id t)

/-- Makes and opens a formatting element. Of equal ones at most three are kept. -/
def insertFormatting (t : Tag) : Build Unit := do
  let equal := (← recentFormatting).filter fun (_, other) => t.same other
  if 3 ≤ equal.length then
    match equal.getLast? with
    | some (id, _) => dropFormatting id
    | none => pure ()
  let e ← insertTag t
  modify fun b => { b with formatting := .element e.id t :: b.formatting }

end Build

end Bulletin.Html
