import Bulletin.Html.Name

/-!
# Document trees and their text form

A parsed document is a list of nodes. An element is written with its attributes in order, its
children, and an end tag unless the element is void:

    (el "p" [text "a<b"]).outer      = "<p>a&lt;b</p>"
    (el "br" []).outer               = "<br>"
    (el "style" [text "a<b"]).outer  = "<style>a<b</style>"

`outer` writes an element, `inner` only what it contains. The two differ on purpose in one
respect: the text of a raw-text element is verbatim in `outer`, but `inner`, which does not look
at the element itself, escapes it.
-/

namespace Bulletin.Html

inductive Node where
  | doctype (name : String)
  | comment (s : String)
  | text (s : String)
  | element (name : ElementName) (attributes : List Attribute) (children : List Node)
  deriving Inhabited

/-- An element taken out of the tree it stands in. -/
structure Element where
  name : ElementName
  attributes : List Attribute
  children : List Node
  deriving Inhabited

/-! ## Writing -/

/-- A character of running text. -/
def escapeTextChar : Char → List Char
  | '&' => ['&', 'a', 'm', 'p', ';']
  | '<' => ['&', 'l', 't', ';']
  | '>' => ['&', 'g', 't', ';']
  | '\u00a0' => ['&', 'n', 'b', 's', 'p', ';']
  | c => [c]

/-- A character of an attribute value. -/
def escapeValueChar : Char → List Char
  | '&' => ['&', 'a', 'm', 'p', ';']
  | '"' => ['&', 'q', 'u', 'o', 't', ';']
  | '\u00a0' => ['&', 'n', 'b', 's', 'p', ';']
  | c => [c]

/-- Running text with its special characters written as references. -/
def escapeText (s : String) : String := String.ofList (s.toList.flatMap escapeTextChar)

/-- An attribute value as it stands between double quotes. -/
def escapeValue (s : String) : String := String.ofList (s.toList.flatMap escapeValueChar)

/-- Elements that have neither children nor an end tag. -/
def voidTags : List String :=
  ["area", "base", "basefont", "bgsound", "br", "col", "embed", "frame", "hr", "img", "input",
   "keygen", "link", "meta", "param", "source", "track", "wbr"]

/-- Elements whose own text is written verbatim. -/
def rawTextTags : List String :=
  ["style", "script", "xmp", "iframe", "noembed", "noframes", "plaintext"]

namespace ElementName

/-- Whether the element has neither children nor an end tag. -/
def isVoid (name : ElementName) : Bool := name.isHtmlIn voidTags

/-- Whether the element's own text is written verbatim. -/
def isRawText (name : ElementName) : Bool := name.isHtmlIn rawTextTags

end ElementName

/-- An attribute inside a start tag, with the blank before it. -/
def Attribute.render (a : Attribute) : String :=
  " " ++ a.name.written ++ "=\"" ++ escapeValue a.value ++ "\""

def startTag (name : ElementName) (attributes : List Attribute) : String :=
  "<" ++ name.tag ++ String.join (attributes.map Attribute.render) ++ ">"

def endTag (name : ElementName) : String := "</" ++ name.tag ++ ">"

mutual

/-- A node as text; `verbatim` when its parent is a raw-text element. -/
def Node.render (verbatim : Bool) : Node → String
  | .doctype name => "<!DOCTYPE " ++ name ++ ">"
  | .comment s => "<!--" ++ s ++ "-->"
  | .text s => if verbatim then s else escapeText s
  | .element name attributes children =>
    if name.isVoid then startTag name attributes
    else startTag name attributes ++ Node.renderAll name.isRawText children ++ endTag name

/-- Sibling nodes as text, one after the other. -/
def Node.renderAll (verbatim : Bool) : List Node → String
  | [] => ""
  | n :: rest => n.render verbatim ++ Node.renderAll verbatim rest

end

mutual

/-- The running text of a node and all below it. -/
def Node.content : Node → String
  | .doctype _ => ""
  | .comment _ => ""
  | .text s => s
  | .element _ _ children => Node.contentAll children

/-- The running text of sibling nodes. -/
def Node.contentAll : List Node → String
  | [] => ""
  | n :: rest => n.content ++ Node.contentAll rest

end

/-! ## Elements -/

def Node.element? : Node → Option Element
  | .element name attributes children => some ⟨name, attributes, children⟩
  | _ => none

namespace Element

def toNode (e : Element) : Node := .element e.name e.attributes e.children

/-- The element with all it contains, as text. -/
def outer (e : Element) : String := e.toNode.render false

/-- What the element contains, as text. -/
def inner (e : Element) : String := Node.renderAll false e.children

/-- The running text of the element. -/
def content (e : Element) : String := Node.contentAll e.children

def attribute? (e : Element) (name : String) : Option String :=
  Attribute.value? e.attributes name

/-- The children that are elements. What a template holds is a tree of its own, which is read and
written with the template but has none of its children. -/
def childElements (e : Element) : List Element :=
  if e.name.isHtml "template" then [] else e.children.filterMap Node.element?

end Element

mutual

/-- The elements of a node and all below it, in document order. -/
def Node.elements : Node → List Element
  | .element name attributes children =>
    ⟨name, attributes, children⟩ :: Node.elementsAll children
  | _ => []

/-- The elements of sibling nodes and all below them, in document order. -/
def Node.elementsAll : List Node → List Element
  | [] => []
  | n :: rest => n.elements ++ Node.elementsAll rest

end

/-- A parsed document. -/
structure Document where
  children : List Node
  deriving Inhabited

namespace Document

/-- Every element, in document order. -/
def elements (d : Document) : List Element := Node.elementsAll d.children

/-- The first element with the given tag, in whatever namespace. -/
def first? (d : Document) (tag : String) : Option Element :=
  d.elements.find? fun e => e.name.tag == tag

end Document

end Bulletin.Html
