/-!
# Tokens

What the text of a document is cut into before its tree is built.
-/

namespace Bulletin.Html

/-- A document type declaration. -/
structure Doctype where
  name : Option String
  publicId : Option String
  systemId : Option String
  /-- The declaration is malformed. -/
  broken : Bool
  deriving DecidableEq, Repr, Inhabited

/-- A start or end tag. The attributes have their names in lower case, each name once. -/
structure Tag where
  name : String
  attributes : List (String × String)
  selfClosing : Bool
  deriving DecidableEq, Repr, Inhabited

namespace Tag

def bare (name : String) : Tag := ⟨name, [], false⟩

def value? (t : Tag) (name : String) : Option String :=
  (t.attributes.find? fun a => a.1 == name).map (·.2)

/-- Whether two tags have the same name and the same attributes, in whatever order. -/
def same (a b : Tag) : Bool :=
  a.name == b.name && a.attributes.length == b.attributes.length &&
    a.attributes.all b.attributes.contains

end Tag

/-- A piece of a document's text. -/
inductive Token where
  | doctype (d : Doctype)
  | startTag (t : Tag)
  | endTag (t : Tag)
  | comment (s : String)
  | text (s : String)
  /-- The character U+0000, which most places drop. -/
  | null
  /-- Something malformed that leaves nothing behind but stands between its neighbours. -/
  | malformed
  | endOfFile
  deriving DecidableEq, Repr, Inhabited

/-- How the text at a place is read. -/
inductive TextKind where
  /-- Tags, comments and references count. -/
  | data
  /-- Only references and the closing tag count. -/
  | referenced
  /-- Only the closing tag counts. -/
  | raw
  /-- Only the closing tag counts, and not everywhere. -/
  | script
  /-- Nothing counts. -/
  | plain
  deriving DecidableEq, Repr, Inhabited

/-- White space inside a document. -/
def isBlank (c : Char) : Bool :=
  c == ' ' || c == '\t' || c == '\n' || c == '\x0c' || c == '\r'

end Bulletin.Html
