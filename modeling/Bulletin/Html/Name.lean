/-!
# Names of elements and attributes

An element is named by a namespace and a tag; an attribute by the prefix it is written with and
a local name. Attributes are kept in a fixed order, the plain ones first, so that an element is
written the same way in whatever order they came:

    AttributeName.before ⟨.plain, "b"⟩ ⟨.plain, "a"⟩ = false
    AttributeName.before ⟨.plain, "z"⟩ ⟨.xlink, "href"⟩ = true
-/

namespace Bulletin.Html

/-- The vocabularies a bulletin may mix. -/
inductive Namespace where
  | html
  | svg
  | math
  deriving DecidableEq, Repr, Inhabited

/-- The full name of an element. -/
structure ElementName where
  space : Namespace
  tag : String
  deriving DecidableEq, Repr, Inhabited

namespace ElementName

def html (tag : String) : ElementName := ⟨.html, tag⟩

def isHtml (name : ElementName) (tag : String) : Bool :=
  name.space == .html && name.tag == tag

def isHtmlIn (name : ElementName) (tags : List String) : Bool :=
  name.space == .html && tags.contains name.tag

end ElementName

/-- How the name of an attribute is qualified. `binding` is the attribute `xmlns` itself,
`prefixBinding` an attribute written `xmlns:…`. -/
inductive Qualifier where
  | plain
  | binding
  | xlink
  | xml
  | prefixBinding
  deriving DecidableEq, Repr, Inhabited

namespace Qualifier

/-- The place of a qualifier among the attributes of an element. -/
def rank : Qualifier → Nat
  | plain => 0
  | binding => 1
  | xlink => 2
  | xml => 3
  | prefixBinding => 4

/-- What is written before the local name. -/
def written : Qualifier → String
  | plain => ""
  | binding => ""
  | xlink => "xlink:"
  | xml => "xml:"
  | prefixBinding => "xmlns:"

end Qualifier

/-- The full name of an attribute. -/
structure AttributeName where
  qualifier : Qualifier
  name : String
  deriving DecidableEq, Repr, Inhabited

namespace AttributeName

/-- The order in which attributes are written: by qualifier, then by name. -/
def before (a b : AttributeName) : Bool :=
  a.qualifier.rank < b.qualifier.rank ||
    (a.qualifier.rank == b.qualifier.rank && decide (a.name < b.name))

/-- The name as it stands in a start tag. -/
def written (a : AttributeName) : String :=
  a.qualifier.written ++ a.name

end AttributeName

/-- An attribute of an element. -/
structure Attribute where
  name : AttributeName
  value : String
  deriving DecidableEq, Repr, Inhabited

namespace Attribute

def plain (name value : String) : Attribute := ⟨⟨.plain, name⟩, value⟩

/-- Puts an attribute at its place in an ordered list. -/
def insert (a : Attribute) : List Attribute → List Attribute
  | [] => [a]
  | b :: rest => if b.name.before a.name then b :: insert a rest else a :: b :: rest

/-- Attributes in the order in which they are written. -/
def arrange (attributes : List Attribute) : List Attribute :=
  attributes.foldr insert []

def value? (attributes : List Attribute) (name : String) : Option String :=
  (attributes.find? fun a => a.name == ⟨.plain, name⟩).map value

end Attribute

end Bulletin.Html
