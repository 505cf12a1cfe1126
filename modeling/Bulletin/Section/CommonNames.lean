import Bulletin.Html.Node
import Bulletin.Section.Basic
import Bulletin.Text.Split

/-!
# Which sections are for everyone

A section is for everyone if its name is one of four, if it reports metrics or problems by its
suffix, or if the bulletin has an anchor for the problems of that very name:

    CommonNames.contains : the name is fixed, or `name_problems` is an anchor of the document
    CommonNames.audience : the rule above, suffixes included
-/

namespace Bulletin

/-- The names of sections that every bulletin shares. -/
def fixedCommonNames : List String := ["greeting", "news", "usage", "footer"]

/-- The end of the name of a section of problems. -/
def problemsSuffix : String := "_problems"

/-- The end of the name of a section of metrics. -/
def metricsSuffix : String := "_metrics"

/-- The names that a document makes common. -/
structure CommonNames where
  names : List String
  deriving DecidableEq, Repr, Inhabited

namespace CommonNames

/-- The name that an anchor for problems makes common. -/
def announced? (e : Html.Element) : Option String :=
  if e.name.tag == "a" then
    (e.attribute? "name").bind fun name =>
      (Text.beforeTail? problemsSuffix.toList name.toList).map String.ofList
  else none

def ofDocument (d : Html.Document) : CommonNames :=
  ⟨fixedCommonNames ++ d.elements.filterMap announced?⟩

/-- Whether a name is one of the common ones, its suffix aside. -/
def contains (c : CommonNames) (name : String) : Bool := c.names.contains name

/-- Whom the section of a name is for. -/
def audience (c : CommonNames) (name : String) : Audience :=
  if c.contains name || Text.endsWith name metricsSuffix || Text.endsWith name problemsSuffix then
    .everyone
  else .owner

end CommonNames

end Bulletin
