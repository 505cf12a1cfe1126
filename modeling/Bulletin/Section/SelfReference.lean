import Bulletin.Section.Basic
import Bulletin.Text.Decimal
import Bulletin.Text.Split

/-!
# References to the reader's own view

A bulletin of period 7 for alice refers to her own pages as `7:alice`. Sections that differ only in
such references are meant to be the same, so they are turned into references to one neutral user:

    neutralize 7 "alice" "see 7:alice, 8:alice" = "see 7:web, 8:alice"

Occurrences are replaced as plain text, from the front, where they do not overlap.
-/

namespace Bulletin

/-- The user that stands for whoever reads. -/
def neutralUser : String := "web"

/-- A reference to a user's pages of a period. -/
def reference (period : Period) (user : String) : List Char :=
  Decimal.charsOfInt period.toInt ++ ':' :: user.toList

/-- Makes the user's references to pages of the period neutral. -/
def neutralize (period : Period) (user content : String) : String :=
  String.ofList
    (Text.replaceAll (reference period user) (reference period neutralUser) content.toList)

end Bulletin
