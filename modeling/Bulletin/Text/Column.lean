/-!
# Columns

Text filled up with blanks to a width. A text that is longer stays as it is.

    alignLeft 4 "ab" = "ab  "      alignRight 4 "ab" = "  ab"
-/

namespace Bulletin.Text

def blanks (count : Nat) : String := String.ofList (List.replicate count ' ')

def alignLeft (width : Nat) (s : String) : String := s ++ blanks (width - s.length)

def alignRight (width : Nat) (s : String) : String := blanks (width - s.length) ++ s

/-- The width of the widest text. -/
def width (texts : List String) : Nat := (texts.map String.length).foldl max 0

end Bulletin.Text
