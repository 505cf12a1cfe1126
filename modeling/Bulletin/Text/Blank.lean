/-!
# Blanks

The characters that only separate others: the space, tabs, line ends and the spaces of typography,
as the Unicode character database lists them.
-/

namespace Bulletin.Text

/-- The blanks beyond those of ASCII that stand alone. -/
def otherBlanks : List Nat := [0x85, 0xA0, 0x1680, 0x2028, 0x2029, 0x202F, 0x205F, 0x3000]

def isBlank (c : Char) : Bool :=
  c == ' ' || (9 ≤ c.toNat && c.toNat ≤ 13) || (0x2000 ≤ c.toNat && c.toNat ≤ 0x200A) ||
    otherBlanks.contains c.toNat

end Bulletin.Text
