/-!
# Text for a terminal

A terminal is steered by sequences of characters that begin with an escape. Where a message does not
go to a terminal they are taken out of it, and with them every control character but the blanks:

    plain "\x1b[1mload\x1b[0m" = "load"
    plain "a\x07b\tc"          = "ab\tc"

A sequence may end early: at a blank control character, which is kept, at the next escape, or at one
of the two characters that cancel it.
-/

namespace Bulletin.Text

/-- What a terminal has been told to expect. -/
inductive Expectation where
  /-- Text to be shown. -/
  | text
  /-- The kind of a sequence. -/
  | kind
  /-- The end of a sequence of two or three characters. -/
  | shortEnd
  /-- The parameters of a control sequence, and the letter that ends it. -/
  | parameters
  /-- A command to the system, up to a bell. -/
  | command
  /-- The parameters of a string for a device. -/
  | device
  /-- A string, up to something that ends it. -/
  | string
  deriving DecidableEq, Repr, Inhabited

namespace Expectation

/-- The control characters that are blanks. -/
def isBlankControl (c : Char) : Bool := c == '\t' || c == '\n' || c == '\x0c' || c == '\r'

def isShown (c : Char) : Bool := isBlankControl c || (' ' ≤ c && c != '\x7f')

/-- Whether the code point of a character is in a range. -/
def isIn (c : Char) (low high : Nat) : Bool := low ≤ c.toNat && c.toNat ≤ high

/-- Whether a character ends a string: its encoding has the byte by which strings end. -/
def endsString (c : Char) : Bool :=
  0x80 ≤ c.toNat && (String.singleton c).toUTF8.toList.contains 0x9C

/-- What a character behind an escape leads to. -/
def ofKind (c : Char) : Expectation :=
  if c == '[' then parameters
  else if c == ']' then command
  else if c == 'P' then device
  else if c == 'X' || c == '^' || c == '_' then string
  else if isIn c 0x20 0x2F then shortEnd
  else if isIn c 0x30 0x7E then text
  else kind

/-- What is expected behind a character that is no part of the text. -/
def behind (c : Char) : Expectation → Expectation
  | text => text
  | kind => ofKind c
  | shortEnd => if isIn c 0x30 0x7E then text else shortEnd
  | parameters => if isIn c 0x40 0x7E then text else parameters
  | command => if c == '\x07' then text else command
  | device => if isIn c 0x40 0x7E then string else device
  | string => if endsString c then text else string

/-- Whether a blank control character is kept here. -/
def keepsBlanks : Expectation → Bool
  | text | kind | shortEnd | parameters => true
  | command | device | string => false

/-- The characters to be shown among those that follow. -/
def shown : Expectation → List Char → List Char
  | _, [] => []
  | e, c :: rest =>
    if c == '\x18' || c == '\x1a' then shown text rest
    else if c == '\x1b' then shown kind rest
    else if isBlankControl c && e.keepsBlanks then c :: shown text rest
    else if e == text && isShown c then c :: shown text rest
    else shown (e.behind c) rest

end Expectation

/-- A text without what steers a terminal. -/
def plain (s : String) : String := String.ofList (Expectation.shown .text s.toList)

end Bulletin.Text
