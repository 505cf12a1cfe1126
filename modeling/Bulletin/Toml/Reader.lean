import Bulletin.Calendar
import Bulletin.Text.Decimal
import Bulletin.Text.Split
import Bulletin.Number.Binary64
import Bulletin.Toml.Table

/-!
# Reading TOML

A reader takes what it wants from the front of the text or refuses; `a <|> b` reads with `b` where
`a` refuses. A document is a run of lines, each of which gives a key its value or opens a table:

    read? "a.b = 1\n[c]\nd = 'x'" = some [("a", table [("b", 1)]), ("c", table [("d", "x")])]

Nothing is said about where a document is at fault.
-/

namespace Bulletin.Toml

/-- Readers take characters from the front. -/
abbrev Reader := StateT (List Char) Option

namespace Reader

/-! ## Characters -/

/-- The next character, which is not taken. -/
def peek : Reader (Option Char) := return (← get).head?

/-- Takes the next character, if it is one of those wanted. -/
def oneOf (p : Char → Bool) : Reader Char := do
  match ← get with
  | c :: rest => if p c then set rest *> return c else failure
  | [] => failure

/-- Takes a character. -/
def char (c : Char) : Reader Unit := do
  let _ ← oneOf (· == c)

def word (w : List Char) : Reader Unit := do
  match Text.afterLead? w (← get) with
  | some rest => set rest
  | none => failure

/-- Takes the wanted characters in front, as many as there are. -/
def allOf (p : Char → Bool) : Reader (List Char) := do
  let (taken, rest) := (← get).span p
  set rest
  return taken

def opt {α : Type} (r : Reader α) : Reader (Option α) := some <$> r <|> return none

/-- Reads at most `count` things. -/
def upTo {α : Type} (r : Reader α) : Nat → Reader (List α)
  | 0 => return []
  | count + 1 => do
    match ← opt r with
    | some a => return a :: (← upTo r count)
    | none => return []

/-- Reads things, each of which has some characters, as many as there are. -/
def many {α : Type} (r : Reader α) : Reader (List α) := do upTo r (← get).length

/-- Reads things with something between them, at least one. -/
def separated {α : Type} (r : Reader α) (separator : Reader Unit) : Reader (List α) := do
  return (← r) :: (← many (separator *> r))

def atEnd : Reader Unit := do
  if !(← get).isEmpty then failure

/-! ## Between values -/

/-- Whether a character can stand in comments and, but for quotes, in strings. -/
def isPlain (c : Char) : Bool := c == '\t' || (0x20 ≤ c.toNat && c.toNat ≠ 0x7F)

/-- Skips blanks within a line. -/
def blanks : Reader Unit := do
  let _ ← allOf fun c => c == ' ' || c == '\t'

/-- The end of a line behind which there is more. -/
def newline : Reader Unit := char '\n' <|> word ['\r', '\n']

def comment : Reader Unit := do
  char '#'
  let _ ← allOf isPlain

/-- Skips blanks, ends of lines and comments. -/
def gap : Reader Unit := do
  blanks
  let _ ← many ((newline <|> comment) *> blanks)

/-- The end of a line that has said something. -/
def lineEnd : Reader Unit := do
  blanks
  let _ ← opt comment
  newline <|> atEnd

/-! ## Strings -/

def hexValue? (c : Char) : Option Nat :=
  if '0' ≤ c && c ≤ '9' then some (c.toNat - '0'.toNat)
  else if 'a' ≤ c && c ≤ 'f' then some (c.toNat - 'a'.toNat + 10)
  else if 'A' ≤ c && c ≤ 'F' then some (c.toNat - 'A'.toNat + 10)
  else none

def number (base : Nat) (digits : List Char) : Nat :=
  digits.foldl (fun n c => n * base + (hexValue? c).getD 0) 0

/-- A character given by so many digits. -/
def codePoint (count : Nat) : Reader Char := do
  let digits ← upTo (oneOf fun c => (hexValue? c).isSome) count
  let n := number 16 digits
  if digits.length = count ∧ n.isValidChar then return Char.ofNat n else failure

/-- What stands behind the backslash of an escape. -/
def escaped : Reader Char := do
  match ← oneOf fun _ => true with
  | 'b' => return Char.ofNat 8
  | 't' => return '\t'
  | 'n' => return '\n'
  | 'f' => return Char.ofNat 12
  | 'r' => return '\r'
  | '"' => return '"'
  | '\\' => return '\\'
  | 'u' => codePoint 4
  | 'U' => codePoint 8
  | _ => failure

def escape : Reader Char := char '\\' *> escaped

/-- A character of a string in quotation marks that stands for itself. -/
def unescaped : Reader Char := oneOf fun c => isPlain c && c != '"' && c != '\\'

/-- A character of a string in apostrophes. -/
def verbatim : Reader Char := oneOf fun c => isPlain c && c != '\''

def lineString : Reader String := do
  if (← peek) = some '\'' then
    char '\''
    let cs ← many verbatim
    char '\''
    return String.ofList cs
  else
    char '"'
    let cs ← many (unescaped <|> escape)
    char '"'
    return String.ofList cs

/-- A backslash at the end of a line, with all blanks and ends of lines behind it. -/
def continuation : Reader Unit := do
  char '\\'
  blanks
  newline
  let _ ← many (newline <|> (do let _ ← oneOf fun c => c == ' ' || c == '\t'))

/-- One or two quotes inside a string over several lines. -/
def innerQuotes (quote : Char) : Reader (List Char) := do
  let quotes ← allOf (· == quote)
  if 1 ≤ quotes.length ∧ quotes.length ≤ 2 then return quotes else failure

/-- The three quotes at the end of a string, with up to two in front of them that belong to it. -/
def lastQuotes (quote : Char) : Reader (List Char) := do
  let quotes ← allOf (· == quote)
  if 3 ≤ quotes.length ∧ quotes.length ≤ 5 then return quotes.drop 3 else failure

/-- A string over several lines, behind its opening quotes. -/
def linesIn (quote : Char) (part : Reader (List Char)) : Reader String := do
  let _ ← opt newline
  let parts ← many (part <|> (newline *> return ['\n']) <|> innerQuotes quote)
  let last ← lastQuotes quote
  return String.ofList (parts.flatten ++ last)

/-- A part of a string over several lines in quotation marks. -/
def part : Reader (List Char) :=
  (continuation *> return []) <|> (fun c => [c]) <$> (unescaped <|> escape)

def string : Reader String := do
  match ← get with
  | '"' :: '"' :: '"' :: rest => set rest *> linesIn '"' part
  | '\'' :: '\'' :: '\'' :: rest => set rest *> linesIn '\'' ((fun c => [c]) <$> verbatim)
  | _ => lineString

/-! ## Numbers -/

def isDigit (c : Char) : Bool := '0' ≤ c && c ≤ '9'

/-- Digits, between which there may be single underscores. -/
def digits (isDigit : Char → Bool) : Reader (List Char) := do
  let first ← oneOf isDigit
  return first :: (← many (oneOf isDigit <|> char '_' *> oneOf isDigit))

/-- Whether there is a minus sign, or any sign. -/
def sign : Reader Bool := do
  return (← opt (oneOf fun c => c == '+' || c == '-')) == some '-'

/-- The digits of an integer without those of a fraction; only a zero may begin with a zero. -/
def wholePart : Reader (List Char) := do
  if (← peek) = some '0' then char '0' *> return ['0'] else digits isDigit

/-- An integer with a sign, that fits into 64 bits. -/
def signedInteger : Reader Int := do
  let negative ← sign
  let n := number 10 (← wholePart)
  match Decimal.fit? (if negative then -(n : Int) else n) with
  | some n => return n.toInt
  | none => failure

def integerIn (base : Nat) : Reader Int := do
  let n := number base (← digits fun c => (hexValue? c).any (· < base))
  if n ≤ Int64.maxValue.toInt then return n else failure

def integer : Reader Int := do
  match ← get with
  | '0' :: 'x' :: rest => set rest *> integerIn 16
  | '0' :: 'o' :: rest => set rest *> integerIn 8
  | '0' :: 'b' :: rest => set rest *> integerIn 2
  | _ => signedInteger

/-- Whether `significand * 10 ^ exponent` is too large for a double. Numbers with fewer than 309
digits are not, and those with more all are. -/
def isTooLarge (significand : Nat) (exponent : Int) : Bool :=
  let length := (Decimal.digits significand).length + exponent
  if significand = 0 || length < 309 then false
  else if 309 < length then true
  else if 0 ≤ exponent then (Binary64.nearest (significand * Nat.pow 10 exponent.toNat) 1).isNone
  else (Binary64.nearest significand (Nat.pow 10 (-exponent).toNat)).isNone

def exponentPart : Reader Int := do
  let _ ← oneOf fun c => c == 'e' || c == 'E'
  let negative ← sign
  let n := number 10 (← digits isDigit)
  return if negative then -(n : Int) else n

/-- A number with a fraction or an exponent. If it is not negative, it must fit into a double. -/
def fractional : Reader Unit := do
  let negative ← sign
  let whole ← wholePart
  let fraction ← opt (char '.' *> digits isDigit)
  let exponent ← if fraction.isSome then opt exponentPart else some <$> exponentPart
  let fraction := fraction.getD []
  let exponent := exponent.getD 0 - fraction.length
  if !negative && isTooLarge (number 10 (whole ++ fraction)) exponent then failure

/-- What is no number, or beyond all of them. -/
def beyondNumbers : Reader Unit := do
  let _ ← sign
  word ['i', 'n', 'f'] <|> word ['n', 'a', 'n']

/-! ## Dates and times -/

/-- A number of so many digits, between bounds. -/
def bounded (width low high : Nat) : Reader Nat := do
  let digits ← upTo (oneOf isDigit) width
  let n := number 10 digits
  if digits.length = width ∧ low ≤ n ∧ n ≤ high then return n else failure

/-- A day. -/
def date : Reader Unit := do
  let year ← bounded 4 0 9999
  char '-'
  let month ← bounded 2 1 12
  char '-'
  let _ ← bounded 2 1 (Calendar.monthLength year month)

/-- A time of day; minutes may have a second more. -/
def time : Reader Unit := do
  let _ ← bounded 2 0 23
  char ':'
  let _ ← bounded 2 0 59
  char ':'
  let _ ← bounded 2 0 60
  let _ ← opt (char '.' *> digitRun)
where
  /-- The digits of a fraction. -/
  digitRun : Reader Unit := do
    if (← allOf isDigit).isEmpty then failure

/-- How far a clock is from the common one. -/
def offset : Reader Unit :=
  (do let _ ← oneOf fun c => c == 'Z' || c == 'z') <|> do
    let _ ← oneOf fun c => c == '+' || c == '-'
    let _ ← bounded 2 0 23
    char ':'
    let _ ← bounded 2 0 59

/-- A date, with or without a time, or a time alone. -/
def dateTime : Reader Unit :=
  (do
    date
    let _ ← opt do
      let _ ← oneOf fun c => c == 'T' || c == 't' || c == ' '
      time
      opt offset) <|> time

/-! ## Values -/

/-- What begins with a digit or a sign. -/
def numeric : Reader Value :=
  (dateTime *> return .dateTime) <|> (fractional *> return .float) <|>
    (beyondNumbers *> return .float) <|> .integer <$> integer

/-- A value without parts. -/
def simple : Reader Value := do
  match ← peek with
  | some '"' | some '\'' => .string <$> string
  | some 't' => word ['t', 'r', 'u', 'e'] *> return .boolean true
  | some 'f' => word ['f', 'a', 'l', 's', 'e'] *> return .boolean false
  | _ => numeric

/-- Paths of keys have fewer keys than this. -/
def maxKeys : Nat := 80

/-- Whether a character can stand in a key without quotes. -/
def isBare (c : Char) : Bool := c.isAlphanum || c == '_' || c == '-'

def key : Reader String := do
  match ← peek with
  | some '"' | some '\'' => lineString
  | _ =>
    let cs ← allOf isBare
    if cs.isEmpty then failure else return String.ofList cs

def keyPath : Reader KeyPath := do
  let path ← separated (blanks *> key <* blanks) (char '.')
  if path.length < maxKeys then return path else failure

def assignment (value : Reader Value) : Reader (KeyPath × Value) := do
  let path ← keyPath
  char '='
  blanks
  return (path, ← value)

def array (value : Reader Value) : Reader Value := do
  let elements ← opt (separated (gap *> value <* gap) (char ','))
  if elements.isSome then
    let _ ← opt (char ',')
  gap
  char ']'
  return .array (elements.getD [])

/-- A table in braces, behind the first of them. -/
def inlineTable (value : Reader Value) : Reader Value := do
  let assignments ← opt (separated (assignment value <* blanks) (char ','))
  blanks
  char '\x7d'
  let table := (assignments.getD []).foldlM (fun t (path, v) => Table.assign v path t) []
  match table with
  | some entries => return .table .inline entries
  | none => failure

/-- How deep arrays and tables in braces may be in one another. -/
def maxDepth : Nat := 79

/-- A value in which arrays and tables are in one another so deep at most. -/
def valueWithin : Nat → Reader Value
  | 0 => simple
  | depth + 1 => do
    match ← peek with
    | some '[' => char '[' *> array (valueWithin depth)
    | some '\x7b' => char '\x7b' *> inlineTable (valueWithin depth)
    | _ => simple

def value : Reader Value := valueWithin maxDepth

/-! ## Documents -/

/-- What a line says. -/
def statement : Reader Statement := do
  match ← get with
  | '[' :: '[' :: rest =>
    set rest
    let path ← keyPath
    word [']', ']']
    return .append path
  | '[' :: rest =>
    set rest
    let path ← keyPath
    char ']'
    return .declare path
  | _ => (fun (path, v) => .assign path v) <$> assignment value

/-- The lines of a document, behind a mark that only says how bytes are to be read. -/
def statements : Reader (List Statement) := do
  let _ ← opt (char '\uFEFF')
  gap
  let statements ← many (statement <* lineEnd <* gap)
  atEnd
  return statements

end Reader

def read? (text : String) : Option Table := do
  let (statements, _) ← Reader.statements.run text.toList
  let d ← statements.foldlM Document.add Document.empty
  return d.root

end Bulletin.Toml
