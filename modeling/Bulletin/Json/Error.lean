import Bulletin.Number.Shortest
import Bulletin.Text.Quoted

/-!
# Why a JSON text is refused

A refusal names its cause and the place where it was noticed, as a line and the number of bytes
before it in that line:

    message ⟨.trailingComma, 1, 14⟩ = "trailing comma at line 1 column 14"
-/

namespace Bulletin.Json

/-- What stood where something else was wanted. -/
inductive Found where
  | null
  | bool (b : Bool)
  | integer (n : Int)
  | float (negative : Bool) (x : Binary64)
  | string (s : String)
  | list
  | object
  deriving DecidableEq, Repr, Inhabited

namespace Found

/-- How a message names what stood there. -/
def describe : Found → String
  | null => "null"
  | bool b => "boolean `" ++ (if b then "true" else "false") ++ "`"
  | integer n => "integer `" ++ Decimal.ofInt n ++ "`"
  | float negative x => "floating point `" ++ x.render negative ++ "`"
  | string s => "string " ++ Text.quote s
  | list => "sequence"
  | object => "map"

end Found

inductive Cause where
  | endInList
  | endInObject
  | endInString
  | endInValue
  | expectedColon
  | expectedListComma
  | expectedObjectComma
  | expectedWord
  | expectedValue
  | invalidEscape
  | invalidNumber
  | numberTooLarge
  | invalidText
  | controlCharacter
  | keyNotString
  | loneSurrogate
  | endOfEscape
  | trailingComma
  | trailingCharacters
  | wrongType (found : Found) (wanted : String)
  | outOfRange (n : Int) (wanted : String)
  | wrongLength (n : Nat) (wanted : String)
  | missingField (name : String)
  | duplicateField (name : String)
  deriving DecidableEq, Repr, Inhabited

namespace Cause

def message : Cause → String
  | endInList => "EOF while parsing a list"
  | endInObject => "EOF while parsing an object"
  | endInString => "EOF while parsing a string"
  | endInValue => "EOF while parsing a value"
  | expectedColon => "expected `:`"
  | expectedListComma => "expected `,` or `]`"
  | expectedObjectComma => "expected `,` or `\x7d`"
  | expectedWord => "expected ident"
  | expectedValue => "expected value"
  | invalidEscape => "invalid escape"
  | invalidNumber => "invalid number"
  | numberTooLarge => "number out of range"
  | invalidText => "invalid unicode code point"
  | controlCharacter => "control character (\\u0000-\\u001F) found while parsing a string"
  | keyNotString => "key must be a string"
  | loneSurrogate => "lone leading surrogate in hex escape"
  | endOfEscape => "unexpected end of hex escape"
  | trailingComma => "trailing comma"
  | trailingCharacters => "trailing characters"
  | wrongType found wanted => "invalid type: " ++ found.describe ++ ", expected " ++ wanted
  | outOfRange n wanted =>
    "invalid value: integer `" ++ Decimal.ofInt n ++ "`, expected " ++ wanted
  | wrongLength n wanted => "invalid length " ++ Decimal.ofNat n ++ ", expected " ++ wanted
  | missingField name => "missing field `" ++ name ++ "`"
  | duplicateField name => "duplicate field `" ++ name ++ "`"

end Cause

/-- A refusal. -/
structure Error where
  cause : Cause
  line : Nat
  column : Nat
  deriving DecidableEq, Repr, Inhabited

namespace Error

/-- The wording of a refusal. -/
def message (e : Error) : String :=
  e.cause.message ++ " at line " ++ Decimal.ofNat e.line ++ " column " ++ Decimal.ofNat e.column

end Error

/-- The line and column reached after reading bytes. -/
def position (read : List UInt8) : Nat × Nat :=
  let newline : UInt8 := 10
  (1 + read.count newline, (read.reverse.takeWhile (· != newline)).length)

end Bulletin.Json
