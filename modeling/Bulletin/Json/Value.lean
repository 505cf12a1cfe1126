import Bulletin.SortedMap
import Bulletin.Text.Decimal

/-!
# Writing JSON

A value is written without blanks, or spread over lines with two blanks for each level:

    (list [int 1, object [("a", null)]]).compact = "[1,{\"a\":null}]"

Strings escape quotes, backslashes and control characters. A text that is JSON already is written
as it is.
-/

namespace Bulletin.Json

inductive Value where
  | null
  | bool (b : Bool)
  | int (n : Int)
  | string (s : String)
  /-- A text that is JSON already. -/
  | verbatim (text : String)
  | list (elements : List Value)
  | object (members : List (String × Value))
  deriving Inhabited

def hexDigit (n : Nat) : Char :=
  if n < 10 then Char.ofNat ('0'.toNat + n) else Char.ofNat ('a'.toNat + (n - 10))

/-- A character of a string. -/
def escapeChar (c : Char) : List Char :=
  if c = '"' then ['\\', '"']
  else if c = '\\' then ['\\', '\\']
  else if c = '\n' then ['\\', 'n']
  else if c = '\r' then ['\\', 'r']
  else if c = '\t' then ['\\', 't']
  else if c.toNat = 8 then ['\\', 'b']
  else if c.toNat = 12 then ['\\', 'f']
  else if c.toNat < 32 then ['\\', 'u', '0', '0', hexDigit (c.toNat / 16), hexDigit (c.toNat % 16)]
  else [c]

def writeString (s : String) : String :=
  String.ofList ('"' :: s.toList.flatMap escapeChar ++ ['"'])

namespace Value

mutual

def compact : Value → String
  | null => "null"
  | bool b => if b then "true" else "false"
  | int n => Decimal.ofInt n
  | string s => writeString s
  | verbatim text => text
  | list elements => "[" ++ ",".intercalate (compactElements elements) ++ "]"
  | object members => "\x7b" ++ ",".intercalate (compactMembers members) ++ "\x7d"

def compactElements : List Value → List String
  | [] => []
  | v :: rest => v.compact :: compactElements rest

def compactMembers : List (String × Value) → List String
  | [] => []
  | (name, v) :: rest => (writeString name ++ ":" ++ v.compact) :: compactMembers rest

end

def indent (level : Nat) : String := "\n" ++ String.ofList (List.replicate (2 * level) ' ')

def bracketed (opening closing : String) (level : Nat) (lines : List String) : String :=
  if lines.isEmpty then opening ++ closing
  else
    opening ++ indent (level + 1) ++ ("," ++ indent (level + 1)).intercalate lines ++
      indent level ++ closing

mutual

/-- A value spread over lines, at some level. -/
def prettyAt (level : Nat) : Value → String
  | list elements => bracketed "[" "]" level (prettyElements (level + 1) elements)
  | object members => bracketed "\x7b" "\x7d" level (prettyMembers (level + 1) members)
  | null => "null"
  | bool b => if b then "true" else "false"
  | int n => Decimal.ofInt n
  | string s => writeString s
  | verbatim text => text

def prettyElements (level : Nat) : List Value → List String
  | [] => []
  | v :: rest => prettyAt level v :: prettyElements level rest

def prettyMembers (level : Nat) : List (String × Value) → List String
  | [] => []
  | (name, v) :: rest => (writeString name ++ ": " ++ prettyAt level v) :: prettyMembers level rest

end

/-- A value spread over lines. -/
def pretty (v : Value) : String := prettyAt 0 v

/-- An object with the entries of a map. -/
def ofMap {κ α : Type} [Ord κ] (key : κ → String) (value : α → Value) (m : SortedMap κ α) : Value :=
  object (m.entries.map fun (k, v) => (key k, value v))

end Value

end Bulletin.Json
