import Std.Data.HashMap
import Bulletin.Html.Reference.Table

/-!
# Character references

A reference stands behind an ampersand and is a number (`&#233;`, `&#xE9;`) or a name (`&eacute;`).
The longest name that matches is taken, so `&notit;` reads as `¬it;`; in an attribute value a name
that lacks its semicolon counts only if what follows could not belong to a word:

    decode false "&notit;&#233;" = "¬it;é"
    decode true  "a=b&copy=c"    = "a=b&copy=c"

An ampersand that starts no reference stands for itself.
-/

namespace Bulletin.Html.Reference

def hexValue? (c : Char) : Option Nat :=
  if '0' ≤ c ∧ c ≤ '9' then some (c.toNat - '0'.toNat)
  else if 'a' ≤ c ∧ c ≤ 'f' then some (c.toNat - 'a'.toNat + 10)
  else if 'A' ≤ c ∧ c ≤ 'F' then some (c.toNat - 'A'.toNat + 10)
  else none

def decimalValue? (c : Char) : Option Nat :=
  if '0' ≤ c ∧ c ≤ '9' then some (c.toNat - '0'.toNat) else none

/-- The number that the longest run of digits at the front denotes, and the length of that run. -/
def number (base : Nat) (digit? : Char → Option Nat) : Nat → Nat → List Char → Nat × Nat
  | value, count, [] => (value, count)
  | value, count, c :: rest =>
    match digit? c with
    | some d => number base digit? (value * base + d) (count + 1) rest
    | none => (value, count)

/-! ## Names -/

def entry? (item : String) : Option (String × List Char) :=
  match item.toList.span (· != '=') with
  | (name, _ :: codes) =>
    let points := (String.ofList codes).splitOn "+"
    some (String.ofList name, points.map fun p => Char.ofNat (number 16 hexValue? 0 0 p.toList).1)
  | _ => none

/-- The characters each name stands for. -/
def names : Std.HashMap String (List Char) :=
  Std.HashMap.ofList
    (((tableText.split Char.isWhitespace).toList.map (·.toString)).filterMap entry?)

/-- No name is longer. -/
def maxNameLength : Nat := 32

/-- The longest prefix of `name`, of at most `n` characters, that is a name without semicolon. -/
def longestPrefix? (name : List Char) : Nat → Option (List Char × Nat)
  | 0 => none
  | n + 1 =>
    match names[String.ofList (name.take (n + 1))]? with
    | some chars => some (chars, n + 1)
    | none => longestPrefix? name n

def named? (inValue : Bool) (input : List Char) : Option (List Char × Nat) :=
  let word := (input.take maxNameLength).takeWhile Char.isAlphanum
  let closed :=
    if input[word.length]? = some ';' then names[String.ofList (word ++ [';'])]? else none
  match closed with
  | some chars => some (chars, word.length + 1)
  | none =>
    match longestPrefix? word word.length with
    | none => none
    | some (chars, n) =>
      match inValue, input[n]? with
      | true, some c => if c == '=' || c.isAlphanum then none else some (chars, n)
      | _, _ => some (chars, n)

/-! ## Numbers -/

/-- What the numbers from 0x80 to 0x9F stand for; zero where a number stands for itself. -/
def controlReplacements : List Nat :=
  [0x20AC, 0, 0x201A, 0x0192, 0x201E, 0x2026, 0x2020, 0x2021, 0x02C6, 0x2030, 0x0160, 0x2039,
   0x0152, 0, 0x017D, 0, 0, 0x2018, 0x2019, 0x201C, 0x201D, 0x2022, 0x2013, 0x2014, 0x02DC,
   0x2122, 0x0161, 0x203A, 0x0153, 0, 0x017E, 0x0178]

def numericChar (n : Nat) : Char :=
  if n = 0 ∨ 0x10FFFF < n ∨ (0xD800 ≤ n ∧ n ≤ 0xDFFF) then '\ufffd'
  else if 0x80 ≤ n ∧ n ≤ 0x9F then
    match controlReplacements[n - 0x80]? with
    | some 0 | none => Char.ofNat n
    | some m => Char.ofNat m
  else Char.ofNat n

def numeric? (input : List Char) : Option (List Char × Nat) :=
  let (skip, base, digit?) : Nat × Nat × (Char → Option Nat) :=
    match input with
    | 'x' :: _ | 'X' :: _ => (1, 16, hexValue?)
    | _ => (0, 10, decimalValue?)
  let (value, count) := number base digit? 0 0 (input.drop skip)
  if count = 0 then none
  else
    let stop := if input[skip + count]? = some ';' then 1 else 0
    some ([numericChar value], skip + count + stop)

/-- Whether a numeric reference without its semicolon stands in front. -/
def startsUnclosed : List Char → Bool
  | '&' :: '#' :: rest =>
    match numeric? rest with
    | some (_, n) => rest[n - 1]? != some ';'
    | none => false
  | _ => false

/-- The reference that follows an ampersand, with the number of characters it takes. -/
def reference? (inValue : Bool) : List Char → Option (List Char × Nat)
  | '#' :: rest => (numeric? rest).map fun (chars, n) => (chars, n + 1)
  | input => named? inValue input

/-! ## Text with references -/

/-- Decodes the references of a text, leaving out the first `skip` characters. -/
def decodeFrom (inValue : Bool) : Nat → List Char → List Char
  | _, [] => []
  | skip + 1, _ :: rest => decodeFrom inValue skip rest
  | 0, '&' :: rest =>
    match reference? inValue rest with
    | some (chars, n) => chars ++ decodeFrom inValue n rest
    | none => '&' :: decodeFrom inValue 0 rest
  | 0, c :: rest => c :: decodeFrom inValue 0 rest

/-- A text with its character references replaced by what they stand for. -/
def decode (inValue : Bool) (text : List Char) : List Char := decodeFrom inValue 0 text

end Bulletin.Html.Reference
