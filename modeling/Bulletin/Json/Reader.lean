import Bulletin.Json.Error
import Bulletin.Text.Lossy

/-!
# Reading JSON

A reader takes what it wants from the front of the bytes. When it refuses, it says what is left of
the bytes at the place to be named, from which `run` finds line and column. Most refusals are
noticed when looking at a byte that is not taken; those name the place behind that byte.

Values are read for a purpose: `integer` wants a 64-bit integer, `string` a string, and `skip`
wants any value whatever and returns the bytes it was written in.
-/

namespace Bulletin.Json

/-- A refusal, with what is left of the bytes at the place to be named once that is known. -/
structure Refusal where
  cause : Cause
  left : Option (List UInt8)
  deriving Inhabited

/-- Readers take bytes from the front. -/
abbrev Reader := EStateM Refusal (List UInt8)

namespace Reader

/-- Refuses, naming the place reached. -/
def refuse {α : Type} (cause : Cause) : Reader α := fun s => .error ⟨cause, some s⟩ s

/-- Refuses because of the next byte, naming the place behind it. -/
def refuseNext {α : Type} (cause : Cause) : Reader α := fun s => .error ⟨cause, some (s.drop 1)⟩ s

/-- Refuses, leaving it to those around to name the place. -/
def refuseUnplaced {α : Type} (cause : Cause) : Reader α := fun s => .error ⟨cause, none⟩ s

/-- Names the place reached, where a refusal has named none. -/
def placing {α : Type} (r : Reader α) : Reader α := fun s =>
  match r s with
  | .error ⟨cause, none⟩ s => .error ⟨cause, some s⟩ s
  | result => result

/-- Reads with `body`, and then, also if that refused, with `ending`. The first refusal counts. -/
def followedBy {α : Type} (body : Reader α) (ending : Reader Unit) : Reader α := fun s =>
  match body s with
  | .ok a s =>
    match ending s with
    | .ok _ s => .ok a s
    | .error e s => .error e s
  | .error e s =>
    match ending s with
    | .ok _ s => .error e s
    | .error _ s => .error e s

/-- The next byte, which is not taken. -/
def peek : Reader (Option UInt8) := return (← get).head?

/-- Takes the next byte. -/
def drop : Reader Unit := modify (·.drop 1)

/-- Takes and returns the next byte. -/
def take : Reader (Option UInt8) := do
  let c ← peek
  drop
  return c

/-- White space between the parts of a JSON text. -/
def isBlank (c : UInt8) : Bool := c == 32 || c == 10 || c == 9 || c == 13

/-- Skips white space; the byte behind it. -/
def peekPastBlanks : Reader (Option UInt8) := do
  modify (·.dropWhile isBlank)
  peek

def isDigit (c : UInt8) : Bool := 48 ≤ c && c ≤ 57

def byte (c : Char) : UInt8 := c.toNat.toUInt8

/-- Whether a byte is the ASCII character. -/
def isAt (c : Option UInt8) (ch : Char) : Bool := c == some (byte ch)

/-! ## Words -/

/-- Takes the rest of a word whose first letter has been taken. -/
def restOfWord : List Char → Reader Unit
  | [] => return
  | w :: rest => do
    match ← take with
    | none => refuse .endInValue
    | some c => if c == byte w then restOfWord rest else refuse .expectedWord

/-! ## Strings -/

def hexValue? (c : UInt8) : Option Nat :=
  if isDigit c then some (c.toNat - 48)
  else if 97 ≤ c && c ≤ 102 then some (c.toNat - 87)
  else if 65 ≤ c && c ≤ 70 then some (c.toNat - 55)
  else none

/-- The number in four hexadecimal digits. -/
def hexEscape : Reader Nat := do
  match ← get with
  | a :: b :: c :: d :: rest =>
    set rest
    match hexValue? a, hexValue? b, hexValue? c, hexValue? d with
    | some a, some b, some c, some d => return ((a * 16 + b) * 16 + c) * 16 + d
    | _, _, _, _ => refuse .invalidEscape
  | _ =>
    set ([] : List UInt8)
    refuse .endInString

/-- The UTF-8 form of a code point. -/
def encode (n : Nat) : List UInt8 := (String.singleton (Char.ofNat n)).toUTF8.toList

/-- Takes the byte that must follow the first half of a surrogate pair. -/
def pairByte (c : Char) : Reader Unit := do
  match ← peek with
  | none => refuse .endInString
  | some b =>
    drop
    if b != byte c then refuse .endOfEscape

/-- The character of a `\u` escape, which may need a second one to be whole. -/
def unicodeEscape : Reader (List UInt8) := do
  let n ← hexEscape
  if 0xDC00 ≤ n && n ≤ 0xDFFF then refuse .loneSurrogate
  else if n < 0xD800 || 0xDBFF < n then return encode n
  else
    pairByte '\\'
    pairByte 'u'
    let m ← hexEscape
    if m < 0xDC00 || 0xDFFF < m then refuse .loneSurrogate
    else return encode (0x10000 + (n - 0xD800) * 0x400 + (m - 0xDC00))

/-- What a one-letter escape stands for. -/
def shortEscape? (c : UInt8) : Option UInt8 :=
  if c == byte '"' || c == byte '\\' || c == byte '/' then some c
  else if c == byte 'b' then some 8
  else if c == byte 'f' then some 12
  else if c == byte 'n' then some 10
  else if c == byte 'r' then some 13
  else if c == byte 't' then some 9
  else none

/-- What an escape stands for, behind its backslash. -/
def escape : Reader (List UInt8) := do
  match ← take with
  | none => refuse .endInString
  | some c =>
    if c == byte 'u' then unicodeEscape
    else
      match shortEscape? c with
      | some b => return [b]
      | none => refuse .invalidEscape

/-- The bytes of a string behind those already read, up to its closing quote. -/
def stringBytes : Nat → ByteArray → Reader ByteArray
  | 0, _ => refuse .endInString
  | fuel + 1, read => do
    match ← take with
    | none => refuse .endInString
    | some c =>
      if c == byte '"' then return read
      else if c == byte '\\' then
        let more ← escape
        stringBytes fuel (more.foldl ByteArray.push read)
      else if c < 32 then refuse .controlCharacter
      else stringBytes fuel (read.push c)

/-- A string behind its opening quote. -/
def string : Reader String := do
  let bytes ← stringBytes ((← get).length + 1) ByteArray.empty
  match String.fromUTF8? bytes with
  | some s => return s
  | none => refuse .invalidText

def skipEscape : Reader Unit := do
  match ← take with
  | none => refuse .endInString
  | some c =>
    if c == byte 'u' then
      let _ ← hexEscape
    else if (shortEscape? c).isNone then refuse .invalidEscape

/-- Skips a string behind its opening quote; only its shape counts. -/
def skipString : Nat → Reader Unit
  | 0 => refuse .endInString
  | fuel + 1 => do
    match ← peek with
    | none => refuse .endInString
    | some c =>
      if c == byte '"' then drop
      else if c == byte '\\' then
        drop
        skipEscape
        skipString fuel
      else if c < 32 then refuse .controlCharacter
      else
        drop
        skipString fuel

/-! ## Numbers -/

/-- A number: an integer that fits into 64 bits, or a double. -/
inductive Number where
  | integer (n : Int)
  | float (negative : Bool) (x : Binary64)
  deriving DecidableEq, Repr, Inhabited

namespace Number

def found : Number → Found
  | integer n => .integer n
  | float negative x => .float negative x

end Number

def skipDigits : Reader Nat := do
  let (digits, rest) := (← get).span isDigit
  set rest
  return digits.length

def skipSign : Reader Unit := do
  let sign ← peek
  if isAt sign '+' || isAt sign '-' then drop

def double (negative : Bool) (significand : Nat) (exponent : Int) : Reader Number :=
  match Binary64.ofParts significand exponent with
  | some x => return .float negative x
  | none => refuse .numberTooLarge

/-- Whether `n * 10 + d` still fits into 64 bits. -/
def fits (n d : Nat) : Bool := n * 10 + d < UInt64.size

/-- Reads digits as long as the number fits into 64 bits: the number, how many digits it has
taken, and whether a digit that does not fit is next. -/
def digitsThatFit (n count : Nat) : List UInt8 → Nat × Nat × Bool × List UInt8
  | [] => (n, count, false, [])
  | c :: rest =>
    if isDigit c then
      if fits n (c.toNat - 48) then digitsThatFit (n * 10 + (c.toNat - 48)) (count + 1) rest
      else (n, count, true, c :: rest)
    else (n, count, false, c :: rest)

/-- Exponents with a greater value are beyond all bounds. -/
def maxExponent : Nat := 2147483647

/-- The digits of an exponent behind its value so far; none if it grows beyond all bounds. -/
def exponentDigits (n : Nat) : List UInt8 → Option Nat × List UInt8
  | [] => (some n, [])
  | c :: rest =>
    if isDigit c then
      let m := n * 10 + (c.toNat - 48)
      if m ≤ maxExponent then exponentDigits m rest else (none, rest)
    else (some n, c :: rest)

/-- The exponent of a number, at its mark. -/
def exponentPart (negative : Bool) (significand : Nat) (exponent : Int) : Reader Number := do
  drop
  let sign ← peek
  skipSign
  match ← take with
  | none => refuse .endInValue
  | some c =>
    if isDigit c then
      let (e, rest) := exponentDigits (c.toNat - 48) (← get)
      set rest
      match e with
      | some e => double negative significand (if isAt sign '-' then exponent - e else exponent + e)
      | none =>
        if significand != 0 && !isAt sign '-' then refuse .numberTooLarge
        else
          let _ ← skipDigits
          return .float negative Binary64.zero
    else refuse .invalidNumber

/-- Whether a byte opens an exponent. -/
def marksExponent (c : Option UInt8) : Bool := isAt c 'e' || isAt c 'E'

/-- The end of a fraction, of which `count` digits have been read: more that are skipped, or none.
One digit there must be. -/
def endOfFraction (count : Nat) (more : Bool) : Reader Unit := do
  if more then
    let _ ← skipDigits
  else if count == 0 then
    match ← peek with
    | some _ => refuseNext .invalidNumber
    | none => refuseNext .endInValue

/-- The fraction of a number, at its point. -/
def fractionPart (negative : Bool) (significand : Nat) (exponent : Int) : Reader Number := do
  drop
  let (significand, count, more, rest) := digitsThatFit significand 0 (← get)
  set rest
  endOfFraction count more
  let exponent := exponent - count
  if marksExponent (← peek) then exponentPart negative significand exponent
  else double negative significand exponent

/-- What follows the digits of a number before its point. -/
def numberTail (negative : Bool) (significand : Nat) : Reader Number := do
  let next ← peek
  if isAt next '.' then fractionPart negative significand 0
  else if marksExponent next then exponentPart negative significand 0
  else if !negative then return .integer significand
  else if significand == 0 || -(significand : Int) < Int64.minValue.toInt then
    double true significand 0
  else return .integer (-(significand : Int))

/-- A number with more digits before its point than fit; those beyond only count. -/
def longNumber (negative : Bool) (significand : Nat) : Reader Number := do
  let dropped ← skipDigits
  let next ← peek
  if isAt next '.' then fractionPart negative significand dropped
  else if marksExponent next then exponentPart negative significand dropped
  else double negative significand dropped

def number (negative : Bool) : Reader Number := do
  match ← peek with
  | none => refuse .endInValue
  | some c =>
    drop
    if c == byte '0' then
      match ← peek with
      | some d => if isDigit d then refuseNext .invalidNumber else numberTail negative 0
      | none => numberTail negative 0
    else if isDigit c then
      let (n, _, more, rest) := digitsThatFit (c.toNat - 48) 1 (← get)
      set rest
      if more then longNumber negative n else numberTail negative n
    else refuse .invalidNumber

/-- Skips what is before the point of a number. -/
def skipWhole : Reader Unit := do
  match ← take with
  | none => refuse .invalidNumber
  | some c =>
    if c == byte '0' then
      match ← peek with
      | some d => if isDigit d then refuseNext .invalidNumber
      | none => return
    else if isDigit c then
      let _ ← skipDigits
    else refuse .invalidNumber

/-- Skips the point of a number and what is behind it, if there is one. -/
def skipFraction : Reader Unit := do
  if isAt (← peek) '.' then
    drop
    if (← skipDigits) == 0 then refuseNext .invalidNumber

def skipExponent : Reader Unit := do
  if marksExponent (← peek) then
    drop
    skipSign
    match ← take with
    | none => refuse .invalidNumber
    | some c =>
      if isDigit c then
        let _ ← skipDigits
      else refuse .invalidNumber

/-- Skips a number behind its sign; only its shape counts. -/
def skipNumber : Reader Unit := do
  skipWhole
  skipFraction
  skipExponent

/-! ## Values of any kind -/

/-- The brackets a value can be inside of. -/
inductive Frame where
  | list
  | object
  deriving DecidableEq, Repr, Inhabited

/-- Skips a value that is no list and no object, or enters one that is: its frame. -/
def skipScalar (c : UInt8) : Reader (Option Frame) := do
  if c == byte 'n' then drop; restOfWord ['u', 'l', 'l']; return none
  else if c == byte 't' then drop; restOfWord ['r', 'u', 'e']; return none
  else if c == byte 'f' then drop; restOfWord ['a', 'l', 's', 'e']; return none
  else if c == byte '-' then drop; skipNumber; return none
  else if isDigit c then skipNumber; return none
  else if c == byte '"' then
    drop
    skipString ((← get).length + 1)
    return none
  else if c == byte '[' then drop; return some .list
  else if c == byte '\x7b' then drop; return some .object
  else refuseNext .expectedValue

/-- Takes a mark that must be next in an object. -/
def takeMark (mark : Char) (otherwise : Cause) : Reader Unit := do
  match ← peekPastBlanks with
  | none => refuseNext .endInObject
  | some c => if c == byte mark then drop else refuseNext otherwise

/-- Takes the colon between a key and its value. -/
def colon : Reader Unit := takeMark ':' .expectedColon

def skipKey : Reader Unit := do
  takeMark '"' .keyNotString
  skipString ((← get).length + 1)
  colon

/-- Behind a value, or a bracket that opens: skips closing brackets and a comma. What is still
open then, innermost first, is where the next value stands. -/
def skipClosing : Bool → List Frame → Reader (List Frame)
  | _, [] => return []
  | behindValue, frame :: outer => do
    match ← peekPastBlanks with
    | none => refuseNext (if frame == .list then .endInList else .endInObject)
    | some c =>
      if behindValue && c == byte ',' then
        drop
        return frame :: outer
      else if c == (if frame == .list then byte ']' else byte '\x7d') then
        drop
        skipClosing true outer
      else if behindValue then
        refuseNext (if frame == .list then .expectedListComma else .expectedObjectComma)
      else return frame :: outer

/-- Skips a value inside the open brackets, and all that follows in them. -/
def skipIn : Nat → List Frame → Reader Unit
  | 0, _ => refuse .endInValue
  | fuel + 1, frames => do
    match ← peekPastBlanks with
    | none => refuseNext .endInValue
    | some c =>
      let opened ← skipScalar c
      let frames ← skipClosing opened.isNone (opened.toList ++ frames)
      match frames with
      | [] => return
      | .object :: _ =>
        skipKey
        skipIn fuel frames
      | .list :: _ => skipIn fuel frames

/-- Skips a value of any kind. Nesting is not limited. -/
def skip : Reader Unit := do skipIn ((← get).length + 1) []

/-- Bytes as text. What is no text is refused at its first byte; `rest` is behind the bytes. -/
def textOf (bytes rest : List UInt8) : Reader String :=
  match String.fromUTF8? (ByteArray.mk bytes.toArray) with
  | some s => return s
  | none => throw ⟨.invalidText, some (bytes.drop (Text.wholeLength bytes + 1) ++ rest)⟩

/-- A value of any kind: the text it is written in. -/
def verbatim : Reader String := do
  let _ ← peekPastBlanks
  let start ← get
  skip
  let rest ← get
  textOf (start.take (start.length - rest.length)) rest

/-! ## Values of a wanted kind -/

/-- Refuses the value in front, which is not what is wanted. -/
def refuseType {α : Type} (wanted : String) : Reader α := do
  let c ← peek
  if isAt c 'n' then
    drop
    restOfWord ['u', 'l', 'l']
    wrong .null
  else if isAt c 't' then
    drop
    restOfWord ['r', 'u', 'e']
    wrong (.bool true)
  else if isAt c 'f' then
    drop
    restOfWord ['a', 'l', 's', 'e']
    wrong (.bool false)
  else if isAt c '-' then
    drop
    wrong (← number true).found
  else if c.any isDigit then wrong (← number false).found
  else if isAt c '"' then
    drop
    wrong (.string (← string))
  else if isAt c '[' then wrong .list
  else if isAt c '\x7b' then wrong .object
  else refuseNext .expectedValue
where
  wrong (found : Found) : Reader α := refuse (.wrongType found wanted)

def valueStart : Reader UInt8 := do
  match ← peekPastBlanks with
  | some c => return c
  | none => refuseNext .endInValue

/-- What a refusal calls a 64-bit integer. -/
def integerName : String := "i64"

def integerBehind (negative : Bool) : Reader Int64 := do
  match ← number negative with
  | .integer n =>
    match Decimal.fit? n with
    | some m => return m
    | none => refuse (.outOfRange n integerName)
  | .float negative x => refuse (.wrongType (.float negative x) integerName)

def integer : Reader Int64 := do
  let c ← valueStart
  if c == byte '-' then
    drop
    integerBehind true
  else if isDigit c then integerBehind false
  else refuseType integerName

/-- The elements of a list behind its bracket, up to the bracket that closes it. -/
def hasElement (first : Bool) : Reader Bool := do
  match ← peekPastBlanks with
  | none => refuseNext .endInList
  | some c =>
    if c == byte ']' then return false
    else if c == byte ',' && !first then
      drop
      match ← peekPastBlanks with
      | none => refuseNext .endInValue
      | some d => if d == byte ']' then refuseNext .trailingComma else return true
    else if first then return true
    else refuseNext .expectedListComma

def endOfList : Reader Unit := do
  match ← peekPastBlanks with
  | none => refuseNext .endInList
  | some c =>
    if c == byte ']' then drop
    else if c == byte ',' then
      drop
      match ← peekPastBlanks with
      | some d => if d == byte ']' then refuseNext .trailingComma
                  else refuseNext .trailingCharacters
      | none => refuseNext .trailingCharacters
    else refuseNext .trailingCharacters

/-- Whether another member of an object follows, at its key. -/
def hasMember (first : Bool) : Reader Bool := do
  match ← peekPastBlanks with
  | none => refuseNext .endInObject
  | some c =>
    if c == byte '\x7d' then return false
    else if c == byte ',' && !first then
      drop
      match ← peekPastBlanks with
      | none => refuseNext .endInValue
      | some d =>
        if d == byte '"' then return true
        else if d == byte '\x7d' then refuseNext .trailingComma
        else refuseNext .keyNotString
    else if first then
      if c == byte '"' then return true else refuseNext .keyNotString
    else refuseNext .expectedObjectComma

def endOfObject : Reader Unit := do
  match ← peekPastBlanks with
  | none => refuseNext .endInObject
  | some c =>
    if c == byte '\x7d' then drop
    else if c == byte ',' then refuseNext .trailingComma
    else refuseNext .trailingCharacters

def key : Reader String := do
  drop
  string

/-- The members of an object in its brackets, each read by `member` behind its key. -/
def membersWith {σ : Type} (member : String → σ → Reader σ) : Nat → Bool → σ → Reader σ
  | 0, _, _ => refuse .endInObject
  | fuel + 1, first, state => do
    if ← hasMember first then
      let k ← key
      membersWith member fuel false (← member k state)
    else return state

/-- The members of an object in its brackets, gathered from `start` on. -/
def members {σ : Type} (start : σ) (member : String → σ → Reader σ) : Reader σ := do
  membersWith member ((← get).length + 1) true start

/-- Reads a member that must not have been read before. -/
def once {α : Type} (name : String) (before : Option α) (value : Reader α) : Reader (Option α) := do
  if before.isSome then refuseUnplaced (.duplicateField name)
  colon
  return some (← value)

/-- The elements of a list in its brackets, each read by `element`, behind those read. -/
def elementsWith {α : Type} (element : Reader α) : Nat → Bool → List α → Reader (List α)
  | 0, _, _ => refuse .endInList
  | fuel + 1, first, read => do
    if ← hasElement first then elementsWith element fuel false ((← element) :: read)
    else return read.reverse

def elements {α : Type} (element : Reader α) : Reader (List α) := do
  elementsWith element ((← get).length + 1) true []

def element? {α : Type} (first : Bool) (element : Reader α) : Reader (Option α) := do
  if ← hasElement first then some <$> element else return none

def object {α : Type} (wanted : String) (contents : Reader α) : Reader α := do
  let c ← valueStart
  placing do
    if c == byte '\x7b' then
      drop
      followedBy contents endOfObject
    else refuseType wanted

def list {α : Type} (wanted : String) (contents : Reader α) : Reader α := do
  let c ← valueStart
  placing do
    if c == byte '[' then
      drop
      followedBy contents endOfList
    else refuseType wanted

/-- A record, written as an object or as the list of its values. -/
def record {α : Type} (wanted : String) (listed named : Reader α) : Reader α := do
  let c ← valueStart
  if c == byte '[' then list wanted listed else object wanted named

/-- What `null` stands for, or a value. -/
def orNull {α : Type} (null : α) (value : Reader α) : Reader α := do
  let c ← valueStart
  if c == byte 'n' then
    drop
    restOfWord ['u', 'l', 'l']
    return null
  else value

/-- Reads all bytes; behind the value nothing but white space may follow. -/
def run {α : Type} (r : Reader α) (input : List UInt8) : Except Error α :=
  let whole : Reader α := do
    let a ← r
    match ← peekPastBlanks with
    | some _ => refuseNext .trailingCharacters
    | none => return a
  match whole input with
  | .ok a _ => .ok a
  | .error e rest =>
    let left := e.left.getD rest
    let (line, column) := position (input.take (input.length - left.length))
    .error ⟨e.cause, line, column⟩

end Reader

end Bulletin.Json
