import Bulletin.Text.Split

/-!
# Hosts that are numbers

A host is a number of 32 bits, written in up to four parts, of which the last fills all bytes that
the others leave:

    hostNumber? "127.1"   = some 0x7F000001
    hostNumber? "0x7F.01" = some 0x7F000001

or one of 128 bits, written in eight groups of which a run of zeros is left out once. The last two
groups may be written as four bytes:

    wideNumber? "::1"            = some 1
    wideNumber? "::ffff:1.2.3.4" = some 0xFFFF01020304
-/

namespace Bulletin.Http

/-- The number that is one more than the highest byte. -/
def byteLimit : Nat := 256

/-- The value of a digit in a base of at most sixteen. -/
def digitIn? (base : Nat) (c : Char) : Option Nat :=
  let n? :=
    if c.isDigit then some (c.toNat - '0'.toNat)
    else if 'a' ≤ c ∧ c ≤ 'f' then some (c.toNat - 'a'.toNat + 10)
    else if 'A' ≤ c ∧ c ≤ 'F' then some (c.toNat - 'A'.toNat + 10)
    else none
  n?.filter (· < base)

def numberIn? (base : Nat) (cs : List Char) : Option Nat :=
  if cs.isEmpty then none else cs.foldlM (fun n c => (digitIn? base c).map (base * n + ·)) 0

/-! ## 32 bits -/

/-- A part of a host. A zero in front makes it octal, and a letter behind that hexadecimal. -/
def hostPart? : List Char → Option Nat
  | '0' :: 'x' :: cs => numberIn? 16 cs
  | '0' :: 'X' :: cs => numberIn? 16 cs
  | '0' :: cs => numberIn? 8 ('0' :: cs)
  | cs => numberIn? 10 cs

/-- The number in parts of which the last fills so many bytes. -/
def joinParts? : Nat → List Nat → Option Nat
  | 0, _ => none
  | _ + 1, [] => none
  | bytes + 1, [last] => if last < Nat.pow byteLimit (bytes + 1) then some last else none
  | bytes + 1, part :: rest => do
    let n ← joinParts? bytes rest
    if part < byteLimit then some (part * Nat.pow byteLimit bytes + n) else none

def hostNumber? (host : List Char) : Option Nat :=
  ((Text.cutAll '.' host).mapM hostPart?).bind (joinParts? 4)

/-! ## 128 bits -/

/-- The number that is one more than the highest group. -/
def groupLimit : Nat := 65536

/-- A number of at most so many digits. -/
def shortNumber? (base digits : Nat) (cs : List Char) : Option Nat :=
  if cs.length ≤ digits then numberIn? base cs else none

/-- A byte in decimal, without a zero in front. -/
def plainByte? (cs : List Char) : Option Nat :=
  if cs.length ≠ 1 ∧ cs.head? = some '0' then none
  else (shortNumber? 10 3 cs).filter (· < byteLimit)

/-- The two groups that four bytes are. -/
def byteGroups? (cs : List Char) : Option (List Nat) :=
  match (Text.cutAll '.' cs).mapM plainByte? with
  | some [a, b, c, d] => some [byteLimit * a + b, byteLimit * c + d]
  | _ => none

/-- The groups in a list of texts. Only the last may be written as bytes, and only `atEnd`. -/
def groups? (atEnd : Bool) : List (List Char) → Option (List Nat)
  | [] => some []
  | [cs] =>
    match shortNumber? 16 4 cs with
    | some n => some [n]
    | none => if atEnd then byteGroups? cs else none
  | cs :: rest => do
    let n ← shortNumber? 16 4 cs
    let ns ← groups? atEnd rest
    some (n :: ns)

/-- The groups in a text with a colon between any two. -/
def groupsIn? (atEnd : Bool) (cs : List Char) : Option (List Nat) :=
  if cs.isEmpty then some [] else groups? atEnd (Text.cutAll ':' cs)

/-- The groups of a number, of which there are eight. -/
def wideGroups? (cs : List Char) : Option (List Nat) :=
  match Text.from? [':', ':'] cs with
  | none => (groupsIn? true cs).filter (·.length == 8)
  | some gap => do
    let before ← groupsIn? false (cs.take (cs.length - gap.length))
    let behind ← groupsIn? true (gap.drop 2)
    let written := before.length + behind.length
    if written < 8 then some (before ++ List.replicate (8 - written) 0 ++ behind) else none

def joinGroups (groups : List Nat) : Nat := groups.foldl (groupLimit * · + ·) 0

/-- Whether a text is the number of an interface. -/
def isInterface (cs : List Char) : Bool :=
  (numberIn? 10 cs).any (· < groupLimit * groupLimit)

/-- The number that a host is, with the number of an interface behind a percent sign or without. -/
def wideNumber? (host : List Char) : Option Nat :=
  match Text.cutFirst? '%' host with
  | none => (wideGroups? host).map joinGroups
  | some (cs, interface) => if isInterface interface then (wideGroups? cs).map joinGroups else none

end Bulletin.Http
