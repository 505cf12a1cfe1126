import Bulletin.Text.Blank
import Bulletin.Text.Lossy
import Bulletin.Text.Split

/-!
# Headers of archive members

A member of an archive begins with a header of 512 bytes: fields at fixed places, among them a
name, a size in octal digits, and the sum of all bytes, in which the field of the sum itself counts
as blanks.
-/

namespace Bulletin.Tarball

/-- How many bytes a header has, and what all sizes are rounded up to. -/
def blockSize : Nat := 512

/-- The header of a member. -/
structure Header where
  bytes : List UInt8
  deriving DecidableEq, Repr, Inhabited

namespace Header

def field (h : Header) (start length : Nat) : List UInt8 := (h.bytes.drop start).take length

def text (field : List UInt8) : List UInt8 := field.takeWhile (· != 0)

/-- The number below `2 ^ 64` that digits denote in a base of at most ten. A plus sign may come
first. -/
def digits? (base : Nat) (cs : List Char) : Option Nat :=
  let digits := match cs with
    | '+' :: rest => rest
    | cs => cs
  let add (n? : Option Nat) (c : Char) : Option Nat :=
    n?.bind fun n =>
      if '0' ≤ c ∧ c.toNat < '0'.toNat + base then some (base * n + (c.toNat - '0'.toNat)) else none
  if digits.isEmpty then none
  else (digits.foldl add (some 0)).bind fun n => if n < UInt64.size then some n else none

/-- Bytes as text. -/
def chars? (bytes : List UInt8) : Option (List Char) :=
  (String.fromUTF8? (ByteArray.mk bytes.toArray)).map String.toList

/-- The number in a field of octal digits. -/
def number? (field : List UInt8) : Option Nat :=
  (chars? (text field)).bind fun cs => digits? 8 (Text.trim Text.isBlank cs)

def decimal? (bytes : List UInt8) : Option Nat := (chars? bytes).bind (digits? 10)

/-- The number in bytes, the highest first. -/
def bigEndian (bytes : List UInt8) : Nat := bytes.foldl (fun n b => 256 * n + b.toNat) 0

/-- The size of a member. If the highest bit of the field is set, it is not written in digits. -/
def size? (h : Header) : Option Nat :=
  let field := h.field 124 12
  if 0x80 ≤ field.headD 0 then some (bigEndian (field.drop 4)) else number? field

def sum (h : Header) : Nat :=
  let add := fun (n : Nat) (b : UInt8) => n + b.toNat
  (h.bytes.drop 156).foldl add ((h.bytes.take 148).foldl add (8 * 32))

/-- Whether the sum of a header is right. -/
def isSound (h : Header) : Bool :=
  match number? (h.field 148 8) with
  | some n => n % UInt32.size == h.sum
  | none => false

def isZero (h : Header) : Bool := h.bytes.all (· == 0)

def kind (h : Header) : Char := Char.ofNat ((h.field 156 1).headD 0).toNat

/-- Whether the kind is one of those that describe other members. -/
def describes (h : Header) : Bool := ['L', 'K', 'x', 'g'].contains h.kind

/-- The mark of the standard form of headers, with its version. -/
def standardMark : List UInt8 := Text.encode "ustar\x0000"

/-- The mark of the older form of headers. -/
def olderMark : List UInt8 := Text.encode "ustar  \x00"

def isStandard (h : Header) : Bool := h.field 257 8 == standardMark

/-- Whether a header has the older form, which knows members with gaps. -/
def isOlder (h : Header) : Bool := h.field 257 8 == olderMark

def name (h : Header) : List UInt8 :=
  let name := h.field 0 100
  let directory := text (h.field 345 155)
  let slash : UInt8 := 0x2F
  if h.isStandard && !directory.isEmpty then directory ++ slash :: text name else text name

end Header

end Bulletin.Tarball
