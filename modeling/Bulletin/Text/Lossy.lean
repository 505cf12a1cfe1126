/-!
# Text from bytes that may not be text

Bytes are decoded as UTF-8. A sequence that breaks off, or that a byte does not continue, becomes
one replacement character, and decoding goes on with the byte that broke it:

    decode [0x61, 0xE2, 0x82, 0x62] = ['a', '\uFFFD', 'b']
    decode [0xFF, 0xFE]             = ['\uFFFD', '\uFFFD']
-/

namespace Bulletin.Text

def replacement : Char := '\uFFFD'

/-- A sequence that has been begun: the bits read, how many bytes are missing, and between which
bounds the next must be. -/
structure Begun where
  bits : Nat
  missing : Nat
  low : UInt8
  high : UInt8
  deriving DecidableEq, Repr, Inhabited

/-- What a byte does to a text. -/
inductive Step where
  | char (c : Char)
  | begun (s : Begun)
  deriving DecidableEq, Repr, Inhabited

/-- A byte at the start of a sequence. -/
def start (b : UInt8) : Step :=
  if b < 0x80 then .char (Char.ofNat b.toNat)
  else if 0xC2 ≤ b && b ≤ 0xDF then .begun ⟨b.toNat - 0xC0, 1, 0x80, 0xBF⟩
  else if b == 0xE0 then .begun ⟨0, 2, 0xA0, 0xBF⟩
  else if b == 0xED then .begun ⟨0xD, 2, 0x80, 0x9F⟩
  else if 0xE1 ≤ b && b ≤ 0xEF then .begun ⟨b.toNat - 0xE0, 2, 0x80, 0xBF⟩
  else if b == 0xF0 then .begun ⟨0, 3, 0x90, 0xBF⟩
  else if 0xF1 ≤ b && b ≤ 0xF3 then .begun ⟨b.toNat - 0xF0, 3, 0x80, 0xBF⟩
  else if b == 0xF4 then .begun ⟨4, 3, 0x80, 0x8F⟩
  else .char replacement

/-- A byte that continues a sequence. -/
def Begun.next (s : Begun) (b : UInt8) : Step :=
  let bits := s.bits * 64 + (b.toNat - 0x80)
  if s.missing ≤ 1 then .char (Char.ofNat bits) else .begun ⟨bits, s.missing - 1, 0x80, 0xBF⟩

/-- The text of bytes behind a sequence that may have been begun. -/
def decodeFrom : Option Begun → List UInt8 → List Char
  | none, [] => []
  | some _, [] => [replacement]
  | none, b :: rest =>
    match start b with
    | .char c => c :: decodeFrom none rest
    | .begun s => decodeFrom (some s) rest
  | some s, b :: rest =>
    if s.low ≤ b && b ≤ s.high then
      match s.next b with
      | .char c => c :: decodeFrom none rest
      | .begun s => decodeFrom (some s) rest
    else
      match start b with
      | .char c => replacement :: c :: decodeFrom none rest
      | .begun s => replacement :: decodeFrom (some s) rest

/-- How many bytes in front are whole characters, behind a sequence that may have been begun, of
which `opened` bytes have been read, and `whole` bytes of characters. -/
def wholeFrom (whole opened : Nat) : Option Begun → List UInt8 → Nat
  | _, [] => whole
  | none, b :: rest =>
    if 0x80 ≤ b && start b == .char replacement then whole
    else
      match start b with
      | .char _ => wholeFrom (whole + 1) 0 none rest
      | .begun s => wholeFrom whole 1 (some s) rest
  | some s, b :: rest =>
    if s.low ≤ b && b ≤ s.high then
      match s.next b with
      | .char _ => wholeFrom (whole + opened + 1) 0 none rest
      | .begun s => wholeFrom whole (opened + 1) (some s) rest
    else whole

/-- How many bytes in front are whole characters. -/
def wholeLength (bytes : List UInt8) : Nat := wholeFrom 0 0 none bytes

def decode (bytes : List UInt8) : String := String.ofList (decodeFrom none bytes)

def encode (s : String) : List UInt8 := s.toUTF8.toList

end Bulletin.Text
