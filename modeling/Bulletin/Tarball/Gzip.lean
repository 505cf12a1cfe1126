import Bulletin.Tarball.Checksum
import Bulletin.Tarball.Inflate

/-!
# Compressed files

A compressed file has a header, compressed bytes, and behind them their checksum and length. It is
read from front to end, so that all that comes before a fault can be read:

    unpack (pack bytes) = ⟨bytes, .clean⟩

Anything behind the first compressed part is not looked at.
-/

namespace Bulletin.Tarball

/-- What comes behind the bytes that can be read. -/
inductive Ending where
  /-- The end. -/
  | clean
  /-- A fault, every time that more is read. -/
  | failing
  /-- A fault, and from then on the end. -/
  | failingOnce
  deriving DecidableEq, Repr, Inhabited

/-- Bytes that can be read from front to end. -/
structure Stream where
  bytes : List UInt8
  ending : Ending
  deriving DecidableEq, Repr, Inhabited

namespace Gzip

/-- Why a header is refused. -/
inductive HeaderFault where
  | cut
  | malformed
  deriving DecidableEq, Repr, Inhabited

abbrev HeaderReader := StateT (List UInt8) (Except HeaderFault)

/-- Takes some bytes. -/
def take (n : Nat) : HeaderReader (List UInt8) := do
  let s ← get
  if s.length < n then throw .cut
  set (s.drop n)
  return s.take n

/-- The longest name or comment of a header. -/
def maxText : Nat := 65535

/-- Takes bytes up to a zero. -/
def skipText : HeaderReader Unit := do
  let s ← get
  let text := s.takeWhile (· != 0)
  if maxText < text.length then throw .malformed
  if text.length = s.length then throw .cut
  set (s.drop (text.length + 1))

/-- The number in two bytes, the lower first. -/
def word (bytes : List UInt8) : Nat := bytes.foldr (fun b n => b.toNat + 256 * n) 0

/-- Takes the header of a compressed file. -/
def header : HeaderReader Unit := do
  let whole ← get
  let fixed ← take 10
  if fixed.take 3 ≠ [0x1F, 0x8B, 8] then throw .malformed
  let flags := ((fixed.drop 3).headD 0).toNat
  if 32 ≤ flags then throw .malformed
  if flags.testBit 2 then
    let length ← take 2
    let _ ← take (word length)
  if flags.testBit 3 then skipText
  if flags.testBit 4 then skipText
  if flags.testBit 1 then
    let read := whole.take (whole.length - (← get).length)
    let stored ← take 2
    if (checksum read).toNat % 65536 ≠ word stored then throw .malformed

def unpack (file : List UInt8) : Stream :=
  match header.run file with
  | .error .cut => ⟨[], .failing⟩
  | .error .malformed => ⟨[], .failingOnce⟩
  | .ok (_, body) =>
    match inflate (file.length - body.length) body with
    | .faulty out => ⟨out, .failing⟩
    | .whole out rest =>
      if rest.length < 8 then ⟨out, .failing⟩
      else if word (rest.take 4) = (checksum out).toNat ∧
          word ((rest.drop 4).take 4) = out.length % UInt32.size then ⟨out, .clean⟩
      else ⟨out, .failingOnce⟩

/-! ## Writing -/

/-- A number in some bytes, the lowest first. -/
def littleEndian : Nat → Nat → List UInt8
  | 0, _ => []
  | count + 1, n => n.toUInt8 :: littleEndian count (n / 256)

/-- How many bytes a stored block holds at most. -/
def maxBlock : Nat := 65535

/-- Bytes as stored blocks. -/
def store : Nat → List UInt8 → List UInt8
  | 0, _ => []
  | fuel + 1, bytes =>
    let now := bytes.take maxBlock
    let rest := bytes.drop maxBlock
    (if rest.isEmpty then 1 else 0) :: littleEndian 2 now.length ++
      littleEndian 2 (0xFFFF - now.length) ++ now ++
      (if rest.isEmpty then [] else store fuel rest)

def pack (bytes : List UInt8) : List UInt8 :=
  [0x1F, 0x8B, 8, 0, 0, 0, 0, 0, 0, 255] ++ store (bytes.length + 1) bytes ++
    littleEndian 4 (checksum bytes).toNat ++ littleEndian 4 bytes.length

end Gzip

end Bulletin.Tarball
