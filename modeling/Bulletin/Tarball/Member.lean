import Bulletin.Archive.Entry
import Bulletin.Tarball.Gzip
import Bulletin.Tarball.Header

/-!
# Members of an archive

An archive is a run of members, each a header and its contents, filled up to whole blocks. It ends
with an empty header or where the bytes end. Some members only describe the next one: they give it
a longer name, or properties for which a header has no room.

`read` finds the members, up to the first fault, and `deliver` hands out all but directories as
entries.
-/

namespace Bulletin.Tarball

/-! ## Properties -/

/-- A property in a line such as `12 path=name`, where the number is the length of the line with
the newline behind it. -/
def property? (line : List UInt8) : Option (List UInt8 × List UInt8) :=
  let blank : UInt8 := 0x20
  let equals : UInt8 := 0x3D
  let length := line.takeWhile (· != blank)
  let rest := (line.drop length.length).drop 1
  let key := rest.takeWhile (· != equals)
  if Header.decimal? length = some (line.length + 1) && length.length < line.length &&
      key.length < rest.length then
    some (key, (rest.drop key.length).drop 1)
  else none

/-- The lines of bytes, up to the first that is empty. -/
def lines (bytes : List UInt8) : List (List UInt8) :=
  (Text.cutAll 10 bytes).takeWhile (!·.isEmpty)

def nameIn? (properties : List UInt8) : Option (List UInt8) :=
  ((lines properties).filterMap property?).lookup (Text.encode "path")

/-- The size that properties give. A line that is no property hides all behind it. -/
def sizeIn? (properties : List UInt8) : Option Nat :=
  let sound := ((lines properties).map property?).takeWhile Option.isSome
  (sound.reduceOption.lookup (Text.encode "size")).bind Header.decimal?

/-! ## Members with gaps -/

/-- A piece of a member with gaps: where it is, and how long. -/
structure Piece where
  offset : Nat
  length : Nat
  deriving DecidableEq, Repr, Inhabited

/-- How many bytes describe a piece. -/
def pieceSize : Nat := 24

def pieces? (bytes : List UInt8) : Nat → Option (List Piece)
  | 0 => some []
  | count + 1 => do
    let rest ← pieces? (bytes.drop pieceSize) count
    let offset := bytes.take 12
    let length := (bytes.drop 12).take 12
    if offset.headD 0 = 0 || length.headD 0 = 0 then return rest
    return ⟨← Header.number? offset, ← Header.number? length⟩ :: rest

/-- The blocks behind a header that list more pieces; what is left behind them. -/
def morePieces? : Nat → List UInt8 → Option (List Piece × List UInt8)
  | 0, _ => none
  | fuel + 1, bytes => do
    if bytes.length < blockSize then none
    let pieces ← pieces? bytes 21
    let rest := bytes.drop blockSize
    if (bytes.drop 504).headD 0 = 1 then
      let (more, rest) ← morePieces? fuel rest
      return (pieces ++ more, rest)
    return (pieces, rest)

/-- The contents made of pieces, of which the first `done` bytes have been read and which have
`size - left` bytes in the archive; nothing if the pieces do not fit together. -/
def fill? (size : Nat) : Nat → Nat → List Piece → List UInt8 → Option (List UInt8 × Nat × Nat)
  | done, left, [], _ => some ([], done, left)
  | done, left, p :: rest, bytes => do
    if p.length ≠ 0 && (size - left) % blockSize ≠ 0 then none
    if p.offset < done || left < p.length then none
    let (more, total, left) ← fill? size (p.offset + p.length) (left - p.length) rest
      (bytes.drop p.length)
    return (List.replicate (p.offset - done) 0 ++ bytes.take p.length ++ more, total, left)

/-- The contents of a member with gaps, and what is left behind the list of its pieces. -/
def sparse? (h : Header) (size : Nat) (bytes : List UInt8) : Option (List UInt8 × List UInt8) := do
  if !h.isOlder then none
  let pieces ← pieces? (h.field 386 96) 4
  let (pieces, bytes) ←
    if (h.field 482 1).headD 0 = 1 then
      (morePieces? (bytes.length + 1) bytes).map fun (more, rest) => (pieces ++ more, rest)
    else some (pieces, bytes)
  let (contents, total, left) ← fill? size 0 size pieces bytes
  if Header.number? (h.field 483 12) ≠ some total || left ≠ 0 then none
  return (contents, bytes)

/-! ## Reading -/

/-- What has been said about the next member. -/
structure Description where
  name : Option (List UInt8)
  target : Option (List UInt8)
  properties : Option (List UInt8)
  deriving DecidableEq, Repr, Inhabited

namespace Description

/-- Nothing has been said. -/
def none : Description := ⟨.none, .none, .none⟩

/-- Whether anything has been said. -/
def isSome (d : Description) : Bool := d.name.isSome || d.target.isSome || d.properties.isSome

def nameBytes (d : Description) (h : Header) : List UInt8 :=
  match d.name with
  | some name => if name.getLast? = some 0 then name.dropLast else name
  | .none => (d.properties.bind nameIn?).getD h.name

def nameOf (d : Description) (h : Header) : String := Text.decode (d.nameBytes h)

/-- The size of the member with a header. What has been said counts more than the header, whose
size must be a number all the same; it is not said about members that describe others. -/
def sizeOf? (d : Description) (h : Header) : Option Nat :=
  h.size?.map fun n => if h.describes then n else (d.properties.bind sizeIn?).getD n

end Description

/-- A member as it is read, with its contents if they can be read. -/
structure Reading where
  name : String
  payload : Option (List UInt8)
  isDirectory : Bool
  deriving DecidableEq, Repr, Inhabited

/-- The members of an archive, and what kept more of them from being read. -/
structure Readings where
  members : List Reading
  failure : Option ArchiveError
  deriving DecidableEq, Repr, Inhabited

/-- Readings that end with a fault. -/
def fault : Readings := ⟨[], some .unreadable⟩

/-- A size rounded up to whole blocks. -/
def padded (size : Nat) : Nat := (size + (blockSize - 1)) / blockSize * blockSize

/-- What is read of an archive of `total` bytes from some place on. `fails` says whether there is a
fault behind the bytes. -/
def readFrom (total : Nat) (fails : Bool) : Nat → Description → List UInt8 → Readings
  | 0, _, _ => fault
  | fuel + 1, d, bytes =>
    if bytes.isEmpty && !fails then (if d.isSome then fault else ⟨[], none⟩)
    else if bytes.length < blockSize then fault
    else
      let h : Header := ⟨bytes.take blockSize⟩
      let bytes := bytes.drop blockSize
      if h.isZero then (if d.isSome then fault else ⟨[], none⟩)
      else
        match h.isSound, d.sizeOf? h with
        | true, some size =>
          if UInt64.size ≤ size + (blockSize - 1) ||
              UInt64.size ≤ total - bytes.length + padded size then fault
          else
            let contents : Option (List UInt8) :=
              if fails && bytes.length < size then none else some (bytes.take size)
            let next (d : Description) (bytes : List UInt8) : Readings :=
              if padded size ≤ bytes.length then
                readFrom total fails fuel d (bytes.drop (padded size))
              else fault
            let describe (before : Option (List UInt8)) (d : Description) : Readings :=
              if before.isSome || contents.isNone then fault else next d bytes
            let member (contents : Option (List UInt8)) (bytes : List UInt8) : Readings :=
              let later := next .none bytes
              { later with members := ⟨d.nameOf h, contents, h.kind == '5'⟩ :: later.members }
            match h.kind, h.isStandard || h.isOlder with
            | 'L', true => describe d.name { d with name := contents }
            | 'K', true => describe d.target { d with target := contents }
            | 'x', true => describe d.properties { d with properties := contents }
            | 'S', _ =>
              match sparse? h size bytes with
              | some (filled, rest) => member (contents.map fun _ => filled) rest
              | none => fault
            | _, _ => member contents bytes
        | _, _ => fault

def read (s : Stream) : Readings :=
  readFrom s.bytes.length (s.ending != .clean) (s.bytes.length + 1) .none s.bytes

/-! ## Delivery -/

/-- What a member is delivered as, unless it is a directory. -/
def Reading.entry? (m : Reading) : Option Entry :=
  if m.isDirectory then none
  else
    match Text.afterLead? ['.', '/'] m.name.toList with
    | some rest => some ⟨String.ofList rest, m.payload⟩
    | none => some ⟨m.name, m.payload⟩

def deliver (s : Stream) : Delivery := ⟨(read s).members.filterMap Reading.entry?, (read s).failure⟩

end Bulletin.Tarball
