import Bulletin.Tarball.PrefixCode

/-!
# Inflating compressed bytes

Compressed bytes are a run of blocks, read bit by bit, lowest bit first. A block is stored as it
is, or it is a run of symbols of a prefix code, each a byte or the order to repeat earlier bytes.
Before the first byte there are zeros, as far back as one can go.

A file is inflated in turns. A turn ends when the window is full and another byte is to be written,
or when the part of the file that has been fetched is used up, and hands over what it has inflated.
Damage takes with it what the turn in which it is found has inflated. Where the bytes end too early,
all of them count, unless the turn began at the end of the file.
-/

namespace Bulletin.Tarball

/-- What keeps bytes from being inflated. -/
inductive InflateFault where
  /-- The bytes end too early. -/
  | cut
  | damaged
  deriving DecidableEq, Repr, Inhabited

/-- How many inflated bytes are held at a time. -/
def windowSize : Nat := 32768

/-- How much of a file is fetched at a time. -/
def fetchSize : Nat := 32768

/-- What is left to be inflated, and what has been. -/
structure Inflation where
  /-- The place of the next byte in the file. -/
  offset : Nat
  bytes : List UInt8
  /-- How many bits of the first byte have been read. -/
  used : Nat := 0
  out : Array UInt8 := #[]
  /-- How much has been handed over at the ends of turns. -/
  handed : Nat := 0
  /-- How much will have been inflated when the window is full. -/
  limit : Nat := windowSize
  /-- The turn began by fetching, since nothing that had been fetched was left. -/
  fetching : Bool := false
  deriving Inhabited

namespace Inflation

/-- Whether the bytes that have been fetched are used up. -/
def isUsedUp (s : Inflation) : Bool :=
  if s.used = 0 then s.bytes.isEmpty || s.offset % fetchSize == 0
  else (s.bytes.drop 1).isEmpty || (s.offset + 1) % fetchSize == 0

/-- Begins a turn. -/
def nextTurn (s : Inflation) : Inflation :=
  { s with
    handed := s.out.size
    limit := if s.out.size = s.limit then s.limit + windowSize else s.limit
    fetching := false }

/-- Makes room for a byte: a full window ends the turn. -/
def makeRoom (s : Inflation) : Inflation :=
  if s.out.size = s.limit then { s.nextTurn with fetching := s.isUsedUp } else s

/-- Makes sure that a new byte has been fetched: fetching ends the turn, unless it began with it. -/
def fetch (s : Inflation) : Inflation :=
  if s.offset % fetchSize ≠ 0 then s
  else if s.fetching then { s with fetching := false }
  else s.nextTurn

/-- Goes on to the next byte. -/
def advance (s : Inflation) : Inflation :=
  { s with bytes := s.bytes.drop 1, offset := s.offset + 1, used := 0 }

/-- What can be had of the inflated bytes when there is a fault behind them. -/
def salvaged (s : Inflation) : InflateFault → Array UInt8
  | .damaged => s.out.extract 0 s.handed
  | .cut => if s.fetching then s.out.extract 0 s.handed else s.out

abbrev Step := EStateM InflateFault Inflation

def bit : Step Bool := fun s =>
  match s.bytes with
  | [] => .error .cut s
  | b :: _ =>
    let value := b.toNat.testBit s.used
    let s := if s.used = 0 then s.fetch else s
    .ok value (if s.used < 7 then { s with used := s.used + 1 } else s.advance)

/-- Reads a number of some bits, lowest first. -/
def number : Nat → Step Nat
  | 0 => return 0
  | n + 1 => do
    let low ← bit
    return low.toNat + 2 * (← number n)

def symbol : PrefixCode → Step Nat
  | .unused => throw .damaged
  | .symbol n => return n
  | .fork zero one => do if ← bit then symbol one else symbol zero

/-- Adds a byte. -/
def push (b : UInt8) : Step Unit :=
  modify fun s => let s := s.makeRoom; { s with out := s.out.push b }

/-- The byte some distance back. -/
def earlier (distance : Nat) : Step UInt8 := do
  let out := (← get).out
  return if distance ≤ out.size then out.getD (out.size - distance) 0 else 0

/-- Repeats bytes from some distance back. -/
def repeatBytes (distance : Nat) : Nat → Step Unit
  | 0 => return
  | n + 1 => do
    push (← earlier distance)
    repeatBytes distance n

/-! ## Blocks that are stored -/

/-- Takes a byte, at a byte's begin. -/
def byte : Step UInt8 := fun s =>
  match s.bytes with
  | [] => .error .cut s
  | b :: _ => .ok b s.fetch.advance

/-- Copies bytes, each when there is room for it. -/
def copy : Nat → Step Unit
  | 0 => return
  | n + 1 => do
    modify makeRoom
    push (← byte)
    copy n

/-- A number of two bytes, the lower first. -/
def word : Step Nat := do
  let low ← byte
  return low.toNat + 256 * (← byte).toNat

def storedBlock : Step Unit := do
  modify fun s => if s.used = 0 then s else s.advance
  let length ← word
  let complement ← word
  if length + complement ≠ 0xFFFF then throw .damaged
  copy length

/-! ## Blocks of symbols -/

/-- For each symbol of a length: the least length, and how many bits are added to it. -/
def lengthTable : List (Nat × Nat) :=
  [(3, 0), (4, 0), (5, 0), (6, 0), (7, 0), (8, 0), (9, 0), (10, 0), (11, 1), (13, 1), (15, 1),
   (17, 1), (19, 2), (23, 2), (27, 2), (31, 2), (35, 3), (43, 3), (51, 3), (59, 3), (67, 4),
   (83, 4), (99, 4), (115, 4), (131, 5), (163, 5), (195, 5), (227, 5), (258, 0)]

/-- For each symbol of a distance: the least distance, and how many bits are added to it. -/
def distanceTable : List (Nat × Nat) :=
  [(1, 0), (2, 0), (3, 0), (4, 0), (5, 1), (7, 1), (9, 2), (13, 2), (17, 3), (25, 3), (33, 4),
   (49, 4), (65, 5), (97, 5), (129, 6), (193, 6), (257, 7), (385, 7), (513, 8), (769, 8),
   (1025, 9), (1537, 9), (2049, 10), (3073, 10), (4097, 11), (6145, 11), (8193, 12), (12289, 12),
   (16385, 13), (24577, 13)]

def endOfBlock : Nat := 256

/-- Reads the bits that are added to an entry of a table. -/
def lookUp (table : List (Nat × Nat)) (n : Nat) : Step Nat := do
  match table[n]? with
  | some (least, bits) => return least + (← number bits)
  | none => throw .damaged

def symbols (literals distances : PrefixCode) : Nat → Step Unit
  | 0 => throw .cut
  | fuel + 1 => do
    let n ← symbol literals
    if n < endOfBlock then
      push n.toUInt8
      symbols literals distances fuel
    else if n = endOfBlock then return
    else
      let length ← lookUp lengthTable (n - endOfBlock - 1)
      let distance ← lookUp distanceTable (← symbol distances)
      repeatBytes distance length
      symbols literals distances fuel

/-- The lengths of the fixed code of literals. -/
def fixedLiterals : List Nat :=
  List.replicate 144 8 ++ List.replicate 112 9 ++ List.replicate 24 7 ++ List.replicate 8 8

/-- The lengths of the fixed code of distances. -/
def fixedDistances : List Nat := List.replicate 32 5

/-- The order in which the lengths of the code of lengths are given. -/
def lengthOrder : List Nat :=
  [16, 17, 18, 0, 8, 7, 9, 6, 10, 5, 11, 4, 12, 3, 13, 2, 14, 1, 15]

def threeBits : Nat → Step (List Nat)
  | 0 => return []
  | n + 1 => do
    let first ← number 3
    return first :: (← threeBits n)

/-- The lengths of two codes, one behind the other, as a code of lengths gives them. -/
def codeLengths (code : PrefixCode) (wanted : Nat) : Nat → List Nat → Step (List Nat)
  | 0, _ => throw .damaged
  | fuel + 1, read => do
    if wanted < read.length then throw .damaged
    else if read.length = wanted then return read.reverse
    else
      let n ← symbol code
      if n < 16 then codeLengths code wanted fuel (n :: read)
      else if n = 16 then
        match read.head? with
        | none => throw .damaged
        | some last =>
          let times ← number 2
          codeLengths code wanted fuel (List.replicate (3 + times) last ++ read)
      else if n = 17 then
        let times ← number 3
        codeLengths code wanted fuel (List.replicate (3 + times) 0 ++ read)
      else
        let times ← number 7
        codeLengths code wanted fuel (List.replicate (11 + times) 0 ++ read)

def codeOf (lengths : List Nat) : Step PrefixCode :=
  if PrefixCode.isComplete lengths || PrefixCode.isTrivial lengths then
    return .ofLengths lengths
  else throw .damaged

def lengthCodeOf (lengths : List Nat) : Step PrefixCode :=
  if PrefixCode.isComplete lengths then return .ofLengths lengths else throw .damaged

/-- How many lengths there are at most in the code of literals. -/
def maxLiterals : Nat := 286

/-- How many lengths there are at most in the code of distances. -/
def maxDistances : Nat := 30

/-- The codes that a block brings along. -/
def ownCodes : Step (PrefixCode × PrefixCode) := do
  let literals := 257 + (← number 5)
  let distances := 1 + (← number 5)
  let count := 4 + (← number 4)
  if maxLiterals < literals || maxDistances < distances then throw .damaged
  let given := lengthOrder.zip (← threeBits count)
  let code ← lengthCodeOf <| (List.range 19).map fun n => (given.lookup n).getD 0
  let lengths ← codeLengths code (literals + distances) (literals + distances + 1) []
  return (← codeOf (lengths.take literals), ← codeOf (lengths.drop literals))

/-- How many symbols there can be. -/
def bound : Step Nat := return 8 * (← get).bytes.length + 1

def block : Step Unit := do
  match ← number 2 with
  | 0 => storedBlock
  | 1 => do symbols (.ofLengths fixedLiterals) (.ofLengths fixedDistances) (← bound)
  | 2 => do
    let (literals, distances) ← ownCodes
    symbols literals distances (← bound)
  | _ => throw .damaged

def blocks : Nat → Step Unit
  | 0 => throw .cut
  | fuel + 1 => do
    let last ← bit
    block
    if last then return else blocks fuel

end Inflation

inductive Inflated where
  /-- All has been inflated; what is left behind it. -/
  | whole (out rest : List UInt8)
  /-- There is a fault behind what has been inflated. -/
  | faulty (out : List UInt8)
  deriving DecidableEq, Repr, Inhabited

def inflate (offset : Nat) (bytes : List UInt8) : Inflated :=
  match Inflation.blocks (8 * bytes.length + 1) { offset, bytes } with
  | .ok _ s => .whole s.out.toList (if s.used = 0 then s.bytes else s.bytes.drop 1)
  | .error fault s => .faulty (s.salvaged fault).toList

end Bulletin.Tarball
