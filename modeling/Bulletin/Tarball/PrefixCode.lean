/-!
# Prefix codes

A code is a tree: a bit chooses a branch, and a leaf is a symbol. It is given by the lengths of the
codes of all symbols; no symbol is read without a bit. Shorter codes come first, and among those of
one length the smaller symbols:

    ofLengths? [2, 1, 2] : 0 is symbol 1, 10 is symbol 0, 11 is symbol 2
-/

namespace Bulletin.Tarball

inductive PrefixCode where
  /-- No symbol has a code that begins like this. -/
  | unused
  | symbol (n : Nat)
  | fork (zero one : PrefixCode)
  deriving DecidableEq, Repr, Inhabited

namespace PrefixCode

/-- The longest that a code can be. -/
def maxLength : Nat := 15

/-- Gives a symbol the code whose bits are, highest first, the lowest of a number. -/
def insert (n : Nat) (bits : Nat) : Nat → PrefixCode → PrefixCode
  | 0, _ => symbol n
  | length + 1, tree =>
    let (zero, one) := match tree with
      | fork zero one => (zero, one)
      | _ => (unused, unused)
    if bits.testBit length then fork zero (insert n bits length one)
    else fork (insert n bits length zero) one

def symbolsOf (lengths : List Nat) (length : Nat) : List Nat :=
  lengths.zipIdx.filterMap fun (l, n) => if l = length then some n else none

/-- Gives codes of one length to symbols, from a first code on. -/
def insertAll (length first : Nat) (symbols : List Nat) (tree : PrefixCode) : PrefixCode :=
  symbols.zipIdx.foldl (fun tree (n, k) => insert n (first + k) length tree) tree

def ofLengths (lengths : List Nat) : PrefixCode :=
  ((List.range maxLength).foldl (fun (first, tree) k =>
    let symbols := symbolsOf lengths (k + 1)
    ((first + symbols.length) * 2, insertAll (k + 1) first symbols tree))
    (0, fork unused unused)).2

/-- How much of all codes of the greatest length is used up. -/
def used (lengths : List Nat) : Nat :=
  lengths.foldl (fun n l => if l = 0 then n else n + Nat.pow 2 (maxLength - l)) 0

/-- Whether every text of bits has exactly one reading in the code with given lengths. -/
def isComplete (lengths : List Nat) : Bool := used lengths == Nat.pow 2 maxLength

/-- Whether there is at most one symbol, with a code of one bit. -/
def isTrivial (lengths : List Nat) : Bool :=
  (lengths.filter (· ≠ 0)).length ≤ 1 && lengths.all (· ≤ 1)

end PrefixCode

end Bulletin.Tarball
