import Bulletin.Tarball.Member

/-!
# Writing archives

An archive is written member by member, with two empty headers at the end. A name that is too long
for a header is written in front of its member.
-/

namespace Bulletin.Tarball

/-- A member to be written. -/
structure Member where
  name : String
  contents : List UInt8
  isDirectory : Bool
  deriving DecidableEq, Repr, Inhabited

/-- A field of some length, filled up with zeros. -/
def filled (length : Nat) (bytes : List UInt8) : List UInt8 :=
  bytes.take length ++ List.replicate (length - bytes.length) 0

def octal : Nat → Nat → List UInt8
  | 0, _ => []
  | count + 1, n => octal count (n / 8) ++ [(0x30 + n % 8).toUInt8]

/-- The first fields of a header, up to its sum. -/
def headerStart (name : List UInt8) (size : Nat) : List UInt8 :=
  filled 100 name ++ filled 8 (Text.encode "0000644") ++ filled 8 (Text.encode "0000000") ++
    filled 8 (Text.encode "0000000") ++ filled 12 (octal 11 size) ++ filled 12 (octal 11 0)

/-- The last fields of a header, from its kind on. -/
def headerEnd (kind : Char) : List UInt8 :=
  filled 101 [kind.toNat.toUInt8] ++ filled 255 Header.olderMark

def header (name : List UInt8) (kind : Char) (size : Nat) : List UInt8 :=
  let blanks : List UInt8 := List.replicate 8 0x20
  let sum := (headerStart name size ++ blanks ++ headerEnd kind).foldl (fun n b => n + b.toNat) 0
  headerStart name size ++ filled 8 (octal 6 sum ++ [0, 0x20]) ++ headerEnd kind

def blocks (contents : List UInt8) : List UInt8 := filled (padded contents.length) contents

/-- The longest name that fits into a header. -/
def maxName : Nat := 100

def packMember (m : Member) : List UInt8 :=
  let name := Text.encode m.name
  let kind := if m.isDirectory then '5' else '0'
  let long := if maxName < name.length then
      let contents := name ++ [0]
      header (Text.encode "././@LongLink") 'L' contents.length ++ blocks contents
    else []
  long ++ header name kind m.contents.length ++ blocks m.contents

def packMembers (members : List Member) : List UInt8 :=
  members.flatMap packMember ++ List.replicate (2 * blockSize) 0

def pack (members : List Member) : List UInt8 := Gzip.pack (packMembers members)

end Bulletin.Tarball
