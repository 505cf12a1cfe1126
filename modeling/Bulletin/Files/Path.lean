import Bulletin.Files.RawText
import Bulletin.Text.Split

/-!
# Paths

A path is bytes whose parts are separated by slashes. Doubled slashes, a slash at the end and parts
that are a single dot say nothing, unless that dot comes first:

    parts "a//b/./c/" = [name "a", name "b", name "c"]
    parts "./a"       = [here, name "a"]
    parts "/a"        = [root, name "a"]
-/

namespace Bulletin

/-- The name of a place among files. -/
structure Path where
  raw : RawText
  deriving DecidableEq, Repr, Inhabited

namespace Path

inductive Part where
  | root
  | here
  | up
  | name (s : RawText)
  deriving DecidableEq, Repr, Inhabited

def slash : UInt8 := 0x2F

def text (p : Path) : String := p.raw.text

def isEmpty (p : Path) : Bool := p.raw.bytes.isEmpty

def segments (p : Path) : List RawText := (Text.cutAll slash p.raw.bytes).map RawText.mk

/-- Whether a path begins at the root of all files. -/
def isAbsolute (p : Path) : Bool := p.raw.bytes.head? == some slash

/-- The part a segment stands for, if it is not the first. -/
def part? (segment : RawText) : Option Part :=
  if segment = "" || segment = "." then none
  else if segment = ".." then some .up
  else some (.name segment)

def parts (p : Path) : List Part :=
  let rest := p.segments.filterMap part?
  if p.isAbsolute then .root :: rest
  else if p.segments.head? == some (RawText.ofString ".") then .here :: rest
  else rest

/-- Whether two paths have the same parts. -/
def same (p q : Path) : Bool := p.parts == q.parts

namespace Part

def raw : Part → RawText
  | root => ""
  | here => "."
  | up => ".."
  | name s => s

end Part

def ofParts (parts : List Part) : Path :=
  if parts = [.root] then ⟨"/"⟩ else ⟨⟨[slash].intercalate (parts.map fun part => part.raw.bytes)⟩⟩

def fileName? (p : Path) : Option RawText :=
  match p.parts.getLast? with
  | some (.name s) => some s
  | _ => none

/-- The path without its last part. -/
def parent? (p : Path) : Option Path :=
  match p.parts.getLast? with
  | none | some .root => none
  | some _ => some (ofParts p.parts.dropLast)

/-- The path of something in a directory. A path that begins at the root stays as it is. -/
def join (directory : Path) (name : RawText) : Path :=
  if name.bytes.head? = some slash || directory.isEmpty then ⟨name⟩
  else if directory.raw.bytes.getLast? = some slash then ⟨directory.raw ++ name⟩
  else ⟨⟨directory.raw.bytes ++ slash :: name.bytes⟩⟩

end Path

end Bulletin
