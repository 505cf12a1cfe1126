import Bulletin.Archive.Error
import Bulletin.Files.Path

/-!
# Trees of files

A tree is all that there is at any depth below the root: files, directories, and links to other
paths. A path is looked for part by part, from the root or from the working directory; links are
followed wherever they occur, except, if so wanted, at the very end:

    locate true  "alias/3" : the place that the link `alias` leads to, and there `3`
    locate false "alias"   : the link itself

Not everything that there is may be made use of. A directory that may not be entered leads nowhere,
one that may not be read is not listed, and one that may not be changed keeps what is in it.
-/

namespace Bulletin

/-- What can be at a place in a tree. -/
inductive FileNode where
  | file (bytes : List UInt8)
  | directory
  | link (target : Path)
  deriving DecidableEq, Repr, Inhabited

/-- A place in a tree: the names that lead to it from the root. -/
abbrev Location := List RawText

/-- What may be done at a place. -/
inductive Right where
  /-- A file is opened, or a directory is listed. -/
  | read
  /-- What is in a directory is looked for. -/
  | enter
  /-- What is in a directory is removed. -/
  | change
  deriving DecidableEq, Repr, Inhabited

/-- What there is, in the order in which it was made, the working directory, and what may not be
done. -/
structure FileTree where
  nodes : List (Location × FileNode)
  home : Location
  denied : List (Location × Right)
  deriving DecidableEq, Repr, Inhabited

namespace FileTree

/-- An empty working directory. -/
def empty : FileTree := ⟨[(["work"], .directory)], ["work"], []⟩

/-- What is at a place. -/
def find? (t : FileTree) (l : Location) : Option FileNode :=
  if l = [] then some .directory else (t.nodes.find? fun n => n.1 = l).map Prod.snd

def permits (t : FileTree) (right : Right) (l : Location) : Bool := !t.denied.contains (l, right)

/-- The name of a place that is directly in another. -/
def childName? (parent l : Location) : Option RawText :=
  if l.dropLast = parent then l.getLast? else none

/-- The names of what is directly in a directory. -/
def children (t : FileTree) (l : Location) : List RawText :=
  t.nodes.filterMap fun n => childName? l n.1

/-! ## Finding a place -/

/-- How many links a path may lead through. -/
def maxLinks : Nat := 40

/-- Where a path begins that is followed from a place. -/
def start (l : Location) (p : Path) : Location := if p.isAbsolute then [] else l

/-- Goes from a place along segments, and on with `follow` where a link is to be followed. -/
def walkWith (follow : Location → List RawText → Except OpenFailure Location) (t : FileTree)
    (followLast : Bool) : Location → List RawText → Except OpenFailure Location
  | l, [] => .ok l
  | l, segment :: rest =>
    if segment ≠ "" && !t.permits .enter l then .error .denied
    else
      match Path.part? segment with
      | none | some .root | some .here => walkWith follow t followLast l rest
      | some .up => walkWith follow t followLast l.dropLast rest
      | some (.name name) =>
        match t.find? (l ++ [name]) with
        | none => .error .missing
        | some .directory => walkWith follow t followLast (l ++ [name]) rest
        | some (.file _) => if rest.isEmpty then .ok (l ++ [name]) else .error .throughFile
        | some (.link target) =>
          if rest.isEmpty && !followLast then .ok (l ++ [name])
          else if target.isEmpty then .error .missing
          else follow (start l target) (target.segments ++ rest)

/-- Goes from a place along segments, through a limited number of links. -/
def walk (t : FileTree) (followLast : Bool) :
    Nat → Location → List RawText → Except OpenFailure Location
  | 0 => walkWith (fun _ _ => .error .linkLoop) t followLast
  | links + 1 => walkWith (walk t followLast links) t followLast

/-- The place a path leads to. -/
def locate (t : FileTree) (followLast : Bool) (p : Path) : Except OpenFailure Location :=
  if p.isEmpty then .error .missing
  else walk t followLast maxLinks (start t.home p) p.segments

/-- What a path leads to, links followed. -/
def at? (t : FileTree) (p : Path) : Except OpenFailure FileNode :=
  (t.locate true p).bind fun l =>
    match t.find? l with
    | some n => .ok n
    | none => .error .missing

/-- What can be read at the end of a path. -/
def open? (t : FileTree) (p : Path) : Except OpenFailure FileNode :=
  (t.locate true p).bind fun l =>
    match t.find? l with
    | some n => if t.permits .read l then .ok n else .error .denied
    | none => .error .missing

def exists? (t : FileTree) (p : Path) : Bool := (t.at? p).isOk

def isDirectory (t : FileTree) (p : Path) : Bool :=
  match t.at? p with
  | .ok .directory => true
  | _ => false

/-- The names of what is in the directory that a path leads to, with what they stand for. -/
def list (t : FileTree) (p : Path) : Except OpenFailure (List (RawText × FileNode)) :=
  (t.locate true p).bind fun l =>
    if t.find? l = some .directory && !t.permits .read l then .error .denied
    else .ok ((t.children l).filterMap fun name => (t.find? (l ++ [name])).map fun n => (name, n))

/-! ## Changing a tree -/

/-- Puts something at a place. -/
def put (t : FileTree) (l : Location) (n : FileNode) : FileTree :=
  if t.nodes.any fun m => m.1 = l then
    { t with nodes := t.nodes.map fun m => if m.1 = l then (l, n) else m }
  else { t with nodes := t.nodes ++ [(l, n)] }

/-- Removes what is at a place and below it. -/
def erase (t : FileTree) (l : Location) : FileTree :=
  { t with nodes := t.nodes.filter fun m => !l.isPrefixOf m.1 }

/-- The place where something with a path can be made. -/
def target? (t : FileTree) (p : Path) : Option Location :=
  match t.locate true p with
  | .ok l => some l
  | .error _ => do
    let name ← p.fileName?
    let parent ← p.parent?
    if parent.isEmpty then return t.home ++ [name]
    let l ← (t.locate true parent).toOption
    return l ++ [name]

/-- Makes the directory of a path, in a directory that exists. -/
def makeDirectory (t : FileTree) (p : Path) : FileTree :=
  if t.exists? p then t
  else
    match t.target? p with
    | some l => t.put l .directory
    | none => t

/-- Makes the directory of a path and those it is in. -/
def makeDirectories (t : FileTree) (p : Path) : FileTree :=
  let parts := p.parts
  (List.range (parts.length + 1)).foldl
    (fun t n => t.makeDirectory (Path.ofParts (parts.take n))) t

/-- Makes the directories that the end of a path is in. -/
def makeParents (t : FileTree) (p : Path) : FileTree :=
  match p.parent? with
  | some parent => t.makeDirectories parent
  | none => t

def write (t : FileTree) (p : Path) (bytes : List UInt8) : FileTree :=
  let t := t.makeParents p
  match t.target? p with
  | some l => t.put l (.file bytes)
  | none => t

def link (t : FileTree) (p target : Path) : FileTree :=
  let t := t.makeParents p
  match t.target? p with
  | some l => t.put l (.link target)
  | none => t

/-- Removes what a path leads to, with all that is in it. -/
def remove (t : FileTree) (p : Path) : FileTree :=
  match t.locate false p with
  | .ok l => t.erase l
  | .error _ => t

/-- Removes the file, or the link, that a path leads to, if the directory that it is in may be
changed. -/
def unlink (t : FileTree) (p : Path) : FileTree :=
  match t.locate false p with
  | .ok l =>
    match t.find? l with
    | some (.file _) | some (.link _) => if t.permits .change l.dropLast then t.erase l else t
    | _ => t
  | .error _ => t

end FileTree

end Bulletin
