import Bulletin.Archive.Issue
import Bulletin.Archive.Layout
import Bulletin.Files.Tree
import Bulletin.Tarball.Member

/-!
# Opened archives

Both kinds of archives deliver entries. A tarball keeps what it held when it was opened, and can be
read once only; of a directory the names are those it had when it was opened, in the order of
archives, and the files are read as they are delivered.
-/

namespace Bulletin

/-- An opened archive. -/
inductive Source where
  /-- A compressed archive; `begun` once anything of it has been read. -/
  | tarball (path : Path) (stream : Tarball.Stream) (begun : Bool)
  | directory (path : Path) (names : List RawText)
  deriving DecidableEq, Repr, Inhabited

namespace Source

/-- The names of the files in a directory, in the order that archives have for what they read as. -/
def fileNames (listing : List (RawText × FileNode)) : List RawText :=
  (listing.filterMap fun (name, node) =>
    match node with
    | .file _ => some name
    | _ => none).mergeSort fun a b => EntryName.precedes a.text b.text

/-- Opens a tarball. Of a directory nothing can be read. -/
def openTarball (t : FileTree) (p : Path) : Except ArchiveError Source :=
  match t.open? p with
  | .ok (.file bytes) => .ok (.tarball p (Tarball.Gzip.unpack bytes) false)
  | .ok _ => .ok (.tarball p ⟨[], .failingOnce⟩ false)
  | .error reason => .error (.cannotOpen p.text reason)

def openDirectory (t : FileTree) (p : Path) : Except ArchiveError Source :=
  if t.isDirectory p then
    match t.list p with
    | .ok listing => .ok (.directory p (fileNames listing))
    | .error reason => .error (.cannotOpen p.text (.unlistable p.text reason))
  else .error (.cannotOpen p.text .notDirectory)

def openAt (layout : Layout) (t : FileTree) (p : Path) : Except ArchiveError Source :=
  match layout with
  | .tarball => openTarball t p
  | .directory => openDirectory t p

/-- The kind of an archive. -/
def layout : Source → Layout
  | tarball _ _ _ => .tarball
  | directory _ _ => .directory

/-- Where an archive is. -/
def location : Source → Path
  | tarball p _ _ => p
  | directory p _ => p

/-- What the files of a directory deliver, up to the first that is gone or may not be read. -/
def deliverFiles (t : FileTree) (p : Path) : List RawText → Delivery
  | [] => ⟨[], none⟩
  | name :: rest =>
    match t.open? (p.join name) with
    | .error _ => ⟨[], some .unreadable⟩
    | .ok node =>
      let payload := match node with
        | .file bytes => some bytes
        | _ => none
      let later := deliverFiles t p rest
      { later with entries := ⟨name.text, payload⟩ :: later.entries }

/-- What an archive delivers, and the archive when it has been delivered. -/
def deliver (t : FileTree) : Source → Delivery × Source
  | tarball p stream begun =>
    if begun then (⟨[], some (.cannotOpen p.text .spent)⟩, tarball p stream begun)
    else
      let ending : Tarball.Ending := if stream.ending = .failingOnce then .clean else stream.ending
      (Tarball.deliver stream, tarball p { stream with ending } !stream.bytes.isEmpty)
  | directory p names => (deliverFiles t p names, directory p names)

end Source

def Issue.read (layout : Layout) (t : FileTree) (p : Path) (period : Period) :
    Except ArchiveError Issue := do
  let source ← Source.openAt layout t p
  Issue.ofDelivery period (source.deliver t).1

end Bulletin
