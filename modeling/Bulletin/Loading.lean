import Bulletin.Archive.Source
import Bulletin.Store

/-!
# Loading archives into the store

All archives under a root are loaded at the start, and later single ones again. An archive that is
refused changes nothing: neither the store nor what other archives put into it.

    discover  : the archives under the root, by period
    loadAll   : loads them one after the other
    reload    : loads one period's archive again
-/

namespace Bulletin

/-- A directory of archives. -/
structure ArchiveRoot where
  path : Path
  layout : Layout
  deriving DecidableEq, Repr, Inhabited

/-- Why archives cannot be loaded at all. -/
inductive LoadError where
  | noRoot (root : Path)
  | cannotList (root : Path)
  deriving DecidableEq, Repr, Inhabited

namespace LoadError

/-- The wording of a refusal. -/
def message : LoadError → String
  | noRoot root => "Archive root does not exist: " ++ root.text
  | cannotList root => "Failed to list archive root: " ++ root.text

end LoadError

/-- Which periods have been loaded and which have not. -/
structure LoadSummary where
  loaded : List Period
  failed : List Period
  deriving DecidableEq, Repr, Inhabited

/-- What the name of a file that asks for a reload ends in. -/
def triggerSuffix : String := ".renew"

namespace ArchiveRoot

def archivePath (r : ArchiveRoot) (period : Period) : Path := r.layout.archivePath r.path period

def isCandidate (layout : Layout) : FileNode → Bool
  | .file _ => layout == .tarball
  | .directory => layout == .directory
  | .link _ => false

def candidate? (r : ArchiveRoot) (name : RawText) (node : FileNode) : Option Period :=
  if isCandidate r.layout node && !Text.endsWith name.text triggerSuffix then
    r.layout.periodOf? name.text
  else none

/-- Whether an archive is listed no later than another. -/
def listedBefore (a b : Period × RawText) : Bool :=
  (compare a.1 b.1).then (compare a.2 b.2) != .gt

/-- The archives under the root, with their paths, by period. -/
def discover (r : ArchiveRoot) (t : FileTree) : Except LoadError (List (Period × Path)) :=
  match t.list r.path with
  | .error _ => .error (.cannotList r.path)
  | .ok listing =>
    let found := listing.filterMap fun (name, node) =>
      (r.candidate? name node).map fun period => (period, name)
    .ok ((found.mergeSort listedBefore).map fun (period, name) => (period, r.path.join name))

def loadOne (r : ArchiveRoot) (t : FileTree) (period : Period) (p : Path) :
    ExceptT ArchiveError (StateM Store) Unit := do
  let issue ← (Issue.read r.layout t p period : Except ArchiveError Issue)
  modify fun s => s.publish period issue

def loadInto (r : ArchiveRoot) (t : FileTree) (summary : LoadSummary) (archive : Period × Path) :
    StateM Store LoadSummary := do
  match ← (r.loadOne t archive.1 archive.2).run with
  | .ok () => return { summary with loaded := summary.loaded ++ [archive.1] }
  | .error _ => return { summary with failed := summary.failed ++ [archive.1] }

def loadAll (r : ArchiveRoot) (t : FileTree) : ExceptT LoadError (StateM Store) LoadSummary := do
  if !t.isDirectory r.path then throw (.noRoot r.path)
  let archives ← (r.discover t : Except LoadError (List (Period × Path)))
  let summary ← (archives.foldlM (r.loadInto t) ⟨[], []⟩ : StateM Store LoadSummary)
  modify fun s => { s with phase := .warm }
  return summary

def reload (r : ArchiveRoot) (t : FileTree) (period : Period) :
    ExceptT ArchiveError (StateM Store) Unit :=
  r.loadOne t period (r.archivePath period)

end ArchiveRoot

end Bulletin
