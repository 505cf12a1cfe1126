import Bulletin.Loading

/-!
# Reloads on request

A file such as `43.tar.gz.renew` next to an archive asks for that archive to be loaded again. Once
that has been tried, whether or not the archive was refused, the file is removed. If there is no
such archive, the file stays.

    handleTrigger : what is done about one file that has been created
    follow        : what is done about a run of events
-/

namespace Bulletin

/-- The files and the store. -/
structure Site where
  files : FileTree
  store : Store
  deriving DecidableEq, Inhabited

/-- What can happen to files, as it is reported. -/
inductive FileEvent where
  | created (paths : List Path)
  /-- Anything else that happened to files. -/
  | other (paths : List Path)
  /-- Something went wrong in reporting. -/
  | fault
  deriving DecidableEq, Repr, Inhabited

namespace ArchiveRoot

/-- The name of the archive that a file asks to be loaded. -/
def requested? (trigger : Path) : Option String :=
  trigger.fileName?.bind fun name =>
    (Text.beforeTail? triggerSuffix.toList name.text.toList).map String.ofList

/-- Whether a path is that of something directly in the root. -/
def isUnder (r : ArchiveRoot) (t : FileTree) (p : Path) : Bool :=
  match p.parent? with
  | none => false
  | some parent =>
    match t.locate true parent, t.locate true r.path with
    | .ok l, .ok root => l == root
    | _, _ => parent.same r.path

/-- Handles a file that has been created: the period that was to be loaded again, if that was what
the file asked for. -/
def handleTrigger (r : ArchiveRoot) (trigger : Path) :
    ExceptT ArchiveError (StateM Site) (Option Period) := do
  let site ← get
  match requested? trigger with
  | none => return none
  | some name =>
    if !r.isUnder site.files trigger then return none
    match r.layout.periodOf? name with
    | none => throw (.badArchiveName name)
    | some period =>
      match site.files.at? (r.archivePath period) with
      | .error reason => throw (.cannotOpen (r.archivePath period).text reason)
      | .ok _ =>
        let store := ((r.reload site.files period).run.run site.store).2
        set (⟨site.files.unlink trigger, store⟩ : Site)
        return some period

/-- Handles files that have been created, one after the other. -/
def handleAll (r : ArchiveRoot) (paths : List Path) : StateM Site Unit :=
  paths.forM fun p => do
    let _ ← (r.handleTrigger p).run

/-- Handles an event. Only what has been created matters. -/
def handleEvent (r : ArchiveRoot) : FileEvent → StateM Site Unit
  | .created paths => r.handleAll paths
  | .other _ | .fault => return

def follow (r : ArchiveRoot) (events : List FileEvent) : StateM Site Unit :=
  events.forM r.handleEvent

/-- Creates an empty file, and handles that. Nothing is reported of files that are there already, or
that are not directly in the root. -/
def createTrigger (r : ArchiveRoot) (trigger : Path) : StateM Site Unit := do
  let before := (← get).files
  modify fun site => { site with files := site.files.write trigger [] }
  if !before.exists? trigger && r.isUnder (← get).files trigger then
    r.handleEvent (.created [trigger])

end ArchiveRoot

end Bulletin
