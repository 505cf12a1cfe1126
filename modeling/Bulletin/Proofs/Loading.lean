import Bulletin.Proofs.Ingestion
import Bulletin.Trigger

/-!
# What loading does to the store

Each way of loading archives is a program over the store. Here is what running it comes to, so that
nothing else has to look inside. All of them attempt to read archives, and publish what those say
that are not refused, one after the other; nothing else happens but that the store is warm after a
complete load.

    run_loadOne, run_reload : one archive
    run_loadAll             : all archives under the root
    run_handleTrigger       : one file that has been created
    run_handleAll           : several such files
    run_follow              : a run of events
-/

namespace Bulletin

/-- Some archive of a period says this. -/
def Issue.IsRead (x : Period × Issue) : Prop := ∃ d, Issue.ofDelivery x.1 d = .ok x.2

/-- Once an archive has been opened, it says what it delivers. -/
theorem Issue.read_of_openAt {layout : Layout} {t : FileTree} {p : Path} {source : Source}
    (h : Source.openAt layout t p = .ok source) (period : Period) :
    Issue.read layout t p period = Issue.ofDelivery period (source.deliver t).1 := by
  unfold Issue.read
  rw [h]
  rfl

/-- A file that may be read is opened as a tarball that is not yet begun. -/
theorem Source.openAt_of_file {t : FileTree} {p : Path} {bytes : List UInt8}
    (h : t.open? p = .ok (.file bytes)) :
    openAt .tarball t p = .ok (.tarball p (Tarball.Gzip.unpack bytes) false) := by
  show openTarball t p = _
  unfold openTarball
  rw [h]

/-- A directory is opened with the names of its files, in the order of archives. -/
theorem Source.openAt_of_list {t : FileTree} {p : Path} {listing : List (RawText × FileNode)}
    (hdirectory : t.isDirectory p) (hlist : t.list p = .ok listing) :
    openAt .directory t p = .ok (.directory p (fileNames listing)) := by
  show openDirectory t p = _
  unfold openDirectory
  rw [if_pos hdirectory, hlist]

/-- A directory delivers its files, in the order of archives. -/
theorem Issue.read_of_list {t : FileTree} {p : Path} {listing : List (RawText × FileNode)}
    (hdirectory : t.isDirectory p) (hlist : t.list p = .ok listing) (period : Period) :
    Issue.read .directory t p period =
      Issue.ofDelivery period (Source.deliverFiles t p (Source.fileNames listing)) :=
  Issue.read_of_openAt (Source.openAt_of_list hdirectory hlist) period

/-- A directory that cannot be listed is refused. -/
theorem Issue.read_of_list_error {t : FileTree} {p : Path} {reason : OpenFailure}
    (hdirectory : t.isDirectory p) (hlist : t.list p = .error reason) (period : Period) :
    Issue.read .directory t p period =
      .error (.cannotOpen p.text (.unlistable p.text reason)) := by
  show (Source.openDirectory t p >>= fun source => Issue.ofDelivery period (source.deliver t).1) = _
  unfold Source.openDirectory
  rw [if_pos hdirectory, hlist]
  rfl

/-- What a tarball says is a matter of what can be read of it. -/
theorem Issue.read_tarball_of_open? {t t' : FileTree} {p : Path} (h : t'.open? p = t.open? p)
    (period : Period) : Issue.read .tarball t' p period = Issue.read .tarball t p period := by
  show (Source.openTarball t' p >>= fun source => Issue.ofDelivery period (source.deliver t').1) =
    (Source.openTarball t p >>= fun source => Issue.ofDelivery period (source.deliver t).1)
  unfold Source.openTarball
  rw [h]
  split <;> rfl

theorem Issue.isRead_of_read {layout : Layout} {t : FileTree} {p : Path} {period : Period}
    {issue : Issue} (h : Issue.read layout t p period = .ok issue) :
    Issue.IsRead (period, issue) := by
  cases hopen : Source.openAt layout t p with
  | error e =>
    unfold Issue.read at h
    rw [hopen] at h
    cases h
  | ok source =>
    rw [Issue.read_of_openAt hopen] at h
    exact ⟨(source.deliver t).1, h⟩

/-- An archive that is to be ingested, as the files are then. -/
structure Attempt where
  layout : Layout
  files : FileTree
  period : Period
  path : Path
  deriving DecidableEq, Repr, Inhabited

namespace Attempt

/-- What the archive says, or why it is refused. -/
def result (a : Attempt) : Except ArchiveError Issue :=
  Issue.read a.layout a.files a.path a.period

/-- The archive is not refused. -/
def Succeeds (a : Attempt) : Prop := a.result.isOk

instance (a : Attempt) : Decidable a.Succeeds := inferInstanceAs (Decidable (a.result.isOk = true))

/-- What is published of the archive. -/
def issue? (a : Attempt) : Option (Period × Issue) :=
  a.result.toOption.map fun issue => (a.period, issue)

theorem issue?_of_ok {a : Attempt} {issue : Issue} (h : a.result = .ok issue) :
    a.issue? = some (a.period, issue) := by
  unfold issue?
  rw [h]
  rfl

theorem issue?_of_error {a : Attempt} {e : ArchiveError} (h : a.result = .error e) :
    a.issue? = none := by
  unfold issue?
  rw [h]
  rfl

theorem isRead_of_issue? {a : Attempt} {x : Period × Issue} (h : a.issue? = some x) :
    Issue.IsRead x := by
  cases hresult : a.result with
  | error e =>
    rw [issue?_of_error hresult] at h
    cases h
  | ok issue =>
    rw [issue?_of_ok hresult] at h
    cases h
    exact Issue.isRead_of_read hresult

end Attempt

namespace Store

/-- Keeps what archives say about periods, one after the other. -/
def publishAll (s : Store) (issues : List (Period × Issue)) : Store :=
  issues.foldl (fun s x => s.publish x.1 x.2) s

theorem phase_publishAll (s : Store) (issues : List (Period × Issue)) :
    (s.publishAll issues).phase = s.phase := by
  induction issues generalizing s with
  | nil => rfl
  | cons x rest ih => exact ih (s.publish x.1 x.2)

/-- The store behind attempts. -/
def afterAttempts (s : Store) (attempts : List Attempt) : Store :=
  s.publishAll (attempts.filterMap Attempt.issue?)

theorem afterAttempts_cons_of_ok {s : Store} {a : Attempt} {issue : Issue}
    (h : a.result = .ok issue) (rest : List Attempt) :
    s.afterAttempts (a :: rest) = (s.publish a.period issue).afterAttempts rest := by
  unfold afterAttempts
  rw [List.filterMap_cons_some (Attempt.issue?_of_ok h)]
  rfl

theorem afterAttempts_cons_of_error {s : Store} {a : Attempt} {e : ArchiveError}
    (h : a.result = .error e) (rest : List Attempt) :
    s.afterAttempts (a :: rest) = s.afterAttempts rest := by
  unfold afterAttempts
  rw [List.filterMap_cons_none (Attempt.issue?_of_error h)]

theorem afterAttempts_append (s : Store) (attempts later : List Attempt) :
    s.afterAttempts (attempts ++ later) = (s.afterAttempts attempts).afterAttempts later := by
  unfold afterAttempts publishAll
  rw [List.filterMap_append, List.foldl_append]

/-- One store comes of another by publishing what some archives say. -/
def GrowsTo (s s' : Store) : Prop :=
  ∃ issues, (∀ x ∈ issues, Issue.IsRead x) ∧ s' = s.publishAll issues

theorem growsTo_afterAttempts (s : Store) (attempts : List Attempt) :
    s.GrowsTo (s.afterAttempts attempts) := by
  refine ⟨attempts.filterMap Attempt.issue?, fun x hx => ?_, rfl⟩
  obtain ⟨a, -, ha⟩ := List.mem_filterMap.mp hx
  exact Attempt.isRead_of_issue? ha

end Store

/-- The files that an event says have been created. -/
def FileEvent.newPaths : FileEvent → List Path
  | created paths => paths
  | other _ | fault => []

namespace ArchiveRoot

/-! ## One archive -/

/-- The attempt to ingest an archive. -/
def attempt (r : ArchiveRoot) (t : FileTree) (archive : Period × Path) : Attempt :=
  ⟨r.layout, t, archive.1, archive.2⟩

/-- The attempt to ingest the archive of a period again. -/
def reloadAttempt (r : ArchiveRoot) (t : FileTree) (period : Period) : Attempt :=
  r.attempt t (period, r.archivePath period)

theorem run_loadOne (r : ArchiveRoot) (t : FileTree) (archive : Period × Path) (s : Store) :
    (r.loadOne t archive.1 archive.2).run.run s =
      ((r.attempt t archive).result.map fun _ => (), s.afterAttempts [r.attempt t archive]) := by
  unfold loadOne
  cases hread : Issue.read r.layout t archive.2 archive.1 with
  | ok issue =>
    have hresult : (r.attempt t archive).result = .ok issue := hread
    rw [hresult, Store.afterAttempts_cons_of_ok hresult]
    rfl
  | error e =>
    have hresult : (r.attempt t archive).result = .error e := hread
    rw [hresult, Store.afterAttempts_cons_of_error hresult]
    rfl

theorem run_reload (r : ArchiveRoot) (t : FileTree) (period : Period) (s : Store) :
    (r.reload t period).run.run s =
      ((r.reloadAttempt t period).result.map fun _ => (),
        s.afterAttempts [r.reloadAttempt t period]) := by
  have hone := r.run_loadOne t (period, r.archivePath period) s
  dsimp only at hone
  unfold reload
  exact hone

/-! ## All archives -/

/-- Whether an archive is not refused. -/
def admits (r : ArchiveRoot) (t : FileTree) (archive : Period × Path) : Bool :=
  (r.attempt t archive).result.isOk

/-- Loading archives notes of each what became of it. -/
theorem run_foldlM_loadInto (r : ArchiveRoot) (t : FileTree) (archives : List (Period × Path))
    (summary : LoadSummary) (s : Store) :
    (archives.foldlM (r.loadInto t) summary : StateM Store LoadSummary).run s =
      (⟨summary.loaded ++ (archives.filter (r.admits t)).map Prod.fst,
        summary.failed ++ (archives.filter fun archive => !r.admits t archive).map Prod.fst⟩,
        s.afterAttempts (archives.map (r.attempt t))) := by
  induction archives generalizing summary s with
  | nil =>
    show (summary, s) = (⟨summary.loaded ++ [], summary.failed ++ []⟩, s)
    rw [List.append_nil, List.append_nil]
  | cons archive rest ih =>
    have hone := r.run_loadOne t archive s
    rw [List.foldlM_cons, StateT.run_bind]
    unfold loadInto
    rw [StateT.run_bind, hone, List.filter_cons, List.filter_cons, List.map_cons]
    unfold admits
    cases hresult : (r.attempt t archive).result with
    | error e =>
      rw [Store.afterAttempts_cons_of_error hresult, Store.afterAttempts_cons_of_error hresult]
      refine (ih ⟨summary.loaded, summary.failed ++ [archive.1]⟩ s).trans ?_
      rw [List.append_assoc]
      rfl
    | ok issue =>
      rw [Store.afterAttempts_cons_of_ok hresult, Store.afterAttempts_cons_of_ok hresult]
      refine (ih ⟨summary.loaded ++ [archive.1], summary.failed⟩
        (s.publish archive.1 issue)).trans ?_
      rw [List.append_assoc]
      rfl

theorem run_loadAll (r : ArchiveRoot) (t : FileTree) (s : Store) :
    (r.loadAll t).run.run s =
      if t.isDirectory r.path then
        match r.discover t with
        | .ok archives =>
          (.ok ⟨(archives.filter (r.admits t)).map Prod.fst,
              (archives.filter fun archive => !r.admits t archive).map Prod.fst⟩,
            { s.afterAttempts (archives.map (r.attempt t)) with phase := .warm })
        | .error e => (.error e, s)
      else (.error (.noRoot r.path), s) := by
  unfold loadAll
  cases t.isDirectory r.path with
  | false => rfl
  | true =>
    cases r.discover t with
    | error e => rfl
    | ok archives =>
      have hall := r.run_foldlM_loadInto t archives ⟨[], []⟩ s
      dsimp only at hall ⊢
      rw [List.nil_append, List.nil_append] at hall
      rw [if_pos rfl]
      show (let out := (archives.foldlM (r.loadInto t) ⟨[], []⟩ : StateM Store LoadSummary).run s
        ((Except.ok out.1 : Except LoadError LoadSummary), { out.2 with phase := .warm })) = _
      rw [hall]

/-! ## Files that have been created -/

/-- The period that a file asks to be loaded again, if its archive is there. -/
def asked? (r : ArchiveRoot) (t : FileTree) (trigger : Path) : Option Period :=
  (requested? trigger).bind fun name =>
    if r.isUnder t trigger then
      (r.layout.periodOf? name).filter fun period => t.exists? (r.archivePath period)
    else none

/-- What is asked for is loaded again, and the file is removed; where nothing is asked for, nothing
happens. -/
theorem run_handleTrigger (r : ArchiveRoot) (trigger : Path) (site : Site) :
    match r.asked? site.files trigger with
    | some period => (r.handleTrigger trigger).run.run site =
        (.ok (some period), ⟨site.files.unlink trigger,
          site.store.afterAttempts [r.reloadAttempt site.files period]⟩)
    | none => ∃ result, (∀ period, result ≠ .ok (some period)) ∧
        (r.handleTrigger trigger).run.run site = (result, site) := by
  have hget (k : Site → ExceptT ArchiveError (StateM Site) (Option Period)) :
      (get >>= k).run.run site = (k site).run.run site := rfl
  unfold handleTrigger asked?
  rw [hget]
  cases requested? trigger with
  | none => exact ⟨.ok none, by simp, rfl⟩
  | some name =>
    dsimp only [Option.bind]
    cases r.isUnder site.files trigger with
    | false => exact ⟨.ok none, by simp, rfl⟩
    | true =>
      cases r.layout.periodOf? name with
      | none => exact ⟨.error (.badArchiveName name), by simp, rfl⟩
      | some period =>
        have hreload := r.run_reload site.files period site.store
        unfold FileTree.exists?
        dsimp only
        cases hat : site.files.at? (r.archivePath period) with
        | error reason =>
          simp only [hat, Option.filter, Except.isOk, Except.toBool]
          exact ⟨.error (.cannotOpen (r.archivePath period).text reason), by simp, rfl⟩
        | ok node =>
          simp only [hat, Option.filter, Except.isOk, Except.toBool]
          show ((Except.ok (some period) : Except ArchiveError (Option Period)),
            (⟨site.files.unlink trigger, ((r.reload site.files period).run.run site.store).2⟩ :
              Site)) = _
          rw [hreload]

/-- The attempts that files ask for, one after the other. A file is removed once it has been
handled, so later ones find other files. -/
def triggered (r : ArchiveRoot) : FileTree → List Path → List Attempt
  | _, [] => []
  | t, trigger :: rest =>
    match r.asked? t trigger with
    | some period => r.reloadAttempt t period :: r.triggered (t.unlink trigger) rest
    | none => r.triggered t rest

-- what is asked for is left alone, or else it would be computed
attribute [local irreducible] asked? in
theorem triggered_cons (r : ArchiveRoot) (t : FileTree) (trigger : Path) (rest : List Path) :
    r.triggered t (trigger :: rest) =
      match r.asked? t trigger with
      | some period => r.reloadAttempt t period :: r.triggered (t.unlink trigger) rest
      | none => r.triggered t rest := rfl

theorem run_handleAll (r : ArchiveRoot) (paths : List Path) (site : Site) :
    ((r.handleAll paths).run site).2.store =
      site.store.afterAttempts (r.triggered site.files paths) := by
  induction paths generalizing site with
  | nil => rfl
  | cons trigger rest ih =>
    have hone := r.run_handleTrigger trigger site
    have hrest := ih ((r.handleTrigger trigger).run.run site).2
    have hcons : ((r.handleAll (trigger :: rest)).run site).2.store =
        ((r.handleAll rest).run ((r.handleTrigger trigger).run.run site).2).2.store := rfl
    rw [hcons, hrest, triggered_cons]
    generalize (r.handleTrigger trigger).run.run site = out at hone
    cases hasked : r.asked? site.files trigger with
    | none =>
      rw [hasked] at hone
      obtain ⟨result, -, rfl⟩ := hone
      rfl
    | some period =>
      rw [hasked] at hone
      cases hone
      exact (Store.afterAttempts_append _ [_] _).symm

/-- To follow events is to handle the files they say have been created. -/
theorem follow_eq_handleAll (r : ArchiveRoot) (events : List FileEvent) :
    r.follow events = r.handleAll (events.flatMap FileEvent.newPaths) := by
  induction events with
  | nil => rfl
  | cons event rest ih =>
    have hevent : r.handleEvent event = r.handleAll event.newPaths := by
      cases event <;> rfl
    have hcons : r.follow (event :: rest) = (do r.handleEvent event; r.follow rest) := rfl
    rw [hcons, hevent, ih, List.flatMap_cons]
    exact List.forM_append.symm

theorem run_follow (r : ArchiveRoot) (events : List FileEvent) (site : Site) :
    ((r.follow events).run site).2.store =
      site.store.afterAttempts (r.triggered site.files (events.flatMap FileEvent.newPaths)) := by
  rw [follow_eq_handleAll]
  exact r.run_handleAll _ site

end ArchiveRoot

end Bulletin
