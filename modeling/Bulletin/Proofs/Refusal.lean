import Bulletin.Proofs.Loading

/-!
# Archives that are refused

A refused archive leaves no trace, however it came to be loaded. Whether an archive is refused is a
matter of its own files, and neither of other archives nor of what has been loaded before. So to
load all archives is to ingest those, and only those, that are not refused:

    canIngest_eq_of_agreesAt : only an archive's own files matter
    foldlM_ingestInto        : archives that are not refused are ingested one after the other
    refusals_leave_no_trace  : what loads leave behind that fail, and what those that do not

Here an archive is opened, ingested into what is held, and installed, in three steps.
-/

namespace Bulletin

/-! ## An archive's own files -/

namespace FileTree

/-- In two trees a path leads to the same, of which the same may be read, and so do the paths of
what is listed there. -/
structure AgreesAt (p : Path) (t t' : FileTree) : Prop where
  node : t.at? p = t'.at? p
  contents : t.open? p = t'.open? p
  listing : t.list p = t'.list p
  files : ∀ listing, t.list p = .ok listing →
    ∀ entry ∈ listing, t.open? (p.join entry.1) = t'.open? (p.join entry.1)

end FileTree

namespace Source

variable {p : Path} {t t' : FileTree}

theorem openAt_eq_of_agreesAt (h : FileTree.AgreesAt p t t') (layout : Layout) :
    openAt layout t p = openAt layout t' p := by
  cases layout with
  | tarball =>
    show openTarball t p = openTarball t' p
    unfold openTarball
    rw [h.contents]
  | directory =>
    show openDirectory t p = openDirectory t' p
    unfold openDirectory FileTree.isDirectory
    rw [h.node, h.listing]

-- the paths of files are left alone, or else they would be computed with
attribute [local irreducible] FileTree.open? in
theorem deliverFiles_cons (t : FileTree) (p : Path) (name : RawText) (rest : List RawText) :
    deliverFiles t p (name :: rest) =
      match t.open? (p.join name) with
      | .error _ => ⟨[], some .unreadable⟩
      | .ok node =>
        let payload := match node with
          | .file bytes => some bytes
          | _ => none
        let later := deliverFiles t p rest
        { later with entries := ⟨name.text, payload⟩ :: later.entries } := rfl

theorem deliverFiles_eq {names : List RawText}
    (h : ∀ name ∈ names, t.open? (p.join name) = t'.open? (p.join name)) :
    deliverFiles t p names = deliverFiles t' p names := by
  induction names with
  | nil => rfl
  | cons name rest ih =>
    have hrest := ih fun name hname => h name (List.mem_cons_of_mem _ hname)
    rw [deliverFiles_cons, deliverFiles_cons, h name List.mem_cons_self, hrest]

/-- The names of the files in a directory are those under which files are listed. -/
theorem mem_fileNames_iff {listing : List (RawText × FileNode)} {name : RawText} :
    name ∈ fileNames listing ↔ ∃ bytes, (name, .file bytes) ∈ listing := by
  unfold fileNames
  rw [List.mem_mergeSort, List.mem_filterMap]
  constructor
  · rintro ⟨⟨name', node⟩, hentry, hname⟩
    cases node with
    | file bytes =>
      cases hname
      exact ⟨bytes, hentry⟩
    | directory => cases hname
    | link target => cases hname
  · rintro ⟨bytes, hentry⟩
    exact ⟨_, hentry, rfl⟩

/-- An archive that has been opened delivers the same from both trees. -/
theorem deliver_eq_of_agreesAt (h : FileTree.AgreesAt p t t') {layout : Layout} {source : Source}
    (hopen : openAt layout t p = .ok source) : source.deliver t = source.deliver t' := by
  cases layout with
  | tarball =>
    have htarball : openTarball t p = .ok source := hopen
    unfold openTarball at htarball
    split at htarball
    · cases htarball
      rfl
    · cases htarball
      rfl
    · cases htarball
  | directory =>
    have hdirectory : openDirectory t p = .ok source := hopen
    unfold openDirectory at hdirectory
    split at hdirectory
    · cases hlisting : t.list p with
      | error reason =>
        rw [hlisting] at hdirectory
        cases hdirectory
      | ok listing =>
        rw [hlisting] at hdirectory
        cases hdirectory
        have hfiles :
            deliverFiles t p (fileNames listing) = deliverFiles t' p (fileNames listing) := by
          refine deliverFiles_eq fun name hname => ?_
          obtain ⟨bytes, hentry⟩ := mem_fileNames_iff.mp hname
          exact h.files listing hlisting (name, .file bytes) hentry
        show (deliverFiles t p (fileNames listing), directory p (fileNames listing)) = _
        rw [hfiles]
        rfl
    · cases hdirectory

end Source

/-- What an archive says is a matter of its own files. -/
theorem Issue.read_eq_of_agreesAt {p : Path} {t t' : FileTree} (h : FileTree.AgreesAt p t t')
    (layout : Layout) (period : Period) :
    Issue.read layout t p period = Issue.read layout t' p period := by
  have hopens := Source.openAt_eq_of_agreesAt h layout
  cases hopen : Source.openAt layout t p with
  | error e =>
    unfold Issue.read
    rw [← hopens, hopen]
    rfl
  | ok source =>
    have hopen' : Source.openAt layout t' p = .ok source := hopens.symm.trans hopen
    have hdeliver := Source.deliver_eq_of_agreesAt h hopen
    rw [Issue.read_of_openAt hopen, Issue.read_of_openAt hopen', hdeliver]

namespace ArchiveRoot

/-! ## Ingesting -/

/-- Ingests an archive into what a store holds, and installs the edition that was built. -/
def ingestInto (r : ArchiveRoot) (t : FileTree) (s : Store) (archive : Period × Path) :
    Except ArchiveError Store := do
  let source ← Source.openAt r.layout t archive.2
  let (holdings, e) ← s.holdings.ingest archive.1 (source.deliver t).1
  return { s with holdings }.install archive.1 e

/-- Whether an archive can be ingested into a store. -/
def canIngest (r : ArchiveRoot) (t : FileTree) (s : Store) (archive : Period × Path) : Bool :=
  (r.ingestInto t s archive).isOk

variable (r : ArchiveRoot) (t : FileTree)

/-- To ingest an archive is to publish what it says. -/
theorem ingestInto_eq (s : Store) (archive : Period × Path) :
    r.ingestInto t s archive = (r.attempt t archive).result.map (s.publish archive.1) := by
  have hresult : (r.attempt t archive).result = Issue.read r.layout t archive.2 archive.1 := rfl
  rw [hresult]
  unfold ingestInto
  cases hopen : Source.openAt r.layout t archive.2 with
  | error e =>
    unfold Issue.read
    rw [hopen]
    rfl
  | ok source =>
    have hingest : s.holdings.ingest archive.1 (source.deliver t).1 =
        (Issue.ofDelivery archive.1 (source.deliver t).1).map s.holdings.build := rfl
    rw [Issue.read_of_openAt hopen]
    show (s.holdings.ingest archive.1 (source.deliver t).1 >>= fun built =>
      pure (({ s with holdings := built.1 }).install archive.1 built.2)) = _
    rw [hingest]
    cases Issue.ofDelivery archive.1 (source.deliver t).1 with
    | error e => rfl
    | ok issue => rfl

/-- Whether an archive can be ingested has nothing to do with the store. -/
theorem canIngest_eq_admits (s : Store) : r.canIngest t s = r.admits t := by
  funext archive
  unfold canIngest admits
  rw [ingestInto_eq]
  cases (r.attempt t archive).result with
  | error e => rfl
  | ok issue => rfl

/-- Whether an archive can be ingested is a matter of its own files. -/
theorem canIngest_eq_of_agreesAt {t' : FileTree} {archive : Period × Path}
    (h : FileTree.AgreesAt archive.2 t t') (s s' : Store) :
    r.canIngest t' s' archive = r.canIngest t s archive := by
  have hresult : (r.attempt t archive).result = (r.attempt t' archive).result :=
    Issue.read_eq_of_agreesAt h r.layout archive.1
  rw [canIngest_eq_admits, canIngest_eq_admits]
  unfold admits
  rw [hresult]

/-- Ingesting those archives that are not refused comes to attempting all: the store is the same
before and after an attempt that fails. -/
theorem foldlM_ingestInto (s : Store) (archives : List (Period × Path)) :
    (archives.filter (r.admits t)).foldlM (r.ingestInto t) s =
      .ok (s.afterAttempts (archives.map (r.attempt t))) := by
  induction archives generalizing s with
  | nil => rfl
  | cons archive rest ih =>
    have hone := r.ingestInto_eq t s archive
    rw [List.map_cons]
    cases hresult : (r.attempt t archive).result with
    | error e =>
      have hrefused : ¬ r.admits t archive = true := by
        unfold admits
        rw [hresult]
        intro h
        cases h
      rw [List.filter_cons_of_neg hrefused, Store.afterAttempts_cons_of_error hresult]
      exact ih s
    | ok issue =>
      have hadmitted : r.admits t archive = true := by
        unfold admits
        rw [hresult]
        rfl
      rw [hresult] at hone
      rw [List.filter_cons_of_pos hadmitted, Store.afterAttempts_cons_of_ok hresult,
        List.foldlM_cons, hone]
      exact ih (s.publish archive.1 issue)

variable {r t} {s s' : Store}

/-! ## What loads leave behind -/

theorem store_eq_of_reload_error {period : Period} {e : ArchiveError}
    (h : (r.reload t period).run.run s = (.error e, s')) : s' = s := by
  rw [run_reload] at h
  cases hresult : (r.reloadAttempt t period).result with
  | ok issue =>
    rw [hresult] at h
    cases h
  | error e' =>
    rw [hresult, Store.afterAttempts_cons_of_error hresult] at h
    cases h
    rfl

/-- Where no period is loaded again, neither the files nor the store are touched. -/
theorem site_eq_of_handleTrigger {trigger : Path} {site site' : Site}
    {result : Except ArchiveError (Option Period)}
    (h : (r.handleTrigger trigger).run.run site = (result, site'))
    (hresult : ∀ period, result ≠ .ok (some period)) : site' = site := by
  have hrun := r.run_handleTrigger trigger site
  cases hasked : r.asked? site.files trigger with
  | some period =>
    rw [hasked] at hrun
    rw [hrun] at h
    cases h
    exact absurd rfl (hresult period)
  | none =>
    rw [hasked] at hrun
    obtain ⟨result', -, hsame⟩ := hrun
    rw [hsame] at h
    cases h
    rfl

/-- Loading all archives fails and changes nothing, or it says of each archive what became of it and
leaves the store warm behind the attempts. -/
theorem loadAll_cases (r : ArchiveRoot) (t : FileTree) (s : Store) :
    (∃ e, (r.loadAll t).run.run s = (.error e, s)) ∨
      ∃ archives, r.discover t = .ok archives ∧
        (r.loadAll t).run.run s =
          (.ok ⟨(archives.filter (r.admits t)).map Prod.fst,
              (archives.filter fun archive => !r.admits t archive).map Prod.fst⟩,
            { s.afterAttempts (archives.map (r.attempt t)) with phase := .warm }) := by
  have hrun := r.run_loadAll t s
  by_cases hroot : t.isDirectory r.path
  · rw [if_pos hroot] at hrun
    cases hdiscover : r.discover t with
    | error e =>
      rw [hdiscover] at hrun
      exact .inl ⟨e, hrun⟩
    | ok archives =>
      rw [hdiscover] at hrun
      exact .inr ⟨archives, rfl, hrun⟩
  · rw [if_neg hroot] at hrun
    exact .inl ⟨_, hrun⟩

theorem store_eq_of_loadAll_error {e : LoadError}
    (h : (r.loadAll t).run.run s = (.error e, s')) : s' = s := by
  rcases r.loadAll_cases t s with ⟨e', hrun⟩ | ⟨archives, -, hrun⟩
  · rw [hrun] at h
    cases h
    rfl
  · rw [hrun] at h
    cases h

/-- A complete load comes to ingesting the archives that are not refused. -/
theorem exists_of_loadAll_ok {summary : LoadSummary}
    (h : (r.loadAll t).run.run s = (.ok summary, s')) :
    ∃ archives, r.discover t = .ok archives ∧
      summary.loaded = (archives.filter (r.admits t)).map Prod.fst ∧
      summary.failed = (archives.filter fun archive => !r.admits t archive).map Prod.fst ∧
      ∃ s'', (archives.filter (r.admits t)).foldlM (r.ingestInto t) s = .ok s'' ∧
        s' = { s'' with phase := .warm } := by
  rcases r.loadAll_cases t s with ⟨e, hrun⟩ | ⟨archives, hdiscover, hrun⟩
  · rw [hrun] at h
    cases h
  · have hall := r.foldlM_ingestInto t s archives
    rw [hrun] at h
    cases h
    exact ⟨archives, hdiscover, rfl, rfl, _, hall, rfl⟩

/-- A load that fails leaves everything as it was. A complete load leaves what ingesting one after
the other the archives leaves that can be ingested; and whether one can be is a matter of its own
files only. -/
theorem refusals_leave_no_trace (r : ArchiveRoot) (t : FileTree) (s : Store) :
    (∀ period e s', (r.reload t period).run.run s = (.error e, s') → s' = s) ∧
      (∀ trigger result site, (r.handleTrigger trigger).run.run ⟨t, s⟩ = (result, site) →
        (∀ period, result ≠ .ok (some period)) → site = ⟨t, s⟩) ∧
      (∀ e s', (r.loadAll t).run.run s = (.error e, s') → s' = s) ∧
      (∀ summary s', (r.loadAll t).run.run s = (.ok summary, s') →
        ∃ archives, r.discover t = .ok archives ∧
          summary.loaded = (archives.filter (r.canIngest t s)).map Prod.fst ∧
          summary.failed = (archives.filter fun archive => !r.canIngest t s archive).map Prod.fst ∧
          ∃ s'', (archives.filter (r.canIngest t s)).foldlM (r.ingestInto t) s = .ok s'' ∧
            s' = { s'' with phase := .warm }) ∧
      ∀ t' s' archive, FileTree.AgreesAt archive.2 t t' →
        r.canIngest t' s' archive = r.canIngest t s archive := by
  refine ⟨?_, ?_, ?_, ?_, ?_⟩
  · intro period e s' h
    exact store_eq_of_reload_error h
  · intro trigger result site h hresult
    exact site_eq_of_handleTrigger h hresult
  · intro e s' h
    exact store_eq_of_loadAll_error h
  · intro summary s' h
    rw [canIngest_eq_admits]
    exact exists_of_loadAll_ok h
  · intro t' s' archive h
    exact r.canIngest_eq_of_agreesAt t h s s'

/-- The archives of two periods; that of the second is without metadata. -/
def oneEmptyArchive : FileTree :=
  ⟨[(["a"], .directory), (["a", "1"], .directory), (["a", "2"], .directory),
    (["a", "1", "raw.json"],
      .file "\x7b\"started\":1,\"updated\":2,\"data\":\x7b\x7d\x7d".toUTF8.toList)], [], []⟩

theorem discover_oneEmptyArchive :
    (⟨⟨"a"⟩, .directory⟩ : ArchiveRoot).discover oneEmptyArchive =
      .ok [(1, ⟨"a/1"⟩), (2, ⟨"a/2"⟩)] := by
  have hlist : oneEmptyArchive.list ⟨"a"⟩ = .ok [("1", .directory), ("2", .directory)] := rfl
  unfold discover
  rw [hlist]
  dsimp only
  rw [List.mergeSort_of_pairwise (by decide +kernel)]
  rfl

/-- The second archive cannot be loaded again, nothing is loaded for the sake of a note or from
elsewhere, and of all archives only the first is loaded, which does not need the second. -/
theorem refusals_leave_no_trace_second :
    let r : ArchiveRoot := ⟨⟨"a"⟩, .directory⟩
    let elsewhere : ArchiveRoot := ⟨⟨"b"⟩, .directory⟩
    let t := oneEmptyArchive
    let s := Store.empty
    (∃ e, (r.reload t 2).run.run s = (.error e, s)) ∧
      (r.handleTrigger ⟨"a/note"⟩).run.run ⟨t, s⟩ = (.ok none, ⟨t, s⟩) ∧
      (elsewhere.loadAll t).run.run s = (.error (.noRoot ⟨"b"⟩), s) ∧
      (∃ s' s'', (r.loadAll t).run.run s = (.ok ⟨[1], [2]⟩, s') ∧
        r.ingestInto t s (1, ⟨"a/1"⟩) = .ok s'' ∧ s' = { s'' with phase := .warm }) ∧
      r.canIngest (t.remove ⟨"a/2"⟩) s (1, ⟨"a/1"⟩) := by
  intro r elsewhere t s
  obtain ⟨hreload, htrigger, -, hload, hown⟩ := refusals_leave_no_trace r t s
  obtain ⟨-, -, helsewhere, -⟩ := refusals_leave_no_trace elsewhere t s
  have hfirst : r.canIngest t s (1, ⟨"a/1"⟩) = true := by decide +kernel
  have hsecond : r.canIngest t s (2, ⟨"a/2"⟩) = false := by decide +kernel
  refine ⟨?_, ?_, ?_, ?_, ?_⟩
  · cases hresult : (r.reloadAttempt t 2).result with
    | ok issue =>
      have hrefused : ¬ (r.reloadAttempt t 2).result.isOk = true := by decide +kernel
      rw [hresult] at hrefused
      exact absurd rfl hrefused
    | error e =>
      have herror : ((r.reload t 2).run.run s).1 = .error e := by
        rw [run_reload, hresult]
        rfl
      exact ⟨e, Prod.ext herror (hreload 2 e _ (Prod.ext herror rfl))⟩
  · have hnone : ((r.handleTrigger ⟨"a/note"⟩).run.run ⟨t, s⟩).1 = .ok none := rfl
    exact Prod.ext hnone (htrigger ⟨"a/note"⟩ (.ok none) _ (Prod.ext hnone rfl) (by simp))
  · have herror : ((elsewhere.loadAll t).run.run s).1 = .error (.noRoot ⟨"b"⟩) := by
      rw [run_loadAll, if_neg (by decide +kernel)]
    exact Prod.ext herror (helsewhere _ _ (Prod.ext herror rfl))
  · have hdiscover := discover_oneEmptyArchive
    have hok : ((r.loadAll t).run.run s).1 = .ok ⟨[1], [2]⟩ := by
      rw [run_loadAll, if_pos (by decide +kernel), hdiscover, ← r.canIngest_eq_admits t s]
      simp [hfirst, hsecond]
    obtain ⟨archives, hfound, -, -, s'', hfold, hs'⟩ := hload _ _ (Prod.ext hok rfl)
    rw [hdiscover] at hfound
    cases hfound
    refine ⟨_, s'', Prod.ext hok rfl, ?_, hs'⟩
    simpa [hfirst, hsecond] using hfold
  · have hagrees : FileTree.AgreesAt ⟨"a/1"⟩ t (t.remove ⟨"a/2"⟩) := by
      refine ⟨rfl, rfl, rfl, fun listing hlisting entry hentry => ?_⟩
      cases hlisting
      rw [List.mem_singleton.mp hentry]
      rfl
    rw [hown _ s (1, ⟨"a/1"⟩) hagrees]
    exact hfirst

end ArchiveRoot

end Bulletin
