import Bulletin.Proofs.ArchiveNames
import Bulletin.Proofs.Run
import Bulletin.Proofs.Sorting

/-!
# Loading everything is loading one period after the other

All archives under a root are found by listing it, and the archive of one period by its path. Where
each archive that is found has the path of its period, both come to the same: the periods found are
those whose path leads to an archive, each is found once and in increasing order, and a complete load
does what loading them again one by one does.

    IsAligned.pairwise_periods : no period is found twice
    IsAligned.mem_periods_iff  : which periods are found
    loadAll_eq_reloads         : a complete load is carried out by reloads
-/

namespace Bulletin

namespace ArchiveRoot

variable {r : ArchiveRoot} {t : FileTree}

/-! ## Archives by their names -/

/-- An archive that is found under a name is one of the kind wanted, and its name says its period. -/
theorem candidate?_eq_some_iff {name : RawText} {node : FileNode} {period : Period} :
    r.candidate? name node = some period ↔
      isCandidate r.layout node = true ∧ Text.endsWith name.text triggerSuffix = false ∧
        r.layout.periodOf? name.text = some period := by
  unfold candidate?
  by_cases h : (isCandidate r.layout node && !Text.endsWith name.text triggerSuffix) = true
  · rw [if_pos h]
    rw [Bool.and_eq_true, Bool.not_eq_true'] at h
    simp [h.1, h.2]
  · rw [if_neg h]
    rw [Bool.and_eq_true, Bool.not_eq_true', not_and_or] at h
    constructor
    · intro hnone
      cases hnone
    · rintro ⟨hnode, hname, -⟩
      rcases h with h | h
      · exact absurd hnode h
      · exact absurd hname h

/-! ## What is found -/

/-- The archives in a listing, each with its period. -/
def found (r : ArchiveRoot) (listing : List (RawText × FileNode)) : List (Period × RawText) :=
  listing.filterMap fun (name, node) => (r.candidate? name node).map fun period => (period, name)

theorem mem_found_iff {listing : List (RawText × FileNode)} {period : Period} {name : RawText} :
    (period, name) ∈ r.found listing ↔
      ∃ node, (name, node) ∈ listing ∧ r.candidate? name node = some period := by
  unfold found
  rw [List.mem_filterMap]
  constructor
  · rintro ⟨⟨name', node⟩, hmem, hmap⟩
    obtain ⟨period', hperiod, heq⟩ := Option.map_eq_some_iff.mp hmap
    cases heq
    exact ⟨node, hmem, hperiod⟩
  · rintro ⟨node, hmem, hperiod⟩
    refine ⟨(name, node), hmem, ?_⟩
    dsimp only
    rw [hperiod]
    rfl

/-- The archives in a listing, in their order. -/
def sorted (r : ArchiveRoot) (listing : List (RawText × FileNode)) : List (Period × RawText) :=
  (r.found listing).mergeSort (notBehind archiveOrder)

theorem mem_sorted_iff {listing : List (RawText × FileNode)} {archive : Period × RawText} :
    archive ∈ r.sorted listing ↔ archive ∈ r.found listing := List.mem_mergeSort

theorem discover_of_list {listing : List (RawText × FileNode)} (h : t.list r.path = .ok listing) :
    r.discover t =
      .ok ((r.sorted listing).map fun archive => (archive.1, r.path.join archive.2)) := by
  unfold discover
  rw [h]
  rfl

theorem discover_of_error {reason : OpenFailure} (h : t.list r.path = .error reason) :
    r.discover t = .error (.cannotList r.path) := by
  unfold discover
  rw [h]

/-- What is found does not depend on the order in which files are listed. -/
theorem discover_withNodes (ht : t.IsProper) {nodes : List (Location × FileNode)}
    (hperm : nodes.Perm t.nodes) : r.discover (t.withNodes nodes) = r.discover t := by
  rcases ht.list_withNodes hperm r.path with ⟨reason, hlist', hlist⟩ |
    ⟨listing, listing', hlist', hlist, hsame⟩
  · rw [discover_of_error hlist', discover_of_error hlist]
  · rw [discover_of_list hlist', discover_of_list hlist]
    congr 2
    exact mergeSort_eq_of_perm (hsame.filterMap _)

/-- No name is found twice. -/
theorem pairwise_sorted (ht : t.IsProper) {listing : List (RawText × FileNode)}
    (h : t.list r.path = .ok listing) : (r.sorted listing).Pairwise fun a b => a.2 ≠ b.2 := by
  have hfound : (r.found listing).Pairwise fun a b => a.2 ≠ b.2 := by
    refine ht.pairwise_filterMap h fun entry archive harchive => ?_
    obtain ⟨period, -, rfl⟩ := Option.map_eq_some_iff.mp harchive
    rfl
  exact hfound.perm (List.mergeSort_perm _ (notBehind archiveOrder)).symm Ne.symm

/-- Of the archives that have the written names of their periods none is found twice. -/
theorem pairwise_lt_sorted (ht : t.IsProper) {listing : List (RawText × FileNode)}
    (h : t.list r.path = .ok listing) :
    (r.sorted listing).Pairwise fun a b =>
      a.2 = RawText.ofString (r.layout.archiveName a.1) →
        b.2 = RawText.ofString (r.layout.archiveName b.1) → a.1 < b.1 := by
  have horder : (r.sorted listing).Pairwise fun a b => notBehind archiveOrder a b = true :=
    pairwise_mergeSort_notBehind _
  refine (horder.and (pairwise_sorted ht h)).imp fun {a b} ⟨hab, hne⟩ ha hb => ?_
  rw [ha, hb] at hne
  exact lt_of_notBehind hab fun hperiod => hne (by rw [hperiod])

/-! ## Archives where they are to be -/

/-- Each archive that is found is where the archive of its period is to be. -/
def IsAligned (r : ArchiveRoot) (t : FileTree) : Prop :=
  ∀ archives, r.discover t = .ok archives →
    ∀ archive ∈ archives, archive.2 = r.archivePath archive.1

/-- In the root there is what can be an archive, and not a link to it, under the name of a period's
archive. -/
def HasArchive (r : ArchiveRoot) (t : FileTree) (period : Period) : Prop :=
  ∃ place node, t.locate true r.path = .ok place ∧
    t.find? (place ++ [RawText.ofString (r.layout.archiveName period)]) = some node ∧
    isCandidate r.layout node

/-- If the root may be looked into, that is so if it is what the path of the archive leads to. -/
theorem hasArchive_iff {place : Location} (hlocate : t.locate true r.path = .ok place)
    (hplace : t.find? place = some .directory) (henter : t.permits .enter place = true)
    (period : Period) :
    r.HasArchive t period ↔
      ∃ node, t.entry? (r.archivePath period) = some node ∧ isCandidate r.layout node := by
  have hentry := FileTree.entry?_join hlocate hplace henter
    (Layout.isFileName_archiveName r.layout period)
  constructor
  · rintro ⟨place', node, hlocate', hnode, hcandidate⟩
    rw [hlocate] at hlocate'
    cases hlocate'
    exact ⟨node, hentry.trans hnode, hcandidate⟩
  · rintro ⟨node, hnode, hcandidate⟩
    exact ⟨place, node, hlocate, hentry.symm.trans hnode, hcandidate⟩

/-- The name of an archive that is found is the one that tells its period, and that of a file. -/
theorem isFileName_of_mem_sorted {listing : List (RawText × FileNode)}
    {archive : Period × RawText} (h : archive ∈ r.sorted listing) : IsFileName archive.2 := by
  obtain ⟨node, -, hcandidate⟩ := mem_found_iff.mp (mem_sorted_iff.mp h)
  obtain ⟨-, -, hperiod⟩ := candidate?_eq_some_iff.mp hcandidate
  rw [← Layout.ofString_text_of_periodOf? hperiod]
  exact Layout.isFileName_of_periodOf? hperiod

namespace IsAligned

variable {listing : List (RawText × FileNode)} {place : Location}

/-- Where archives have the paths of their periods, they have the names of their periods. -/
theorem name_eq (halign : r.IsAligned t) (hlocate : t.locate true r.path = .ok place)
    (hlist : t.list r.path = .ok listing) {archive : Period × RawText}
    (h : archive ∈ r.sorted listing) :
    archive.2 = RawText.ofString (r.layout.archiveName archive.1) := by
  have hsame : r.path.join archive.2 = r.path.join (r.layout.archiveName archive.1) :=
    halign _ (discover_of_list hlist) (archive.1, r.path.join archive.2)
      (List.mem_map.mpr ⟨archive, h, rfl⟩)
  exact (Path.join_inj (FileTree.isEmpty_of_locate hlocate) (isFileName_of_mem_sorted h)
    (Layout.isFileName_archiveName _ _)).mp hsame

theorem discover_eq (halign : r.IsAligned t) (hlocate : t.locate true r.path = .ok place)
    (hlist : t.list r.path = .ok listing) :
    r.discover t = .ok (((r.sorted listing).map Prod.fst).map fun period =>
      (period, r.archivePath period)) := by
  rw [discover_of_list hlist, List.map_map]
  congr 1
  refine List.map_congr_left fun archive harchive => ?_
  rw [halign.name_eq hlocate hlist harchive]
  rfl

/-- As no name is found twice, neither is any period. -/
theorem pairwise_periods (halign : r.IsAligned t) (hlocate : t.locate true r.path = .ok place)
    (ht : t.IsProper) (hlist : t.list r.path = .ok listing) :
    ((r.sorted listing).map Prod.fst).Pairwise (· < ·) := by
  rw [List.pairwise_map]
  refine (pairwise_lt_sorted ht hlist).imp_of_mem fun {a b} ha hb hlt => ?_
  exact hlt (halign.name_eq hlocate hlist ha) (halign.name_eq hlocate hlist hb)

theorem mem_periods_iff (halign : r.IsAligned t) (hlocate : t.locate true r.path = .ok place)
    (hlist : t.list r.path = .ok listing) (period : Period) :
    period ∈ (r.sorted listing).map Prod.fst ↔ r.HasArchive t period := by
  have hlisted := FileTree.mem_list_iff hlocate hlist (r.layout.archiveName period)
  constructor
  · intro hmem
    obtain ⟨archive, harchive, rfl⟩ := List.mem_map.mp hmem
    obtain ⟨node, hnode, hcandidate⟩ := mem_found_iff.mp (mem_sorted_iff.mp harchive)
    rw [halign.name_eq hlocate hlist harchive] at hnode
    exact ⟨place, node, hlocate, (hlisted node).mp hnode,
      (candidate?_eq_some_iff.mp hcandidate).1⟩
  · rintro ⟨place', node, hlocate', hnode, hcandidate⟩
    rw [hlocate] at hlocate'
    cases hlocate'
    have hfound : (period, RawText.ofString (r.layout.archiveName period)) ∈ r.found listing := by
      refine mem_found_iff.mpr ⟨node, (hlisted node).mpr hnode, ?_⟩
      rw [candidate?_eq_some_iff, RawText.text_ofString]
      exact ⟨hcandidate, r.layout.not_endsWith_archiveName period,
        r.layout.periodOf?_archiveName period⟩
    exact List.mem_map.mpr ⟨_, mem_sorted_iff.mpr hfound, rfl⟩

end IsAligned

/-! ## Reloads -/

/-- A period has been loaded again if its archive is not refused. -/
theorem zip_runAll_reloads (r : ArchiveRoot) (t : FileTree) (periods : List Period) (s : Store)
    (wanted : Bool → Bool) :
    ((periods.zip (Call.runAll (r.reloads t periods) s).1).filter
        fun x => wanted x.2.isReloaded).map Prod.fst =
      ((periods.map fun period => (period, r.archivePath period)).filter
        fun archive => wanted (r.admits t archive)).map Prod.fst := by
  have hanswer (period : Period) :
      (Answer.reloaded ((r.reloadAttempt t period).result.map fun _ => ())).isReloaded =
        r.admits t (period, r.archivePath period) := by
    show Except.isOk _ = (r.reloadAttempt t period).result.isOk
    cases (r.reloadAttempt t period).result with
    | error e => rfl
    | ok issue => rfl
  rw [runAll_reloads, ← List.map_prod_left_eq_zip, List.filter_map, List.filter_map,
    List.map_map, List.map_map]
  simp only [Function.comp_def, hanswer]

/-- A complete load is carried out if the root leads to a directory that may be read. -/
theorem exists_loadAll_ok_iff (r : ArchiveRoot) (t : FileTree) (s : Store) :
    (∃ summary s', (r.loadAll t).run.run s = (.ok summary, s')) ↔
      ∃ place, t.locate true r.path = .ok place ∧ t.find? place = some .directory ∧
        t.permits .read place = true := by
  rw [run_loadAll]
  by_cases hroot : t.isDirectory r.path
  · obtain ⟨place, hlocate, hplace⟩ := FileTree.exists_place_of_isDirectory hroot
    have hlist := FileTree.list_of_locate hlocate hplace
    rw [if_pos hroot]
    by_cases hread : t.permits .read place = true
    · rw [if_pos hread] at hlist
      rw [discover_of_list hlist]
      exact ⟨fun _ => ⟨place, hlocate, hplace, hread⟩, fun _ => ⟨_, _, rfl⟩⟩
    · rw [if_neg hread] at hlist
      rw [discover_of_error hlist]
      constructor
      · rintro ⟨summary, s', h⟩
        cases h
      · rintro ⟨place', hlocate', -, hread'⟩
        rw [hlocate] at hlocate'
        cases hlocate'
        exact absurd hread' hread
  · rw [if_neg hroot]
    constructor
    · rintro ⟨summary, s', h⟩
      cases h
    · rintro ⟨place, hlocate, hplace, -⟩
      exact absurd (FileTree.isDirectory_of_locate hlocate hplace) hroot

/-- Where each archive that is found is where the archive of its period is to be, a complete load is
carried out if the root leads to a directory that may be read, finds the periods that have an
archive, each once and however the files are listed, and does what loading these again does, one
after the other in increasing order. -/
theorem loadAll_eq_reloads (r : ArchiveRoot) (t : FileTree) (s : Store) (ht : t.IsProper)
    (halign : r.IsAligned t) :
    ((∃ summary s', (r.loadAll t).run.run s = (.ok summary, s')) ↔
        ∃ place, t.locate true r.path = .ok place ∧ t.find? place = some .directory ∧
          t.permits .read place = true) ∧
      (∀ nodes, nodes.Perm t.nodes → r.discover (t.withNodes nodes) = r.discover t) ∧
      (∀ place, t.locate true r.path = .ok place → t.find? place = some .directory →
        t.permits .enter place = true → ∀ period, r.HasArchive t period ↔
          ∃ node, t.entry? (r.archivePath period) = some node ∧ isCandidate r.layout node) ∧
      ∀ summary s', (r.loadAll t).run.run s = (.ok summary, s') →
        ∃ periods : List Period,
          r.discover t = .ok (periods.map fun period => (period, r.archivePath period)) ∧
          periods.Pairwise (· < ·) ∧
          (∀ period, period ∈ periods ↔ r.HasArchive t period) ∧
          let out := Call.runAll (r.reloads t periods) s
          s' = { out.2 with phase := .warm } ∧
            summary.loaded =
              ((periods.zip out.1).filter fun x => x.2.isReloaded).map Prod.fst ∧
            summary.failed =
              ((periods.zip out.1).filter fun x => !x.2.isReloaded).map Prod.fst := by
  refine ⟨r.exists_loadAll_ok_iff t s, fun nodes hperm => discover_withNodes ht hperm,
    fun place hlocate hplace henter => hasArchive_iff hlocate hplace henter, ?_⟩
  intro summary s' h
  obtain ⟨place, hlocate, hplace, hread⟩ := (r.exists_loadAll_ok_iff t s).mp ⟨_, _, h⟩
  have hlist := FileTree.list_of_locate hlocate hplace
  rw [if_pos hread] at hlist
  have hdiscover := halign.discover_eq hlocate hlist
  rw [run_loadAll, if_pos (FileTree.isDirectory_of_locate hlocate hplace), hdiscover] at h
  cases h
  refine ⟨_, hdiscover, halign.pairwise_periods hlocate ht hlist,
    halign.mem_periods_iff hlocate hlist, ?_, (r.zip_runAll_reloads t _ s id).symm,
    (r.zip_runAll_reloads t _ s not).symm⟩
  rw [runAll_reloads, List.map_map]
  rfl

/-- A root with all kinds of things: an archive of the period 1, one of the period 2 that may not be
listed, a file and a link where archives could be, a directory that is none, and one whose name only
reads like that of an archive. -/
def mixedRoot : FileTree :=
  ⟨[(["srv"], .directory), (["srv", "2"], .directory), (["srv", "4"], .link ⟨"/srv/1"⟩),
    (["srv", "notes"], .directory), (["srv", "3"], .file []), (["srv", ⟨[0x31, 0xFF]⟩], .directory),
    (["srv", "1"], .directory), (["home"], .directory),
    (["srv", "1", "raw.json"],
      .file "\x7b\"started\":1,\"updated\":2,\"data\":\x7b\x7d\x7d".toUTF8.toList)],
    ["home"], [(["srv", "2"], .read)]⟩

theorem list_mixedRoot :
    mixedRoot.list ⟨"/srv"⟩ = .ok [("2", .directory), ("4", .link ⟨"/srv/1"⟩), ("notes", .directory),
      ("3", .file []), (⟨[0x31, 0xFF]⟩, .directory), ("1", .directory)] := rfl

theorem discover_mixedRoot :
    (⟨⟨"/srv"⟩, .directory⟩ : ArchiveRoot).discover mixedRoot =
      .ok [(1, ⟨"/srv/1"⟩), (2, ⟨"/srv/2"⟩)] := by
  have hsorted : ([(2, RawText.ofString "2"), (1, RawText.ofString "1")] :
        List (Period × RawText)).mergeSort (notBehind archiveOrder) =
      [(1, RawText.ofString "1"), (2, RawText.ofString "2")] := by
    rw [mergeSort_eq_of_perm (List.Perm.swap _ _ _)]
    exact List.mergeSort_of_pairwise (by decide +kernel)
  rw [discover_of_list list_mixedRoot]
  show Except.ok (([(2, RawText.ofString "2"), (1, RawText.ofString "1")].mergeSort
    (notBehind archiveOrder)).map _) = _
  rw [hsorted]
  rfl

/-- Of these things the first two archives are found, and a complete load does what loading them
again does. If the root may not be listed, there is no complete load. -/
theorem loadAll_eq_reloads_mixedRoot :
    let r : ArchiveRoot := ⟨⟨"/srv"⟩, .directory⟩
    let closed : FileTree := { mixedRoot with denied := [(["srv"], .read)] }
    mixedRoot.IsProper ∧ r.IsAligned mixedRoot ∧
      (r.loadAll mixedRoot).run.run Store.empty =
        (.ok ⟨[1], [2]⟩,
          { (Call.runAll (r.reloads mixedRoot [1, 2]) Store.empty).2 with phase := .warm }) ∧
      r.IsAligned closed ∧
      ¬ ∃ summary s', (r.loadAll closed).run.run Store.empty = (.ok summary, s') := by
  intro r closed
  have hproper : mixedRoot.IsProper := by
    unfold FileTree.IsProper
    decide
  have halign : r.IsAligned mixedRoot := by
    intro archives h
    rw [discover_mixedRoot] at h
    cases h
    decide
  have hfirst : r.admits mixedRoot (1, ⟨"/srv/1"⟩) = true := by decide +kernel
  have hsecond : r.admits mixedRoot (2, ⟨"/srv/2"⟩) = false := by decide +kernel
  obtain ⟨hok, -, -, hall⟩ := r.loadAll_eq_reloads mixedRoot Store.empty hproper halign
  obtain ⟨summary, s', h⟩ := hok.mpr ⟨["srv"], rfl, rfl, by decide⟩
  obtain ⟨periods, hdiscover, -, -, hstore, hloaded, hfailed⟩ := hall summary s' h
  have hperiods : periods = [1, 2] := by
    rw [discover_mixedRoot] at hdiscover
    have hfound := congrArg (List.map Prod.fst) (Except.ok.inj hdiscover)
    rw [List.map_map, List.map_id''] at hfound
    · exact hfound.symm
    · intro period
      rfl
  subst hperiods
  have hpaths : ([1, 2] : List Period).map (fun period => (period, r.archivePath period)) =
      [(1, ⟨"/srv/1"⟩), (2, ⟨"/srv/2"⟩)] := by decide
  have hanswers (wanted : Bool → Bool) :=
    r.zip_runAll_reloads mixedRoot [1, 2] Store.empty wanted
  rw [hpaths] at hanswers
  have hone : summary.loaded = [1] := by
    have hall := hloaded.trans (hanswers id)
    simpa [hfirst, hsecond] using hall
  have htwo : summary.failed = [2] := by
    have hall := hfailed.trans (hanswers not)
    simpa [hfirst, hsecond] using hall
  have hnone : r.discover closed = .error (.cannotList ⟨"/srv"⟩) :=
    discover_of_error (show closed.list ⟨"/srv"⟩ = .error .denied from rfl)
  have halign' : r.IsAligned closed := by
    intro archives hfound
    rw [hnone] at hfound
    cases hfound
  obtain ⟨hok', -⟩ := r.loadAll_eq_reloads closed Store.empty hproper halign'
  refine ⟨hproper, halign, ?_, halign', ?_⟩
  · rw [h, hstore, ← hone, ← htwo]
  · rintro hload
    obtain ⟨place, hlocate, -, hread⟩ := hok'.mp hload
    have hplace : closed.locate true ⟨"/srv"⟩ = .ok ["srv"] := rfl
    have hsame : (Except.ok place : Except OpenFailure Location) = .ok ["srv"] :=
      hlocate.symm.trans hplace
    cases hsame
    exact absurd hread (by decide)

end ArchiveRoot

end Bulletin
