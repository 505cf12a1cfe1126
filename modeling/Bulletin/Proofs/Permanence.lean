import Bulletin.Proofs.Consistency
import Bulletin.View

/-!
# What is published stays

Once a period is available it stays as it is until an archive of its own is ingested again. All
periods share the tables, and every archive that is ingested adds to them; but numbers that have
been given keep their texts, so that a viewer reads the same as before.

    Keeps           : what a store has of a period, another still has
    keeps_runAll    : so it is across every run in which no archive of the period is ingested
    Keeps.page_eq   : and what a viewer reads of the period is the same
    published_stays : in all, from the empty store on
-/

namespace Bulletin

/-! ## What a viewer reads -/

/-- Texts under names, found by their numbers; none where there is no text with a number. -/
def Contents.resolve (t : Contents) (ids : SortedMap String ContentId) :
    SortedMap String (Option String) :=
  ids.filterMap fun _ id => some (t.get? id)

/-- What a report says of its period, with the texts in place of their numbers. -/
structure Page where
  period : Period
  common : SortedMap String (Option String)
  personal : SortedMap String (SortedMap String String)
  deriving DecidableEq, Inhabited

/-- The page of a report; the texts are those that the report comes with. -/
def Report.page (report : Report) : Page :=
  ⟨report.period, report.contents.resolve report.common, report.personal⟩

/-- Where the numbers of an edition have texts, tables that grow give them the same texts. -/
theorem Edition.KeptIn.resolve_eq {h h' : Holdings} {e : Edition} (hk : e.KeptIn h)
    (hx : h.Extends h') : h'.contents.resolve e.common = h.contents.resolve e.common := by
  apply SortedMap.ext_get?
  intro name
  unfold Contents.resolve
  rw [SortedMap.get?_filterMap, SortedMap.get?_filterMap]
  cases hid : e.common.get? name with
  | none => rfl
  | some id =>
    obtain ⟨html, hhtml⟩ := hk.resolves name id hid
    have hlater := hx.contents id html hhtml
    rw [Option.bind_some, Option.bind_some, hhtml, hlater]

/-! ## One period across a run -/

namespace Store

variable {s s' s'' : Store} {period : Period}

/-- What a store has of a period, another still has. -/
structure Keeps (period : Period) (s s' : Store) : Prop where
  available : s'.isAvailable period = s.isAvailable period
  edition : s'.holdings.editions.get? period = s.holdings.editions.get? period
  tables : s.holdings.Extends s'.holdings

theorem Keeps.refl (period : Period) (s : Store) : Keeps period s s := ⟨rfl, rfl, .refl _⟩

theorem Keeps.trans (h : Keeps period s s') (h' : Keeps period s' s'') : Keeps period s s'' :=
  ⟨h'.available.trans h.available, h'.edition.trans h.edition, h.tables.trans h'.tables⟩

/-- Publishing about one period leaves the others. -/
theorem keeps_publish (s : Store) {other : Period} (h : period ≠ other) (issue : Issue) :
    Keeps period s (s.publish other issue) := by
  refine ⟨?_, ?_, s.extends_publish other issue⟩
  · rw [isAvailable_publish, if_neg h]
  · rw [get?_editions_publish, if_neg h]

theorem keeps_warm (period : Period) (s : Store) : Keeps period s { s with phase := .warm } :=
  ⟨rfl, rfl, .refl _⟩

/-- Attempts leave a period of which no archive is ingested. -/
theorem keeps_afterAttempts (s : Store) {attempts : List Attempt}
    (h : ∀ a ∈ attempts, a.period = period → ¬ a.Succeeds) :
    Keeps period s (s.afterAttempts attempts) := by
  induction attempts generalizing s with
  | nil => exact .refl period s
  | cons a rest ih =>
    have hrest : ∀ b ∈ rest, b.period = period → ¬ b.Succeeds :=
      fun b hb => h b (List.mem_cons_of_mem a hb)
    cases hresult : a.result with
    | error e =>
      rw [afterAttempts_cons_of_error hresult]
      exact ih s hrest
    | ok issue =>
      have hsucceeds : a.Succeeds := by
        unfold Attempt.Succeeds
        rw [hresult]
        rfl
      -- what is published is of another period, as no archive of this one is ingested
      have hother : period ≠ a.period := by
        rintro rfl
        exact h a List.mem_cons_self rfl hsucceeds
      rw [afterAttempts_cons_of_ok hresult]
      exact (s.keeps_publish hother issue).trans (ih (s.publish a.period issue) hrest)

theorem keeps_run (s : Store) (r : ArchiveRoot) (t : FileTree) (c : Call)
    (h : ∀ a ∈ c.attempts r t, a.period = period → ¬ a.Succeeds) :
    Keeps period s (c.run r t s).2 := by
  have hattempts := s.keeps_afterAttempts h
  rcases c.store_run r t s with ⟨-, hstore⟩ | ⟨-, hstore⟩
  · rw [hstore]
    exact hattempts.trans (keeps_warm period _)
  · rw [hstore]
    exact hattempts

end Store

/-- The archives that a run attempts to ingest. -/
def Call.allAttempts (calls : List (ArchiveRoot × FileTree × Call)) : List Attempt :=
  calls.flatMap fun (r, t, c) => c.attempts r t

theorem Call.allAttempts_cons (r : ArchiveRoot) (t : FileTree) (c : Call)
    (rest : List (ArchiveRoot × FileTree × Call)) :
    Call.allAttempts ((r, t, c) :: rest) = c.attempts r t ++ Call.allAttempts rest :=
  List.flatMap_cons

namespace Store

variable {s s' : Store} {period : Period}

theorem keeps_runAll (s : Store) {calls : List (ArchiveRoot × FileTree × Call)}
    (h : ∀ a ∈ Call.allAttempts calls, a.period = period → ¬ a.Succeeds) :
    Keeps period s (Call.runAll calls s).2 := by
  induction calls generalizing s with
  | nil => exact .refl period s
  | cons call rest ih =>
    obtain ⟨r, t, c⟩ := call
    rw [Call.allAttempts_cons] at h
    have hone := s.keeps_run r t c fun a ha => h a (List.mem_append_left _ ha)
    have hrest := ih (c.run r t s).2 fun a ha => h a (List.mem_append_right _ ha)
    exact hone.trans hrest

/-! ## What is read of it -/

theorem Keeps.lookup_eq (h : Keeps period s s') : s'.lookup period = s.lookup period := by
  unfold lookup
  rw [h.available, h.edition]

/-- A viewer reads the same of a period that is kept. -/
theorem Keeps.page_eq (h : Keeps period s s') (hs : s.Consistent) (v : Viewer) :
    (s'.report period v).map Report.page = (s.report period v).map Report.page := by
  unfold report
  rw [h.lookup_eq]
  cases hlookup : s.lookup period with
  | notFound => rfl
  | unavailable => rfl
  | found e =>
    obtain ⟨-, he⟩ := lookup_eq_found_iff.mp hlookup
    have htexts := (hs.complete period e he).toKeptIn.resolve_eq h.tables
    by_cases hvisible : e.isVisibleTo v
    · simp only [if_pos hvisible, Except.map, Report.page, htexts]
    · simp only [if_neg hvisible, Except.map]

/-- Whatever else is loaded, and however often it fails, a period that is available stays as it is
until an archive of its own is ingested. -/
theorem published_stays (earlier later : List (ArchiveRoot × FileTree × Call)) (period : Period)
    (havailable : (Call.runAll earlier empty).2.isAvailable period)
    (hlater : ∀ a ∈ Call.allAttempts later, a.period = period → ¬ a.Succeeds) :
    let s := (Call.runAll earlier empty).2
    let s' := (Call.runAll later s).2
    s'.isAvailable period ∧
      (∃ e, s.lookup period = .found e ∧ s'.lookup period = .found e) ∧
      (∀ id html, s.holdings.contents.get? id = some html →
        s'.holdings.contents.get? id = some html) ∧
      ∀ v, (s'.report period v).map Report.page = (s.report period v).map Report.page := by
  intro s s'
  have hs : s.Consistent := (consistent_empty.runAll earlier).1
  have hkeeps : Keeps period s s' := s.keeps_runAll hlater
  have hlater' : s'.isAvailable period := hkeeps.available.trans havailable
  obtain ⟨e, he⟩ := Option.isSome_iff_exists.mp ((hs.available_iff period).mp havailable)
  have hfound : s.lookup period = .found e := lookup_eq_found_iff.mpr ⟨havailable, he⟩
  refine ⟨hlater', ⟨e, hfound, ?_⟩, hkeeps.tables.contents, hkeeps.page_eq hs⟩
  rw [hkeeps.lookup_eq, hfound]

/-- A file with a text. -/
def textFile (text : String) : FileNode := .file text.toUTF8.toList

/-- Files with a bulletin for alice. -/
def aliceFiles : List (RawText × FileNode) :=
  [("raw.json", textFile "\x7b\"started\":1,\"updated\":2,\"data\":\x7b\x7d\x7d"),
    ("alice.mail.header", textFile "<head>"),
    ("alice.mail", textFile "<p>Hi<p><a name=footer>")]

/-- The archive of a first period. -/
def firstArchive : FileTree :=
  ⟨(["a"], .directory) :: (["a", "1"], .directory) ::
    aliceFiles.map fun (name, node) => (["a", "1", name], node), [], []⟩

/-- The first archive has lost its metadata, and there is a second. -/
def laterArchives : FileTree :=
  ⟨[(["a"], .directory), (["a", "1"], .directory), (["a", "2"], .directory),
    (["a", "1", "alice.mail"], textFile "<p>Rewritten"),
    (["a", "2", "raw.json"],
      textFile "\x7b\"started\":3,\"updated\":4,\"data\":\x7b\x7d\x7d")], [], []⟩

/-- What the archive of the first period says. -/
def firstIssue : Issue :=
  ⟨⟨1, 2, SortedMap.empty⟩, [⟨"alice",
    [⟨"greeting", "Greeting", "<p><a name=\"greeting\"></a>Hi</p>", .everyone⟩,
      ⟨"footer", "Footer", "<p><a name=\"footer\"></a></p>", .everyone⟩]⟩]⟩

theorem result_firstArchive :
    (ArchiveRoot.reloadAttempt ⟨⟨"a"⟩, .directory⟩ firstArchive 1).result = .ok firstIssue := by
  have hnames : Source.fileNames aliceFiles = aliceFiles.map Prod.fst := by
    unfold Source.fileNames
    rw [List.mergeSort_of_pairwise (by decide +kernel)]
    rfl
  have hread : Issue.read .directory firstArchive ⟨"a/1"⟩ 1 = Issue.ofDelivery 1
      (Source.deliverFiles firstArchive ⟨"a/1"⟩ (Source.fileNames aliceFiles)) :=
    Issue.read_of_list (by decide +kernel) rfl 1
  have hissue : Issue.ofDelivery 1 (Source.deliverFiles firstArchive ⟨"a/1"⟩
      (aliceFiles.map Prod.fst)) = .ok firstIssue := eq_ok_of_toOption (by decide +kernel)
  rw [hnames] at hread
  exact hread.trans hissue

/-- The first archive cannot be loaded again, the second can, and alice reads what she read. -/
theorem published_stays_alice :
    let r : ArchiveRoot := ⟨⟨"a"⟩, .directory⟩
    let alice : Viewer := ⟨"alice", false⟩
    let s := (Call.runAll [(r, firstArchive, .reload 1)] empty).2
    let s' := (Call.runAll [(r, laterArchives, .reload 1), (r, laterArchives, .reload 2)] s).2
    (r.reloadAttempt laterArchives 2).Succeeds ∧
      ((s'.report 1 alice).map Report.page).toOption = some ⟨1, SortedMap.ofList
        [("footer", some "<p><a name=\"footer\"></a></p>"),
          ("greeting", some "<p><a name=\"greeting\"></a>Hi</p>")], SortedMap.empty⟩ := by
  intro r alice s s'
  have hs : s = empty.publish 1 firstIssue := by
    show ((r.reload firstArchive 1).run.run empty).2 = _
    rw [ArchiveRoot.run_reload, afterAttempts_cons_of_ok result_firstArchive]
    rfl
  have havailable : s.isAvailable 1 := by
    rw [hs]
    decide +kernel
  obtain ⟨-, -, -, hpage⟩ := published_stays [(r, firstArchive, .reload 1)]
    [(r, laterArchives, .reload 1), (r, laterArchives, .reload 2)] 1 havailable (by decide +kernel)
  refine ⟨by decide +kernel, ?_⟩
  rw [hpage alice]
  show ((s.report 1 alice).map Report.page).toOption = _
  rw [hs]
  decide +kernel

end Store

end Bulletin
