import Bulletin.Proofs.Committing
import Bulletin.Proofs.Division
import Bulletin.Proofs.Permanence

/-!
# Which sections are for everyone

Whether a section is for everyone is a matter of its name and of the document it is in. So one
user's section may be kept for everyone, and another user's of the same name, from another document,
for that user alone:

    audience_ofDocument         : the rule, for one document
    audience_of_mem_sections    : it holds of all sections of a record
    contains_common_build, contains_personal_build : the names under which an edition has sections
    builtFrom_of_runAll         : what is kept was built from one archive
    names_of_runAll             : where it can be that a name is used in both ways
-/

namespace Bulletin

/-! ## One document -/

/-- The sections of a name are for everyone, whatever the document. -/
def IsAlwaysCommon (name : String) : Prop :=
  name ∈ fixedCommonNames ∨ (∃ lead, name = lead ++ metricsSuffix) ∨
    ∃ lead, name = lead ++ problemsSuffix

/-- A document has an anchor for the problems of a name. -/
def Html.Document.Announces (d : Html.Document) (name : String) : Prop :=
  ∃ e ∈ d.elements, e.name.tag = "a" ∧ e.attribute? "name" = some (name ++ problemsSuffix)

namespace CommonNames

theorem announced?_eq_some_iff {e : Html.Element} {name : String} :
    announced? e = some name ↔
      e.name.tag = "a" ∧ e.attribute? "name" = some (name ++ problemsSuffix) := by
  unfold announced?
  rw [Option.ite_none_right_eq_some, beq_iff_eq, Option.bind_eq_some_iff]
  simp only [Text.map_beforeTail?_eq_some_iff, exists_eq_right]

theorem contains_ofDocument {d : Html.Document} {name : String} :
    (ofDocument d).contains name ↔ name ∈ fixedCommonNames ∨ d.Announces name := by
  unfold contains ofDocument Html.Document.Announces
  rw [List.contains_iff_mem, List.mem_append, List.mem_filterMap]
  simp only [announced?_eq_some_iff]

/-- A section is for everyone if its name is always common, or the document announces problems. -/
theorem audience_ofDocument {d : Html.Document} {name : String} :
    (ofDocument d).audience name = .everyone ↔ IsAlwaysCommon name ∨ d.Announces name := by
  have hrule : (ofDocument d).audience name = .everyone ↔
      ((ofDocument d).contains name || Text.endsWith name metricsSuffix ||
        Text.endsWith name problemsSuffix) = true := by
    unfold audience
    simp only [ite_eq_left_iff, reduceCtorEq, imp_false, Decidable.not_not]
  rw [hrule, Bool.or_eq_true, Bool.or_eq_true, contains_ofDocument, Text.endsWith_iff,
    Text.endsWith_iff]
  unfold IsAlwaysCommon
  constructor
  · rintro (((hfixed | hannounced) | hmetrics) | hproblems)
    · exact .inl (.inl hfixed)
    · exact .inr hannounced
    · exact .inl (.inr (.inl hmetrics))
    · exact .inl (.inr (.inr hproblems))
  · rintro ((hfixed | hmetrics | hproblems) | hannounced)
    · exact .inl (.inl (.inl hfixed))
    · exact .inl (.inr hmetrics)
    · exact .inr hproblems
    · exact .inl (.inl (.inr hannounced))

end CommonNames

/-! ## The sections of a document -/

namespace Division

open Html (Element Document)

/-- Each section is for whom its name says. -/
theorem audience_of_mem_sectionsFrom {audience : String → Audience} {name title html : String}
    {elements : List Element} {sections : List Section}
    (h : sectionsFrom audience name title html elements = .ok sections) :
    ∀ s ∈ sections, s.audience = audience s.name := by
  induction elements generalizing name title html sections with
  | nil =>
    rcases sectionsFrom_cases h with ⟨-, rfl⟩ | ⟨-, e, rest, hnil, -⟩
    · intro s hs
      rw [List.mem_singleton.mp hs]
    · cases hnil
  | cons e rest ih =>
    rcases sectionsFrom_cases h with ⟨-, rfl⟩ | ⟨-, e', rest', hcons, hgoes⟩
    · intro s hs
      rw [List.mem_singleton.mp hs]
    · cases hcons
      rcases hgoes with ⟨-, hlater⟩ | ⟨-, next, later, -, hlater, rfl⟩
      · exact ih hlater
      · intro s hs
        rcases List.mem_cons.mp hs with rfl | hs
        · rfl
        · exact ih hlater s hs

theorem audience_of_mem_ofDocument {d : Document} {sections : List Section}
    (h : ofDocument d = .ok sections) :
    ∀ s ∈ sections, s.audience = (CommonNames.ofDocument d).audience s.name := by
  unfold ofDocument at h
  cases htop : topLevel d with
  | nil =>
    rw [htop] at h
    cases h
    intro s hs
    cases hs
  | cons first rest =>
    rw [htop] at h
    exact audience_of_mem_sectionsFrom h

end Division

/-! ## The sections of a record -/

namespace Record

/-- The document of a record has an anchor for the problems of a name. -/
def Announces (period : Period) (r : Record) (name : String) : Prop :=
  ∃ text, page (Text.decode r.header) (Text.decode r.body) period r.user = .ok text ∧
    (Html.Document.parse text).Announces name

/-- The bulletin of a record has a section of a name. -/
def Has (period : Period) (r : Record) (name : String) : Prop :=
  ∃ s ∈ r.sections period, s.name = name

/-- Of all sections of a record, those are for everyone whose name is always common, or announced
by the record itself. -/
theorem audience_of_mem_sections {period : Period} {r : Record} {s : Section}
    (hs : s ∈ r.sections period) :
    s.audience = .everyone ↔ IsAlwaysCommon s.name ∨ r.Announces period s.name := by
  unfold sections divide at hs
  unfold Announces
  cases hpage : page (Text.decode r.header) (Text.decode r.body) period r.user with
  | error e =>
    rw [hpage] at hs
    cases hs
  | ok text =>
    rw [hpage] at hs
    cases hdocument : Division.ofDocument (Html.Document.parse text) with
    | error e =>
      simp [bind, Except.bind, hdocument, Except.toOption] at hs
    | ok sections =>
      have hmem : s ∈ sections := by
        simpa [bind, Except.bind, hdocument, Except.toOption] using hs
      rw [Division.audience_of_mem_ofDocument hdocument s hmem, CommonNames.audience_ofDocument]
      simp

end Record

/-! ## The names in an edition -/

theorem Section.isSome_lastShared?_iff {name : String} {sections : List Section} :
    (lastShared? name sections).isSome ↔
      ∃ s ∈ sections, s.name = name ∧ s.audience = .everyone := by
  have hshared : ∀ s : Section, (∃ text, sharedText? s = some text) ↔ s.audience = .everyone := by
    intro s
    unfold sharedText?
    cases s.audience with
    | everyone => simp
    | owner => simp
  unfold lastShared? sharedTexts
  rw [List.getLast?_isSome]
  constructor
  · intro hne
    obtain ⟨text, htext⟩ := List.exists_mem_of_ne_nil _ hne
    obtain ⟨s, hs, hshown⟩ := List.mem_filterMap.mp htext
    obtain ⟨hmem, hname⟩ := List.mem_filter.mp hs
    exact ⟨s, hmem, of_decide_eq_true hname, (hshared s).mp ⟨text, hshown⟩⟩
  · rintro ⟨s, hmem, hname, haudience⟩
    obtain ⟨text, hshown⟩ := (hshared s).mpr haudience
    have hs : s ∈ sections.filter fun s => s.name = name :=
      List.mem_filter.mpr ⟨hmem, decide_eq_true hname⟩
    exact List.ne_nil_of_mem (List.mem_filterMap.mpr ⟨s, hs, hshown⟩)

/-- What each step may bring about is there in the end if it was at first, or if one of the steps
brings it about. -/
theorem foldl_iff {α β : Type} {p : β → Prop} {q : α → Prop} {f : β → α → β}
    (hstep : ∀ b a, p (f b a) ↔ p b ∨ q a) (l : List α) (b : β) :
    p (l.foldl f b) ↔ p b ∨ ∃ a ∈ l, q a := by
  induction l generalizing b with
  | nil => simp
  | cons a rest ih =>
    rw [List.foldl_cons, ih, hstep, or_assoc]
    simp only [List.mem_cons, exists_eq_or_imp]

namespace Edition

theorem contains_personal_setOwn (user : String) (e : Edition) (s : Section) (name : String) :
    (setOwn user e s).personal.contains name ↔
      e.personal.contains name ∨ (s.name = name ∧ s.audience = .owner) := by
  unfold setOwn
  cases s.audience with
  | everyone => simp
  | owner =>
    unfold setPersonal
    dsimp only
    rw [SortedMap.contains_insert]
    simp [or_comm, eq_comm (a := name)]

theorem contains_personal_addOwn (e : Edition) (b : UserSections) (name : String) :
    (addOwn e b).personal.contains name ↔
      e.personal.contains name ∨ ∃ s ∈ b.sections, s.name = name ∧ s.audience = .owner :=
  foldl_iff (p := fun e : Edition => e.personal.contains name)
    (fun e s => contains_personal_setOwn b.user e s name) b.sections e

end Edition

namespace Holdings

variable (h : Holdings) (issue : Issue) (name : String)

theorem contains_common_build :
    (h.build issue).2.common.contains name ↔
      ∃ s ∈ issue.sections, s.name = name ∧ s.audience = .everyone := by
  have hcommits := h.commits_build issue
  rw [← Section.isSome_lastShared?_iff]
  unfold SortedMap.contains
  rw [hcommits.common name]
  cases hlast : Section.lastShared? name issue.sections with
  | none => simp [Edition.new]
  | some text =>
    have hmem := (hcommits.texts text).mpr (.inr (Section.mem_sharedTexts_of_lastShared? hlast))
    obtain ⟨id, hid⟩ := Contents.exists_idOf?_of_mem hmem
    simp [hid]

theorem contains_personal_build :
    (h.build issue).2.personal.contains name ↔
      ∃ s ∈ issue.sections, s.name = name ∧ s.audience = .owner := by
  have hpersonal : (h.build issue).2.personal =
      (issue.bulletins.foldl Edition.addOwn (Edition.new issue.metadata)).personal := by
    rw [← h.withoutCommon_build]
    rfl
  rw [hpersonal, foldl_iff (p := fun e : Edition => e.personal.contains name)
    fun e b => Edition.contains_personal_addOwn e b name]
  unfold Issue.sections
  simp only [List.mem_flatMap, Edition.new]
  constructor
  · rintro (hnew | ⟨b, hb, s, hs, hname⟩)
    · cases hnew
    · exact ⟨s, ⟨b, hb, hs⟩, hname⟩
  · rintro ⟨s, ⟨b, hb, hs⟩, hname⟩
    exact .inr ⟨b, hb, s, hs, hname⟩

end Holdings

/-! ## The archive that an edition was built from -/

namespace Attempt

/-- An archive delivers these records behind its metadata, and nothing is wrong with it. -/
def Delivers (a : Attempt) (records : List Record) : Prop :=
  ∃ source metadata rest, Source.openAt a.layout a.files a.path = .ok source ∧
    (source.deliver a.files).1.IsSound a.period metadata rest ∧ Gathering.records rest = records

theorem exists_delivers {a : Attempt} {issue : Issue} (h : a.result = .ok issue) :
    ∃ records, a.Delivers records ∧ issue.bulletins = records.map (·.bulletin a.period) := by
  unfold result at h
  cases hopen : Source.openAt a.layout a.files a.path with
  | error e =>
    unfold Issue.read at h
    rw [hopen] at h
    cases h
  | ok source =>
    rw [Issue.read_of_openAt hopen] at h
    obtain ⟨rest, hsound, hbulletins⟩ := Issue.ofDelivery_eq_ok_iff.mp h
    exact ⟨_, ⟨source, issue.metadata, rest, hopen, hsound, rfl⟩, hbulletins⟩

end Attempt

namespace Holdings

variable {period : Period} {issue : Issue} {records : List Record}

theorem mem_sections_of_records (hrecords : issue.bulletins = records.map (·.bulletin period))
    {s : Section} : s ∈ issue.sections ↔ ∃ r ∈ records, s ∈ r.sections period := by
  unfold Issue.sections
  rw [hrecords, List.flatMap_map, List.mem_flatMap]
  rfl

/-- Everyone gets a section of a name if one of the records has one, and says that it is common. -/
theorem contains_common_of_records (h : Holdings)
    (hrecords : issue.bulletins = records.map (·.bulletin period)) (name : String) :
    (h.build issue).2.common.contains name ↔ ∃ r ∈ records,
      r.Has period name ∧ (IsAlwaysCommon name ∨ r.Announces period name) := by
  rw [h.contains_common_build issue]
  constructor
  · rintro ⟨s, hs, rfl, haudience⟩
    obtain ⟨r, hr, hs⟩ := (mem_sections_of_records hrecords).mp hs
    exact ⟨r, hr, ⟨s, hs, rfl⟩, (Record.audience_of_mem_sections hs).mp haudience⟩
  · rintro ⟨r, hr, ⟨s, hs, rfl⟩, hrule⟩
    have hmem := (mem_sections_of_records hrecords).mpr ⟨r, hr, hs⟩
    exact ⟨s, hmem, rfl, (Record.audience_of_mem_sections hs).mpr hrule⟩

/-- Somebody owns a section of a name if one of the records has one, and does not say that it is
common. -/
theorem contains_personal_of_records (h : Holdings)
    (hrecords : issue.bulletins = records.map (·.bulletin period)) (name : String) :
    (h.build issue).2.personal.contains name ↔ ∃ r ∈ records,
      r.Has period name ∧ ¬ (IsAlwaysCommon name ∨ r.Announces period name) := by
  have howner : ∀ s : Section, s.audience = .owner ↔ ¬ s.audience = .everyone := by
    intro s
    cases s.audience <;> simp
  rw [h.contains_personal_build issue]
  constructor
  · rintro ⟨s, hs, rfl, haudience⟩
    obtain ⟨r, hr, hs⟩ := (mem_sections_of_records hrecords).mp hs
    rw [howner, Record.audience_of_mem_sections hs] at haudience
    exact ⟨r, hr, ⟨s, hs, rfl⟩, haudience⟩
  · rintro ⟨r, hr, ⟨s, hs, rfl⟩, hrule⟩
    have hmem := (mem_sections_of_records hrecords).mpr ⟨r, hr, hs⟩
    rw [← Record.audience_of_mem_sections hs, ← howner] at hrule
    exact ⟨s, hmem, rfl, hrule⟩

end Holdings

/-- An edition was built from an archive, on top of what was held then. -/
def Edition.IsBuiltFrom (e : Edition) (a : Attempt) : Prop :=
  ∃ (issue : Issue) (h : Holdings), a.result = .ok issue ∧ e = (h.build issue).2

namespace Store

variable {s : Store} {period : Period} {e : Edition}

/-- Behind attempts, an edition is an old one, or built from one of the archives. -/
theorem builtFrom_of_afterAttempts {attempts : List Attempt}
    (he : (s.afterAttempts attempts).holdings.editions.get? period = some e) :
    s.holdings.editions.get? period = some e ∨
      ∃ a ∈ attempts, a.period = period ∧ e.IsBuiltFrom a := by
  induction attempts generalizing s with
  | nil => exact .inl he
  | cons a rest ih =>
    cases hresult : a.result with
    | error error =>
      rw [afterAttempts_cons_of_error hresult] at he
      rcases ih he with hold | ⟨b, hb, hbuilt⟩
      · exact .inl hold
      · exact .inr ⟨b, List.mem_cons_of_mem a hb, hbuilt⟩
    | ok issue =>
      rw [afterAttempts_cons_of_ok hresult] at he
      rcases ih he with hone | ⟨b, hb, hbuilt⟩
      · -- the edition is there behind this archive: it is what was built from it, or an old one
        rw [get?_editions_publish] at hone
        by_cases hperiod : period = a.period
        · rw [if_pos hperiod] at hone
          exact .inr ⟨a, List.mem_cons_self, hperiod.symm, issue, s.holdings, hresult,
            (Option.some.inj hone).symm⟩
        · rw [if_neg hperiod] at hone
          exact .inl hone
      · exact .inr ⟨b, List.mem_cons_of_mem a hb, hbuilt⟩

theorem builtFrom_of_run {r : ArchiveRoot} {t : FileTree} {c : Call}
    (he : (c.run r t s).2.holdings.editions.get? period = some e) :
    s.holdings.editions.get? period = some e ∨
      ∃ a ∈ c.attempts r t, a.period = period ∧ e.IsBuiltFrom a := by
  rcases c.store_run r t s with ⟨-, hstore⟩ | ⟨-, hstore⟩
  · rw [hstore] at he
    exact builtFrom_of_afterAttempts he
  · rw [hstore] at he
    exact builtFrom_of_afterAttempts he

/-- Behind a run, an edition is an old one, or built from an archive that the run has attempted to
ingest. -/
theorem builtFrom_of_runAll {calls : List (ArchiveRoot × FileTree × Call)}
    (he : (Call.runAll calls s).2.holdings.editions.get? period = some e) :
    s.holdings.editions.get? period = some e ∨
      ∃ a ∈ Call.allAttempts calls, a.period = period ∧ e.IsBuiltFrom a := by
  induction calls generalizing s with
  | nil => exact .inl he
  | cons call rest ih =>
    obtain ⟨r, t, c⟩ := call
    rw [Call.allAttempts_cons]
    have hrest : (Call.runAll rest (c.run r t s).2).2.holdings.editions.get? period = some e := he
    rcases ih hrest with hone | ⟨a, ha, hbuilt⟩
    · rcases builtFrom_of_run hone with hold | ⟨a, ha, hbuilt⟩
      · exact .inl hold
      · exact .inr ⟨a, List.mem_append_left _ ha, hbuilt⟩
    · exact .inr ⟨a, List.mem_append_right _ ha, hbuilt⟩

/-- Every edition that a run leaves behind was built from one archive of its period, each of whose
records says by itself which of its sections are for everyone. So a name can be used in both ways
only where the records that have a section of that name do not agree. -/
theorem names_of_runAll (calls : List (ArchiveRoot × FileTree × Call)) (period : Period)
    (e : Edition)
    (he : (Call.runAll calls Store.empty).2.holdings.editions.get? period = some e) :
    ∃ a ∈ Call.allAttempts calls, a.period = period ∧ ∃ records, a.Delivers records ∧
      (∀ r ∈ records, ∀ s ∈ r.sections period,
        s.audience = .everyone ↔ IsAlwaysCommon s.name ∨ r.Announces period s.name) ∧
      (∀ name, e.common.contains name ↔
        ∃ r ∈ records, r.Has period name ∧ (IsAlwaysCommon name ∨ r.Announces period name)) ∧
      (∀ name, e.personal.contains name ↔
        ∃ r ∈ records, r.Has period name ∧ ¬ (IsAlwaysCommon name ∨ r.Announces period name)) ∧
      ∀ name, e.common.contains name → e.personal.contains name →
        ¬ IsAlwaysCommon name ∧ (∃ r ∈ records, r.Has period name ∧ r.Announces period name) ∧
          ∃ r ∈ records, r.Has period name ∧ ¬ r.Announces period name := by
  rcases builtFrom_of_runAll he with hold | ⟨a, ha, rfl, issue, h, hresult, rfl⟩
  · cases hold
  · obtain ⟨records, hdelivers, hbulletins⟩ := Attempt.exists_delivers hresult
    have hcommon := h.contains_common_of_records hbulletins
    have hpersonal := h.contains_personal_of_records hbulletins
    refine ⟨a, ha, rfl, records, hdelivers,
      fun r _ s hs => Record.audience_of_mem_sections hs, hcommon, hpersonal, ?_⟩
    intro name hshared howned
    obtain ⟨r, hr, hhas, hrule⟩ := (hcommon name).mp hshared
    obtain ⟨r', hr', hhas', hrule'⟩ := (hpersonal name).mp howned
    rw [not_or] at hrule'
    obtain ⟨hname, hsilent⟩ := hrule'
    refine ⟨hname, ⟨r, hr, hhas, ?_⟩, r', hr', hhas', hsilent⟩
    exact hrule.resolve_left hname

/-- Files with bulletins for alice and for bob. Both have a section about the same thing, which only
alice's says is common. -/
def twoReaderFiles : List (RawText × FileNode) :=
  [("raw.json", textFile "\x7b\x7d"), ("alice.mail.header", textFile "<head>"),
    ("alice.mail", textFile ("<p>Hi<h2><a name=gpu></a>Hers</h2>" ++
      "<p><a name=gpu_problems></a><p><a name=footer>")),
    ("bob.mail.header", textFile "<head>"),
    ("bob.mail", textFile "<p>Hi<h2><a name=gpu></a>His</h2><p><a name=footer>")]

/-- The archive of a period with these files. -/
def twoReaders : FileTree :=
  ⟨(["a"], .directory) :: (["a", "1"], .directory) ::
    twoReaderFiles.map fun (name, node) => (["a", "1", name], node), [], []⟩

/-- What that archive says. -/
def twoReaderIssue : Issue :=
  let greeting : Section :=
    ⟨"greeting", "Greeting", "<p><a name=\"greeting\"></a>Hi</p>", .everyone⟩
  let footer : Section := ⟨"footer", "Footer", "<p><a name=\"footer\"></a></p>", .everyone⟩
  let hers := "<h2><a name=\"gpu\"></a>Hers</h2><p><a name=\"gpu_problems\"></a></p>"
  ⟨⟨0, 0, SortedMap.empty⟩,
    [⟨"alice", [greeting, ⟨"gpu", "Hers", hers, .everyone⟩, footer]⟩,
      ⟨"bob", [greeting, ⟨"gpu", "His", "<h2><a name=\"gpu\"></a>His</h2>", .owner⟩, footer]⟩]⟩

theorem result_twoReaders :
    (ArchiveRoot.reloadAttempt ⟨⟨"a"⟩, .directory⟩ twoReaders 1).result = .ok twoReaderIssue := by
  have hnames : Source.fileNames twoReaderFiles = twoReaderFiles.map Prod.fst := by
    unfold Source.fileNames
    rw [List.mergeSort_of_pairwise (by decide +kernel)]
    rfl
  have hread : Issue.read .directory twoReaders ⟨"a/1"⟩ 1 = Issue.ofDelivery 1
      (Source.deliverFiles twoReaders ⟨"a/1"⟩ (Source.fileNames twoReaderFiles)) :=
    Issue.read_of_list (by decide +kernel) rfl 1
  have hissue : Issue.ofDelivery 1 (Source.deliverFiles twoReaders ⟨"a/1"⟩
      (twoReaderFiles.map Prod.fst)) = .ok twoReaderIssue := eq_ok_of_toOption (by decide +kernel)
  rw [hnames] at hread
  exact hread.trans hissue

theorem store_twoReaders :
    (Call.runAll [(⟨⟨"a"⟩, .directory⟩, twoReaders, .reload 1)] empty).2 =
      empty.publish 1 twoReaderIssue := by
  show ((ArchiveRoot.reload ⟨⟨"a"⟩, .directory⟩ twoReaders 1).run.run empty).2 = _
  rw [ArchiveRoot.run_reload, afterAttempts_cons_of_ok result_twoReaders]
  rfl

/-- Alice's section is there for everyone, and bob's of the same name is there for bob. -/
theorem names_of_runAll_twoReaders :
    let r : ArchiveRoot := ⟨⟨"a"⟩, .directory⟩
    let s := (Call.runAll [(r, twoReaders, .reload 1)] empty).2
    ∃ e, s.holdings.editions.get? 1 = some e ∧ ∃ records,
      (r.reloadAttempt twoReaders 1).Delivers records ∧
      (∃ record ∈ records, record.Has 1 "gpu" ∧ record.Announces 1 "gpu") ∧
      ∃ record ∈ records, record.Has 1 "gpu" ∧ ¬ record.Announces 1 "gpu" := by
  intro r s
  let e := (Holdings.empty.build twoReaderIssue).2
  have he : s.holdings.editions.get? 1 = some e := by
    show (Call.runAll [(r, twoReaders, .reload 1)] empty).2.holdings.editions.get? 1 = _
    rw [store_twoReaders, get?_editions_publish, if_pos rfl]
    rfl
  obtain ⟨a, ha, -, records, hdelivers, -, -, -, hboth⟩ :=
    names_of_runAll [(r, twoReaders, .reload 1)] 1 e he
  obtain ⟨-, hannounces, hsilent⟩ := hboth "gpu" (by decide +kernel) (by decide +kernel)
  have honly : a = r.reloadAttempt twoReaders 1 := List.mem_singleton.mp ha
  exact ⟨e, he, records, honly ▸ hdelivers, hannounces, hsilent⟩

/-- One name has a section for everyone, which is alice's, and one for bob alone. -/
theorem gpu_for_everyone_and_for_bob :
    let s := (Call.runAll [(⟨⟨"a"⟩, .directory⟩, twoReaders, .reload 1)] empty).2
    ∃ e, s.lookup 1 = .found e ∧ e.common.contains "gpu" ∧ e.personal.contains "gpu" ∧
      (s.holdings.contents.resolve e.common).get? "gpu" =
        some (some "<h2><a name=\"gpu\"></a>Hers</h2><p><a name=\"gpu_problems\"></a></p>") ∧
      e.personal.get? "gpu" =
        some (SortedMap.empty.insert "bob" "<h2><a name=\"gpu\"></a>His</h2>") := by
  intro s
  have hs : s = empty.publish 1 twoReaderIssue := store_twoReaders
  rw [hs]
  exact ⟨(Holdings.empty.build twoReaderIssue).2, by decide +kernel, by decide +kernel,
    by decide +kernel, by decide +kernel, by decide +kernel⟩

end Store

end Bulletin
