import Bulletin.Proofs.Committing
import Bulletin.Proofs.Interchange
import Bulletin.Proofs.Permanence

/-!
# The order of loads

The numbers of texts depend on the order in which archives are ingested, and so do titles. What an
edition says does not: with the texts in place of their numbers it is a matter of its archive alone,
and what archives add to the tables is a matter of which archives there are.

    says_build           : what the edition of an issue says
    publishes_publishAll : what publishing issues of several periods comes to
    reloads_eq_of_perm   : the order in which periods are loaded again makes no difference
-/

namespace Bulletin

open Section (sharedTexts lastShared?)

/-! ## What an edition says -/

theorem Contents.get?_resolve (t : Contents) (ids : SortedMap String ContentId) (name : String) :
    (t.resolve ids).get? name = (ids.get? name).map t.get? := by
  unfold resolve
  rw [SortedMap.get?_filterMap, Option.map_eq_bind]
  rfl

namespace Edition

/-- What an edition says, with texts in place of their numbers: all but the sections for everyone,
and these. -/
def readWith (t : Contents) (e : Edition) : Edition × SortedMap String (Option String) :=
  (e.withoutCommon, t.resolve e.common)

/-- An edition says what an issue says. -/
structure Says (t : Contents) (issue : Issue) (e : Edition) : Prop where
  rest : e.withoutCommon = issue.bulletins.foldl addOwn (new issue.metadata)
  common : ∀ name,
    (e.common.get? name).map t.get? = (lastShared? name issue.sections).map some

variable {t t' : Contents} {issue : Issue} {e e' : Edition}

theorem Says.readWith_eq (h : e.Says t issue) (h' : e'.Says t' issue) :
    e'.readWith t' = e.readWith t := by
  refine Prod.ext (h'.rest.trans h.rest.symm) (SortedMap.ext_get? fun name => ?_)
  show (t'.resolve e'.common).get? name = (t.resolve e.common).get? name
  rw [Contents.get?_resolve, Contents.get?_resolve, h.common, h'.common]

/-- It says the same when more is added to the tables. -/
theorem Says.of_extends {h h' : Holdings} (hsaid : e.Says h.contents issue) (hx : h.Extends h') :
    e.Says h'.contents issue := by
  refine ⟨hsaid.rest, fun name => ?_⟩
  have hcommon := hsaid.common name
  rw [← hcommon]
  cases hid : e.common.get? name with
  | none => rfl
  | some id =>
    rw [hid] at hcommon
    obtain ⟨text, -, htext⟩ := Option.map_eq_some_iff.mp hcommon.symm
    have hlater := hx.contents id text htext.symm
    rw [Option.map_some, Option.map_some, hlater, htext]

theorem says_build (h : Holdings) (issue : Issue) :
    (h.build issue).2.Says (h.build issue).1.contents issue := by
  have hcommits := h.commits_build issue
  refine ⟨h.withoutCommon_build issue, fun name => ?_⟩
  have hcommon := hcommits.common name
  cases hlast : lastShared? name issue.sections with
  | none =>
    rw [hlast] at hcommon
    rw [hcommon]
    rfl
  | some text =>
    have hmem : text ∈ (h.build issue).1.contents.texts :=
      (hcommits.texts text).mpr (.inr (Section.mem_sharedTexts_of_lastShared? hlast))
    obtain ⟨id, hid⟩ := Contents.exists_idOf?_of_mem hmem
    rw [hlast] at hcommon
    dsimp only at hcommon
    rw [hcommon, hid, Option.map_some, Option.map_some, Contents.idOf?_eq_some_iff.mp hid]

end Edition

/-! ## Publishing issues of several periods -/

namespace Store

/-- What there is in a store behind issues that have been published, each of another period. -/
structure Publishes (issues : List (Period × Issue)) (s s' : Store) : Prop where
  phase : s'.phase = s.phase
  flags : ∀ period, s'.flags.get? period =
    if period ∈ issues.map Prod.fst then some true else s.flags.get? period
  said : ∀ x ∈ issues, ∃ e, s'.holdings.editions.get? x.1 = some e ∧
    e.Says s'.holdings.contents x.2
  others : ∀ period, period ∉ issues.map Prod.fst →
    s'.holdings.editions.get? period = s.holdings.editions.get? period
  texts : ∀ text, text ∈ s'.holdings.contents.texts ↔
    text ∈ s.holdings.contents.texts ∨ ∃ x ∈ issues, text ∈ sharedTexts x.2.sections
  titles : ∀ name, s'.holdings.titles.contains name ↔
    s.holdings.titles.contains name ∨ ∃ x ∈ issues, ∃ part ∈ x.2.sections, part.name = name
  tables : s.holdings.Extends s'.holdings

theorem Publishes.refl (s : Store) : Publishes [] s s where
  phase := rfl
  flags period := by simp
  said := by simp
  others period _ := rfl
  texts := by simp
  titles := by simp
  tables := .refl s.holdings

/-- One more issue, of a period of its own, can be published in front. -/
theorem Publishes.cons {s s' : Store} {x : Period × Issue} {rest : List (Period × Issue)}
    (hx : x.1 ∉ rest.map Prod.fst) (h : Publishes rest (s.publish x.1 x.2) s') :
    Publishes (x :: rest) s s' := by
  have hone : Holdings.Commits x.2.sections (s.holdings, Edition.new x.2.metadata)
      ((s.publish x.1 x.2).holdings, (s.holdings.build x.2).2) :=
    have hbuild := s.holdings.commits_build x.2
    ⟨hbuild.texts, hbuild.ids, hbuild.known, hbuild.common, hbuild.titles⟩
  have hedition := s.get?_editions_publish x.1 x.2
  refine ⟨h.phase, fun period => ?_, fun y hy => ?_, fun period hperiod => ?_, fun text => ?_,
    fun name => ?_, (s.extends_publish x.1 x.2).trans h.tables⟩
  · have hflag : (s.publish x.1 x.2).flags.get? period =
        if period = x.1 then some true else s.flags.get? period :=
      SortedMap.get?_insert s.flags x.1 period true
    rw [h.flags, hflag, List.map_cons]
    by_cases hrest : period ∈ rest.map Prod.fst
    · simp [hrest]
    · simp [hrest]
  · rcases List.mem_cons.mp hy with rfl | hy
    · -- the edition is not replaced, as no other issue is of this period
      have hhere := h.others y.1 hx
      have hsaid : (s.holdings.build y.2).2.Says (s.publish y.1 y.2).holdings.contents y.2 :=
        Edition.says_build s.holdings y.2
      rw [hedition, if_pos rfl] at hhere
      exact ⟨_, hhere, hsaid.of_extends h.tables⟩
    · exact h.said y hy
  · rw [List.map_cons, List.mem_cons, not_or] at hperiod
    rw [h.others period hperiod.2, hedition, if_neg hperiod.1]
  · rw [h.texts, hone.texts, or_assoc]
    simp
  · rw [h.titles, hone.titles, or_assoc]
    simp

theorem publishes_publishAll (s : Store) {issues : List (Period × Issue)}
    (h : (issues.map Prod.fst).Nodup) : Publishes issues s (s.publishAll issues) := by
  induction issues generalizing s with
  | nil => exact .refl s
  | cons x rest ih =>
    rw [List.map_cons, List.nodup_cons] at h
    exact .cons h.1 (ih (s.publish x.1 x.2) h.2)

/-! ## Stores that say the same -/

/-- Two stores say the same, whatever numbers their texts have and whatever the titles are. -/
structure SameContent (s s' : Store) : Prop where
  phase : s'.phase = s.phase
  flags : s'.flags = s.flags
  editions : ∀ period,
    (s'.holdings.editions.get? period).map (Edition.readWith s'.holdings.contents) =
      (s.holdings.editions.get? period).map (Edition.readWith s.holdings.contents)
  texts : ∀ text, text ∈ s'.holdings.contents.texts ↔ text ∈ s.holdings.contents.texts
  titles : ∀ name, s'.holdings.titles.contains name ↔ s.holdings.titles.contains name

/-- Where the parts of a store fit together, publishing the same issues leads to the same. -/
theorem Publishes.sameContent {s one other : Store} {issues issues' : List (Period × Issue)}
    (hs : s.Consistent) (hone : Publishes issues s one) (hother : Publishes issues' s other)
    (hperm : issues'.Perm issues) : one.SameContent other := by
  have hperiods : ∀ period, period ∈ issues'.map Prod.fst ↔ period ∈ issues.map Prod.fst :=
    fun period => (hperm.map Prod.fst).mem_iff
  refine ⟨hother.phase.trans hone.phase.symm, SortedMap.ext_get? fun period => ?_,
    fun period => ?_, fun text => ?_, fun name => ?_⟩
  · rw [hone.flags, hother.flags]
    simp only [hperiods]
  · by_cases hperiod : period ∈ issues.map Prod.fst
    · obtain ⟨x, hx, rfl⟩ := List.mem_map.mp hperiod
      obtain ⟨e, he, hsaid⟩ := hone.said x hx
      obtain ⟨e', he', hsaid'⟩ := hother.said x (hperm.mem_iff.mpr hx)
      rw [he, he', Option.map_some, Option.map_some, hsaid.readWith_eq hsaid']
    · rw [hone.others period hperiod, hother.others period (mt (hperiods period).mp hperiod)]
      cases he : s.holdings.editions.get? period with
      | none => rfl
      | some e =>
        have hkept := (hs.complete period e he).toKeptIn
        have hread : ∀ h, s.holdings.Extends h →
            e.readWith h.contents = e.readWith s.holdings.contents := fun h hx =>
          Prod.ext rfl (hkept.resolve_eq hx)
        rw [Option.map_some, Option.map_some, hread _ hone.tables, hread _ hother.tables]
  · rw [hone.texts, hother.texts]
    simp only [hperm.mem_iff]
  · rw [hone.titles, hother.titles]
    simp only [hperm.mem_iff]

end Store

/-! ## Loading periods again -/

namespace ArchiveRoot

/-- What is published when periods are loaded again. -/
def reissues (r : ArchiveRoot) (t : FileTree) (periods : List Period) : List (Period × Issue) :=
  (periods.map (r.reloadAttempt t)).filterMap Attempt.issue?

theorem nodup_reissues (r : ArchiveRoot) (t : FileTree) {periods : List Period}
    (h : periods.Nodup) : ((r.reissues t periods).map Prod.fst).Nodup := by
  have hperiod {period : Period} {x : Period × Issue}
      (hx : (r.reloadAttempt t period).issue? = some x) : x.1 = period := by
    obtain ⟨issue, -, rfl⟩ := Option.map_eq_some_iff.mp hx
    rfl
  have hdistinct : periods.Pairwise (· ≠ ·) := h
  unfold reissues
  rw [List.filterMap_map, List.Nodup, List.pairwise_map]
  refine hdistinct.filterMap _ fun period period' hne x hx x' hx' => ?_
  rw [hperiod hx, hperiod hx']
  exact hne

/-- Behind every run, the order in which periods are loaded again makes no difference to what the
store says, and texts that had numbers keep them. -/
theorem reloads_eq_of_perm (calls : List (ArchiveRoot × FileTree × Call)) (r : ArchiveRoot)
    (t : FileTree) {periods periods' : List Period} (hnodup : periods.Nodup)
    (hperm : periods'.Perm periods) :
    let s := (Call.runAll calls Store.empty).2
    let one := (Call.runAll (r.reloads t periods) s).2
    let other := (Call.runAll (r.reloads t periods') s).2
    one.SameContent other ∧ (one.Consistent ∧ other.Consistent) ∧
      s.holdings.Extends one.holdings ∧ s.holdings.Extends other.holdings := by
  intro s one other
  obtain ⟨hs, -⟩ := Store.consistent_empty.runAll calls
  obtain ⟨hconsistent, -⟩ := hs.runAll (r.reloads t periods)
  obtain ⟨hconsistent', -⟩ := hs.runAll (r.reloads t periods')
  have hpublishes (periods : List Period) (h : periods.Nodup) :
      Store.Publishes (r.reissues t periods) s (Call.runAll (r.reloads t periods) s).2 := by
    rw [runAll_reloads]
    exact s.publishes_publishAll (r.nodup_reissues t h)
  have hone := hpublishes periods hnodup
  have hother := hpublishes periods' (hperm.nodup_iff.mpr hnodup)
  have hsame : (r.reissues t periods').Perm (r.reissues t periods) :=
    (hperm.map _).filterMap _
  exact ⟨hone.sameContent hs hother hsame, ⟨hconsistent, hconsistent'⟩, hone.tables, hother.tables⟩

/-- The archives of two periods that share what comes behind the word. -/
def twoBulletins : FileTree :=
  ⟨(["a"], .directory) :: (["a", "1"], .directory) :: (["a", "2"], .directory) ::
    (placedIn ["a", "1"] (bulletinFiles "Hi") ++ placedIn ["a", "2"] (bulletinFiles "Bye")), [], []⟩

/-- What an archive with such a bulletin says. -/
def bulletinIssue (word : String) : Issue :=
  ⟨⟨1, 2, SortedMap.empty⟩, [⟨"alice",
    [⟨"greeting", "Greeting", "<p><a name=\"greeting\"></a>" ++ word ++ "</p>", .everyone⟩,
      ⟨"footer", "Footer", "<p><a name=\"footer\"></a></p>", .everyone⟩]⟩]⟩

theorem isProper_twoBulletins : twoBulletins.IsProper := by
  unfold FileTree.IsProper
  decide

theorem result_twoBulletins {period : Period} {word : String}
    (hunpacks : Unpacks twoBulletins (archivePath ⟨⟨"a"⟩, .directory⟩ period)
      ((bulletinFiles word).map asKept))
    (hissue : (Issue.ofDelivery period (.ofFiles (bulletinFiles word))).toOption =
      some (bulletinIssue word)) :
    (reloadAttempt ⟨⟨"a"⟩, .directory⟩ twoBulletins period).result = .ok (bulletinIssue word) := by
  obtain ⟨source, hopen, hdeliver⟩ :=
    Source.deliver_asKept isProper_twoBulletins (areInOrder_bulletinFiles word) hunpacks
  have hread := Issue.read_of_openAt hopen period
  rw [hdeliver] at hread
  exact hread.trans (eq_ok_of_toOption hissue)

theorem store_reloads_pair {r : ArchiveRoot} {t : FileTree} {first second : Period}
    {issue issue' : Issue} (hfirst : (r.reloadAttempt t first).result = .ok issue)
    (hsecond : (r.reloadAttempt t second).result = .ok issue') (s : Store) :
    (Call.runAll (r.reloads t [first, second]) s).2 =
      (s.publish first issue).publish second issue' := by
  rw [runAll_reloads]
  show s.afterAttempts [_, _] = _
  rw [Store.afterAttempts_cons_of_ok hfirst, Store.afterAttempts_cons_of_ok hsecond]
  rfl

/-- Two orders of loading give texts different numbers, and lead to the same content. -/
theorem reloads_eq_of_perm_twoBulletins :
    let r : ArchiveRoot := ⟨⟨"a"⟩, .directory⟩
    let one := (Call.runAll (r.reloads twoBulletins [1, 2]) Store.empty).2
    let other := (Call.runAll (r.reloads twoBulletins [2, 1]) Store.empty).2
    one.SameContent other ∧
      one.holdings.contents.texts = ["<p><a name=\"greeting\"></a>Hi</p>",
        "<p><a name=\"footer\"></a></p>", "<p><a name=\"greeting\"></a>Bye</p>"] ∧
      other.holdings.contents.texts = ["<p><a name=\"greeting\"></a>Bye</p>",
        "<p><a name=\"footer\"></a></p>", "<p><a name=\"greeting\"></a>Hi</p>"] := by
  intro r one other
  have hdistinct : ([1, 2] : List Period).Nodup := by decide
  obtain ⟨hsame, -⟩ := reloads_eq_of_perm [] r twoBulletins hdistinct (List.Perm.swap 1 2 [])
  have hfirst : (r.reloadAttempt twoBulletins 1).result = .ok (bulletinIssue "Hi") := by
    refine result_twoBulletins ⟨["a", "1"], rfl, rfl, rfl, rfl, fun name bytes => ?_,
      fun file _ => rfl⟩ (by decide +kernel)
    rw [isProper_twoBulletins.find?_concat_eq_some_iff]
    simp [twoBulletins, bulletinFiles, placedIn, asKept]
  have hsecond : (r.reloadAttempt twoBulletins 2).result = .ok (bulletinIssue "Bye") := by
    refine result_twoBulletins ⟨["a", "2"], rfl, rfl, rfl, rfl, fun name bytes => ?_,
      fun file _ => rfl⟩ (by decide +kernel)
    rw [isProper_twoBulletins.find?_concat_eq_some_iff]
    simp [twoBulletins, bulletinFiles, placedIn, asKept]
  have hone : one = (Store.empty.publish 1 (bulletinIssue "Hi")).publish 2 (bulletinIssue "Bye") :=
    store_reloads_pair hfirst hsecond Store.empty
  have hother :
      other = (Store.empty.publish 2 (bulletinIssue "Bye")).publish 1 (bulletinIssue "Hi") :=
    store_reloads_pair hsecond hfirst Store.empty
  refine ⟨hsame, ?_, ?_⟩
  · rw [hone]
    decide +kernel
  · rw [hother]
    decide +kernel

end ArchiveRoot

end Bulletin
