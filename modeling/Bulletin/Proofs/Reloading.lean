import Bulletin.Proofs.Overwriting
import Bulletin.Proofs.Verbatim

/-!
# Loading again what has been loaded

All periods share the texts and the titles, so what an archive finds when it is loaded again is not
what it left. But texts keep their numbers, and by these the edition is built again as it was. Only
titles may have been given to names by others since, and are taken back:

    edition_build_again  : an issue that is built again comes to the same edition
    publish_of_keeps     : where it is still kept, publishing it again changes titles only
    publish_publish      : and nothing if nothing else has been published since
    reload_again         : in all, for the loader
-/

namespace Bulletin

open Section (sharedTexts lastShared?)

/-! ## Titles -/

namespace Holdings

theorem get?_titles_commit (h : Holdings) (e : Edition) (user : String) (sections : List Section)
    (name : String) :
    (h.commit e user sections).1.titles.get? name =
      ((Section.last? name sections).map (·.title)).or (h.titles.get? name) := by
  refine foldl_eq_last (fun state : Holdings × Edition => state.1.titles.get? name) ?_ sections
    (h, e)
  intro state s
  simpa using get?_titles_commitSection user state s name

/-- A name has the title of the last section of an issue that has the name. -/
theorem get?_titles_build (h : Holdings) (issue : Issue) (name : String) :
    (h.build issue).1.titles.get? name =
      ((Section.last? name issue.sections).map (·.title)).or (h.titles.get? name) := by
  unfold build Issue.sections
  generalize Edition.new issue.metadata = e
  generalize issue.bulletins = bulletins
  induction bulletins generalizing h e with
  | nil => rfl
  | cons b rest ih =>
    have hone : (addBulletin (h, e) b).1.titles.get? name =
        ((Section.last? name b.sections).map (·.title)).or (h.titles.get? name) :=
      h.get?_titles_commit e b.user b.sections name
    rw [List.foldl_cons, ih, hone, List.flatMap_cons, Section.last?_append, Option.map_or,
      Option.or_assoc]

/-! ## Building again -/

variable {h h' : Holdings} {issue : Issue}

/-- The shared texts of an issue that has been built have the numbers that they had. -/
theorem exists_idOf?_of_build (hx : (h.build issue).1.Extends h') {text : String}
    (htext : text ∈ sharedTexts issue.sections) :
    ∃ id, (h.build issue).1.contents.idOf? text = some id ∧ h'.contents.idOf? text = some id := by
  have hmem := ((h.commits_build issue).texts text).mpr (.inr htext)
  obtain ⟨id, hid⟩ := Contents.exists_idOf?_of_mem hmem
  have hlater := hx.contents id text (Contents.idOf?_eq_some_iff.mp hid)
  exact ⟨id, hid, Contents.idOf?_eq_some_iff.mpr hlater⟩

/-- All shared texts are there already, so none is added. -/
theorem contents_build_again (hx : (h.build issue).1.Extends h') :
    (h'.build issue).1.contents = h'.contents := by
  refine (h'.commits_build issue).known fun text htext => ?_
  obtain ⟨id, -, hid⟩ := exists_idOf?_of_build hx htext
  by_contra hmissing
  rw [Contents.idOf?_eq_none_iff.mpr hmissing] at hid
  cases hid

/-- The edition is the same, with its numbers. -/
theorem edition_build_again (hx : (h.build issue).1.Extends h') :
    (h'.build issue).2 = (h.build issue).2 := by
  have hrest : (h'.build issue).2.withoutCommon = (h.build issue).2.withoutCommon := by
    rw [withoutCommon_build, withoutCommon_build]
  have hcommon : (h'.build issue).2.common = (h.build issue).2.common := by
    apply SortedMap.ext_get?
    intro name
    rw [(h.commits_build issue).common name, (h'.commits_build issue).common name,
      contents_build_again hx]
    cases hlast : lastShared? name issue.sections with
    | none => rfl
    | some text =>
      have htext := Section.mem_sharedTexts_of_lastShared? hlast
      obtain ⟨id, hid, hid'⟩ := exists_idOf?_of_build hx htext
      exact hid'.trans hid.symm
  exact Edition.eq_of_withoutCommon hrest hcommon

end Holdings

/-! ## Publishing again -/

namespace Store

variable {s s' : Store} {period : Period} {issue : Issue}

/-- The titles of a store when an issue has been published. -/
def retitled (s : Store) (issue : Issue) : SortedMap String String :=
  (s.holdings.build issue).1.titles

/-- Where an issue has been published and its period is still kept so, publishing it again makes no
difference but for the titles. -/
theorem publish_of_keeps (h : Keeps period (s.publish period issue) s') :
    s'.publish period issue =
      { s' with holdings := { s'.holdings with titles := s'.retitled issue } } := by
  have hx : (s.holdings.build issue).1.Extends s'.holdings := ⟨h.tables.contents, h.tables.titles⟩
  have hcontents := Holdings.contents_build_again hx
  have hedition := Holdings.edition_build_again hx
  have heditions : s'.holdings.editions.insert period (s.holdings.build issue).2 =
      s'.holdings.editions := by
    apply SortedMap.insert_of_get?_eq_some
    rw [h.edition, get?_editions_publish, if_pos rfl]
  have hflags : s'.flags.insert period true = s'.flags := by
    apply SortedMap.insert_of_get?_eq_some
    rw [← isAvailable_iff, h.available, isAvailable_publish, if_pos rfl]
  unfold publish install retitled
  dsimp only
  rw [hflags, hedition, hcontents, (s'.holdings.extends_build issue).2, heditions]

/-- No name gets a title by that, or loses one. -/
theorem contains_retitled (h : Keeps period (s.publish period issue) s') (name : String) :
    (s'.retitled issue).contains name ↔ s'.holdings.titles.contains name := by
  refine ((s'.holdings.commits_build issue).titles name).trans (or_iff_left_of_imp fun hpart => ?_)
  exact h.tables.titles name (((s.holdings.commits_build issue).titles name).mpr (.inr hpart))

/-- The second time nothing changes, not even titles. -/
theorem publish_publish (s : Store) (period : Period) (issue : Issue) :
    (s.publish period issue).publish period issue = s.publish period issue := by
  rw [publish_of_keeps (Keeps.refl period (s.publish period issue))]
  have htitles : (s.publish period issue).retitled issue =
      (s.publish period issue).holdings.titles := by
    apply SortedMap.ext_get?
    intro name
    have hone : (s.publish period issue).holdings.titles.get? name = _ :=
      s.holdings.get?_titles_build issue name
    unfold retitled
    rw [Holdings.get?_titles_build, hone]
    cases Section.last? name issue.sections with
    | none => rfl
    | some part => rfl
  rw [htitles]

end Store

/-! ## What an archive delivers -/

namespace Attempt

variable {a b : Attempt}

/-- The archive can be opened and delivers this. -/
def Yields (a : Attempt) (d : Delivery) : Prop :=
  ∃ source, Source.openAt a.layout a.files a.path = .ok source ∧ (source.deliver a.files).1 = d

/-- Two archives deliver the same, wherever they are and of whatever kind. -/
def SameContent (a b : Attempt) : Prop := ∃ d, a.Yields d ∧ b.Yields d

theorem Yields.result_eq {d : Delivery} (h : a.Yields d) :
    a.result = Issue.ofDelivery a.period d := by
  obtain ⟨source, hopen, rfl⟩ := h
  exact Issue.read_of_openAt hopen a.period

theorem SameContent.result_eq (h : a.SameContent b) (hperiod : a.period = b.period) :
    a.result = b.result := by
  obtain ⟨d, ha, hb⟩ := h
  rw [ha.result_eq, hb.result_eq, hperiod]

end Attempt

namespace ArchiveRoot

variable {r : ArchiveRoot} {t : FileTree} {period : Period}

theorem run_reload_of_ok {issue : Issue} (h : (r.reloadAttempt t period).result = .ok issue)
    (s : Store) : (r.reload t period).run.run s = (.ok (), s.publish period issue) := by
  rw [run_reload, Store.afterAttempts_cons_of_ok h, h]
  rfl

theorem exists_of_run_reload {s s' : Store} (h : (r.reload t period).run.run s = (.ok (), s')) :
    ∃ issue, (r.reloadAttempt t period).result = .ok issue ∧ s' = s.publish period issue := by
  rw [run_reload] at h
  cases hresult : (r.reloadAttempt t period).result with
  | error e =>
    rw [hresult] at h
    cases h
  | ok issue =>
    rw [hresult, Store.afterAttempts_cons_of_ok hresult] at h
    cases h
    exact ⟨issue, rfl, rfl⟩

/-- Behind every run, loading a period again a second time changes nothing, as long as the files of
its archive are the same. And where the last archive of the period that has been ingested delivered
what its archive delivers now, loading it again changes nothing but titles, whatever has been
ingested of other periods since: no name gets or loses one, and those that are in the archive get
the last that it has for them. -/
theorem reload_again (s₀ : Store) (calls : List (ArchiveRoot × FileTree × Call)) (r : ArchiveRoot)
    (t : FileTree) (period : Period) :
    let s := (Call.runAll calls s₀).2
    (∀ s' t', (r.reload t period).run.run s = (.ok (), s') →
      FileTree.AgreesAt (r.archivePath period) t t' →
        (r.reload t' period).run.run s' = (.ok (), s')) ∧
      ∀ a : Attempt, a.IsLatest calls → a.period = period →
        a.SameContent (r.reloadAttempt t period) →
        ∃ issue titles, a.result = .ok issue ∧
          (r.reload t period).run.run s =
            (.ok (), { s with holdings := { s.holdings with titles } }) ∧
          (∀ name, titles.contains name ↔ s.holdings.titles.contains name) ∧
          ∀ name, titles.get? name =
            ((Section.last? name issue.sections).map (·.title)).or
              (s.holdings.titles.get? name) := by
  intro s
  refine ⟨fun s' t' hreload hfiles => ?_, fun a hlatest hperiod hsame => ?_⟩
  · obtain ⟨issue, hresult, rfl⟩ := exists_of_run_reload hreload
    have hresult' : (r.reloadAttempt t' period).result = .ok issue := by
      rw [← hresult]
      exact (Issue.read_eq_of_agreesAt hfiles r.layout period).symm
    rw [run_reload_of_ok hresult', Store.publish_publish]
  · subst hperiod
    obtain ⟨issue, hresult⟩ := hlatest.exists_result
    have hresult' : (r.reloadAttempt t a.period).result = .ok issue :=
      (hsame.result_eq rfl).symm.trans hresult
    obtain ⟨built, hkeeps⟩ := Store.exists_keeps_of_isLatest (s := s₀) hlatest hresult
    have hreload := run_reload_of_ok hresult' s
    rw [Store.publish_of_keeps hkeeps] at hreload
    exact ⟨issue, s.retitled issue, hresult, hreload, Store.contains_retitled hkeeps,
      s.holdings.get?_titles_build issue⟩

/-- The files of an archive whose news have a title. -/
def newsFiles (title : String) : List (String × List UInt8) :=
  bulletinFiles ("Hi<h2><a name=news>" ++ title ++ "</a></h2>")

/-- The archives of two periods that give their news different titles. -/
def renamedNews : FileTree :=
  ⟨(["a"], .directory) :: (["a", "1"], .directory) :: (["a", "2"], .directory) ::
    (placedIn ["a", "1"] (newsFiles "Old") ++ placedIn ["a", "2"] (newsFiles "New")), [], []⟩

/-- What an archive with such news says. -/
def newsIssue (title : String) : Issue :=
  ⟨⟨1, 2, SortedMap.empty⟩, [⟨"alice",
    [⟨"greeting", "Greeting", "<p><a name=\"greeting\"></a>Hi</p>", .everyone⟩,
      ⟨"news", title, "<h2><a name=\"news\">" ++ title ++ "</a></h2>", .everyone⟩,
      ⟨"footer", "Footer", "<p><a name=\"footer\"></a></p>", .everyone⟩]⟩]⟩

theorem isProper_renamedNews : renamedNews.IsProper := by
  unfold FileTree.IsProper
  decide

theorem yields_renamedNews {period : Period} {title : String}
    (hunpacks : Unpacks renamedNews (archivePath ⟨⟨"a"⟩, .directory⟩ period)
      ((newsFiles title).map asKept)) :
    (reloadAttempt ⟨⟨"a"⟩, .directory⟩ renamedNews period).Yields (.ofFiles (newsFiles title)) :=
  Source.deliver_asKept isProper_renamedNews (areInOrder_bulletinFiles _) hunpacks

/-- The news of the first period take their title back from those of the second, and that is all
that changes. -/
theorem reload_again_renamedNews :
    let r : ArchiveRoot := ⟨⟨"a"⟩, .directory⟩
    let s := (Call.runAll (r.reloads renamedNews [1, 2]) Store.empty).2
    ∃ titles,
      let s' : Store := { s with holdings := { s.holdings with titles } }
      (r.reload renamedNews 1).run.run s = (.ok (), s') ∧
        (r.reload renamedNews 1).run.run s' = (.ok (), s') ∧
        s.holdings.titles.get? "news" = some "New" ∧ titles.get? "news" = some "Old" := by
  intro r s
  have hfirst : (r.reloadAttempt renamedNews 1).Yields (.ofFiles (newsFiles "Old")) := by
    refine yields_renamedNews ⟨["a", "1"], rfl, rfl, rfl, rfl, fun name bytes => ?_,
      fun file _ => rfl⟩
    rw [isProper_renamedNews.find?_concat_eq_some_iff]
    simp [renamedNews, newsFiles, bulletinFiles, placedIn, asKept]
  have hsecond : (r.reloadAttempt renamedNews 2).Yields (.ofFiles (newsFiles "New")) := by
    refine yields_renamedNews ⟨["a", "2"], rfl, rfl, rfl, rfl, fun name bytes => ?_,
      fun file _ => rfl⟩
    rw [isProper_renamedNews.find?_concat_eq_some_iff]
    simp [renamedNews, newsFiles, bulletinFiles, placedIn, asKept]
  have hold : (r.reloadAttempt renamedNews 1).result = .ok (newsIssue "Old") :=
    hfirst.result_eq.trans (eq_ok_of_toOption (by decide +kernel))
  have hnew : (r.reloadAttempt renamedNews 2).result = .ok (newsIssue "New") :=
    hsecond.result_eq.trans (eq_ok_of_toOption (by decide +kernel))
  have hs : s = (Store.empty.publish 1 (newsIssue "Old")).publish 2 (newsIssue "New") :=
    store_reloads_pair hold hnew Store.empty
  have hlatest : (r.reloadAttempt renamedNews 1).IsLatest (r.reloads renamedNews [1, 2]) := by
    refine ⟨[], [r.reloadAttempt renamedNews 2], rfl, ?_, fun b hb hperiod => ?_⟩
    · unfold Attempt.Succeeds
      rw [hold]
      rfl
    · rw [List.mem_singleton.mp hb] at hperiod
      exact absurd hperiod (by decide)
  obtain ⟨htwice, hagain⟩ :=
    reload_again Store.empty (r.reloads renamedNews [1, 2]) r renamedNews 1
  obtain ⟨issue, titles, hissue, hreload, -, htitles⟩ :=
    hagain (r.reloadAttempt renamedNews 1) hlatest rfl ⟨_, hfirst, hfirst⟩
  rw [hold] at hissue
  cases hissue
  refine ⟨titles, hreload, htwice _ _ hreload ⟨rfl, rfl, rfl, fun _ _ _ _ => rfl⟩, ?_, ?_⟩
  · rw [hs]
    decide +kernel
  · rw [htitles]
    rfl

end ArchiveRoot

end Bulletin
