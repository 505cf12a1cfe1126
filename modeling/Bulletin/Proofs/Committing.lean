import Bulletin.Proofs.Consistency
import Bulletin.Proofs.Interning

/-!
# What committing sections comes to

Sections are committed one after the other, and each finds the tables as those before it have left
them. What they come to can be said of all of them at once:

    Commits.texts  : the shared texts are those from before and those of sections for everyone
    Commits.common : a name gets the number of the last section for everyone that has it
    Commits.titles : the names with titles are those from before and those of the sections
    withoutCommon_build : the rest of an edition has nothing to do with the tables

`Commits` is kept by running on, so that it holds of one section, of a bulletin and of an issue.
-/

namespace Bulletin

namespace Section

/-- The text that a section adds to the shared ones. -/
def sharedText? (s : Section) : Option String :=
  match s.audience with
  | .everyone => some s.html
  | .owner => none

/-- The texts that sections add to the shared ones. -/
def sharedTexts (sections : List Section) : List String := sections.filterMap sharedText?

/-- The text of the last section for everyone that has a name. -/
def lastShared? (name : String) (sections : List Section) : Option String :=
  (sharedTexts (sections.filter fun s => s.name = name)).getLast?

theorem sharedTexts_append (sections later : List Section) :
    sharedTexts (sections ++ later) = sharedTexts sections ++ sharedTexts later :=
  List.filterMap_append

theorem lastShared?_append (name : String) (sections later : List Section) :
    lastShared? name (sections ++ later) =
      (lastShared? name later).or (lastShared? name sections) := by
  unfold lastShared?
  rw [List.filter_append, sharedTexts_append, List.getLast?_append]

theorem mem_sharedTexts_of_lastShared? {name text : String} {sections : List Section}
    (h : lastShared? name sections = some text) : text ∈ sharedTexts sections :=
  (List.filter_sublist.filterMap sharedText?).subset (List.mem_of_getLast? h)

end Section

namespace Holdings

open Section (sharedText? sharedTexts lastShared?)

/-! ## The tables, and the numbers of shared sections -/

/-- What there is behind sections that have been committed. -/
structure Commits (sections : List Section) (state state' : Holdings × Edition) : Prop where
  texts : ∀ text, text ∈ state'.1.contents.texts ↔
    text ∈ state.1.contents.texts ∨ text ∈ sharedTexts sections
  /-- Texts that have a number keep it. -/
  ids : ∀ text ∈ state.1.contents.texts,
    state'.1.contents.idOf? text = state.1.contents.idOf? text
  /-- Where all texts are there already, the table is left alone. -/
  known : (∀ text ∈ sharedTexts sections, text ∈ state.1.contents.texts) →
    state'.1.contents = state.1.contents
  common : ∀ name, state'.2.common.get? name =
    match lastShared? name sections with
    | some text => state'.1.contents.idOf? text
    | none => state.2.common.get? name
  titles : ∀ name, state'.1.titles.contains name ↔
    state.1.titles.contains name ∨ ∃ s ∈ sections, s.name = name

theorem Commits.refl (state : Holdings × Edition) : Commits [] state state where
  texts text := by simp [sharedTexts]
  ids text _ := rfl
  known _ := rfl
  common name := rfl
  titles name := by simp

theorem Commits.trans {sections later : List Section} {state state' state'' : Holdings × Edition}
    (h : Commits sections state state') (h' : Commits later state' state'') :
    Commits (sections ++ later) state state'' where
  texts text := by
    rw [h'.texts, h.texts, Section.sharedTexts_append, List.mem_append, or_assoc]
  ids text hmem := by
    rw [h'.ids text ((h.texts text).mpr (.inl hmem)), h.ids text hmem]
  known hknown := by
    rw [Section.sharedTexts_append] at hknown
    have hfirst := h.known fun text hmem => hknown text (List.mem_append_left _ hmem)
    rw [← hfirst]
    refine h'.known fun text hmem => ?_
    rw [hfirst]
    exact hknown text (List.mem_append_right _ hmem)
  common name := by
    rw [h'.common name, Section.lastShared?_append]
    cases lastShared? name later with
    | some text => rfl
    | none =>
      dsimp only [Option.or]
      rw [h.common name]
      cases hlast : lastShared? name sections with
      | none => rfl
      | some text =>
        -- the text has had its number since the first sections
        have hmem : text ∈ sharedTexts sections := Section.mem_sharedTexts_of_lastShared? hlast
        exact (h'.ids text ((h.texts text).mpr (.inr hmem))).symm
  titles name := by
    rw [h'.titles, h.titles, or_assoc]
    simp only [List.mem_append, or_and_right, exists_or]

theorem commits_commitSection (user : String) (h : Holdings) (e : Edition) (s : Section) :
    Commits [s] (h, e) (commitSection user (h, e) s) := by
  have htitles : ∀ name, (h.setTitle s.name s.title).titles.contains name ↔
      h.titles.contains name ∨ ∃ s' ∈ [s], s'.name = name := by
    intro name
    refine (SortedMap.contains_insert h.titles s.name name s.title).trans ?_
    simp only [List.mem_singleton, exists_eq_left]
    exact or_comm.trans (or_congr_right eq_comm)
  unfold commitSection
  cases haudience : s.audience with
  | everyone =>
    have htexts : sharedTexts [s] = [s.html] := by simp [sharedTexts, sharedText?, haudience]
    refine ⟨fun text => ?_, fun text hmem => ?_, fun hknown => ?_, fun name => ?_, htitles⟩
    · rw [htexts, List.mem_singleton]
      exact Contents.mem_texts_intern
    · exact Contents.idOf?_intern_of_mem hmem
    · rw [htexts] at hknown
      exact congrArg Prod.fst (Contents.intern_of_mem (hknown s.html List.mem_cons_self))
    · show (e.common.insert s.name (h.contents.intern s.html).2).get? name = _
      rw [SortedMap.get?_insert]
      by_cases hname : s.name = name
      · have hlast : lastShared? name [s] = some s.html := by
          simp [lastShared?, hname, htexts]
        rw [if_pos hname.symm, hlast]
        exact (h.contents.idOf?_intern s.html).symm
      · have hlast : lastShared? name [s] = none := by
          simp [lastShared?, sharedTexts, hname]
        rw [if_neg (Ne.symm hname), hlast]
  | owner =>
    have htexts : sharedTexts [s] = [] := by simp [sharedTexts, sharedText?, haudience]
    have hlast : ∀ name, lastShared? name [s] = none := by
      intro name
      by_cases hname : s.name = name
      · simp [lastShared?, hname, htexts]
      · simp [lastShared?, sharedTexts, hname]
    refine ⟨fun text => ?_, fun text hmem => rfl, fun hknown => rfl, fun name => ?_, htitles⟩
    · simp [htexts, setTitle]
    · rw [hlast name]
      rfl

theorem commits_commit (h : Holdings) (e : Edition) (user : String) (sections : List Section) :
    Commits sections (h, e) (h.commit e user sections) := by
  unfold commit
  induction sections generalizing h e with
  | nil => exact .refl (h, e)
  | cons s rest ih => exact (commits_commitSection user h e s).trans (ih _ _)

end Holdings

/-! ## Issues -/

/-- The sections of an issue, user by user. -/
def Issue.sections (issue : Issue) : List Section := issue.bulletins.flatMap UserSections.sections

namespace Edition

/-- What an edition holds beside the sections for everyone. -/
def withoutCommon (e : Edition) : Edition := { e with common := SortedMap.empty }

theorem eq_of_withoutCommon {e e' : Edition} (hrest : e'.withoutCommon = e.withoutCommon)
    (hcommon : e'.common = e.common) : e' = e := by
  calc e' = { e'.withoutCommon with common := e'.common } := rfl
    _ = { e.withoutCommon with common := e.common } := by rw [hrest, hcommon]
    _ = e := rfl

/-- Gives a user a section, if it is not for everyone. -/
def setOwn (user : String) (e : Edition) (s : Section) : Edition :=
  match s.audience with
  | .everyone => e
  | .owner => e.setPersonal s.name user s.html

/-- Notes a user's bulletin, but for the sections for everyone. -/
def addOwn (e : Edition) (b : UserSections) : Edition :=
  (b.sections.foldl (setOwn b.user) e).addReader b.user

end Edition

namespace Holdings

open Edition (setOwn addOwn)

theorem withoutCommon_commit (h : Holdings) (e : Edition) (user : String)
    (sections : List Section) :
    (h.commit e user sections).2.withoutCommon =
      sections.foldl (setOwn user) e.withoutCommon := by
  unfold commit
  induction sections generalizing h e with
  | nil => rfl
  | cons s rest ih =>
    have hone : (commitSection user (h, e) s).2.withoutCommon =
        setOwn user e.withoutCommon s := by
      unfold commitSection setOwn
      cases s.audience with
      | everyone => rfl
      | owner => rfl
    rw [List.foldl_cons, List.foldl_cons, ← hone]
    exact ih _ _

/-- What an edition holds beside the sections for everyone is a matter of the issue alone. -/
theorem withoutCommon_build (h : Holdings) (issue : Issue) :
    (h.build issue).2.withoutCommon = issue.bulletins.foldl addOwn (Edition.new issue.metadata) := by
  have hall : ∀ (bulletins : List UserSections) (h : Holdings) (e : Edition),
      (bulletins.foldl addBulletin (h, e)).2.withoutCommon =
        bulletins.foldl addOwn e.withoutCommon := by
    intro bulletins
    induction bulletins with
    | nil => exact fun _ _ => rfl
    | cons b rest ih =>
      intro h e
      have hone : (addBulletin (h, e) b).2.withoutCommon = addOwn e.withoutCommon b := by
        unfold addOwn
        rw [← withoutCommon_commit h]
        rfl
      rw [List.foldl_cons, List.foldl_cons, ← hone]
      exact ih _ _
  exact hall issue.bulletins h _

theorem commits_build (h : Holdings) (issue : Issue) :
    Commits issue.sections (h, Edition.new issue.metadata) (h.build issue) := by
  unfold build Issue.sections
  generalize Edition.new issue.metadata = e
  generalize issue.bulletins = bulletins
  induction bulletins generalizing h e with
  | nil => exact .refl (h, e)
  | cons b rest ih =>
    have hcommit := h.commits_commit e b.user b.sections
    have hone : Commits b.sections (h, e) (addBulletin (h, e) b) :=
      ⟨hcommit.texts, hcommit.ids, hcommit.known, hcommit.common, hcommit.titles⟩
    rw [List.flatMap_cons]
    exact hone.trans (ih _ _)

end Holdings

end Bulletin
