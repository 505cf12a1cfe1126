import Bulletin.Proofs.Interning
import Bulletin.Proofs.Isolation
import Bulletin.Proofs.UserOrder

/-!
# Of several sections the last counts

Sections are committed bulletin by bulletin, and one name may come many times: in one bulletin or in
several, for everyone and for users. What there is in the end can be told without going through all
of it, as each time only the last counts:

    foldl_eq_last       : what is written over and over is what was written last
    titles_commitAll    : a name has the title of its last section, whoever it is for
    ownSection?_commitAll, commonText?_commitAll : and so for what users get, and what everyone gets
    texts_commitAll     : the shared texts, in the order in which they first came
    commitAll_eq_last   : all of it, and what is left alone
-/

namespace Bulletin

/-! ## What is written last -/

/-- Where each step writes something or leaves things alone, the last that is written is there in
the end. -/
theorem foldl_eq_last {σ α β : Type} (view : σ → Option β) {step : σ → α → σ} {p : α → Bool}
    {f : α → β} (hstep : ∀ st a, view (step st a) = if p a then some (f a) else view st)
    (l : List α) (st : σ) :
    view (l.foldl step st) = ((l.filter p).getLast?.map f).or (view st) := by
  induction l generalizing st with
  | nil => rfl
  | cons a rest ih =>
    rw [List.foldl_cons, ih, hstep]
    by_cases hp : p a
    · rw [if_pos hp, List.filter_cons_of_pos hp, List.getLast?_cons]
      cases (rest.filter p).getLast? with
      | none => rfl
      | some b => rfl
    · rw [if_neg hp, List.filter_cons_of_neg hp]

/-- The texts that are added to the shared ones are those of the sections for everyone. -/
theorem Section.sharedTexts_eq_map (sections : List Section) :
    sharedTexts sections = (sections.filter fun s => s.audience = .everyone).map (·.html) := by
  induction sections with
  | nil => rfl
  | cons s rest ih =>
    unfold sharedTexts at ih ⊢
    rw [List.filterMap_cons, ih]
    unfold sharedText?
    cases haudience : s.audience with
    | everyone => simp [haudience]
    | owner => simp [haudience]

namespace UserSections

/-- The sections of bulletins, in order, each with the user it is for. -/
def committed (bulletins : List UserSections) : List (String × Section) :=
  bulletins.flatMap fun b => b.sections.map fun s => (b.user, s)

/-- The last section of bulletins that is picked, by itself and by its user. -/
def last? (pick : String → Section → Bool) (bulletins : List UserSections) : Option Section :=
  ((committed bulletins).filter fun c => pick c.1 c.2).getLast?.map Prod.snd

/-- The sections of bulletins, in order. -/
def allSections (bulletins : List UserSections) : List Section := bulletins.flatMap sections

theorem map_committed (bulletins : List UserSections) :
    (committed bulletins).map Prod.snd = allSections bulletins := by
  unfold committed allSections
  simp only [List.map_flatMap, List.map_map, Function.comp_def, List.map_id']

end UserSections

namespace Holdings

open UserSections (committed allSections)
open Section (sharedText? sharedTexts lastShared?)

/-- Commits bulletins to a period that is not kept yet, one after the other. -/
def commitAll (state : Holdings × Edition) (bulletins : List UserSections) : Holdings × Edition :=
  bulletins.foldl (fun state b => state.1.commit state.2 b.user b.sections) state

/-- To commit bulletins is to commit their sections, each for its user. -/
theorem commitAll_eq_foldl (state : Holdings × Edition) (bulletins : List UserSections) :
    commitAll state bulletins =
      (committed bulletins).foldl (fun state c => commitSection c.1 state c.2) state := by
  unfold commitAll committed commit
  rw [List.foldl_flatMap]
  simp only [List.foldl_map]

/-! ## One section -/

theorem get?_titles_commitSection (user : String) (state : Holdings × Edition) (s : Section)
    (name : String) :
    (commitSection user state s).1.titles.get? name =
      if s.name = name then some s.title else state.1.titles.get? name := by
  have hset : (commitSection user state s).1.titles = state.1.titles.insert s.name s.title := by
    unfold commitSection
    cases s.audience <;> rfl
  rw [hset, SortedMap.get?_insert]
  simp only [eq_comm]

theorem ownSection?_commitSection (owner : String) (state : Holdings × Edition) (s : Section)
    (user name : String) :
    (commitSection owner state s).2.ownSection? user name =
      if s.audience = .owner ∧ s.name = name ∧ owner = user then some s.html
      else state.2.ownSection? user name := by
  unfold commitSection
  cases haudience : s.audience with
  | everyone =>
    rw [if_neg fun h => by cases h.1]
    rfl
  | owner =>
    dsimp only
    rw [Edition.ownSection?_setPersonal]
    simp only [true_and, eq_comm]

theorem contents_commitSection (user : String) (state : Holdings × Edition) (s : Section) :
    (commitSection user state s).1.contents =
      (state.1.contents.internAll (sharedText? s).toList).1 := by
  unfold commitSection sharedText?
  cases s.audience <;> rfl

/-! ## Bulletins -/

/-- What single sections write, where they are picked, is there in the end as the last of them has
written it. -/
theorem view_commitAll {β : Type} (view : Holdings × Edition → Option β)
    {pick : String → Section → Bool} {f : Section → β}
    (hstep : ∀ user state s, view (commitSection user state s) =
      if pick user s then some (f s) else view state)
    (state : Holdings × Edition) (bulletins : List UserSections) :
    view (commitAll state bulletins) =
      ((UserSections.last? pick bulletins).map f).or (view state) := by
  rw [commitAll_eq_foldl, foldl_eq_last view (fun state c => hstep c.1 state c.2)]
  unfold UserSections.last?
  rw [Option.map_map]
  rfl

variable (state : Holdings × Edition) (bulletins : List UserSections)

/-- A name has the title of the last section that has the name. -/
theorem titles_commitAll (name : String) :
    (commitAll state bulletins).1.titles.get? name =
      ((UserSections.last? (fun _ s => s.name = name) bulletins).map (·.title)).or
        (state.1.titles.get? name) := by
  refine view_commitAll (fun state => state.1.titles.get? name) ?_ state bulletins
  intro user state s
  simpa using get?_titles_commitSection user state s name

/-- A user has the text of the last section of a name that is the user's own. -/
theorem ownSection?_commitAll (user name : String) :
    (commitAll state bulletins).2.ownSection? user name =
      ((UserSections.last? (fun owner s => s.audience = .owner ∧ s.name = name ∧ owner = user)
        bulletins).map (·.html)).or (state.2.ownSection? user name) := by
  refine view_commitAll (fun state => state.2.ownSection? user name) ?_ state bulletins
  intro owner state s
  simpa using ownSection?_commitSection owner state s user name

theorem contents_foldl_commitSection (all : List (String × Section)) :
    (all.foldl (fun state c => commitSection c.1 state c.2) state).1.contents =
      (state.1.contents.internAll (sharedTexts (all.map Prod.snd))).1 := by
  induction all generalizing state with
  | nil => rfl
  | cons c rest ih =>
    rw [List.foldl_cons, ih, contents_commitSection]
    unfold sharedTexts
    rw [List.map_cons, List.filterMap_cons]
    cases sharedText? c.2 with
    | none => rfl
    | some text => rfl

/-- The texts of sections for everyone are added to the shared ones, and no others. -/
theorem contents_commitAll :
    (commitAll state bulletins).1.contents =
      (state.1.contents.internAll (sharedTexts (allSections bulletins))).1 := by
  rw [commitAll_eq_foldl, contents_foldl_commitSection, UserSections.map_committed]

theorem commits_commitAll :
    Commits (allSections bulletins) state (commitAll state bulletins) := by
  induction bulletins generalizing state with
  | nil => exact .refl state
  | cons b rest ih => exact (commits_commit state.1 state.2 b.user b.sections).trans (ih _)

/-- The last text for everyone, told by all sections or by those of bulletins. -/
theorem lastShared?_allSections (name : String) :
    lastShared? name (allSections bulletins) =
      (UserSections.last? (fun _ s => s.audience = .everyone ∧ s.name = name) bulletins).map
        (·.html) := by
  unfold lastShared? UserSections.last?
  rw [Section.sharedTexts_eq_map, List.filter_filter, ← UserSections.map_committed,
    List.filter_map, List.map_map, List.getLast?_map, Option.map_map]
  simp only [Function.comp_def, Bool.decide_and]

/-- Everyone gets the text of the last section for everyone that has a name. Where there is none,
the number is the one from before, and so is the text if the number had one. -/
theorem commonText?_commitAll
    (hresolves : ∀ name id, state.2.common.get? name = some id →
      ∃ html, state.1.contents.get? id = some html) (name : String) :
    commonText? (commitAll state bulletins) name =
        ((UserSections.last? (fun _ s => s.audience = .everyone ∧ s.name = name) bulletins).map
          (·.html)).or (commonText? state name) ∧
      (UserSections.last? (fun _ s => s.audience = .everyone ∧ s.name = name) bulletins = none →
        (commitAll state bulletins).2.common.get? name = state.2.common.get? name) := by
  have hcommits := commits_commitAll state bulletins
  have hcommon := hcommits.common name
  have hcontents := contents_commitAll state bulletins
  rw [← lastShared?_allSections]
  unfold commonText?
  cases hlast : lastShared? name (allSections bulletins) with
  | some text =>
    rw [hlast] at hcommon
    have hmem := (hcommits.texts text).mpr (.inr (Section.mem_sharedTexts_of_lastShared? hlast))
    obtain ⟨id, hid⟩ := Contents.exists_idOf?_of_mem hmem
    have hnumber : (commitAll state bulletins).2.common.get? name = some id := hcommon.trans hid
    rw [hnumber]
    refine ⟨Contents.idOf?_eq_some_iff.mp hid, fun hnone => ?_⟩
    rw [lastShared?_allSections, hnone] at hlast
    cases hlast
  | none =>
    rw [hlast] at hcommon
    refine ⟨?_, fun _ => hcommon⟩
    rw [hcommon]
    cases hid : state.2.common.get? name with
    | none => rfl
    | some id =>
      -- the number has had its text before, and keeps it
      obtain ⟨html, hhtml⟩ := hresolves name id hid
      have hprefix :=
        Contents.prefix_internAll state.1.contents (sharedTexts (allSections bulletins))
      rw [← hcontents] at hprefix
      rw [Option.bind_some, Option.bind_some, Contents.get?_of_prefix hprefix hhtml, hhtml]
      rfl

theorem contains_personal_commitAll (name : String) :
    (commitAll state bulletins).2.personal.contains name ↔
      state.2.personal.contains name ∨
        ∃ c ∈ committed bulletins, c.2.audience = .owner ∧ c.2.name = name := by
  rw [commitAll_eq_foldl]
  refine foldl_iff (p := fun state : Holdings × Edition => state.2.personal.contains name)
    (fun state c => ?_) (committed bulletins) state
  unfold commitSection
  cases c.2.audience with
  | everyone =>
    show state.2.personal.contains name ↔ _
    simp
  | owner =>
    refine (SortedMap.contains_insert state.2.personal c.2.name name _).trans ?_
    simp only [true_and, or_comm, eq_comm]

/-- What is kept of other periods, and what the period is said to be about, are left alone. -/
theorem frame_commitAll :
    (commitAll state bulletins).1.editions = state.1.editions ∧
      (commitAll state bulletins).2.metadata = state.2.metadata ∧
      (commitAll state bulletins).2.readers = state.2.readers := by
  induction bulletins generalizing state with
  | nil => exact ⟨rfl, rfl, rfl⟩
  | cons b rest ih =>
    have hadds := adds_commit state.1 state.2 b.user b.sections
    have hmetadata := commit_metadata state.1 state.2 b.user b.sections
    obtain ⟨heditions, hlater, hreaders⟩ := ih (state.1.commit state.2 b.user b.sections)
    exact ⟨heditions.trans hadds.editions, hlater.trans hmetadata, hreaders.trans hadds.readers⟩

/-- What there is behind bulletins that have been committed to a period, if its numbers had texts.
Under each name everyone gets the last text for everyone, each user the last that is the user's own,
and the title is that of the last section of either kind; where there is none, all is as before. The
shared texts are those from before, and behind them those for everyone that are new, in the order in
which they first came. All else is left alone. -/
theorem commitAll_eq_last (state : Holdings × Edition)
    (hresolves : ∀ name id, state.2.common.get? name = some id →
      ∃ html, state.1.contents.get? id = some html) (bulletins : List UserSections) :
    let out := commitAll state bulletins
    (∀ name,
      let last? := UserSections.last? (fun _ s => s.audience = .everyone ∧ s.name = name) bulletins
      commonText? out name = (last?.map (·.html)).or (commonText? state name) ∧
        (last? = none → out.2.common.get? name = state.2.common.get? name)) ∧
      (∀ name user,
        let last? := UserSections.last?
          (fun owner s => s.audience = .owner ∧ s.name = name ∧ owner = user) bulletins
        out.2.ownSection? user name = (last?.map (·.html)).or (state.2.ownSection? user name)) ∧
      (∀ name, out.2.personal.contains name ↔ state.2.personal.contains name ∨
        ∃ c ∈ committed bulletins, c.2.audience = .owner ∧ c.2.name = name) ∧
      (∀ name,
        let last? := UserSections.last? (fun _ s => s.name = name) bulletins
        out.1.titles.get? name = (last?.map (·.title)).or (state.1.titles.get? name)) ∧
      out.1.contents.texts = state.1.contents.texts ++
        ((sharedTexts (allSections bulletins)).filter (· ∉ state.1.contents.texts)).eraseDups ∧
      (∀ text, text ∈ out.1.contents.texts ↔ text ∈ state.1.contents.texts ∨
        ∃ c ∈ committed bulletins, c.2.audience = .everyone ∧ c.2.html = text) ∧
      out.1.editions = state.1.editions ∧ out.2.metadata = state.2.metadata ∧
      out.2.readers = state.2.readers := by
  intro out
  have hcontents : out.1.contents = _ := contents_commitAll state bulletins
  have hshared (text : String) : text ∈ sharedTexts (allSections bulletins) ↔
      ∃ c ∈ committed bulletins, c.2.audience = .everyone ∧ c.2.html = text := by
    rw [Section.sharedTexts_eq_map, ← UserSections.map_committed]
    constructor
    · intro htext
      obtain ⟨s, hs, rfl⟩ := List.mem_map.mp htext
      obtain ⟨hmem, haudience⟩ := List.mem_filter.mp hs
      obtain ⟨c, hc, rfl⟩ := List.mem_map.mp hmem
      exact ⟨c, hc, of_decide_eq_true haudience, rfl⟩
    · rintro ⟨c, hc, haudience, rfl⟩
      have hmem := List.mem_map_of_mem (f := Prod.snd) hc
      exact List.mem_map_of_mem (List.mem_filter.mpr ⟨hmem, decide_eq_true haudience⟩)
  refine ⟨commonText?_commitAll state bulletins hresolves, fun name user => ?_,
    contains_personal_commitAll state bulletins, titles_commitAll state bulletins, ?_,
    fun text => ?_, frame_commitAll state bulletins⟩
  · exact ownSection?_commitAll state bulletins user name
  · rw [hcontents, Contents.texts_internAll]
  · rw [← hshared]
    exact (commits_commitAll state bulletins).texts text

/-- A period in which two names are for everyone, and one is alice's. -/
def halfBuilt : Holdings × Edition :=
  (⟨⟨["<p>kept</p>", "<p>old</p>"], by decide⟩, SortedMap.empty, SortedMap.empty⟩,
    (((Edition.new ⟨1, 2, SortedMap.empty⟩).setCommon "toc" 1).setCommon "news" 2).setPersonal
      "jobs" "alice" "<p>before</p>")

/-- Bulletins in which names come again: within one and in both, and for everyone and for bob. -/
def overlapping : List UserSections :=
  [⟨"alice", [⟨"news", "First", "<p>new</p>", .everyone⟩, ⟨"gpu", "Hers", "<p>hers</p>", .everyone⟩,
      ⟨"news", "Second", "<p>old</p>", .everyone⟩]⟩,
    ⟨"bob", [⟨"gpu", "His", "<p>his</p>", .owner⟩, ⟨"gpu", "Own", "<p>own</p>", .owner⟩,
      ⟨"news", "Third", "<p>kept</p>", .everyone⟩]⟩]

theorem commitAll_eq_last_overlapping :
    let out := commitAll halfBuilt overlapping
    commonText? out "news" = some "<p>kept</p>" ∧ commonText? out "toc" = some "<p>kept</p>" ∧
      commonText? out "gpu" = some "<p>hers</p>" ∧
      out.2.ownSection? "bob" "gpu" = some "<p>own</p>" ∧
      out.2.ownSection? "alice" "jobs" = some "<p>before</p>" ∧
      out.1.titles.get? "gpu" = some "Own" ∧
      out.1.contents.texts = ["<p>kept</p>", "<p>old</p>", "<p>new</p>", "<p>hers</p>"] := by
  intro out
  have hresolves : ∀ name id, halfBuilt.2.common.get? name = some id →
      ∃ html, halfBuilt.1.contents.get? id = some html := by
    intro name id hid
    have hcommon : halfBuilt.2.common = (SortedMap.empty.insert "toc" 1).insert "news" 2 := rfl
    rw [hcommon, SortedMap.get?_insert, SortedMap.get?_insert] at hid
    split at hid
    · cases hid
      exact ⟨"<p>old</p>", rfl⟩
    · split at hid
      · cases hid
        exact ⟨"<p>kept</p>", rfl⟩
      · cases hid
  obtain ⟨hcommon, hown, -, htitles, htexts, -⟩ :=
    commitAll_eq_last halfBuilt hresolves overlapping
  refine ⟨?_, ?_, ?_, ?_, ?_, ?_, ?_⟩
  · rw [(hcommon "news").1]
    decide +kernel
  · rw [(hcommon "toc").1]
    decide +kernel
  · rw [(hcommon "gpu").1]
    decide +kernel
  · rw [hown]
    decide +kernel
  · rw [hown]
    decide +kernel
  · rw [htitles]
    decide +kernel
  · rw [htexts]
    decide +kernel

end Holdings

end Bulletin
