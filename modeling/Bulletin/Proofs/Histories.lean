import Mathlib.Data.List.Forall2
import Bulletin.Proofs.Consistency
import Bulletin.Proofs.Isolation

/-!
# What belongs to others, from its being written on

Editions are built step by step, several at a time, and installed in the store. Two histories of
such steps may differ in what is written for other users: in the sections that only those get, and
in the metadata's data about them. What a user is answered behind both is the same, and so are the
tables that all periods share:

    Desk               : a store, and the editions that are being built for it
    Step.SameFor       : two steps differ only in what belongs to other users
    Desk.Agrees.take   : one step keeps two desks in agreement
    Desk.Agrees.work   : so does a history
    Desk.work_steps    : to publish an issue is such a history
-/

namespace Bulletin

/-! ## Histories -/

/-- A store, and the editions that are being built for it, each under a number of its own. -/
structure Desk where
  store : Store
  drafts : SortedMap Nat Edition
  deriving DecidableEq, Inhabited

/-- What can be done in building editions. -/
inductive Step where
  | begin (draft : Nat) (metadata : Metadata)
  | commit (draft : Nat) (user : String) (sections : List Section)
  | addReader (draft : Nat) (user : String)
  | install (draft : Nat) (period : Period)
  deriving DecidableEq, Inhabited

namespace Desk

/-- A store for which no edition is being built. -/
def opened (s : Store) : Desk := ⟨s, SortedMap.empty⟩

/-- Puts an edition down under a number. -/
def put (d : Desk) (draft : Nat) (e : Edition) : Desk :=
  { d with drafts := d.drafts.insert draft e }

/-- Does something with an edition that is being built, if there is one under the number. -/
def onDraft (d : Desk) (draft : Nat) (f : Edition → Desk) : Desk :=
  match d.drafts.get? draft with
  | some e => f e
  | none => d

/-- Commits sections to an edition that is being built. -/
def commit (d : Desk) (draft : Nat) (e : Edition) (user : String) (sections : List Section) :
    Desk :=
  let (holdings, e') := d.store.holdings.commit e user sections
  { d with store := { d.store with holdings } }.put draft e'

/-- Carries out a step. -/
def take (d : Desk) : Step → Desk
  | .begin draft metadata => d.put draft (Edition.new metadata)
  | .commit draft user sections => d.onDraft draft fun e => d.commit draft e user sections
  | .addReader draft user => d.onDraft draft fun e => d.put draft (e.addReader user)
  | .install draft period => d.onDraft draft fun e => { d with store := d.store.install period e }

/-- Carries out steps, one after the other. -/
def work (d : Desk) (steps : List Step) : Desk := steps.foldl take d

end Desk

/-! ## Steps that differ for others -/

/-- Two sections of an owner's are the same but for the text, which may differ if neither everyone
gets it nor the owner is `user`. -/
structure Section.SameFor (user owner : String) (s s' : Section) : Prop where
  name : s.name = s'.name
  title : s.title = s'.title
  audience : s.audience = s'.audience
  html : s.audience = .everyone ∨ owner = user → s.html = s'.html

theorem Section.SameFor.refl (user owner : String) (s : Section) : s.SameFor user owner s :=
  ⟨rfl, rfl, rfl, fun _ => rfl⟩

/-- Two steps differ only in what belongs to users other than `user`. -/
inductive Step.SameFor (user : String) : Step → Step → Prop
  | begin (draft : Nat) {metadata metadata' : Metadata}
      (started : metadata.started = metadata'.started)
      (updated : metadata.updated = metadata'.updated)
      (data : metadata.data.get? user = metadata'.data.get? user) :
      SameFor user (.begin draft metadata) (.begin draft metadata')
  | commit (draft : Nat) (owner : String) {sections sections' : List Section}
      (same : List.Forall₂ (Section.SameFor user owner) sections sections') :
      SameFor user (.commit draft owner sections) (.commit draft owner sections')
  | addReader (draft : Nat) (reader : String) :
      SameFor user (.addReader draft reader) (.addReader draft reader)
  | install (draft : Nat) (period : Period) :
      SameFor user (.install draft period) (.install draft period)

/-! ## Agreement kept by committing -/

namespace Edition.Agrees

variable {user : String} {e e' : Edition}

theorem setCommon (h : e.Agrees user e') (name : String) (id : ContentId) :
    (e.setCommon name id).Agrees user (e'.setCommon name id) where
  started := h.started
  updated := h.updated
  common := congrArg (fun common => common.insert name id) h.common
  hasSeen := h.hasSeen
  data := h.data
  personal := h.personal

theorem setPersonal (h : e.Agrees user e') (name : String) {owner html html' : String}
    (hhtml : owner = user → html = html') :
    (e.setPersonal name owner html).Agrees user (e'.setPersonal name owner html') where
  started := h.started
  updated := h.updated
  common := h.common
  hasSeen := h.hasSeen
  data := h.data
  personal name' := by
    rw [ownSection?_setPersonal, ownSection?_setPersonal]
    by_cases hown : name' = name ∧ user = owner
    · rw [if_pos hown, if_pos hown, hhtml hown.2.symm]
    · rw [if_neg hown, if_neg hown]
      exact h.personal name'

theorem addReader (h : e.Agrees user e') (reader : String) :
    (e.addReader reader).Agrees user (e'.addReader reader) where
  started := h.started
  updated := h.updated
  common := h.common
  hasSeen := by
    have hseen := h.hasSeen
    unfold Edition.hasSeen SortedMap.contains at hseen
    unfold Edition.hasSeen Edition.addReader SortedMap.contains
    dsimp only
    rw [SortedMap.get?_insert, SortedMap.get?_insert]
    by_cases hreader : user = reader
    · rw [if_pos hreader, if_pos hreader]
    · rw [if_neg hreader, if_neg hreader]
      exact hseen
  data := h.data
  personal := h.personal

end Edition.Agrees

theorem Edition.agrees_new {user : String} {metadata metadata' : Metadata}
    (started : metadata.started = metadata'.started)
    (updated : metadata.updated = metadata'.updated)
    (data : metadata.data.get? user = metadata'.data.get? user) :
    (Edition.new metadata).Agrees user (Edition.new metadata') :=
  ⟨started, updated, rfl, rfl, data, fun _ => rfl⟩

namespace Holdings

/-- The tables that periods share are the same, and editions that are being built agree. -/
structure AgreeWith (user : String) (state state' : Holdings × Edition) : Prop where
  contents : state.1.contents = state'.1.contents
  titles : state.1.titles = state'.1.titles
  edition : state.2.Agrees user state'.2

variable {user owner : String}

theorem AgreeWith.commitSection {h h' : Holdings} {e e' : Edition}
    (hagree : AgreeWith user (h, e) (h', e')) {s s' : Section} (hs : s.SameFor user owner s') :
    AgreeWith user (commitSection owner (h, e) s) (commitSection owner (h', e') s') := by
  have hcontents : h.contents = h'.contents := hagree.contents
  have htitles : h.titles.insert s.name s.title = h'.titles.insert s'.name s'.title := by
    rw [hs.name, hs.title]
    exact congrArg (fun titles => titles.insert s'.name s'.title) hagree.titles
  unfold Holdings.commitSection
  dsimp only
  rw [← hs.audience]
  cases haudience : s.audience with
  | everyone =>
    -- the text is the same, and so is its number
    rw [← hs.html (.inl haudience), ← hcontents, ← hs.name]
    exact ⟨rfl, hs.name ▸ htitles, hagree.edition.setCommon s.name _⟩
  | owner =>
    refine ⟨hcontents, htitles, ?_⟩
    rw [← hs.name]
    exact hagree.edition.setPersonal s.name fun howner => hs.html (.inr howner)

theorem AgreeWith.commit {h h' : Holdings} {e e' : Edition}
    (hagree : AgreeWith user (h, e) (h', e')) {sections sections' : List Section}
    (hsections : List.Forall₂ (Section.SameFor user owner) sections sections') :
    AgreeWith user (h.commit e owner sections) (h'.commit e' owner sections') := by
  unfold Holdings.commit
  induction hsections generalizing h h' e e' with
  | nil => exact hagree
  | cons hs _ ih => exact ih (hagree.commitSection hs)

end Holdings

/-! ## Agreement kept by histories -/

namespace Desk

variable {user : String} {d d' : Desk}

/-- The stores agree, and so do the editions that are being built. -/
structure Agrees (user : String) (d d' : Desk) : Prop where
  store : d.store.Agrees user d'.store
  drafts : ∀ draft, Option.Rel (Edition.Agrees user) (d.drafts.get? draft) (d'.drafts.get? draft)

theorem Agrees.refl (user : String) (d : Desk) : d.Agrees user d where
  store := .refl user d.store
  drafts draft := by
    cases d.drafts.get? draft with
    | none => exact .none
    | some e => exact .some (.refl user e)

theorem Agrees.put (h : d.Agrees user d') (draft : Nat) {e e' : Edition} (he : e.Agrees user e') :
    (d.put draft e).Agrees user (d'.put draft e') where
  store := h.store
  drafts draft' := by
    unfold Desk.put
    dsimp only
    rw [SortedMap.get?_insert, SortedMap.get?_insert]
    by_cases hdraft : draft' = draft
    · rw [if_pos hdraft, if_pos hdraft]
      exact .some he
    · rw [if_neg hdraft, if_neg hdraft]
      exact h.drafts draft'

theorem Agrees.onDraft (h : d.Agrees user d') (draft : Nat) {f f' : Edition → Desk}
    (hf : ∀ e e', e.Agrees user e' → (f e).Agrees user (f' e')) :
    (d.onDraft draft f).Agrees user (d'.onDraft draft f') := by
  have hdraft := h.drafts draft
  unfold Desk.onDraft
  cases he : d.drafts.get? draft with
  | none =>
    rw [he] at hdraft
    cases he' : d'.drafts.get? draft with
    | none => exact h
    | some e' =>
      rw [he'] at hdraft
      cases hdraft
  | some e =>
    rw [he] at hdraft
    cases he' : d'.drafts.get? draft with
    | none =>
      rw [he'] at hdraft
      cases hdraft
    | some e' =>
      rw [he'] at hdraft
      cases hdraft with
      | some hagree => exact hf e e' hagree

theorem Agrees.commit (h : d.Agrees user d') (draft : Nat) {e e' : Edition}
    (he : e.Agrees user e') (owner : String) {sections sections' : List Section}
    (hsections : List.Forall₂ (Section.SameFor user owner) sections sections') :
    (d.commit draft e owner sections).Agrees user (d'.commit draft e' owner sections') := by
  have hstart : Holdings.AgreeWith user (d.store.holdings, e) (d'.store.holdings, e') :=
    ⟨h.store.contents, h.store.titles, he⟩
  have hcommit := hstart.commit hsections
  have heditions := (d.store.holdings.adds_commit e owner sections).editions
  have heditions' := (d'.store.holdings.adds_commit e' owner sections').editions
  have hstore : Agrees user
      { d with store := { d.store with holdings := (d.store.holdings.commit e owner sections).1 } }
      { d' with
        store := { d'.store with holdings := (d'.store.holdings.commit e' owner sections').1 } } := by
    refine ⟨⟨hcommit.contents, hcommit.titles, h.store.flags, ?_, ?_⟩, h.drafts⟩
    · rw [heditions, heditions']
      exact h.store.kept
    · rw [heditions, heditions']
      exact h.store.editions
  exact hstore.put draft hcommit.edition

/-- One step keeps two desks in agreement. -/
theorem Agrees.take (h : d.Agrees user d') {step step' : Step} (hstep : step.SameFor user step') :
    (d.take step).Agrees user (d'.take step') := by
  cases hstep with
  | begin draft started updated data =>
    exact h.put draft (Edition.agrees_new started updated data)
  | commit draft owner same =>
    exact h.onDraft draft fun e e' he => h.commit draft he owner same
  | addReader draft reader =>
    exact h.onDraft draft fun e e' he => h.put draft (he.addReader reader)
  | install draft period =>
    exact h.onDraft draft fun e e' he => ⟨h.store.install period he, h.drafts⟩

/-- So does a history. -/
theorem Agrees.work (h : d.Agrees user d') {steps steps' : List Step}
    (hsteps : List.Forall₂ (Step.SameFor user) steps steps') :
    (d.work steps).Agrees user (d'.work steps') := by
  unfold Desk.work
  induction hsteps generalizing d d' with
  | nil => exact h
  | cons hstep _ ih => exact ih (h.take hstep)

/-- Whatever is written for other users, a user is answered the same behind it, and the shared texts
and titles are the same. -/
theorem answers_eq_of_sameFor {v : Viewer} (hv : v.isAdmin = false) (s : Store)
    {steps steps' : List Step} (hsteps : List.Forall₂ (Step.SameFor v.user) steps steps') :
    let one := ((opened s).work steps).store
    let other := ((opened s).work steps').store
    one.holdings.contents = other.holdings.contents ∧
      one.holdings.titles = other.holdings.titles ∧
      one.periods v = other.periods v ∧
      (∀ period, one.report period v = other.report period v) ∧
      ∀ wanted, one.raw wanted v = other.raw wanted v := by
  intro one other
  have hagree : one.Agrees v.user other :=
    (Agrees.work (.refl v.user (opened s)) hsteps).store
  exact ⟨hagree.contents, hagree.titles, hagree.periods_eq hv, hagree.report_eq hv,
    hagree.raw_eq hv⟩

/-- A history in which alice and bob are sent something, with what belongs to bob left open. -/
def aliceAndBob (value html : String) : List Step :=
  [.begin 0 ⟨100, 200, (SortedMap.empty.insert "alice" "[1]").insert "bob" value⟩,
    .commit 0 "bob" [⟨"news", "News", "<p>news</p>", .everyone⟩, ⟨"jobs", "Jobs", html, .owner⟩],
    .begin 1 ⟨300, 400, SortedMap.empty⟩, .commit 1 "bob" [⟨"jobs", "Jobs", html, .owner⟩],
    .commit 0 "alice" [⟨"jobs", "Jobs", "<p>alice</p>", .owner⟩],
    .addReader 0 "bob", .addReader 0 "alice", .install 0 7, .addReader 1 "bob", .install 1 8]

theorem sameFor_aliceAndBob (value html value' html' : String) :
    List.Forall₂ (Step.SameFor "alice") (aliceAndBob value html) (aliceAndBob value' html') := by
  have hjobs : Section.SameFor "alice" "bob" ⟨"jobs", "Jobs", html, .owner⟩
      ⟨"jobs", "Jobs", html', .owner⟩ := by
    refine ⟨rfl, rfl, rfl, ?_⟩
    rintro (hall | halice)
    · cases hall
    · exact absurd halice (by decide)
  have hdata : ((SortedMap.empty.insert "alice" "[1]").insert "bob" value).get? "alice" =
      ((SortedMap.empty.insert "alice" "[1]").insert "bob" value').get? "alice" := by
    rw [SortedMap.get?_insert, if_neg (by decide), SortedMap.get?_insert _ "bob",
      if_neg (by decide)]
  exact .cons (.begin 0 rfl rfl hdata) <|
    .cons (.commit 0 "bob" (.cons (.refl _ _ _) (.cons hjobs .nil))) <|
    .cons (.begin 1 rfl rfl rfl) <| .cons (.commit 1 "bob" (.cons hjobs .nil)) <|
    .cons (.commit 0 "alice" (.cons (.refl _ _ _) .nil)) <| .cons (.addReader 0 "bob") <|
    .cons (.addReader 0 "alice") <| .cons (.install 0 7) <| .cons (.addReader 1 "bob") <|
    .cons (.install 1 8) .nil

/-- Two histories differ in what bob gets, and so do the stores they lead to; alice has a report, and
it is the same. -/
theorem answers_eq_of_sameFor_alice :
    let alice : Viewer := ⟨"alice", false⟩
    let one := ((opened Store.empty).work (aliceAndBob "[2]" "<p>bob</p>")).store
    let other := ((opened Store.empty).work (aliceAndBob "[3]" "<p>rob</p>")).store
    alice.isAdmin = false ∧ one ≠ other ∧ (one.report 7 alice).isOk ∧
      one.holdings.contents = other.holdings.contents ∧
      one.report 7 alice = other.report 7 alice ∧ one.raw [7, 8] alice = other.raw [7, 8] alice := by
  intro alice one other
  obtain ⟨hcontents, -, -, hreport, hraw⟩ := answers_eq_of_sameFor (v := alice) rfl Store.empty
    (sameFor_aliceAndBob "[2]" "<p>bob</p>" "[3]" "<p>rob</p>")
  exact ⟨rfl, by decide +kernel, by decide +kernel, hcontents, hreport 7, hraw [7, 8]⟩

end Desk

/-! ## Publishing -/

/-- The steps that note a bulletin in an edition that is being built. -/
def UserSections.steps (draft : Nat) (b : UserSections) : List Step :=
  [.commit draft b.user b.sections, .addReader draft b.user]

/-- The steps that publish an issue. -/
def Issue.steps (draft : Nat) (period : Period) (issue : Issue) : List Step :=
  .begin draft issue.metadata ::
    (issue.bulletins.flatMap (UserSections.steps draft) ++ [.install draft period])

namespace Desk

variable {d : Desk} {draft : Nat} {e : Edition}

theorem onDraft_of_some (h : d.drafts.get? draft = some e) (f : Edition → Desk) :
    d.onDraft draft f = f e := by
  unfold onDraft
  rw [h]

theorem get?_put_self (d : Desk) (draft : Nat) (e : Edition) :
    (d.put draft e).drafts.get? draft = some e := SortedMap.get?_insert_self _ _ _

theorem work_bulletins (h : d.drafts.get? draft = some e) (bulletins : List UserSections) :
    (d.work (bulletins.flatMap (UserSections.steps draft))).store =
        { d.store with holdings := (bulletins.foldl Holdings.addBulletin (d.store.holdings, e)).1 } ∧
      (d.work (bulletins.flatMap (UserSections.steps draft))).drafts.get? draft =
        some (bulletins.foldl Holdings.addBulletin (d.store.holdings, e)).2 := by
  induction bulletins generalizing d e with
  | nil => exact ⟨rfl, h⟩
  | cons b rest ih =>
    have hcommit : d.take (.commit draft b.user b.sections) = d.commit draft e b.user b.sections :=
      onDraft_of_some h _
    have hdraft : (d.commit draft e b.user b.sections).drafts.get? draft =
        some (d.store.holdings.commit e b.user b.sections).2 := get?_put_self _ _ _
    have hreader : (d.take (.commit draft b.user b.sections)).take (.addReader draft b.user) =
        (d.commit draft e b.user b.sections).put draft
          ((d.store.holdings.commit e b.user b.sections).2.addReader b.user) := by
      rw [hcommit]
      exact onDraft_of_some hdraft _
    have hcons : d.work ((b :: rest).flatMap (UserSections.steps draft)) =
        ((d.take (.commit draft b.user b.sections)).take (.addReader draft b.user)).work
          (rest.flatMap (UserSections.steps draft)) := rfl
    rw [hcons, hreader]
    exact ih (get?_put_self _ _ _)

/-- To publish an issue is a history that builds its edition and installs it. -/
theorem work_steps (d : Desk) (draft : Nat) (period : Period) (issue : Issue) :
    (d.work (issue.steps draft period)).store = d.store.publish period issue := by
  have hbegin := get?_put_self d draft (Edition.new issue.metadata)
  obtain ⟨hstore, hdraft⟩ := work_bulletins hbegin issue.bulletins
  have hsplit : d.work (issue.steps draft period) =
      ((d.put draft (Edition.new issue.metadata)).work
        (issue.bulletins.flatMap (UserSections.steps draft))).take (.install draft period) := by
    unfold work Issue.steps
    rw [List.foldl_cons, List.foldl_append]
    rfl
  rw [hsplit]
  generalize (d.put draft (Edition.new issue.metadata)).work
    (issue.bulletins.flatMap (UserSections.steps draft)) = built at hstore hdraft
  show (built.onDraft draft fun e => { built with store := built.store.install period e }).store = _
  rw [onDraft_of_some hdraft]
  show built.store.install period _ = _
  rw [hstore]
  rfl

end Desk

end Bulletin
