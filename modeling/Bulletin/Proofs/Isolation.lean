import Bulletin.View

/-!
# Viewers are told nothing that belongs to others

Two stores agree for a user when they hold the same shared texts, titles and flags, keep editions of
the same periods, and differ in these editions only in what belongs to other users. Such stores give
the user, who is no administrator, the same answers:

    answers_eq_of_agrees : s.periods v = s'.periods v
                           s.report p v = s'.report p v
                           s.raw ps v = s'.raw ps v

The stores are arbitrary: none of this needs them to be reachable.
-/

namespace Bulletin

/-! ## Agreement -/

namespace Edition

/-- The section of a name that a user has. A name without one counts as a name that is absent. -/
def ownSection? (e : Edition) (user name : String) : Option String :=
  (e.personal.get? name).bind fun byUser => byUser.get? user

/-- Two editions differ only in what belongs to users other than `user`. -/
structure Agrees (user : String) (e e' : Edition) : Prop where
  started : e.metadata.started = e'.metadata.started
  updated : e.metadata.updated = e'.metadata.updated
  common : e.common = e'.common
  hasSeen : e.hasSeen user = e'.hasSeen user
  data : e.metadata.data.get? user = e'.metadata.data.get? user
  personal : ∀ name, e.ownSection? user name = e'.ownSection? user name

end Edition

namespace Store

/-- Two stores differ only in what belongs to users other than `user`. -/
structure Agrees (user : String) (s s' : Store) : Prop where
  contents : s.holdings.contents = s'.holdings.contents
  titles : s.holdings.titles = s'.holdings.titles
  flags : s.flags = s'.flags
  /-- The same periods have editions. -/
  kept : ∀ period, s.holdings.editions.contains period = s'.holdings.editions.contains period
  editions : ∀ period e e', s.holdings.editions.get? period = some e →
    s'.holdings.editions.get? period = some e' → e.Agrees user e'

end Store

/-! ## What is taken out of an edition -/

namespace Viewer

variable {v : Viewer} {user : String}

theorem isAnonymous_iff : v.isAnonymous ↔ v.user = "" := String.isEmpty_iff

theorem canView_iff : v.canView user ↔ v.isAdmin = true ∨ (v.user ≠ "" ∧ user = v.user) := by
  unfold canView isUser
  rw [Bool.or_eq_true, Bool.and_eq_true, Bool.not_eq_true', ← Bool.not_eq_true, isAnonymous_iff,
    beq_iff_eq, eq_comm (a := user)]

/-- Who is no administrator may see what belongs to one user at most. -/
theorem eq_user_of_canView (hv : v.isAdmin = false) (h : v.canView user = true) :
    user = v.user := by
  rcases canView_iff.mp h with hadmin | ⟨-, huser⟩
  · rw [hv] at hadmin
    cases hadmin
  · exact huser

/-- Of data the viewer is left with what the viewer may see. -/
theorem get?_filter_canView {α : Type} (v : Viewer) (data : SortedMap String α) (user : String) :
    (data.filter fun user _ => v.canView user).get? user =
      if v.canView user then data.get? user else none := by
  rw [SortedMap.get?_filter]
  cases data.get? user with
  | none => simp
  | some value => rw [Option.filter_some]

end Viewer

namespace Edition

variable {v : Viewer} {e e' : Edition}

theorem Agrees.isVisibleTo_eq (hv : v.isAdmin = false) (h : e.Agrees v.user e') :
    e.isVisibleTo v = e'.isVisibleTo v := by
  unfold isVisibleTo
  rw [hv, h.hasSeen]

theorem Agrees.times_eq {user : String} (h : e.Agrees user e') : e.times = e'.times := by
  unfold times
  rw [h.started, h.updated]

/-- A name is shown with the viewer's own section, or not at all. -/
theorem get?_personalFor (hv : v.isAdmin = false) (e : Edition) (name : String) :
    (e.personalFor v).get? name =
      (e.ownSection? v.user name).map fun html => SortedMap.empty.insert v.user html := by
  unfold personalFor
  rw [hv, if_neg Bool.false_ne_true, SortedMap.get?_filterMap]
  unfold ownSection?
  cases e.personal.get? name with
  | none => rfl
  | some byUser => rfl

theorem Agrees.personalFor_eq (hv : v.isAdmin = false) (h : e.Agrees v.user e') :
    e.personalFor v = e'.personalFor v := by
  apply SortedMap.ext_get?
  intro name
  rw [get?_personalFor hv, get?_personalFor hv, h.personal]

/-- What a viewer may see of the users' data is the viewer's own entry, if anything. -/
theorem Agrees.visibleData_eq (hv : v.isAdmin = false) (h : e.Agrees v.user e') :
    (e.metadata.data.filter fun user _ => v.canView user) =
      e'.metadata.data.filter fun user _ => v.canView user := by
  apply SortedMap.ext_get?
  intro user
  rw [Viewer.get?_filter_canView, Viewer.get?_filter_canView]
  by_cases hview : v.canView user
  · rw [Viewer.eq_user_of_canView hv hview, h.data]
  · rw [if_neg hview, if_neg hview]

end Edition

/-! ## Agreement kept by writing -/

namespace Edition

variable {user other : String}

theorem Agrees.refl (user : String) (e : Edition) : e.Agrees user e :=
  ⟨rfl, rfl, rfl, rfl, rfl, fun _ => rfl⟩

theorem ownSection?_setPersonal (e : Edition) (name owner html user name' : String) :
    (e.setPersonal name owner html).ownSection? user name' =
      if name' = name ∧ user = owner then some html else e.ownSection? user name' := by
  unfold ownSection? setPersonal
  rw [SortedMap.get?_insert]
  by_cases hname : name' = name
  · subst hname
    rw [if_pos rfl, Option.bind_some, SortedMap.get?_insert]
    by_cases huser : user = owner
    · rw [if_pos huser, if_pos ⟨rfl, huser⟩]
    · rw [if_neg huser, if_neg fun h => huser h.2]
      cases e.personal.get? name' with
      | none => rfl
      | some byUser => rfl
  · rw [if_neg hname, if_neg fun h => hname h.1]

/-- A section given to another user is none of this user's business. -/
theorem agrees_setPersonal (e : Edition) (h : user ≠ other) (name html : String) :
    e.Agrees user (e.setPersonal name other html) := by
  refine ⟨rfl, rfl, rfl, rfl, rfl, fun name' => ?_⟩
  rw [ownSection?_setPersonal, if_neg fun hboth => h hboth.2]

end Edition

theorem Store.Agrees.refl (user : String) (s : Store) : s.Agrees user s := by
  refine ⟨rfl, rfl, rfl, fun _ => rfl, fun period e e' he he' => ?_⟩
  rw [he] at he'
  cases he'
  exact .refl user e

/-- Where editions are kept that agree, so do the stores. -/
theorem Store.Agrees.install {user : String} {s s' : Store} {e e' : Edition}
    (h : s.Agrees user s') (period : Period) (he : e.Agrees user e') :
    (s.install period e).Agrees user (s'.install period e') := by
  have hget : ∀ (s : Store) (d : Edition) (p : Period),
      (s.install period d).holdings.editions.get? p =
        if p = period then some d else s.holdings.editions.get? p := fun s d p =>
    SortedMap.get?_insert s.holdings.editions period p d
  have hflags : s.flags.insert period true = s'.flags.insert period true := by rw [h.flags]
  refine ⟨h.contents, h.titles, hflags, fun p => ?_, fun p d d' hd hd' => ?_⟩
  · have hkept := h.kept p
    unfold SortedMap.contains at hkept ⊢
    rw [hget, hget]
    by_cases hp : p = period
    · rw [if_pos hp, if_pos hp]
      rfl
    · rw [if_neg hp, if_neg hp]
      exact hkept
  · rw [hget] at hd hd'
    by_cases hp : p = period
    · rw [if_pos hp] at hd hd'
      cases hd
      cases hd'
      exact he
    · rw [if_neg hp] at hd hd'
      exact h.editions p d d' hd hd'

theorem Store.agrees_install {user : String} {e e' : Edition} (s : Store) (period : Period)
    (h : e.Agrees user e') : (s.install period e).Agrees user (s.install period e') :=
  (Store.Agrees.refl user s).install period h

/-! ## What is answered -/

namespace Store

variable {v : Viewer} {s s' : Store}

/-- Both stores find an edition or neither does, and what they find agrees. -/
theorem Agrees.get?_cases {user : String} (h : s.Agrees user s') (period : Period) :
    (s.holdings.editions.get? period = none ∧ s'.holdings.editions.get? period = none) ∨
      ∃ e e', s.holdings.editions.get? period = some e ∧
        s'.holdings.editions.get? period = some e' ∧ e.Agrees user e' := by
  have hkept := h.kept period
  unfold SortedMap.contains at hkept
  cases he : s.holdings.editions.get? period with
  | none =>
    rw [he, Option.isSome_none] at hkept
    have hnone : (s'.holdings.editions.get? period).isNone :=
      Option.isSome_eq_false_iff.mp hkept.symm
    exact .inl ⟨rfl, Option.isNone_iff_eq_none.mp hnone⟩
  | some e =>
    rw [he, Option.isSome_some] at hkept
    obtain ⟨e', he'⟩ := Option.isSome_iff_exists.mp hkept.symm
    exact .inr ⟨e, e', rfl, he', h.editions period e e' he he'⟩

theorem Agrees.isAvailable_eq {user : String} (h : s.Agrees user s') (period : Period) :
    s.isAvailable period = s'.isAvailable period := by
  unfold isAvailable
  rw [h.flags]

/-- Both stores find the same in looking a period up, except that editions only agree. -/
theorem Agrees.lookup_cases {user : String} (h : s.Agrees user s') (period : Period) :
    (s.lookup period = .notFound ∧ s'.lookup period = .notFound) ∨
      (s.lookup period = .unavailable ∧ s'.lookup period = .unavailable) ∨
      ∃ e e', s.lookup period = .found e ∧ s'.lookup period = .found e' ∧ e.Agrees user e' := by
  unfold lookup
  rw [← h.isAvailable_eq]
  by_cases ha : s.isAvailable period
  · rw [if_pos ha, if_pos ha]
    rcases h.get?_cases period with ⟨he, he'⟩ | ⟨e, e', he, he', hagree⟩
    · rw [he, he']
      exact .inr (.inl ⟨rfl, rfl⟩)
    · rw [he, he']
      exact .inr (.inr ⟨e, e', rfl, rfl, hagree⟩)
  · rw [if_neg ha, if_neg ha]
    exact .inl ⟨rfl, rfl⟩

theorem Agrees.periods_eq (hv : v.isAdmin = false) (h : s.Agrees v.user s') :
    s.periods v = s'.periods v := by
  apply SortedMap.ext_get?
  intro period
  unfold periods availableEditions
  rw [SortedMap.get?_filterMap, SortedMap.get?_filterMap, SortedMap.get?_filterMap,
    SortedMap.get?_filterMap, h.flags]
  rcases h.get?_cases period with ⟨he, he'⟩ | ⟨e, e', he, he', hagree⟩
  · rw [he, he']
  · rw [he, he']
    cases s'.flags.get? period with
    | none => rfl
    | some flag =>
      cases flag with
      | false => rfl
      | true =>
        show (if e.isVisibleTo v then some e.times else none) =
          if e'.isVisibleTo v then some e'.times else none
        rw [hagree.isVisibleTo_eq hv, hagree.times_eq]

theorem Agrees.report_eq (hv : v.isAdmin = false) (h : s.Agrees v.user s') (period : Period) :
    s.report period v = s'.report period v := by
  unfold report
  rcases h.lookup_cases period with ⟨hl, hl'⟩ | ⟨hl, hl'⟩ | ⟨e, e', hl, hl', hagree⟩
  · rw [hl, hl']
  · rw [hl, hl']
  · rw [hl, hl']
    simp only [hagree.isVisibleTo_eq hv, hagree.personalFor_eq hv, hagree.common, h.contents,
      h.titles]

theorem Agrees.rawOf_eq (hv : v.isAdmin = false) (h : s.Agrees v.user s') (period : Period) :
    s.rawOf v period = s'.rawOf v period := by
  unfold rawOf
  rcases h.lookup_cases period with ⟨hl, hl'⟩ | ⟨hl, hl'⟩ | ⟨e, e', hl, hl', hagree⟩
  · rw [hl, hl']
  · rw [hl, hl']
  · rw [hl, hl']
    simp only [hagree.visibleData_eq hv, hagree.started, hagree.updated]

theorem Agrees.raw_eq (hv : v.isAdmin = false) (h : s.Agrees v.user s') (wanted : List Period) :
    s.raw wanted v = s'.raw wanted v := by
  have hadd : s.addRaw v = s'.addRaw v := by
    funext d period
    unfold addRaw
    rw [h.rawOf_eq hv]
  unfold raw
  rw [hadd]

/-- What belongs to other users has no influence on what a viewer is answered. -/
theorem answers_eq_of_agrees {v : Viewer} {s s' : Store} (hv : v.isAdmin = false)
    (h : s.Agrees v.user s') :
    s.periods v = s'.periods v ∧
      (∀ period, s.report period v = s'.report period v) ∧
      ∀ wanted, s.raw wanted v = s'.raw wanted v :=
  ⟨h.periods_eq hv, h.report_eq hv, h.raw_eq hv⟩

/-- A period in which alice has a section. -/
def aliceEdition : Edition :=
  ((Edition.new ⟨100, 200, SortedMap.empty.insert "alice" "[1]"⟩).addReader "alice").setPersonal
    "jobs" "alice" "<p>alice</p>"

/-- Sections of bob's, one under a name of its own, are not noticed by alice, who sees hers. -/
theorem answers_eq_of_agrees_alice :
    let v : Viewer := ⟨"alice", false⟩
    let s := empty.install 7 aliceEdition
    let s' := empty.install 7 (aliceEdition.setPersonal "notes" "bob" "<p>bob</p>")
    v.isAdmin = false ∧ s.Agrees v.user s' ∧ s ≠ s' ∧ (s.report 7 v).isOk ∧
      s.periods v = s'.periods v ∧
      (∀ period, s.report period v = s'.report period v) ∧
      ∀ wanted, s.raw wanted v = s'.raw wanted v := by
  have hagree : (empty.install 7 aliceEdition).Agrees "alice"
      (empty.install 7 (aliceEdition.setPersonal "notes" "bob" "<p>bob</p>")) :=
    agrees_install empty 7 (aliceEdition.agrees_setPersonal (by decide) "notes" "<p>bob</p>")
  exact ⟨rfl, hagree, by decide +kernel, by decide +kernel, answers_eq_of_agrees rfl hagree⟩

end Store

end Bulletin
