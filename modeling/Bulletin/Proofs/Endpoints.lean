import Bulletin.Proofs.Isolation

/-!
# What viewers are answered

The list of periods and the report of a period go about it in different ways: one goes through all
flags, the other looks a single period up. Still they fit together, whatever is in the store, and
even if flags and editions do not:

    get?_periods_eq_some_iff, report_eq_ok_iff : both ask for an edition that the viewer sees
    report_eq_error_iff                        : why there is no report
    isPartOf_of_report                         : a user's report, and that of an administrator
    answers_ofIdentity                         : all of it, for whoever asks
-/

namespace Bulletin

/-! ## Who is asking -/

namespace Viewer

variable {v : Viewer}

theorem isAdmin_ofIdentity_of_anonymous {admins : List String} {identity : String}
    (h : (ofIdentity admins identity).user = "") :
    (ofIdentity admins identity).isAdmin = false := by
  have huser : userOf identity = "" := h
  unfold ofIdentity
  dsimp only
  rw [huser]
  rfl

/-! ### What is left of data for a viewer -/

variable {α : Type} {data : SortedMap String α}

theorem filter_canView_of_isAdmin (hadmin : v.isAdmin = true) :
    (data.filter fun user _ => v.canView user) = data := by
  apply SortedMap.ext_get?
  intro user
  rw [get?_filter_canView, if_pos (canView_iff.mpr (.inl hadmin))]

theorem filter_canView_eq_insert (hadmin : v.isAdmin = false) (hname : v.user ≠ "") {value : α}
    (hvalue : data.get? v.user = some value) :
    (data.filter fun user _ => v.canView user) = SortedMap.empty.insert v.user value := by
  apply SortedMap.ext_get?
  intro user
  rw [get?_filter_canView, SortedMap.get?_insert]
  by_cases huser : user = v.user
  · rw [if_pos (canView_iff.mpr (.inr ⟨hname, huser⟩)), if_pos huser, huser, hvalue]
  · have hhidden : ¬ v.canView user := fun hview => huser (eq_user_of_canView hadmin hview)
    rw [if_neg hhidden, if_neg huser]
    rfl

theorem filter_canView_eq_empty (hadmin : v.isAdmin = false)
    (hnone : v.user = "" ∨ data.get? v.user = none) :
    (data.filter fun user _ => v.canView user) = SortedMap.empty := by
  apply SortedMap.ext_get?
  intro user
  rw [get?_filter_canView, SortedMap.get?_empty]
  by_cases hview : v.canView user
  · rcases canView_iff.mp hview with hyes | ⟨hname, huser⟩
    · rw [hadmin] at hyes
      cases hyes
    · -- the viewer's own name, under which there is nothing
      rw [if_pos hview, huser, hnone.resolve_left hname]
  · rw [if_neg hview]

end Viewer

theorem Edition.isVisibleTo_iff {e : Edition} {v : Viewer} :
    e.isVisibleTo v ↔ v.isAdmin = true ∨ (v.user ≠ "" ∧ e.hasSeen v.user) := by
  unfold isVisibleTo
  rw [Bool.or_eq_true, Bool.and_eq_true, Bool.not_eq_true', ← Bool.not_eq_true,
    Viewer.isAnonymous_iff]

/-! ## Looking a period up -/

namespace Store

variable {s : Store} {v : Viewer} {period : Period}

theorem isAvailable_iff : s.isAvailable period ↔ s.flags.get? period = some true := by
  unfold isAvailable
  cases s.flags.get? period with
  | none => simp
  | some flag => simp

theorem lookup_eq_notFound_iff :
    s.lookup period = .notFound ↔ s.flags.get? period ≠ some true := by
  rw [Ne, ← isAvailable_iff]
  unfold lookup
  by_cases ha : s.isAvailable period
  · rw [if_pos ha]
    cases s.holdings.editions.get? period with
    | none => simp [ha]
    | some e => simp [ha]
  · rw [if_neg ha]
    simp [ha]

theorem lookup_eq_unavailable_iff :
    s.lookup period = .unavailable ↔
      s.flags.get? period = some true ∧ s.holdings.editions.get? period = none := by
  rw [← isAvailable_iff]
  unfold lookup
  by_cases ha : s.isAvailable period
  · rw [if_pos ha]
    cases s.holdings.editions.get? period with
    | none => simp [ha]
    | some e => simp
  · rw [if_neg ha]
    simp [ha]

/-! ## The list of periods and the reports -/

/-- What a viewer sees of an edition. -/
def reportOf (s : Store) (period : Period) (e : Edition) (v : Viewer) : Report :=
  ⟨s.holdings.contents, period, e.common, e.personalFor v, s.holdings.titles⟩

theorem get?_periods_eq_some_iff {times : Times} :
    (s.periods v).get? period = some times ↔
      ∃ e, s.lookup period = .found e ∧ e.isVisibleTo v ∧ times = e.times := by
  unfold periods availableEditions
  rw [SortedMap.get?_filterMap, SortedMap.get?_filterMap]
  simp only [Option.bind_eq_some_iff, Option.ite_none_right_eq_some, Option.some.injEq,
    lookup_eq_found_iff, isAvailable_iff]
  constructor
  · rintro ⟨e, ⟨flag, hflag, rfl, he⟩, hvisible, htimes⟩
    exact ⟨e, ⟨hflag, he⟩, hvisible, htimes.symm⟩
  · rintro ⟨e, ⟨hflag, he⟩, hvisible, htimes⟩
    exact ⟨e, ⟨true, hflag, rfl, he⟩, hvisible, htimes.symm⟩

theorem report_eq_ok_iff {report : Report} :
    s.report period v = .ok report ↔
      ∃ e, s.lookup period = .found e ∧ e.isVisibleTo v ∧ report = s.reportOf period e v := by
  unfold Store.report reportOf
  cases s.lookup period with
  | notFound => simp
  | unavailable => simp
  | found e =>
    by_cases hvisible : e.isVisibleTo v
    · simp [hvisible, eq_comm (a := report)]
    · simp [hvisible]

theorem report_eq_error_iff {refusal : ReportRefusal} :
    s.report period v = .error refusal ↔
      match refusal with
      | .notFound => s.lookup period = .notFound
      | .unavailable => s.lookup period = .unavailable
      | .noUserData => ∃ e, s.lookup period = .found e ∧ ¬ e.isVisibleTo v := by
  unfold Store.report
  cases s.lookup period with
  | notFound => cases refusal <;> simp
  | unavailable => cases refusal <;> simp
  | found e =>
    by_cases hvisible : e.isVisibleTo v
    · cases refusal <;> simp [hvisible]
    · cases refusal <;> simp [hvisible]

/-- A period is listed if there is a report. -/
theorem contains_periods_iff :
    (s.periods v).contains period ↔ ∃ report, s.report period v = .ok report := by
  unfold SortedMap.contains
  rw [Option.isSome_iff_exists]
  simp only [get?_periods_eq_some_iff, report_eq_ok_iff]
  constructor
  · rintro ⟨times, e, he, hvisible, -⟩
    exact ⟨s.reportOf period e v, e, he, hvisible, rfl⟩
  · rintro ⟨report, e, he, hvisible, -⟩
    exact ⟨e.times, e, he, hvisible, rfl⟩

end Store

/-! ## What one user sees -/

/-- One report is what there is in another for one user: of each name's sections only that of the
user is left, and names without one are left out. All else is the same. -/
structure Report.IsPartOf (user : String) (own full : Report) : Prop where
  contents : own.contents = full.contents
  period : own.period = full.period
  common : own.common = full.common
  titles : own.titles = full.titles
  personal : ∀ name byUser, own.personal.get? name = some byUser ↔
    ∃ all html, full.personal.get? name = some all ∧ all.get? user = some html ∧
      byUser = SortedMap.empty.insert user html

namespace Store

variable {s : Store} {v admin : Viewer} {period : Period}

theorem isPartOf_reportOf (hv : v.isAdmin = false) (hadmin : admin.isAdmin = true) (e : Edition) :
    (s.reportOf period e v).IsPartOf v.user (s.reportOf period e admin) := by
  refine ⟨rfl, rfl, rfl, rfl, fun name byUser => ?_⟩
  unfold reportOf
  dsimp only
  have hall : e.personalFor admin = e.personal := by
    unfold Edition.personalFor
    rw [if_pos hadmin]
  rw [Edition.get?_personalFor hv, hall]
  unfold Edition.ownSection?
  simp only [Option.map_eq_some_iff, Option.bind_eq_some_iff]
  constructor
  · rintro ⟨html, ⟨all, hall, hhtml⟩, rfl⟩
    exact ⟨all, html, hall, hhtml, rfl⟩
  · rintro ⟨all, html, hall, hhtml, rfl⟩
    exact ⟨html, ⟨all, hall, hhtml⟩, rfl⟩

/-- Where a user has a report, administrators have one, and the user's is part of it. -/
theorem isPartOf_of_report (hv : v.isAdmin = false) (hadmin : admin.isAdmin = true) {own : Report}
    (h : s.report period v = .ok own) :
    ∃ full, s.report period admin = .ok full ∧ own.IsPartOf v.user full := by
  obtain ⟨e, he, -, rfl⟩ := report_eq_ok_iff.mp h
  have hvisible : e.isVisibleTo admin := Edition.isVisibleTo_iff.mpr (.inl hadmin)
  exact ⟨s.reportOf period e admin, report_eq_ok_iff.mpr ⟨e, he, hvisible, rfl⟩,
    isPartOf_reportOf hv hadmin e⟩

/-! ## What somebody without a name sees -/

theorem periods_eq_empty (hadmin : v.isAdmin = false) (hv : v.user = "") :
    s.periods v = SortedMap.empty := by
  apply SortedMap.ext_get?
  intro period
  rw [SortedMap.get?_empty, Option.eq_none_iff_forall_ne_some]
  intro times h
  obtain ⟨e, -, hvisible, -⟩ := get?_periods_eq_some_iff.mp h
  rcases Edition.isVisibleTo_iff.mp hvisible with hyes | ⟨hname, -⟩
  · rw [hadmin] at hyes
    cases hyes
  · exact hname hv

theorem rawOf_eq_error (hadmin : v.isAdmin = false) (hv : v.user = "") (s : Store)
    (period : Period) : ∃ refusal, s.rawOf v period = .error refusal := by
  unfold rawOf
  cases s.lookup period with
  | notFound => exact ⟨_, rfl⟩
  | unavailable => exact ⟨_, rfl⟩
  | found e =>
    have hnone : (e.metadata.data.filter fun user _ => v.canView user) = SortedMap.empty :=
      Viewer.filter_canView_eq_empty hadmin (.inl hv)
    rw [hadmin]
    simp only [hnone]
    exact ⟨.noUserData, rfl⟩

theorem periods_raw_eq_empty (hadmin : v.isAdmin = false) (hv : v.user = "") (s : Store)
    (wanted : List Period) : (s.raw wanted v).periods = SortedMap.empty := by
  have hadd : ∀ d period, (s.addRaw v d period).periods = d.periods := by
    intro d period
    obtain ⟨refusal, herror⟩ := rawOf_eq_error hadmin hv s period
    unfold addRaw
    rw [herror]
  have hfold : ∀ d, (wanted.foldl (s.addRaw v) d).periods = d.periods := by
    induction wanted with
    | nil => exact fun d => rfl
    | cons period rest ih => exact fun d => (ih (s.addRaw v d period)).trans (hadd d period)
  unfold raw
  by_cases hempty : wanted.isEmpty
  · rw [if_pos hempty]
  · rw [if_neg hempty, hfold]

/-! ## What anybody is answered -/

/-- Whoever asks, and whatever is in the store: a period is listed if there is a report, and with
the times of its edition. An administrator's report says all of the edition, and a user's is the
part of it that is the user's. There is no report just for the reasons that are given. And somebody
without a name is told nothing, even where there are entries for nobody's name. -/
theorem answers_ofIdentity (s : Store) (admins : List String) (identity : String)
    (period : Period) :
    let v := Viewer.ofIdentity admins identity
    ((s.periods v).contains period ↔ ∃ report, s.report period v = .ok report) ∧
      (∀ times, (s.periods v).get? period = some times →
        ∃ e, s.holdings.editions.get? period = some e ∧
          times = ⟨e.metadata.started, e.metadata.updated⟩) ∧
      (∀ admin full, admin.isAdmin = true → s.report period admin = .ok full →
        ∃ e, s.holdings.editions.get? period = some e ∧
          full = ⟨s.holdings.contents, period, e.common, e.personal, s.holdings.titles⟩) ∧
      (∀ admin own, v.isAdmin = false → admin.isAdmin = true → s.report period v = .ok own →
        ∃ full, s.report period admin = .ok full ∧ own.IsPartOf v.user full) ∧
      (s.report period v = .error .notFound ↔ s.flags.get? period ≠ some true) ∧
      (s.report period v = .error .unavailable ↔
        s.flags.get? period = some true ∧ s.holdings.editions.get? period = none) ∧
      (s.report period v = .error .noUserData ↔
        s.flags.get? period = some true ∧ ∃ e, s.holdings.editions.get? period = some e ∧
          v.isAdmin = false ∧ ¬ (v.user ≠ "" ∧ e.hasSeen v.user)) ∧
      (v.user = "" →
        s.periods v = SortedMap.empty ∧ (∀ report, s.report period v ≠ .ok report) ∧
          ∀ wanted, (s.raw wanted v).periods = SortedMap.empty) := by
  intro v
  refine ⟨contains_periods_iff, ?_, ?_, ?_, ?_, ?_, ?_, ?_⟩
  · intro times htimes
    obtain ⟨e, he, -, rfl⟩ := get?_periods_eq_some_iff.mp htimes
    exact ⟨e, (lookup_eq_found_iff.mp he).2, rfl⟩
  · intro admin full hadmin hfull
    obtain ⟨e, he, -, rfl⟩ := report_eq_ok_iff.mp hfull
    refine ⟨e, (lookup_eq_found_iff.mp he).2, ?_⟩
    unfold reportOf Edition.personalFor
    rw [if_pos hadmin]
  · intro admin own hv hadmin hown
    exact isPartOf_of_report hv hadmin hown
  · rw [report_eq_error_iff]
    exact lookup_eq_notFound_iff
  · rw [report_eq_error_iff]
    exact lookup_eq_unavailable_iff
  · rw [report_eq_error_iff]
    simp only [lookup_eq_found_iff, isAvailable_iff, Edition.isVisibleTo_iff, not_or,
      Bool.not_eq_true]
    constructor
    · rintro ⟨e, ⟨hflag, he⟩, hhidden⟩
      exact ⟨hflag, e, he, hhidden⟩
    · rintro ⟨hflag, e, he, hhidden⟩
      exact ⟨e, ⟨hflag, he⟩, hhidden⟩
  · intro hname
    have hadmin : v.isAdmin = false := Viewer.isAdmin_ofIdentity_of_anonymous hname
    have hlisted : s.periods v = SortedMap.empty := periods_eq_empty hadmin hname
    refine ⟨hlisted, ?_, periods_raw_eq_empty hadmin hname s⟩
    intro report hreport
    have hcontains : (s.periods v).contains period := contains_periods_iff.mpr ⟨report, hreport⟩
    rw [hlisted] at hcontains
    cases hcontains

/-- One period with entries for alice, for bob and for nobody's name, and another that is flagged
available without an edition. -/
def withNobody : Store :=
  let e := ((aliceEdition.setPersonal "jobs" "bob" "<p>bob</p>").setPersonal "jobs" "" "<p>-</p>")
  let s := empty.install 7 (e.addReader "")
  { s with flags := s.flags.insert 8 true }

/-- Alice sees of one period her part of what an administrator sees, and nothing of another, which
is unavailable. Somebody without a name sees nothing, though the administrators' names have the
empty one among them. -/
theorem answers_ofIdentity_withNobody :
    let s := withNobody
    let alice := Viewer.ofIdentity ["root", ""] "alice@realm"
    let root := Viewer.ofIdentity ["root", ""] "root"
    let nobody := Viewer.ofIdentity ["root", ""] "@realm"
    (∃ own full, s.report 7 alice = .ok own ∧ s.report 7 root = .ok full ∧ own ≠ full ∧
      own.IsPartOf "alice" full) ∧
      (s.periods alice).get? 7 = some ⟨100, 200⟩ ∧ s.report 8 alice = .error .unavailable ∧
      nobody.user = "" ∧ s.periods nobody = SortedMap.empty ∧
      (s.raw [7, 8] nobody).periods = SortedMap.empty := by
  intro s alice root nobody
  obtain ⟨-, -, -, hpart, -⟩ := answers_ofIdentity s ["root", ""] "alice@realm" 7
  obtain ⟨-, -, -, -, -, hunavailable, -⟩ := answers_ofIdentity s ["root", ""] "alice@realm" 8
  obtain ⟨-, -, -, -, -, -, -, hnobody⟩ := answers_ofIdentity s ["root", ""] "@realm" 7
  have hname : nobody.user = "" := by decide +kernel
  obtain ⟨hperiods, -, hraw⟩ := hnobody hname
  refine ⟨?_, by decide +kernel, hunavailable.mpr (by decide +kernel), hname, hperiods,
    hraw [7, 8]⟩
  have hlisted : (s.periods alice).contains 7 := by decide +kernel
  obtain ⟨own, hown⟩ := contains_periods_iff.mp hlisted
  obtain ⟨full, hfull, hisPart⟩ := hpart root own (by decide +kernel) (by decide +kernel) hown
  refine ⟨own, full, hown, hfull, ?_, hisPart⟩
  rintro rfl
  have hdiffer : (s.report 7 alice).toOption ≠ (s.report 7 root).toOption := by decide +kernel
  rw [hown, hfull] at hdiffer
  exact hdiffer rfl

end Store

end Bulletin
