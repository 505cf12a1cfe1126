import Bulletin.Proofs.Answers

/-!
# Data that is wanted is served or accounted for

Somebody who wants the data of several periods gets those of some, and a note about the others. Of
each period either becomes true, as often as it is wanted; a period that is wanted twice is served
once, and noted twice if it is not served.

    rawRow_iff   : what becomes of one period
    raw_accounts : what becomes of all of them, and what the note says

No store is excluded here: flags may be there without editions, editions without flags, and data
under nobody's name.
-/

namespace Bulletin

namespace Store

variable {s : Store} {v : Viewer} {p : Period}

/-! ## One period -/

/-- What becomes of a period whose data is wanted: what is served of it, or why nothing is. -/
inductive RawRow (s : Store) (v : Viewer) (p : Period) : Except String Metadata → Prop where
  | notFound (hflag : s.flags.get? p ≠ some true) : RawRow s v p (.error "period not found")
  | unavailable (hflag : s.flags.get? p = some true) (hnone : s.holdings.editions.get? p = none) :
      RawRow s v p (.error "period unavailable")
  | noUserData {e : Edition} (hflag : s.flags.get? p = some true)
      (he : s.holdings.editions.get? p = some e) (hadmin : v.isAdmin = false)
      (hnone : v.user = "" ∨ e.metadata.data.get? v.user = none) :
      RawRow s v p (.error "no data for user in period")
  | own {e : Edition} {value : String} (hflag : s.flags.get? p = some true)
      (he : s.holdings.editions.get? p = some e) (hadmin : v.isAdmin = false) (hname : v.user ≠ "")
      (hvalue : e.metadata.data.get? v.user = some value) :
      RawRow s v p
        (.ok ⟨e.metadata.started, e.metadata.updated, SortedMap.empty.insert v.user value⟩)
  | all {e : Edition} (hflag : s.flags.get? p = some true)
      (he : s.holdings.editions.get? p = some e) (hadmin : v.isAdmin = true) :
      RawRow s v p (.ok ⟨e.metadata.started, e.metadata.updated, e.metadata.data⟩)

theorem lookup_of_flag {e : Edition} (hflag : s.flags.get? p = some true)
    (he : s.holdings.editions.get? p = some e) : s.lookup p = .found e :=
  lookup_eq_found_iff.mpr ⟨isAvailable_iff.mpr hflag, he⟩

theorem RawRow.rawOf_eq {outcome : Except String Metadata} (h : s.RawRow v p outcome) :
    (s.rawOf v p).mapError RawRefusal.message = outcome := by
  unfold rawOf
  cases h with
  | notFound hflag =>
    rw [lookup_eq_notFound_iff.mpr hflag]
    rfl
  | unavailable hflag hnone =>
    rw [lookup_eq_unavailable_iff.mpr ⟨hflag, hnone⟩]
    rfl
  | noUserData hflag he hadmin hnone =>
    rw [lookup_of_flag hflag he]
    dsimp only
    rw [Viewer.filter_canView_eq_empty hadmin hnone, hadmin]
    rfl
  | own hflag he hadmin hname hvalue =>
    rw [lookup_of_flag hflag he]
    dsimp only
    rw [Viewer.filter_canView_eq_insert hadmin hname hvalue]
    rfl
  | all hflag he hadmin =>
    rw [lookup_of_flag hflag he]
    dsimp only
    rw [Viewer.filter_canView_of_isAdmin hadmin, hadmin, Bool.not_true, Bool.and_false]
    rfl

theorem exists_rawRow (s : Store) (v : Viewer) (p : Period) : ∃ outcome, s.RawRow v p outcome := by
  by_cases hflag : s.flags.get? p = some true
  · cases he : s.holdings.editions.get? p with
    | none => exact ⟨_, .unavailable hflag he⟩
    | some e =>
      cases hadmin : v.isAdmin with
      | true => exact ⟨_, .all hflag he hadmin⟩
      | false =>
        by_cases hname : v.user = ""
        · exact ⟨_, .noUserData hflag he hadmin (.inl hname)⟩
        · cases hvalue : e.metadata.data.get? v.user with
          | none => exact ⟨_, .noUserData hflag he hadmin (.inr hvalue)⟩
          | some value => exact ⟨_, .own hflag he hadmin hname hvalue⟩
  · exact ⟨_, .notFound hflag⟩

/-- One thing becomes of a period, and no other. -/
theorem rawRow_iff {outcome : Except String Metadata} :
    s.RawRow v p outcome ↔ (s.rawOf v p).mapError RawRefusal.message = outcome := by
  constructor
  · exact RawRow.rawOf_eq
  · rintro rfl
    obtain ⟨outcome, h⟩ := s.exists_rawRow v p
    rwa [h.rawOf_eq]

theorem rawRow_ok_iff {m : Metadata} : s.RawRow v p (.ok m) ↔ s.rawOf v p = .ok m := by
  rw [rawRow_iff]
  cases s.rawOf v p <;> simp [Except.mapError]

theorem rawRow_error_iff {reason : String} :
    s.RawRow v p (.error reason) ↔ ∃ refusal, s.rawOf v p = .error refusal ∧
      refusal.message = reason := by
  rw [rawRow_iff]
  cases s.rawOf v p <;> simp [Except.mapError]

/-- Who is served: administrators where there is an edition, and users where there is something for
them in it. -/
theorem exists_rawRow_ok_iff :
    (∃ m, s.RawRow v p (.ok m)) ↔
      s.flags.get? p = some true ∧ ∃ e, s.holdings.editions.get? p = some e ∧
        (v.isAdmin = true ∨ v.user ≠ "" ∧ e.metadata.data.contains v.user) := by
  constructor
  · rintro ⟨m, hrow⟩
    cases hrow with
    | own hflag he hadmin hname hvalue =>
      exact ⟨hflag, _, he, .inr ⟨hname, Option.isSome_of_eq_some hvalue⟩⟩
    | all hflag he hadmin => exact ⟨hflag, _, he, .inl hadmin⟩
  · rintro ⟨hflag, e, he, hright⟩
    cases hadmin : v.isAdmin with
    | true => exact ⟨_, .all hflag he hadmin⟩
    | false =>
      rw [hadmin] at hright
      obtain ⟨hname, hcontains⟩ := hright.resolve_left Bool.false_ne_true
      obtain ⟨value, hvalue⟩ := Option.isSome_iff_exists.mp hcontains
      exact ⟨_, .own hflag he hadmin hname hvalue⟩

/-! ## The note -/

/-- Behind the last occurrence of a member, lists that are equal have the same. -/
theorem eq_of_append_cons_eq {α : Type} {a : α} {front front' behind behind' : List α}
    (hbehind : a ∉ behind) (hbehind' : a ∉ behind')
    (h : front ++ a :: behind = front' ++ a :: behind') : behind = behind' := by
  rcases List.append_eq_append_iff.mp h with ⟨more, -, hmore⟩ | ⟨more, -, hmore⟩
  · cases more with
    | nil => exact (List.cons.inj hmore).2
    | cons b more =>
      rw [(List.cons.inj hmore).2] at hbehind
      simp at hbehind
  · cases more with
    | nil => exact (List.cons.inj hmore).2.symm
    | cons b more =>
      rw [(List.cons.inj hmore).2] at hbehind'
      simp at hbehind'

/-- What a note says about a period. -/
def noteLine (reason : String) (p : Period) : String :=
  reason ++ ": " ++ Decimal.ofInt64 p ++ ";"

/-- Whatever the reasons, what is said about different periods is different. -/
theorem eq_of_noteLine_eq {reason reason' : String} {p p' : Period}
    (h : noteLine reason p = noteLine reason' p') : p = p' := by
  have hblank (p : Period) : ' ' ∉ (Decimal.ofInt64 p).toList ++ [';'] := by
    have hdigits : ' ' ∉ Decimal.charsOfInt p.toInt := Decimal.not_mem_charsOfInt rfl (by decide) _
    unfold Decimal.ofInt64 Decimal.ofInt
    rw [String.toList_ofList]
    simp [hdigits]
  have hchars (reason : String) (p : Period) : (noteLine reason p).toList =
      (reason.toList ++ [':']) ++ ' ' :: ((Decimal.ofInt64 p).toList ++ [';']) := by
    simp [noteLine, String.toList_append]
  have hlists := congrArg String.toList h
  rw [hchars, hchars] at hlists
  have hbehind := eq_of_append_cons_eq (hblank p) (hblank p') hlists
  exact Decimal.ofInt64_injective (String.toList_inj.mp (List.append_cancel_right hbehind))

theorem addRaw_of_ok {m : Metadata} (h : s.rawOf v p = .ok m) (d : RawData) :
    (s.addRaw v d p).note = d.note := by
  unfold addRaw
  rw [h]

theorem addRaw_of_error {refusal : RawRefusal} (h : s.rawOf v p = .error refusal) (d : RawData) :
    (s.addRaw v d p).note = d.note ++ noteLine refusal.message p := by
  unfold addRaw noteLine
  rw [h]
  simp only [String.append_assoc]

/-- The lines of a note, one for each period that is not served. -/
theorem exists_note_foldl_addRaw (s : Store) (v : Viewer) (wanted : List Period) (d : RawData) :
    ∃ lines, (wanted.foldl (s.addRaw v) d).note = d.note ++ String.join lines ∧
      List.Forall₂ (fun p line => ∃ reason, s.RawRow v p (.error reason) ∧ line = noteLine reason p)
        (wanted.filter fun p => !(s.rawOf v p).isOk) lines := by
  induction wanted generalizing d with
  | nil => exact ⟨[], by simp [String.join_nil], .nil⟩
  | cons p rest ih =>
    obtain ⟨lines, hnote, hlines⟩ := ih (s.addRaw v d p)
    rw [List.foldl_cons, hnote]
    cases hraw : s.rawOf v p with
    | ok m =>
      refine ⟨lines, ?_, ?_⟩
      · rw [addRaw_of_ok hraw]
      · rw [List.filter_cons_of_neg (by simp [hraw, Except.isOk, Except.toBool])]
        exact hlines
    | error refusal =>
      refine ⟨noteLine refusal.message p :: lines, ?_, ?_⟩
      · rw [addRaw_of_error hraw, String.join_cons, String.append_assoc]
      · rw [List.filter_cons_of_pos (by simp [hraw, Except.isOk, Except.toBool])]
        exact .cons ⟨_, rawRow_error_iff.mpr ⟨refusal, hraw, rfl⟩, rfl⟩ hlines

/-- The lines of a note are about the periods that it is made for. -/
theorem exists_noteLine_mem_iff {left : List Period} {lines : List String}
    (h : List.Forall₂ (fun p line => ∃ reason, s.RawRow v p (.error reason) ∧
      line = noteLine reason p) left lines) :
    (∃ reason, noteLine reason p ∈ lines) ↔ p ∈ left := by
  induction h with
  | nil => simp
  | @cons q line left lines hline _ ih =>
    obtain ⟨reason, -, rfl⟩ := hline
    rw [List.mem_cons, ← ih]
    constructor
    · rintro ⟨reason', hmem⟩
      rcases List.mem_cons.mp hmem with heq | hmem
      · exact .inl (eq_of_noteLine_eq heq)
      · exact .inr ⟨reason', hmem⟩
    · rintro (rfl | ⟨reason', hmem⟩)
      · exact ⟨reason, List.mem_cons_self⟩
      · exact ⟨reason', List.mem_cons_of_mem _ hmem⟩

/-! ## All that is wanted -/

theorem get?_periods_raw_eq_some_iff {wanted : List Period} {m : Metadata} :
    (s.raw wanted v).periods.get? p = some m ↔ p ∈ wanted ∧ s.RawRow v p (.ok m) := by
  rw [get?_periods_raw, Option.ite_none_right_eq_some, rawRow_ok_iff]
  cases s.rawOf v p <;> simp [Except.toOption]

theorem contains_periods_raw {wanted : List Period} (hp : p ∈ wanted) :
    (s.raw wanted v).periods.contains p = (s.rawOf v p).isOk := by
  unfold SortedMap.contains
  rw [get?_periods_raw, if_pos hp]
  cases s.rawOf v p <;> rfl

/-- Whoever wants the data of whatever periods: served are those that are available with an edition,
to administrators, and to users with a name where there is data of theirs. An administrator is
served all data of a period, and a user what is the user's own. The note has a line for each of the
others, as often as it is wanted and in that order, with the reason. So each period that is wanted
is served or noted, and never both. -/
theorem raw_accounts (s : Store) (v : Viewer) {wanted : List Period} (hwanted : wanted ≠ []) :
    let d := s.raw wanted v
    (∀ p, d.periods.contains p ↔
      p ∈ wanted ∧ s.flags.get? p = some true ∧ ∃ e, s.holdings.editions.get? p = some e ∧
        (v.isAdmin = true ∨ v.user ≠ "" ∧ e.metadata.data.contains v.user)) ∧
      (∀ p m, d.periods.get? p = some m ↔ p ∈ wanted ∧ s.RawRow v p (.ok m)) ∧
      ∃ lines, d.note = String.join lines ∧
        List.Forall₂ (fun p line => ∃ reason, s.RawRow v p (.error reason) ∧
          line = noteLine reason p) (wanted.filter fun p => !d.periods.contains p) lines ∧
        ∀ p ∈ wanted, d.periods.contains p ↔ ¬ ∃ reason, noteLine reason p ∈ lines := by
  intro d
  have hserved (p : Period) (m : Metadata) :
      d.periods.get? p = some m ↔ p ∈ wanted ∧ s.RawRow v p (.ok m) :=
    get?_periods_raw_eq_some_iff
  have hfold : d = wanted.foldl (s.addRaw v) ⟨SortedMap.empty, ""⟩ := by
    have hsome : wanted.isEmpty = false := List.isEmpty_eq_false_iff.mpr hwanted
    show s.raw wanted v = _
    unfold raw
    rw [hsome]
    rfl
  have hleft : (wanted.filter fun p => !(s.rawOf v p).isOk) =
      wanted.filter fun p => !d.periods.contains p := by
    refine List.filter_congr fun p hp => ?_
    rw [← contains_periods_raw hp]
  obtain ⟨lines, hnote, hlines⟩ := s.exists_note_foldl_addRaw v wanted ⟨SortedMap.empty, ""⟩
  rw [hleft] at hlines
  refine ⟨fun p => ?_, hserved, lines, ?_, hlines, fun p hp => ?_⟩
  · rw [← exists_rawRow_ok_iff, ← exists_and_left]
    simp only [← hserved]
    exact Option.isSome_iff_exists
  · rw [hfold, hnote, String.empty_append]
  · rw [exists_noteLine_mem_iff hlines, List.mem_filter]
    simp [hp]

/-- One period with data for two users and for nobody's name, one without data, one that is not
flagged, and one that is flagged without an edition. -/
def scattered : Store :=
  let e := Edition.new ⟨100, 200, SortedMap.ofList [("alice", "[1]"), ("bob", "2"), ("", "3")]⟩
  let s := ((empty.install 7 e).install 10 (Edition.new ⟨5, 6, SortedMap.empty⟩)).install 9 e
  { s with flags := (s.flags.insert 9 false).insert 8 true }

/-- Alice is served hers of one period and told why there is nothing of the others, of one of them
twice. Administrators are served a period without data, and somebody without a name is not served
what is there for nobody's name. -/
theorem raw_accounts_scattered :
    let wanted : List Period := [8, 7, 9, 10, 7, 8]
    let own := scattered.raw wanted ⟨"alice", false⟩
    let all := scattered.raw wanted ⟨"root", true⟩
    let none := scattered.raw wanted ⟨"", false⟩
    wanted ≠ [] ∧
      own.periods.get? 7 = some ⟨100, 200, SortedMap.empty.insert "alice" "[1]"⟩ ∧
      own.note = "period unavailable: 8;period not found: 9;no data for user in period: 10;" ++
        "period unavailable: 8;" ∧
      all.periods.get? 10 = some ⟨5, 6, SortedMap.empty⟩ ∧ ¬ none.periods.contains 7 ∧
      ∃ lines, none.note = String.join lines ∧ ∃ reason, noteLine reason 7 ∈ lines := by
  intro wanted own all none
  have hwanted : wanted ≠ [] := List.cons_ne_nil 8 [7, 9, 10, 7, 8]
  obtain ⟨-, hown, -⟩ := raw_accounts scattered ⟨"alice", false⟩ hwanted
  obtain ⟨-, hall, -⟩ := raw_accounts scattered ⟨"root", true⟩ hwanted
  obtain ⟨hnone, -, lines, hnote, -, hnoted⟩ := raw_accounts scattered ⟨"", false⟩ hwanted
  have hleft : ¬ none.periods.contains 7 := by
    rw [hnone]
    rintro ⟨-, -, e, -, hadmin | ⟨hname, -⟩⟩
    · cases hadmin
    · exact hname rfl
  have hmissing := (not_congr (hnoted 7 (by decide))).mp hleft
  refine ⟨hwanted, (hown 7 _).mpr ⟨by decide, ?_⟩, by decide +kernel,
    (hall 10 _).mpr ⟨by decide, ?_⟩, hleft, lines, hnote, Classical.not_not.mp hmissing⟩
  · exact rawRow_iff.mpr (by decide +kernel)
  · exact rawRow_iff.mpr (by decide +kernel)

end Store

end Bulletin
