import Bulletin.Text.Blank
import Bulletin.Text.Decimal
import Bulletin.Text.Split
import Mathlib.Data.List.TakeWhile

/-!
# Which texts are integers

An integer in decimal is digits, of which there must be one, behind a sign or none. The digits may
begin with zeros, and blanks around a text are of no account where it is trimmed:

    "7", "+7", "007"   denote 7
    "-7"               denotes -7
    "", "-", "7_000"   denote nothing

Main statements:

    intOfChars?_eq_some_iff : reading is denoting
    readTrimmed_eq_some_iff : reading a trimmed text as an integer of 64 bits
-/

namespace Bulletin

namespace Text

variable {isBlank : Char → Bool}

/-- Blanks are removed at both ends. -/
theorem exists_trim (isBlank : Char → Bool) (s : List Char) :
    ∃ lead tail, s = lead ++ trim isBlank s ++ tail ∧ ∀ c ∈ lead ++ tail, isBlank c := by
  have hlead : s.takeWhile isBlank ++ s.dropWhile isBlank = s := List.takeWhile_append_dropWhile
  have htail : trim isBlank s ++ ((s.dropWhile isBlank).reverse.takeWhile isBlank).reverse =
      s.dropWhile isBlank := by
    unfold trim
    rw [← List.reverse_append, List.takeWhile_append_dropWhile, List.reverse_reverse]
  refine ⟨_, _, by rw [List.append_assoc, htail, hlead], fun c hc => ?_⟩
  rcases List.mem_append.mp hc with hc | hc
  · exact List.mem_takeWhile_imp hc
  · exact List.mem_takeWhile_imp (List.mem_reverse.mp hc)

/-- Nothing else is removed. -/
theorem trim_eq {lead core tail : List Char} (hlead : ∀ c ∈ lead, isBlank c)
    (hcore : ∀ c ∈ core, isBlank c = false) (htail : ∀ c ∈ tail, isBlank c) :
    trim isBlank (lead ++ core ++ tail) = core := by
  have hstays : ∀ {rest : List Char}, (∀ c ∈ rest, isBlank c = false) →
      rest.dropWhile isBlank = rest := by
    intro rest hrest
    refine List.dropWhile_eq_self_iff.mpr fun hpos => ?_
    simp [hrest _ (List.getElem_mem hpos)]
  have hreverse : (core ++ tail).reverse.dropWhile isBlank = core.reverse := by
    rw [List.reverse_append, List.dropWhile_append_of_pos fun c hc => htail c (by simpa using hc)]
    exact hstays fun c hc => hcore c (by simpa using hc)
  rw [trim, List.append_assoc, List.dropWhile_append_of_pos hlead]
  cases core with
  | nil =>
    have hnone : tail.dropWhile isBlank = [] := List.dropWhile_eq_nil_iff.mpr htail
    rw [List.nil_append, hnone]
    rfl
  | cons c rest =>
    have hfirst : isBlank c = false := hcore c List.mem_cons_self
    rw [List.cons_append, List.dropWhile_cons_of_neg (by simp [hfirst]), ← List.cons_append,
      hreverse, List.reverse_reverse]

end Text

namespace Decimal

/-- The digits of ten, one or more. -/
def AreDigits (cs : List Char) : Prop := cs ≠ [] ∧ ∀ c ∈ cs, '0' ≤ c ∧ c ≤ '9'

/-- The number that digits stand for. -/
def valueOf (cs : List Char) : Nat := cs.foldl (fun n c => 10 * n + (c.toNat - '0'.toNat)) 0

/-- The integer that characters denote. -/
inductive Denotes : List Char → Int → Prop where
  | bare {cs : List Char} (h : AreDigits cs) : Denotes cs (valueOf cs)
  | plus {cs : List Char} (h : AreDigits cs) : Denotes ('+' :: cs) (valueOf cs)
  | minus {cs : List Char} (h : AreDigits cs) : Denotes ('-' :: cs) (-(valueOf cs : Int))

theorem natFrom?_eq_some_iff {n m : Nat} {cs : List Char} :
    natFrom? n cs = some m ↔
      (∀ c ∈ cs, '0' ≤ c ∧ c ≤ '9') ∧
        m = cs.foldl (fun n c => 10 * n + (c.toNat - '0'.toNat)) n := by
  induction cs generalizing n with
  | nil => simp [natFrom?, eq_comm]
  | cons c rest ih =>
    rw [natFrom?, digitValue?]
    by_cases hdigit : '0' ≤ c ∧ c ≤ '9'
    · rw [if_pos hdigit]
      simp only [ih, List.mem_cons, forall_eq_or_imp, hdigit, true_and, List.foldl_cons]
    · rw [if_neg hdigit]
      simp [hdigit]

theorem natOfChars?_eq_some_iff {n : Nat} {cs : List Char} :
    natOfChars? cs = some n ↔ AreDigits cs ∧ n = valueOf cs := by
  cases cs with
  | nil => simp [natOfChars?, AreDigits]
  | cons c rest =>
    have hne : c :: rest ≠ [] := List.cons_ne_nil c rest
    rw [natOfChars?, natFrom?_eq_some_iff, AreDigits, valueOf, and_iff_right hne]
    exact List.cons_ne_nil c rest

/-- Signs are no digits. -/
theorem AreDigits.head_ne {c : Char} {rest : List Char} (h : AreDigits (c :: rest)) :
    c ≠ '+' ∧ c ≠ '-' := by
  obtain ⟨hlow, -⟩ := h.2 c List.mem_cons_self
  constructor
  · rintro rfl
    exact absurd hlow (by decide)
  · rintro rfl
    exact absurd hlow (by decide)

/-- What is read as an integer is what denotes it. -/
theorem intOfChars?_eq_some_iff {n : Int} {cs : List Char} :
    intOfChars? cs = some n ↔ Denotes cs n := by
  constructor
  · intro h
    rw [intOfChars?.eq_def] at h
    split at h
    · obtain ⟨_, hcast, rfl⟩ := Option.map_eq_some_iff.mp h
      obtain ⟨m, hm, hpure⟩ := Option.bind_eq_some_iff.mp hcast
      cases hpure
      obtain ⟨hdigits, rfl⟩ := natOfChars?_eq_some_iff.mp hm
      exact .minus hdigits
    · obtain ⟨m, hm, rfl⟩ := Option.map_eq_some_iff.mp h
      obtain ⟨hdigits, rfl⟩ := natOfChars?_eq_some_iff.mp hm
      exact .plus hdigits
    · obtain ⟨m, hm, rfl⟩ := Option.map_eq_some_iff.mp h
      obtain ⟨hdigits, rfl⟩ := natOfChars?_eq_some_iff.mp hm
      exact .bare hdigits
  · rintro (hdigits | hdigits | hdigits)
    · have hread : natOfChars? cs = some (valueOf cs) :=
        natOfChars?_eq_some_iff.mpr ⟨hdigits, rfl⟩
      rw [intOfChars?.eq_def]
      split
      · exact absurd rfl hdigits.head_ne.2
      · exact absurd rfl hdigits.head_ne.1
      · rw [hread]
        rfl
    · rename_i digits
      have hread : natOfChars? digits = some (valueOf digits) :=
        natOfChars?_eq_some_iff.mpr ⟨hdigits, rfl⟩
      rw [intOfChars?, hread]
      rfl
    · rename_i digits
      have hread : natOfChars? digits = some (valueOf digits) :=
        natOfChars?_eq_some_iff.mpr ⟨hdigits, rfl⟩
      rw [intOfChars?, hread]
      rfl

theorem fit?_eq_some_iff {n : Int} {i : Int64} : fit? n = some i ↔ n = i.toInt := by
  constructor
  · intro h
    rw [fit?] at h
    split at h
    · rename_i hrange
      obtain rfl := Option.some.inj h
      exact (Int64.toInt_ofInt_of_le hrange.1 (Int.lt_add_one_of_le hrange.2)).symm
    · cases h
  · rintro rfl
    exact fit?_toInt i

/-- An integer is spelled with digits and a sign, and with nothing else. -/
theorem Denotes.digit_or_sign {n : Int} {cs : List Char} (h : Denotes cs n) :
    ∀ c ∈ cs, ('0' ≤ c ∧ c ≤ '9') ∨ c = '+' ∨ c = '-' := by
  intro c hc
  rcases h with h | h | h
  · exact .inl (h.2 c hc)
  · rcases List.mem_cons.mp hc with rfl | hc
    · exact .inr (.inl rfl)
    · exact .inl (h.2 c hc)
  · rcases List.mem_cons.mp hc with rfl | hc
    · exact .inr (.inr rfl)
    · exact .inl (h.2 c hc)

theorem Denotes.unique {n m : Int} {cs : List Char} (h : Denotes cs n) (h' : Denotes cs m) :
    n = m := by
  have hread := intOfChars?_eq_some_iff.mpr h
  rw [intOfChars?_eq_some_iff.mpr h'] at hread
  exact (Option.some.inj hread).symm

/-- Digits and signs are no blanks. -/
theorem Denotes.isBlank_eq_false {n : Int} {cs : List Char} (h : Denotes cs n) :
    ∀ c ∈ cs, Text.isBlank c = false := by
  intro c hc
  rcases h.digit_or_sign c hc with hdigit | rfl | rfl
  · have hlow : 48 ≤ c.toNat := hdigit.1
    have hhigh : c.toNat ≤ 57 := hdigit.2
    have hspace : c ≠ ' ' := by
      rintro rfl
      exact absurd hlow (by decide)
    have hother : c.toNat ∉ Text.otherBlanks := by
      unfold Text.otherBlanks
      simp only [List.mem_cons, List.not_mem_nil, or_false]
      omega
    simp only [Text.isBlank, Bool.or_eq_false_iff, Bool.and_eq_false_iff, beq_eq_false_iff_ne,
      decide_eq_false_iff_not, List.contains_eq_mem]
    refine ⟨⟨⟨hspace, ?_⟩, ?_⟩, hother⟩ <;> omega
  · decide
  · decide

/-- A text is an integer of 64 bits, perhaps with blanks around it. -/
def DenotesTrimmed (s : String) (i : Int64) : Prop :=
  ∃ lead core tail, s.toList = lead ++ core ++ tail ∧ (∀ c ∈ lead ++ tail, Text.isBlank c) ∧
    Denotes core i.toInt

theorem readTrimmed_eq_some_iff {s : String} {i : Int64} :
    (intOfChars? (Text.trim Text.isBlank s.toList)).bind fit? = some i ↔ DenotesTrimmed s i := by
  rw [Option.bind_eq_some_iff]
  constructor
  · rintro ⟨n, hn, hfit⟩
    obtain rfl := fit?_eq_some_iff.mp hfit
    obtain ⟨lead, tail, hsplit, hblanks⟩ := Text.exists_trim Text.isBlank s.toList
    exact ⟨lead, _, tail, hsplit, hblanks, intOfChars?_eq_some_iff.mp hn⟩
  · rintro ⟨lead, core, tail, hsplit, hblanks, hdenotes⟩
    have htrim : Text.trim Text.isBlank s.toList = core := by
      rw [hsplit]
      exact Text.trim_eq (fun c hc => hblanks c (List.mem_append_left tail hc))
        hdenotes.isBlank_eq_false (fun c hc => hblanks c (List.mem_append_right lead hc))
    rw [htrim]
    exact ⟨i.toInt, intOfChars?_eq_some_iff.mpr hdenotes, fit?_toInt i⟩

end Decimal

end Bulletin
