import Bulletin.Archive.Layout
import Bulletin.Proofs.Numerals
import Mathlib.Data.List.Induction

/-!
# The one spelling that is written

An integer can be spelled in many ways, and is written in one. That is the plain one: there is no
plus sign, and no zero begins the digits, unless zero is all there is:

    "5", "-5", "0"            plain
    "05", "+5", "-05", "-0"   read, and never written

    Denotes.eq_charsOfInt_iff       : a spelling is what is written of its integer if it is plain
    Layout.eq_archiveName_iff       : and so for the names of archives
-/

namespace Bulletin

namespace Decimal

/-! ## Digits -/

theorem digitsWith_eq_digitsWith {fuel fuel' n : Nat} (h : n ≤ fuel) (h' : n ≤ fuel') :
    digitsWith fuel n = digitsWith fuel' n := by
  induction fuel generalizing fuel' n with
  | zero =>
    obtain rfl := Nat.le_zero.mp h
    cases fuel' <;> rfl
  | succ fuel ih =>
    cases fuel' with
    | zero =>
      obtain rfl := Nat.le_zero.mp h'
      rfl
    | succ fuel' =>
      rw [digitsWith, digitsWith]
      split
      · rfl
      · rw [ih (by omega) (show n / 10 ≤ fuel' by omega)]

/-- The digits of a number are those of a tenth of it, if there are any, and its last one. -/
theorem digits_eq (n : Nat) :
    digits n = if n < 10 then [digit n] else digits (n / 10) ++ [digit n] := by
  cases n with
  | zero => rfl
  | succ n =>
    rw [digits, digitsWith]
    split
    · rfl
    · rw [digits, digitsWith_eq_digitsWith (show (n + 1) / 10 ≤ n by omega) (Nat.le_refl _)]

theorem digits_ne_nil (n : Nat) : digits n ≠ [] := digitsWith_ne_nil n n

/-- The digits of a number other than zero do not begin with a zero. -/
theorem head?_digits_ne {n : Nat} (h : n ≠ 0) : (digits n).head? ≠ some '0' := by
  induction n using Nat.strongRecOn with
  | ind n ih =>
    rw [digits_eq]
    by_cases hlt : n < 10
    · have hzero : ∀ m < 10, m ≠ 0 → digit m ≠ '0' := by decide
      rw [if_pos hlt, List.head?_cons]
      exact fun hhead => hzero n hlt h (Option.some.inj hhead)
    · obtain ⟨c, rest, hfront⟩ := List.exists_cons_of_ne_nil (digits_ne_nil (n / 10))
      have hlater := ih (n / 10) (by omega) (by omega)
      rw [hfront] at hlater
      rw [if_neg hlt, hfront]
      exact hlater

theorem digit_toNat_sub {c : Char} (h : '0' ≤ c ∧ c ≤ '9') : digit (c.toNat - '0'.toNat) = c := by
  have hlow : 48 ≤ c.toNat := h.1
  have hhigh : c.toNat ≤ 57 := h.2
  have hzero : '0'.toNat = 48 := rfl
  rw [digit, hzero, Nat.mod_eq_of_lt (by omega), Nat.add_sub_of_le hlow, Char.ofNat_toNat]

theorem digit_mul_add (n m : Nat) : digit (10 * n + m) = digit m := by
  rw [digit, digit, Nat.mul_add_mod]

theorem valueOf_concat (cs : List Char) (c : Char) :
    valueOf (cs ++ [c]) = 10 * valueOf cs + (c.toNat - '0'.toNat) := by
  rw [valueOf, List.foldl_append]
  rfl

/-- Digits are those of the number they stand for if no zero begins them, or it is all there is. -/
theorem digits_valueOf {cs : List Char} (h : AreDigits cs)
    (hzero : cs.head? = some '0' → cs = ['0']) : digits (valueOf cs) = cs := by
  induction cs using List.reverseRecOn with
  | nil => exact absurd rfl h.1
  | append_singleton cs c ih =>
    have hc : '0' ≤ c ∧ c ≤ '9' := h.2 c (by simp)
    have hsmall : c.toNat - '0'.toNat < 10 := by
      have hhigh : c.toNat ≤ 57 := hc.2
      have hzero : '0'.toNat = 48 := rfl
      omega
    rw [valueOf_concat]
    rcases eq_or_ne cs [] with rfl | hne
    · rw [show valueOf [] = 0 from rfl, Nat.mul_zero, Nat.zero_add, digits_eq, if_pos hsmall,
        digit_toNat_sub hc, List.nil_append]
    · have hhead : cs.head? ≠ some '0' := by
        intro hhead
        have hone := hzero (by rw [List.head?_append, hhead]; rfl)
        have hlength := congrArg List.length hone
        rw [List.length_append] at hlength
        exact hne (List.length_eq_zero_iff.mp (Nat.succ.inj hlength))
      have hfront := ih ⟨hne, fun d hd => h.2 d (List.mem_append_left _ hd)⟩
        fun hfirst => absurd hfirst hhead
      have hpos : valueOf cs ≠ 0 := by
        intro hvalue
        rw [hvalue] at hfront
        exact hhead (hfront ▸ rfl)
      have htenth : (10 * valueOf cs + (c.toNat - '0'.toNat)) / 10 = valueOf cs := by omega
      have hlast : digit (10 * valueOf cs + (c.toNat - '0'.toNat)) = c := by
        rw [digit_mul_add, digit_toNat_sub hc]
      rw [digits_eq, if_neg (by omega), htenth, hfront, hlast]

/-! ## Integers -/

/-- A spelling without anything that could be left out. -/
inductive IsPlain : List Char → Prop
  | zero : IsPlain ['0']
  | positive {cs : List Char} (h : AreDigits cs) (head : cs.head? ≠ some '0') : IsPlain cs
  | negative {cs : List Char} (h : AreDigits cs) (head : cs.head? ≠ some '0') :
      IsPlain ('-' :: cs)

theorem areDigits_digits (n : Nat) : AreDigits (digits n) :=
  (natOfChars?_eq_some_iff.mp (natOfChars?_digits n)).1

theorem isPlain_charsOfInt (n : Int) : IsPlain (charsOfInt n) := by
  cases n with
  | ofNat n =>
    rcases eq_or_ne n 0 with rfl | hne
    · exact .zero
    · exact .positive (areDigits_digits n) (head?_digits_ne hne)
  | negSucc n => exact .negative (areDigits_digits (n + 1)) (head?_digits_ne n.succ_ne_zero)

theorem IsPlain.charsOfInt_eq {cs : List Char} {n : Int} (h : IsPlain cs) (hn : Denotes cs n) :
    charsOfInt n = cs := by
  have hread := intOfChars?_eq_some_iff.mpr hn
  cases h with
  | zero => rw [← Option.some.inj hread]; rfl
  | positive hdigits hhead =>
    have hbare := intOfChars?_eq_some_iff.mpr (Denotes.bare hdigits)
    rw [← Option.some.inj (hbare.symm.trans hread)]
    exact digits_valueOf hdigits fun hzero => absurd hzero hhead
  | negative hdigits hhead =>
    rename_i cs
    have hminus := intOfChars?_eq_some_iff.mpr (Denotes.minus hdigits)
    rw [← Option.some.inj (hminus.symm.trans hread)]
    have hself := digits_valueOf hdigits fun hzero => absurd hzero hhead
    cases hvalue : valueOf cs with
    | zero =>
      rw [hvalue] at hself
      exact absurd (hself ▸ rfl) hhead
    | succ value =>
      show '-' :: digits (value + 1) = '-' :: cs
      rw [← hvalue, hself]

/-- A spelling of an integer is what is written of it if it is plain. -/
theorem Denotes.eq_charsOfInt_iff {cs : List Char} {n : Int} (h : Denotes cs n) :
    cs = charsOfInt n ↔ IsPlain cs := by
  constructor
  · rintro rfl
    exact isPlain_charsOfInt n
  · intro hplain
    exact (hplain.charsOfInt_eq h).symm

end Decimal

/-! ## Names of archives -/

namespace Layout

variable {layout : Layout} {name : String} {period : Period}

theorem periodOf?_eq_some_iff :
    layout.periodOf? name = some period ↔
      ∃ stem, name = stem ++ layout.suffix ∧ Decimal.Denotes stem.toList period.toInt := by
  unfold periodOf?
  rw [Option.bind_eq_some_iff]
  constructor
  · rintro ⟨stem, hstem, hperiod⟩
    obtain ⟨n, hn, hfit⟩ := Option.bind_eq_some_iff.mp hperiod
    obtain rfl := Decimal.fit?_eq_some_iff.mp hfit
    refine ⟨String.ofList stem, String.toList_inj.mp ?_, ?_⟩
    · rw [Text.beforeTail?_eq_some_iff.mp hstem, String.toList_append, String.toList_ofList]
    · rw [String.toList_ofList]
      exact Decimal.intOfChars?_eq_some_iff.mp hn
  · rintro ⟨stem, rfl, hstem⟩
    refine ⟨stem.toList, Text.beforeTail?_eq_some_iff.mpr String.toList_append, ?_⟩
    rw [Decimal.intOfChars?_eq_some_iff.mpr hstem]
    exact Decimal.fit?_toInt period

/-- The name of an archive whose period is spelled plainly. -/
def IsPlain (layout : Layout) (name : String) : Prop :=
  ∃ stem, name = stem ++ layout.suffix ∧ Decimal.IsPlain stem.toList

/-- Of the names of a period's archives, the plain one is the one the archive is to have. -/
theorem eq_archiveName_iff (h : layout.periodOf? name = some period) :
    name = layout.archiveName period ↔ layout.IsPlain name := by
  obtain ⟨stem, rfl, hstem⟩ := periodOf?_eq_some_iff.mp h
  have hwritten : (Decimal.ofInt64 period).toList = Decimal.charsOfInt period.toInt :=
    String.toList_ofList
  constructor
  · intro hname
    refine ⟨stem, rfl, ?_⟩
    have hsame := String.toList_inj.mpr hname
    rw [archiveName, String.toList_append, String.toList_append] at hsame
    rw [← hstem.eq_charsOfInt_iff, ← hwritten]
    exact List.append_cancel_right hsame
  · rintro ⟨stem', hname, hplain⟩
    have hsame := String.toList_inj.mpr hname
    rw [String.toList_append, String.toList_append] at hsame
    rw [← List.append_cancel_right hsame, ← hstem.eq_charsOfInt_iff, ← hwritten] at hplain
    rw [archiveName, String.toList_inj.mp hplain]

end Layout

end Bulletin
