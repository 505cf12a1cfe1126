import Bulletin.Proofs.Json.Depth
import Bulletin.Proofs.Json.Reading
import Bulletin.Proofs.Json.Writing

/-!
# Integers are read as they are written

There is one way to write an integer in JSON: with no sign but a minus, and with no zero in front of
other digits. Whatever has a point or an exponent is a double, and so are `-0` and all that has more
digits than fit. So an integer of 64 bits is read of what is written for it, and of nothing else:

    integer_sound    : what is read as an integer is written for it
    integer_complete : what is written for an integer is read
-/

namespace Bulletin.Json

open Reader (byte isDigit)

/-! ## Digits -/

/-- The number that digits stand for behind a number. -/
def numberFrom (n : Nat) (ds : List UInt8) : Nat := ds.foldl (fun n d => n * 10 + (d.toNat - 48)) n

theorem le_numberFrom (n : Nat) (ds : List UInt8) : n ≤ numberFrom n ds := by
  induction ds generalizing n with
  | nil => exact Nat.le_refl n
  | cons d rest ih =>
    have hstep : n ≤ n * 10 + (d.toNat - 48) := by omega
    exact Nat.le_trans hstep (ih _)

theorem exists_char {b : UInt8} (h : isDigit b) : ∃ c, b = byte c ∧ '0' ≤ c ∧ c ≤ '9' := by
  obtain ⟨hlow, hhigh⟩ := Bool.and_eq_true_iff.mp h
  rw [decide_eq_true_eq, UInt8.le_iff_toNat_le] at hlow hhigh
  have hlow : 48 ≤ b.toNat := hlow
  have hhigh : b.toNat ≤ 57 := hhigh
  have hnat : (Char.ofNat b.toNat).toNat = b.toNat :=
    Text.toNat_ofNat_of_valid (.inl (by omega))
  refine ⟨Char.ofNat b.toNat, ?_, ?_, ?_⟩
  · rw [byte, hnat, Nat.toUInt8, UInt8.ofNat_toNat]
  · show 48 ≤ (Char.ofNat b.toNat).toNat
    rw [hnat]
    exact hlow
  · show (Char.ofNat b.toNat).toNat ≤ 57
    rw [hnat]
    exact hhigh

theorem exists_word {ds : List UInt8} (h : ∀ b ∈ ds, isDigit b) :
    ∃ cs, ds = word cs ∧ ∀ c ∈ cs, '0' ≤ c ∧ c ≤ '9' := by
  induction ds with
  | nil => exact ⟨[], rfl, fun c hc => absurd hc List.not_mem_nil⟩
  | cons b rest ih =>
    obtain ⟨hb, hrest⟩ := List.forall_mem_cons.mp h
    obtain ⟨c, rfl, hc⟩ := exists_char hb
    obtain ⟨cs, rfl, hcs⟩ := ih hrest
    exact ⟨c :: cs, rfl, List.forall_mem_cons.mpr ⟨hc, hcs⟩⟩

theorem numberFrom_word {cs : List Char} (h : ∀ c ∈ cs, '0' ≤ c ∧ c ≤ '9') (n : Nat) :
    numberFrom n (word cs) = cs.foldl (fun n c => 10 * n + (c.toNat - '0'.toNat)) n := by
  induction cs generalizing n with
  | nil => rfl
  | cons c rest ih =>
    obtain ⟨hc, hrest⟩ := List.forall_mem_cons.mp h
    have hhigh : c.toNat ≤ 57 := hc.2
    have hstep : n * 10 + ((byte c).toNat - 48) = 10 * n + (c.toNat - '0'.toNat) := by
      rw [toNat_byte (by omega), Nat.mul_comm]
      rfl
    show numberFrom (n * 10 + ((byte c).toNat - 48)) (word rest) = _
    rw [hstep, ih hrest, List.foldl_cons]

theorem numberFrom_digits (n : Nat) : numberFrom 0 (word (Decimal.digits n)) = n := by
  obtain ⟨⟨-, hdigits⟩, hvalue⟩ :=
    Decimal.natOfChars?_eq_some_iff.mp (Decimal.natOfChars?_digits n)
  rw [numberFrom_word hdigits]
  exact hvalue.symm

/-- What is before the point of a number are the digits that are written for it. -/
theorem IsWhole.eq_digits {whole : List UInt8} (h : IsWhole whole) :
    whole = word (Decimal.digits (numberFrom 0 whole)) := by
  have hdigits : ∀ {cs : List Char}, Decimal.AreDigits cs → (cs.head? = some '0' → cs = ['0']) →
      word cs = word (Decimal.digits (numberFrom 0 (word cs))) := by
    intro cs hcs hzero
    rw [numberFrom_word hcs.2]
    exact congrArg word (Decimal.digits_valueOf hcs hzero).symm
  cases h with
  | zero => rfl
  | @digits d rest hdigit hne hrest =>
    obtain ⟨c, rfl, hc⟩ := exists_char hdigit
    obtain ⟨cs, rfl, hcs⟩ := exists_word hrest
    refine @hdigits (c :: cs) ⟨List.cons_ne_nil c cs, List.forall_mem_cons.mpr ⟨hc, hcs⟩⟩ ?_
    intro hhead
    exact absurd (congrArg byte (Option.some.inj hhead)) hne

namespace Reader

variable {s t : List UInt8}

/-! ## Integers -/

/-- The number is a double. -/
def Number.IsFloat (n : Number) : Prop := ∃ negative x, n = .float negative x

theorem yields_double (negative : Bool) (significand : Nat) (exponent : Int) :
    Yields Number.IsFloat (double negative significand exponent) := by
  unfold double
  split
  · exact yields_pure ⟨_, _, rfl⟩
  · exact yields_refuse _

theorem yields_exponentPart (negative : Bool) (significand : Nat) (exponent : Int) :
    Yields Number.IsFloat (exponentPart negative significand exponent) := by
  unfold exponentPart
  refine .bind fun _ => .bind fun sign => .bind fun _ => .bind fun c => ?_
  cases c with
  | none => exact yields_refuse _
  | some c =>
    refine .ite (.bind fun rest => .bind fun _ => ?_) (yields_refuse _)
    split
    · exact yields_double _ _ _
    · exact .ite (yields_refuse _) (.bind fun _ => yields_pure ⟨_, _, rfl⟩)

theorem yields_fractionPart (negative : Bool) (significand : Nat) (exponent : Int) :
    Yields Number.IsFloat (fractionPart negative significand exponent) := by
  unfold fractionPart
  refine .bind fun _ => .bind fun rest => .bind fun _ => .bind fun _ => .bind fun next => ?_
  exact .ite (yields_exponentPart _ _ _) (yields_double _ _ _)

theorem yields_longNumber (negative : Bool) (significand : Nat) :
    Yields Number.IsFloat (longNumber negative significand) := by
  unfold longNumber
  refine .bind fun _ => .bind fun next => .ite (yields_fractionPart _ _ _) ?_
  exact .ite (yields_exponentPart _ _ _) (yields_double _ _ _)

/-- Doubles are no integers. -/
theorem Yields.ne_integer {r : Reader Number} (h : Yields Number.IsFloat r) (n : Int) :
    r s ≠ .ok (.integer n) t := by
  intro hok
  obtain ⟨_, _, hfloat⟩ := h s _ t hok
  cases hfloat

/-- The integer that a number with a minus or with no sign stands for. With a minus zero is none. -/
def IsSigned (negative : Bool) (m : Nat) (n : Int) : Prop :=
  if negative then m ≠ 0 ∧ n = -(m : Int) else n = m

/-- Behind the digits of an integer nothing is taken. -/
theorem numberTail_sound {negative : Bool} {significand : Nat} {n : Int}
    (h : numberTail negative significand s = .ok (.integer n) t) :
    s = t ∧ IsSigned negative significand n := by
  obtain ⟨next, u, hpeek, hnext⟩ := bind_eq_ok.mp h
  cases hpeek
  split at hnext
  · exact absurd hnext ((yields_fractionPart _ _ _).ne_integer n)
  split at hnext
  · exact absurd hnext ((yields_exponentPart _ _ _).ne_integer n)
  cases negative with
  | false =>
    cases hnext
    exact ⟨rfl, rfl⟩
  | true =>
    rw [Bool.not_true, if_neg Bool.false_ne_true] at hnext
    split at hnext
    · exact absurd hnext ((yields_double _ _ _).ne_integer n)
    · rename_i hsmall
      cases hnext
      simp only [Bool.or_eq_true, beq_iff_eq, not_or] at hsmall
      exact ⟨rfl, hsmall.1, rfl⟩

/-- Digits are taken from the front. -/
theorem digitsThatFit_sound {n count n' count' : Nat} {more : Bool} {rest : List UInt8}
    (h : digitsThatFit n count s = (n', count', more, rest)) :
    ∃ ds, s = ds ++ rest ∧ (∀ b ∈ ds, isDigit b) ∧ n' = numberFrom n ds := by
  have hnone : s = rest → n' = n →
      ∃ ds, s = ds ++ rest ∧ (∀ b ∈ ds, isDigit b) ∧ n' = numberFrom n ds := by
    rintro rfl rfl
    exact ⟨[], rfl, fun b hb => absurd hb List.not_mem_nil, rfl⟩
  induction s generalizing n count with
  | nil =>
    cases h
    exact hnone rfl rfl
  | cons c s ih =>
    rw [digitsThatFit] at h
    split at h
    · rename_i hdigit
      split at h
      · obtain ⟨ds, rfl, hds, hn⟩ := ih h fun heq hn =>
          ⟨[], heq, fun b hb => absurd hb List.not_mem_nil, hn⟩
        exact ⟨c :: ds, rfl, List.forall_mem_cons.mpr ⟨hdigit, hds⟩, hn⟩
      · cases h
        exact hnone rfl rfl
    · cases h
      exact hnone rfl rfl

/-- The digits of an integer and its sign say which it is. -/
theorem number_sound {negative : Bool} {n : Int} (h : number negative s = .ok (.integer n) t) :
    ∃ m, s = word (Decimal.digits m) ++ t ∧ IsSigned negative m n := by
  suffices hwhole : ∃ whole, s = whole ++ t ∧ IsWhole whole ∧
      IsSigned negative (numberFrom 0 whole) n by
    obtain ⟨whole, rfl, iswhole, hsigned⟩ := hwhole
    refine ⟨_, ?_, hsigned⟩
    rw [← iswhole.eq_digits]
  rcases peek_cases h with ⟨-, hend⟩ | ⟨c, rest, rfl, hnext⟩
  · cases hend
  · have hafter := of_drop hnext
    split at hafter
    · rename_i hc
      obtain rfl := eq_of_beq hc
      rcases peek_cases hafter with ⟨rfl, htail⟩ | ⟨d, rest', rfl, hdigit⟩
      · obtain ⟨rfl, hsigned⟩ := numberTail_sound htail
        exact ⟨_, rfl, .zero, hsigned⟩
      · dsimp only at hdigit
        split at hdigit
        · cases hdigit
        · obtain ⟨rfl, hsigned⟩ := numberTail_sound hdigit
          exact ⟨_, rfl, .zero, hsigned⟩
    · rename_i hc
      split at hafter
      · rename_i hdigit
        obtain ⟨rest', u, hget, hdigits⟩ := bind_eq_ok.mp hafter
        cases hget
        obtain ⟨_, v, hset, htail⟩ := bind_eq_ok.mp hdigits
        cases hset
        obtain ⟨ds, hsplit, hds, hvalue⟩ := digitsThatFit_sound (Prod.eta _).symm
        split at htail
        · exact absurd htail ((yields_longNumber _ _).ne_integer n)
        · obtain ⟨hend, hsigned⟩ := numberTail_sound htail
          rw [hvalue] at hsigned
          rw [← hend]
          refine ⟨c :: ds, congrArg (c :: ·) hsplit,
            .digits hdigit (fun heq => hc (beq_iff_eq.mpr heq)) hds, ?_⟩
          show IsSigned negative (numberFrom (0 * 10 + (c.toNat - 48)) ds) n
          rw [Nat.zero_mul, Nat.zero_add]
          exact hsigned
      · cases hafter

theorem integerBehind_sound {negative : Bool} {i : Int64}
    (h : integerBehind negative s = .ok i t) :
    ∃ m, s = word (Decimal.digits m) ++ t ∧ IsSigned negative m i.toInt := by
  obtain ⟨found, u, hnumber, hfound⟩ := bind_eq_ok.mp h
  cases found with
  | float negative x => cases hfound
  | integer n =>
    dsimp only at hfound
    cases hfit : Decimal.fit? n with
    | none =>
      rw [hfit] at hfound
      cases hfound
    | some j =>
      rw [hfit] at hfound
      cases hfound
      rw [← Decimal.fit?_eq_some_iff.mp hfit]
      exact number_sound hnumber

theorem IsSigned.charsOfInt_of_not {m : Nat} {n : Int} (h : IsSigned false m n) :
    Decimal.charsOfInt n = Decimal.digits m := by
  obtain rfl : n = m := h
  rfl

theorem IsSigned.charsOfInt {m : Nat} {n : Int} (h : IsSigned true m n) :
    Decimal.charsOfInt n = '-' :: Decimal.digits m := by
  obtain ⟨hne, rfl⟩ := h
  obtain ⟨m, rfl⟩ := Nat.exists_eq_add_one_of_ne_zero hne
  rfl

/-- What is read as an integer is what is written for it. -/
theorem integer_sound {i : Int64} (h : integer s = .ok i t) :
    s.dropWhile isBlank = Text.encode (Decimal.ofInt64 i) ++ t := by
  obtain ⟨c, rest, hrest, hnext⟩ := valueStart_cases h
  rw [hrest, Decimal.ofInt64, encode_ofInt]
  split at hnext
  · rename_i hsign
    obtain rfl := eq_of_beq hsign
    obtain ⟨m, rfl, hsigned⟩ := integerBehind_sound (of_drop hnext)
    rw [hsigned.charsOfInt]
    rfl
  split at hnext
  · obtain ⟨m, hsplit, hsigned⟩ := integerBehind_sound hnext
    rw [hsplit, hsigned.charsOfInt_of_not]
  · exact absurd hnext (refuseType_ne_ok integerName i)

theorem readsValue_integer :
    ReadsValue integer fun text i => text = Text.encode (Decimal.ofInt64 i) :=
  fun _ i _ h => ⟨_, integer_sound h, Value.isWritten_int i.toInt, rfl⟩

/-! ## What is written for integers -/

theorem digitsThatFit_complete {n count : Nat} {ds : List UInt8} (hds : ∀ b ∈ ds, isDigit b)
    (hfits : numberFrom n ds < UInt64.size) (ht : Stops isDigit t) :
    digitsThatFit n count (ds ++ t) = (numberFrom n ds, count + ds.length, false, t) := by
  induction ds generalizing n count with
  | nil =>
    cases t with
    | nil => rfl
    | cons c rest =>
      rw [List.nil_append, digitsThatFit, ht c rfl]
      rfl
  | cons d rest ih =>
    obtain ⟨hd, hrest⟩ := List.forall_mem_cons.mp hds
    have hnext : numberFrom n (d :: rest) = numberFrom (n * 10 + (d.toNat - 48)) rest := rfl
    rw [hnext] at hfits ⊢
    have hfit : fits n (d.toNat - 48) :=
      decide_eq_true (Nat.lt_of_le_of_lt (le_numberFrom _ _) hfits)
    rw [List.cons_append, digitsThatFit, if_pos hd, if_pos hfit, ih hrest hfits, List.length_cons,
      Nat.add_right_comm, Nat.add_assoc]

theorem numberTail_complete {negative : Bool} {m : Nat} {n : Int} (h : IsSigned negative m n)
    (hmin : Int64.minValue.toInt ≤ n) (ht : Stops isNumeral t) :
    numberTail negative m t = .ok (.integer n) t := by
  show (if isAt t.head? '.' then _ else if isAt t.head? 'e' || isAt t.head? 'E' then _ else _ :
    Reader Number) t = _
  rw [isAt_head?_eq_false ht (by decide), isAt_head?_eq_false ht (by decide),
    isAt_head?_eq_false ht (by decide), if_neg Bool.false_ne_true, Bool.or_false,
    if_neg Bool.false_ne_true]
  cases negative with
  | false =>
    obtain rfl : n = m := h
    rfl
  | true =>
    obtain ⟨hne, rfl⟩ := h
    have hsmall : (m == 0 || decide (-(m : Int) < Int64.minValue.toInt)) = false := by
      rw [Bool.or_eq_false_iff, beq_eq_false_iff_ne, decide_eq_false_iff_not]
      exact ⟨hne, Int.not_lt.mpr hmin⟩
    rw [Bool.not_true, if_neg Bool.false_ne_true, hsmall]
    rfl

theorem number_complete {negative : Bool} {m : Nat} {i : Int64}
    (h : IsSigned negative m i.toInt) (ht : Stops isNumeral t) :
    number negative (word (Decimal.digits m) ++ t) = .ok (.integer i.toInt) t := by
  have hdigit : Stops isDigit t := stops_of_imp ht fun _ => isNumeral_of_isDigit
  have hmin : Int64.minValue.toInt ≤ i.toInt := i.minValue_le_toInt
  have hfits : m < UInt64.size := by
    have hlow : -9223372036854775808 ≤ i.toInt := i.le_toInt
    have hhigh : i.toInt < 9223372036854775808 := i.toInt_lt
    have hsize : UInt64.size = 18446744073709551616 := rfl
    unfold IsSigned at h
    split at h <;> omega
  have hnumber := numberFrom_digits m
  have hwhole := isWhole_digits m
  generalize word (Decimal.digits m) = whole at hnumber hwhole
  cases hwhole with
  | zero =>
    obtain rfl : 0 = m := hnumber
    cases t with
    | nil => exact numberTail_complete h hmin ht
    | cons d rest =>
      show (if isDigit d then _ else _ : Reader Number) (d :: rest) = _
      rw [hdigit d rfl]
      exact numberTail_complete h hmin ht
  | @digits d rest hd hne hrest =>
    have hvalue : numberFrom (d.toNat - 48) rest = m := by
      rw [← hnumber]
      show _ = numberFrom (0 * 10 + (d.toNat - 48)) rest
      rw [Nat.zero_mul, Nat.zero_add]
    have htaken : digitsThatFit (d.toNat - 48) 1 (rest ++ t) = _ :=
      digitsThatFit_complete hrest (by rw [hvalue]; exact hfits) hdigit
    show (if d == byte '0' then _ else if isDigit d then _ else _ : Reader Number) (rest ++ t) = _
    rw [if_neg (by simpa using hne), if_pos hd]
    refine bind_eq_ok.mpr ⟨_, _, rfl, ?_⟩
    rw [htaken, hvalue]
    exact numberTail_complete h hmin ht

end Reader

end Bulletin.Json
