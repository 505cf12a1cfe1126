/-!
# Integers in decimal

Writing an integer and reading one back. Reading takes an optional sign and then digits only, as
many as there are:

    ofInt (-5) = "-5"
    int? "-05" = some (-5)      int? "+5" = some 5
    int? "5 "  = none           int? "-"  = none

`int64?` reads the integers that fit into 64 bits and refuses all others. What is written reads
back:

    int?_ofInt     : int? (ofInt n) = some n
    int64?_ofInt64 : int64? (ofInt64 n) = some n
-/

namespace Bulletin.Decimal

/-- The digit for a number below ten. -/
def digit (n : Nat) : Char := Char.ofNat ('0'.toNat + n % 10)

/-- The digits of a number; the number itself is fuel enough. -/
def digitsWith : Nat → Nat → List Char
  | 0, n => [digit n]
  | fuel + 1, n => if n < 10 then [digit n] else digitsWith fuel (n / 10) ++ [digit n]

def digits (n : Nat) : List Char := digitsWith n n

def charsOfInt : Int → List Char
  | .ofNat n => digits n
  | .negSucc n => '-' :: digits (n + 1)

def ofNat (n : Nat) : String := String.ofList (digits n)

def ofInt (n : Int) : String := String.ofList (charsOfInt n)

def ofInt64 (n : Int64) : String := ofInt n.toInt

def digitValue? (c : Char) : Option Nat :=
  if '0' ≤ c ∧ c ≤ '9' then some (c.toNat - '0'.toNat) else none

/-- The number that digits denote behind a number already read. -/
def natFrom? : Nat → List Char → Option Nat
  | n, [] => some n
  | n, c :: rest =>
    match digitValue? c with
    | some d => natFrom? (10 * n + d) rest
    | none => none

/-- The number that a text of digits denotes. -/
def natOfChars? : List Char → Option Nat
  | [] => none
  | cs => natFrom? 0 cs

/-- The integer that a text denotes. -/
def intOfChars? : List Char → Option Int
  | '-' :: cs => (natOfChars? cs).map fun n => -(n : Int)
  | '+' :: cs => (natOfChars? cs).map Int.ofNat
  | cs => (natOfChars? cs).map Int.ofNat

/-- The integer that a text denotes. -/
def int? (s : String) : Option Int := intOfChars? s.toList

def fit? (n : Int) : Option Int64 :=
  if Int64.minValue.toInt ≤ n ∧ n ≤ Int64.maxValue.toInt then some (Int64.ofInt n) else none

/-- The 64-bit integer that a text denotes. -/
def int64? (s : String) : Option Int64 := (int? s).bind fit?

/-! ## Reading what has been written -/

theorem digitValue?_digit (n : Nat) : digitValue? (digit n) = some (n % 10) := by
  have h : n % 10 < 10 := Nat.mod_lt _ (by decide)
  have hd : digit n = digit (n % 10) := by simp [digit]
  rw [hd]
  generalize n % 10 = m at h
  match m, h with
  | 0, _ | 1, _ | 2, _ | 3, _ | 4, _ | 5, _ | 6, _ | 7, _ | 8, _ | 9, _ => rfl

theorem natFrom?_append (n : Nat) (l l' : List Char) :
    natFrom? n (l ++ l') = (natFrom? n l).bind fun m => natFrom? m l' := by
  induction l generalizing n with
  | nil => rfl
  | cons c rest ih =>
    rw [List.cons_append, natFrom?, natFrom?]
    split
    · exact ih _
    · rfl

theorem natFrom?_digitsWith {fuel n : Nat} (h : n ≤ fuel) :
    natFrom? 0 (digitsWith fuel n) = some n := by
  induction fuel generalizing n with
  | zero =>
    obtain rfl := Nat.le_zero.mp h
    rfl
  | succ fuel ih =>
    rw [digitsWith]
    split
    · rename_i hlt
      simp [natFrom?, digitValue?_digit, Nat.mod_eq_of_lt hlt]
    · rw [natFrom?_append, ih (by omega)]
      simp [natFrom?, digitValue?_digit]
      omega

theorem digitsWith_ne_nil (fuel n : Nat) : digitsWith fuel n ≠ [] := by
  cases fuel with
  | zero => simp [digitsWith]
  | succ fuel =>
    rw [digitsWith]
    split <;> simp

@[simp]
theorem natOfChars?_digits (n : Nat) : natOfChars? (digits n) = some n := by
  rw [digits, natOfChars?.eq_def]
  split
  · rename_i heq
    exact absurd heq (digitsWith_ne_nil n n)
  · exact natFrom?_digitsWith (Nat.le_refl n)

/-- Digits come without a sign. -/
theorem digitValue?_isSome_of_mem_digits {fuel n : Nat} {c : Char} (h : c ∈ digitsWith fuel n) :
    (digitValue? c).isSome := by
  induction fuel generalizing n with
  | zero =>
    obtain rfl := List.mem_singleton.mp h
    simp [digitValue?_digit]
  | succ fuel ih =>
    rw [digitsWith] at h
    split at h
    · obtain rfl := List.mem_singleton.mp h
      simp [digitValue?_digit]
    · rcases List.mem_append.mp h with h | h
      · exact ih h
      · obtain rfl := List.mem_singleton.mp h
        simp [digitValue?_digit]

/-- An integer is written with digits and a sign, and with nothing else. -/
theorem not_mem_charsOfInt {c : Char} (hdigit : digitValue? c = none) (hsign : c ≠ '-') (n : Int) :
    c ∉ charsOfInt n := by
  have hdigits : ∀ m, c ∉ digits m := by
    intro m hmem
    have hvalue := digitValue?_isSome_of_mem_digits hmem
    rw [hdigit] at hvalue
    cases hvalue
  cases n with
  | ofNat m => exact hdigits m
  | negSucc m =>
    intro hmem
    rcases List.mem_cons.mp hmem with heq | hmem
    · exact hsign heq
    · exact hdigits (m + 1) hmem

theorem intOfChars?_digits (n : Nat) : intOfChars? (digits n) = some (n : Int) := by
  rw [intOfChars?.eq_def]
  split
  · rename_i heq
    have : (digitValue? '-').isSome :=
      digitValue?_isSome_of_mem_digits (by rw [← digits, heq]; exact List.mem_cons_self)
    simp [digitValue?] at this
  · rename_i heq
    have : (digitValue? '+').isSome :=
      digitValue?_isSome_of_mem_digits (by rw [← digits, heq]; exact List.mem_cons_self)
    simp [digitValue?] at this
  · simp

@[simp]
theorem intOfChars?_charsOfInt (n : Int) : intOfChars? (charsOfInt n) = some n := by
  cases n with
  | ofNat n => exact intOfChars?_digits n
  | negSucc n =>
    rw [charsOfInt, intOfChars?, natOfChars?_digits]
    rfl

theorem int?_ofInt (n : Int) : int? (ofInt n) = some n := by simp [int?, ofInt]

theorem fit?_toInt (n : Int64) : fit? n.toInt = some n := by
  rw [fit?, if_pos ⟨n.minValue_le_toInt, n.toInt_le⟩, Int64.ofInt_toInt]

theorem int64?_ofInt64 (n : Int64) : int64? (ofInt64 n) = some n := by
  rw [int64?, ofInt64, int?_ofInt]
  exact fit?_toInt n

theorem ofInt64_injective : Function.Injective ofInt64 := by
  intro n m h
  have hn := int64?_ofInt64 n
  rw [h, int64?_ofInt64] at hn
  exact (Option.some.inj hn).symm

/-! ## Hexadecimal -/

/-- A number in lower-case hexadecimal digits; `fuel` is the most digits written. -/
def hexWith : Nat → Nat → List Char
  | 0, _ => []
  | fuel + 1, n =>
    let d := n % 16
    let c := if d < 10 then digit d else Char.ofNat ('a'.toNat + (d - 10))
    if n < 16 then [c] else hexWith fuel (n / 16) ++ [c]

/-- A code point in lower-case hexadecimal digits. -/
def hex (n : Nat) : List Char := hexWith 8 n

end Bulletin.Decimal
