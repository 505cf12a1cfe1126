import Bulletin.Proofs.Encoding

/-!
# Bytes as texts

Bytes need not be those of a text, and are read all the same. What has been written as a text is
read as that text; and of bytes that read as ASCII it is known that they are those of what they read as,
since whatever is no character of ASCII is read as one that is none either:

    decode_encode : decode (encode s) = s
    encode_decode : encode (decode bytes) = bytes, if that is ASCII
-/

namespace Bulletin.Text

/-! ## Reading what has been written -/

theorem start_ascii : ∀ n < 128, start (UInt8.ofNat n) = .char (Char.ofNat n) := by decide +kernel

theorem start_two : ∀ n < 32, 2 ≤ n →
    start (UInt8.ofNat (n + 192)) = .begun ⟨n, 1, 0x80, 0xBF⟩ := by
  decide +kernel

theorem start_three : ∀ n < 16, start (UInt8.ofNat (n + 224)) =
    .begun ⟨n, 2, if n = 0 then 0xA0 else 0x80, if n = 13 then 0x9F else 0xBF⟩ := by
  decide +kernel

theorem start_four : ∀ n < 5, start (UInt8.ofNat (n + 240)) =
    .begun ⟨n, 3, if n = 0 then 0x90 else 0x80, if n = 4 then 0x8F else 0xBF⟩ := by
  decide +kernel

theorem decodeFrom_of_start {b : UInt8} {s : Begun} (h : start b = .begun s) (rest : List UInt8) :
    decodeFrom none (b :: rest) = decodeFrom (some s) rest := by
  rw [decodeFrom, h]

/-- Six bits more are read of a sequence. -/
theorem decodeFrom_continue {s : Begun} {m : Nat} (hm : m < 64) (hlow : s.low.toNat ≤ m + 128)
    (hhigh : m + 128 ≤ s.high.toNat) (rest : List UInt8) :
    decodeFrom (some s) (UInt8.ofNat (m + 128) :: rest) =
      match s.next (UInt8.ofNat (m + 128)) with
      | .char c => c :: decodeFrom none rest
      | .begun s => decodeFrom (some s) rest := by
  have hbyte : (UInt8.ofNat (m + 128)).toNat = m + 128 := by
    rw [UInt8.toNat_ofNat', Nat.mod_eq_of_lt (by omega)]
  have hinside : (s.low ≤ UInt8.ofNat (m + 128) && UInt8.ofNat (m + 128) ≤ s.high) = true := by
    rw [Bool.and_eq_true, decide_eq_true_eq, decide_eq_true_eq, UInt8.le_iff_toNat_le,
      UInt8.le_iff_toNat_le, hbyte]
    exact ⟨hlow, hhigh⟩
  rw [decodeFrom]
  exact if_pos hinside

theorem next_ofNat (s : Begun) {m : Nat} (hm : m < 64) :
    s.next (UInt8.ofNat (m + 128)) =
      if s.missing ≤ 1 then .char (Char.ofNat (s.bits * 64 + m))
      else .begun ⟨s.bits * 64 + m, s.missing - 1, 0x80, 0xBF⟩ := by
  have hbyte : (UInt8.ofNat (m + 128)).toNat = m + 128 := by
    rw [UInt8.toNat_ofNat', Nat.mod_eq_of_lt (by omega)]
  rw [Begun.next, hbyte, Nat.add_sub_cancel]

theorem decodeFrom_last (bits : Nat) {m : Nat} (hm : m < 64) (rest : List UInt8) :
    decodeFrom (some ⟨bits, 1, 0x80, 0xBF⟩) (UInt8.ofNat (m + 128) :: rest) =
      Char.ofNat (bits * 64 + m) :: decodeFrom none rest := by
  have hlow : (0x80 : UInt8).toNat ≤ m + 128 := Nat.le_add_left _ _
  have hhigh : m + 128 ≤ (0xBF : UInt8).toNat := show _ ≤ 191 by omega
  rw [decodeFrom_continue hm hlow hhigh, next_ofNat _ hm]
  rfl

theorem decodeFrom_more (bits missing : Nat) {low high : UInt8} {m : Nat} (hm : m < 64)
    (hlow : low.toNat ≤ m + 128) (hhigh : m + 128 ≤ high.toNat) (rest : List UInt8) :
    decodeFrom (some ⟨bits, missing + 2, low, high⟩) (UInt8.ofNat (m + 128) :: rest) =
      decodeFrom (some ⟨bits * 64 + m, missing + 1, 0x80, 0xBF⟩) rest := by
  rw [decodeFrom_continue hm hlow hhigh, next_ofNat _ hm, if_neg (by simp)]
  rfl

variable {v : Nat} (rest : List UInt8)

theorem decodeFrom_two (hlow : 128 ≤ v) (hhigh : v < 2048) :
    decodeFrom none (UInt8.ofNat (v / 64 % 32 + 192) :: UInt8.ofNat (v % 64 + 128) :: rest) =
      Char.ofNat v :: decodeFrom none rest := by
  have hbits : v / 64 * 64 + v % 64 = v := by omega
  rw [Nat.mod_eq_of_lt (show v / 64 < 32 by omega),
    decodeFrom_of_start (start_two _ (by omega) (by omega)), decodeFrom_last _ (by omega), hbits]

theorem decodeFrom_three (hlow : 2048 ≤ v) (hhigh : v < 65536)
    (hvalid : v < 0xD800 ∨ 0xDFFF < v) :
    decodeFrom none (UInt8.ofNat (v / 4096 % 16 + 224) :: UInt8.ofNat (v / 64 % 64 + 128) ::
        UInt8.ofNat (v % 64 + 128) :: rest) =
      Char.ofNat v :: decodeFrom none rest := by
  have hbits : (v / 4096 * 64 + v / 64 % 64) * 64 + v % 64 = v := by omega
  have hleast : (if v / 4096 = 0 then 0xA0 else 0x80 : UInt8).toNat ≤ v / 64 % 64 + 128 := by
    split
    · show 160 ≤ _
      omega
    · show 128 ≤ _
      omega
  -- the code points of surrogates are those that no character has
  have hgreatest : v / 64 % 64 + 128 ≤ (if v / 4096 = 13 then 0x9F else 0xBF : UInt8).toNat := by
    split
    · show _ ≤ 159
      omega
    · show _ ≤ 191
      omega
  rw [Nat.mod_eq_of_lt (show v / 4096 < 16 by omega),
    decodeFrom_of_start (start_three _ (by omega)),
    decodeFrom_more _ 0 (by omega) hleast hgreatest, decodeFrom_last _ (by omega), hbits]

theorem decodeFrom_four (hlow : 65536 ≤ v) (hhigh : v < 0x110000) :
    decodeFrom none (UInt8.ofNat (v / 262144 % 8 + 240) :: UInt8.ofNat (v / 4096 % 64 + 128) ::
        UInt8.ofNat (v / 64 % 64 + 128) :: UInt8.ofNat (v % 64 + 128) :: rest) =
      Char.ofNat v :: decodeFrom none rest := by
  have hbits : ((v / 262144 * 64 + v / 4096 % 64) * 64 + v / 64 % 64) * 64 + v % 64 = v := by omega
  have hleast : (if v / 262144 = 0 then 0x90 else 0x80 : UInt8).toNat ≤ v / 4096 % 64 + 128 := by
    split
    · show 144 ≤ _
      omega
    · show 128 ≤ _
      omega
  have hgreatest : v / 4096 % 64 + 128 ≤ (if v / 262144 = 4 then 0x8F else 0xBF : UInt8).toNat := by
    split
    · show _ ≤ 143
      omega
    · show _ ≤ 191
      omega
  have hmiddle : v / 64 % 64 + 128 ≤ (0xBF : UInt8).toNat := show _ ≤ 191 by omega
  rw [Nat.mod_eq_of_lt (show v / 262144 < 8 by omega),
    decodeFrom_of_start (start_four _ (by omega)),
    decodeFrom_more _ 1 (by omega) hleast hgreatest,
    decodeFrom_more _ 0 (by omega) (Nat.le_add_left _ _) hmiddle, decodeFrom_last _ (by omega),
    hbits]

/-- The bytes of a character are read as that character. -/
theorem decodeFrom_encodeChar (c : Char) :
    decodeFrom none (String.utf8EncodeChar c ++ rest) = c :: decodeFrom none rest := by
  have hvalid : c.val.toNat < 0xD800 ∨ 0xDFFF < c.val.toNat ∧ c.val.toNat < 0x110000 := c.valid
  have hself : Char.ofNat c.val.toNat = c := c.ofNat_toNat
  unfold String.utf8EncodeChar
  dsimp only
  split
  · rw [List.singleton_append, decodeFrom, start_ascii _ (by omega), hself]
  split
  · rw [List.cons_append, List.singleton_append, decodeFrom_two rest (by omega) (by omega), hself]
  split
  · rw [List.cons_append, List.cons_append, List.singleton_append,
      decodeFrom_three rest (by omega) (by omega) (by omega), hself]
  · rw [List.cons_append, List.cons_append, List.cons_append, List.singleton_append,
      decodeFrom_four rest (by omega) (by omega), hself]

theorem decodeFrom_flatMap (cs : List Char) :
    decodeFrom none (cs.flatMap String.utf8EncodeChar) = cs := by
  induction cs with
  | nil => rfl
  | cons c cs ih => rw [List.flatMap_cons, decodeFrom_encodeChar, ih]

/-- What has been written is read again. -/
@[simp]
theorem decode_encode (s : String) : decode (encode s) = s := by
  rw [decode, encode_eq, decodeFrom_flatMap, String.ofList_toList]

/-! ## What reads as ASCII -/

namespace Begun

/-- How many numbers are told apart by so many bytes of a sequence behind its first. -/
def room : Nat → Nat
  | 0 => 1
  | n + 1 => 64 * room n

/-- The least number that a sequence can stand for that has been begun. -/
def least (s : Begun) : Nat := (s.bits * 64 + (s.low.toNat - 128)) * room (s.missing - 1)

/-- The number behind the greatest. -/
def bound (s : Begun) : Nat := (s.bits * 64 + (s.high.toNat - 127)) * room (s.missing - 1)

/-- A sequence that has been begun can stand for characters only, and for none of ASCII. -/
structure IsLong (s : Begun) : Prop where
  continues : 128 ≤ s.low.toNat ∧ 128 ≤ s.high.toNat
  long : 128 ≤ s.least
  valid : s.bound ≤ 0xD800 ∨ 0xE000 ≤ s.least ∧ s.bound ≤ 0x110000

theorem least_mk (bits missing : Nat) :
    least ⟨bits, missing, 0x80, 0xBF⟩ = bits * 64 * room (missing - 1) := by
  simp [least]

theorem bound_mk (bits missing : Nat) :
    bound ⟨bits, missing, 0x80, 0xBF⟩ = (bits * 64 + 64) * room (missing - 1) := by
  simp [bound]

end Begun

/-- A byte leads to no character of ASCII. -/
def Step.IsLong : Step → Prop
  | char c => 128 ≤ c.toNat
  | begun s => s.IsLong

instance (s : Begun) : Decidable s.IsLong :=
  decidable_of_iff ((128 ≤ s.low.toNat ∧ 128 ≤ s.high.toNat) ∧ 128 ≤ s.least ∧
      (s.bound ≤ 0xD800 ∨ 0xE000 ≤ s.least ∧ s.bound ≤ 0x110000))
    ⟨fun h => ⟨h.1, h.2.1, h.2.2⟩, fun h => ⟨h.1, h.2, h.3⟩⟩

instance : DecidablePred Step.IsLong
  | .char c => inferInstanceAs (Decidable (128 ≤ c.toNat))
  | .begun s => inferInstanceAs (Decidable s.IsLong)

theorem isLong_start : ∀ n < 256, 128 ≤ n → (start (UInt8.ofNat n)).IsLong := by decide +kernel

theorem Begun.IsLong.next {s : Begun} (h : s.IsLong) {b : UInt8} (hlow : s.low ≤ b)
    (hhigh : b ≤ s.high) : (s.next b).IsLong := by
  obtain ⟨⟨hfirst, hlast⟩, hlong, hvalid⟩ := h
  unfold least at hlong hvalid
  unfold bound at hvalid
  rw [UInt8.le_iff_toNat_le] at hlow hhigh
  unfold Begun.next
  dsimp only
  split
  · rename_i hone
    rw [Nat.sub_eq_zero_of_le hone, room, Nat.mul_one] at hlong hvalid
    show 128 ≤ (Char.ofNat _).toNat
    rw [toNat_ofNat_of_valid (by omega)]
    omega
  · rename_i hmore
    obtain ⟨missing, hmissing⟩ : ∃ missing, s.missing - 1 = missing + 1 := ⟨s.missing - 2, by omega⟩
    have hroom : room (s.missing - 1) = 64 * room missing := by rw [hmissing, room]
    rw [hroom, ← Nat.mul_assoc] at hlong
    rw [hroom, ← Nat.mul_assoc, ← Nat.mul_assoc] at hvalid
    have hleast : (s.bits * 64 + (s.low.toNat - 128)) * 64 * room missing ≤
        (s.bits * 64 + (b.toNat - 128)) * 64 * room missing :=
      Nat.mul_le_mul_right _ (by omega)
    have hbound : ((s.bits * 64 + (b.toNat - 128)) * 64 + 64) * room missing ≤
        (s.bits * 64 + (s.high.toNat - 127)) * 64 * room missing :=
      Nat.mul_le_mul_right _ (by omega)
    refine ⟨⟨Nat.le_refl 128, by simp⟩, ?_, ?_⟩
    · rw [least_mk, hmissing, Nat.add_sub_cancel]
      omega
    · rw [least_mk, bound_mk, hmissing, Nat.add_sub_cancel]
      omega

theorem isLong_start_of_le {b : UInt8} (h : 128 ≤ b.toNat) : (start b).IsLong := by
  have hstart := isLong_start b.toNat b.toNat_lt h
  rwa [UInt8.ofNat_toNat] at hstart

/-- Behind a sequence that has been begun there is a character that is not of ASCII. -/
theorem exists_long_of_isLong {s : Begun} (h : s.IsLong) (bytes : List UInt8) :
    ∃ c ∈ decodeFrom (some s) bytes, 128 ≤ c.toNat := by
  induction bytes generalizing s with
  | nil => exact ⟨replacement, List.mem_cons_self, by decide⟩
  | cons b rest ih =>
    rw [decodeFrom]
    split
    · rename_i hinside
      rw [Bool.and_eq_true, decide_eq_true_eq, decide_eq_true_eq] at hinside
      have hnext := h.next hinside.1 hinside.2
      split
      · rename_i c heq
        rw [heq] at hnext
        exact ⟨c, List.mem_cons_self, hnext⟩
      · rename_i s' heq
        rw [heq] at hnext
        exact ih hnext
    · split <;> exact ⟨replacement, List.mem_cons_self, by decide⟩

/-- Bytes that read as ASCII are those of what they read as. -/
theorem flatMap_decodeFrom {bytes : List UInt8} (h : ∀ c ∈ decodeFrom none bytes, c.toNat < 128) :
    (decodeFrom none bytes).flatMap String.utf8EncodeChar = bytes := by
  induction bytes with
  | nil => rfl
  | cons b rest ih =>
    have hshort : b.toNat < 128 := by
      refine Nat.lt_of_not_le fun hlong => ?_
      have hstart := isLong_start_of_le hlong
      rw [decodeFrom] at h
      cases heq : start b with
      | char c =>
        rw [heq] at h hstart
        exact Nat.not_le_of_lt (h c List.mem_cons_self) hstart
      | begun s =>
        rw [heq] at h hstart
        obtain ⟨c, hc, hle⟩ := exists_long_of_isLong hstart rest
        exact Nat.not_le_of_lt (h c hc) hle
    have hstart := start_ascii b.toNat hshort
    rw [UInt8.ofNat_toNat] at hstart
    rw [decodeFrom, hstart] at h ⊢
    have hchar : (Char.ofNat b.toNat).toNat = b.toNat := toNat_ofNat_of_valid (by omega)
    rw [List.flatMap_cons, utf8EncodeChar_of_lt (by rw [hchar]; exact hshort), hchar,
      ih fun c hc => h c (List.mem_cons_of_mem _ hc), List.singleton_append]
    exact congrArg (· :: rest) UInt8.ofNat_toNat

theorem encode_decode {bytes : List UInt8} (h : ∀ c ∈ (decode bytes).toList, c.toNat < 128) :
    encode (decode bytes) = bytes := by
  rw [decode, String.toList_ofList] at h
  rw [decode, encode_ofList, flatMap_decodeFrom h]

end Bulletin.Text
