import Bulletin.Text.Lossy

/-!
# Texts as bytes

The bytes of a text are those of its characters, one after the other, and bytes are those of at
most one text:

    encode_eq           : encode s = s.toList.flatMap String.utf8EncodeChar
    fromUTF8?_eq_some_iff : which bytes are the text of which
    encode_injective    : different texts have different bytes
-/

namespace Bulletin.Text

theorem toList_loop_eq (bytes : ByteArray) (i : Nat) (read : List UInt8) :
    ByteArray.toList.loop bytes i read = read.reverse ++ bytes.data.toList.drop i := by
  fun_induction ByteArray.toList.loop bytes i read with
  | case1 i read hlt ih =>
    have hi : i < bytes.data.toList.length := by simpa using hlt
    have hget : bytes.get! i = bytes.data.toList[i] := by simp [ByteArray.get!, hlt]
    rw [ih, List.drop_eq_getElem_cons hi, hget]
    simp
  | case2 i read hge =>
    rw [List.drop_eq_nil_of_le (by simpa using Nat.le_of_not_lt hge)]
    simp

theorem toList_byteArray (bytes : ByteArray) : bytes.toList = bytes.data.toList := by
  rw [ByteArray.toList, toList_loop_eq, List.reverse_nil, List.nil_append, List.drop_zero]

/-- The bytes of a text are those of its characters. -/
theorem encode_eq (s : String) : encode s = s.toList.flatMap String.utf8EncodeChar := by
  have hbytes : s.toByteArray = (s.toList.flatMap String.utf8EncodeChar).toByteArray :=
    calc s.toByteArray
        = (String.ofList s.toList).toByteArray := by rw [String.ofList_toList]
      _ = s.toList.utf8Encode := String.toByteArray_ofList
      _ = (s.toList.flatMap String.utf8EncodeChar).toByteArray := rfl
  rw [encode, toList_byteArray, String.toUTF8, hbytes, List.data_toByteArray]

@[simp]
theorem encode_append (s s' : String) : encode (s ++ s') = encode s ++ encode s' := by
  rw [encode_eq, encode_eq, encode_eq, String.toList_append, List.flatMap_append]

theorem encode_ofList (cs : List Char) :
    encode (String.ofList cs) = cs.flatMap String.utf8EncodeChar := by
  rw [encode_eq, String.toList_ofList]

theorem toNat_ofNat_of_valid {n : Nat} (h : n < 0xD800 ∨ 0xDFFF < n ∧ n < 0x110000) :
    (Char.ofNat n).toNat = n := by
  rw [Char.ofNat, dif_pos h]
  rfl

/-- A character of ASCII is one byte. -/
theorem utf8EncodeChar_of_lt {c : Char} (h : c.toNat < 128) :
    String.utf8EncodeChar c = [c.toNat.toUInt8] :=
  if_pos (Nat.le_of_lt_succ h)

/-- No other character has a byte of ASCII. -/
theorem le_of_mem_utf8EncodeChar {c : Char} {b : UInt8} (h : 128 ≤ c.toNat)
    (hb : b ∈ String.utf8EncodeChar c) : 128 ≤ b := by
  have hhigh : ∀ n, 128 ≤ n → n < 256 → 128 ≤ UInt8.ofNat n := by
    intro n hle hlt
    rw [UInt8.le_iff_toNat_le, UInt8.toNat_ofNat', Nat.mod_eq_of_lt hlt]
    exact hle
  have hlong : ¬ c.val.toNat ≤ 0x7f := Nat.not_le_of_lt h
  unfold String.utf8EncodeChar at hb
  rw [if_neg hlong] at hb
  split at hb
  · simp only [List.mem_cons, List.not_mem_nil, or_false] at hb
    rcases hb with rfl | rfl <;> exact hhigh _ (by omega) (by omega)
  split at hb
  · simp only [List.mem_cons, List.not_mem_nil, or_false] at hb
    rcases hb with rfl | rfl | rfl <;> exact hhigh _ (by omega) (by omega)
  · simp only [List.mem_cons, List.not_mem_nil, or_false] at hb
    rcases hb with rfl | rfl | rfl | rfl <;> exact hhigh _ (by omega) (by omega)

theorem fromUTF8?_eq_some_iff {bytes : List UInt8} {s : String} :
    String.fromUTF8? ⟨bytes.toArray⟩ = some s ↔ encode s = bytes := by
  have hencode : encode s = bytes ↔ s.toByteArray = ⟨bytes.toArray⟩ := by
    rw [encode, toList_byteArray, String.toUTF8]
    constructor
    · rintro rfl
      rfl
    · intro h
      rw [h]
  rw [hencode, String.fromUTF8?]
  split
  · rename_i hvalid
    rw [Option.some.injEq]
    constructor
    · rintro rfl
      rfl
    · intro h
      exact String.toByteArray_inj.mp h.symm
  · rename_i hinvalid
    constructor
    · intro h
      cases h
    · intro h
      exact absurd (h ▸ s.isValidUTF8) hinvalid

/-- Different texts have different bytes. -/
theorem encode_injective : Function.Injective encode := by
  intro s s' h
  have hs := fromUTF8?_eq_some_iff.mpr h
  rw [fromUTF8?_eq_some_iff.mpr rfl] at hs
  exact (Option.some.inj hs).symm

end Bulletin.Text
