import Bulletin.Files.Path
import Bulletin.Proofs.Decoding

/-!
# Names and paths as bytes

A text is kept as its bytes, from which it is read again. So different texts are kept as different
bytes, and of a name that reads as ASCII there is one only. A slash among the bytes of a text is one
among its characters:

    text_ofString : (ofString s).text = s
    ofString_text : ofString r.text = r, if that is ASCII
    slash_mem_iff : where there is a slash
-/

namespace Bulletin.RawText

theorem bytes_ofString (s : String) : (ofString s).bytes = Text.encode s := (Text.encode_eq s).symm

@[simp]
theorem text_ofString (s : String) : (ofString s).text = s := by
  rw [text, bytes_ofString, Text.decode_encode]

@[simp]
theorem ofString_inj {s s' : String} : ofString s = ofString s' ↔ s = s' := by
  constructor
  · intro h
    rw [← text_ofString s, h, text_ofString]
  · rintro rfl
    rfl

theorem ofString_append (s s' : String) : ofString (s ++ s') = ofString s ++ ofString s' := by
  show (⟨_⟩ : RawText) = ⟨(ofString s).bytes ++ (ofString s').bytes⟩
  rw [bytes_ofString, bytes_ofString, ← Text.encode_append, Text.encode_eq]

theorem bytes_append (r r' : RawText) : (r ++ r').bytes = r.bytes ++ r'.bytes := rfl

/-- What reads as ASCII is kept as what it reads as. -/
theorem ofString_text {r : RawText} (h : ∀ c ∈ r.text.toList, c.toNat < 128) :
    ofString r.text = r := by
  show (⟨_⟩ : RawText) = ⟨r.bytes⟩
  rw [← Text.encode_eq, text, Text.encode_decode h]

/-- There is a slash among the bytes where there is one in the text. -/
theorem slash_mem_iff {s : String} : Path.slash ∈ (ofString s).bytes ↔ '/' ∈ s.toList := by
  show Path.slash ∈ s.toList.flatMap String.utf8EncodeChar ↔ _
  rw [List.mem_flatMap]
  constructor
  · rintro ⟨c, hc, hslash⟩
    have hshort : c.toNat < 128 := by
      refine Nat.lt_of_not_le fun hlong => ?_
      exact absurd (Text.le_of_mem_utf8EncodeChar hlong hslash) (by decide)
    rw [Text.utf8EncodeChar_of_lt hshort, List.mem_singleton] at hslash
    have hcode : c.toNat = '/'.toNat := by
      have hbyte := congrArg UInt8.toNat hslash
      rw [Nat.toUInt8_eq, UInt8.toNat_ofNat', Nat.mod_eq_of_lt (by omega)] at hbyte
      exact hbyte.symm
    rwa [← Char.toNat_inj.mp hcode]
  · intro hslash
    exact ⟨'/', hslash, by decide⟩

end Bulletin.RawText
