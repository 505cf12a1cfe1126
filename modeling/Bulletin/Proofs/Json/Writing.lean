import Bulletin.Json.Value
import Bulletin.Proofs.Encoding
import Bulletin.Proofs.Json.Grammar
import Bulletin.Proofs.Spelling

/-!
# What is written is JSON

A value is written as a JSON text, if the texts in it that are taken over as they are are JSON. In
such a text every member of an object stands under its name:

    spells_writeString : a string between its quotes
    isWritten_int      : an integer
    isObject_compact   : an object, with the names and the written values of its members
-/

namespace Bulletin.Json

open Reader (byte isBlank isDigit hexValue? shortEscape?)

/-! ## Strings -/

theorem SpellsBytes.append {body body' bytes bytes' : List UInt8} (h : SpellsBytes body bytes)
    (h' : SpellsBytes body' bytes') : SpellsBytes (body ++ body') (bytes ++ bytes') := by
  induction h with
  | nil => exact h'
  | plain hplain _ ih => exact .plain hplain ih
  | short hc _ ih => exact .short hc ih
  | unicode hn hwhole _ ih =>
    rw [List.append_assoc]
    exact .unicode hn hwhole ih
  | pair hn hhigh hm hlow _ ih =>
    rw [List.append_assoc]
    exact .pair hn hhigh hm hlow ih

/-- What needs no escapes spells itself. -/
theorem SpellsBytes.of_plain {bytes : List UInt8} (h : ∀ b ∈ bytes, IsPlain b) :
    SpellsBytes bytes bytes := by
  induction bytes with
  | nil => exact .nil
  | cons b rest ih =>
    exact .plain (h b List.mem_cons_self) (ih fun b' hb' => h b' (List.mem_cons_of_mem b hb'))

/-- Every byte of a character that is written as it is stands for itself. -/
theorem isPlain_of_mem {c : Char} (hquote : c ≠ '"') (hslash : c ≠ '\\') (hcontrol : ¬ c.toNat < 32)
    {b : UInt8} (hb : b ∈ String.utf8EncodeChar c) : IsPlain b := by
  by_cases hascii : c.toNat < 128
  · rw [Text.utf8EncodeChar_of_lt hascii, List.mem_singleton] at hb
    subst hb
    have hnat : c.toNat.toUInt8.toNat = c.toNat := by
      rw [UInt8.toNat_ofNat', Nat.mod_eq_of_lt (by omega)]
    refine ⟨fun h => hquote ?_, fun h => hslash ?_, fun h => hcontrol ?_⟩
    · rw [← Char.ofNat_toNat c, ← hnat, h]
      rfl
    · rw [← Char.ofNat_toNat c, ← hnat, h]
      rfl
    · rw [UInt8.lt_iff_toNat_lt, hnat] at h
      exact h
  · have hle := Text.le_of_mem_utf8EncodeChar (Nat.le_of_not_lt hascii) hb
    refine ⟨?_, ?_, ?_⟩
    · rintro rfl
      revert hle
      decide
    · rintro rfl
      revert hle
      decide
    · intro hlt
      exact absurd (UInt8.lt_of_le_of_lt hle hlt) (by decide)

/-- A hexadecimal digit is read back. -/
theorem hexValue?_hexDigit {n : Nat} (h : n < 16) :
    ∃ b, String.utf8EncodeChar (hexDigit n) = [b] ∧ hexValue? b = some n := by
  refine ⟨byte (hexDigit n), ?_, ?_⟩
  · revert n
    decide
  · revert n
    decide

theorem encode_singleton (c : Char) : Reader.encode c.toNat = String.utf8EncodeChar c := by
  show Text.encode (String.singleton (Char.ofNat c.toNat)) = _
  rw [Char.ofNat_toNat, Text.encode_eq, String.toList_singleton]
  simp

/-- A character is written so that it is read back. -/
theorem spells_escapeChar (c : Char) :
    SpellsBytes ((escapeChar c).flatMap String.utf8EncodeChar) (String.utf8EncodeChar c) := by
  have hshort : ∀ {e b : UInt8}, shortEscape? e = some b → SpellsBytes [byte '\\', e] [b] :=
    fun he => .short he .nil
  have hofNat : ∀ {n : Nat}, c.toNat = n → c = Char.ofNat n := by
    rintro n rfl
    exact (Char.ofNat_toNat c).symm
  unfold escapeChar
  split
  · rename_i h
    subst h
    exact hshort (by decide)
  split
  · rename_i h
    subst h
    exact hshort (by decide)
  split
  · rename_i h
    subst h
    exact hshort (by decide)
  split
  · rename_i h
    subst h
    exact hshort (by decide)
  split
  · rename_i h
    subst h
    exact hshort (by decide)
  split
  · rename_i h
    obtain rfl := hofNat h
    exact hshort (by decide)
  split
  · rename_i h
    obtain rfl := hofNat h
    exact hshort (by decide)
  split
  · rename_i hcontrol
    obtain ⟨high, hhigh, hhighValue⟩ := hexValue?_hexDigit (n := c.toNat / 16) (by omega)
    obtain ⟨low, hlow, hlowValue⟩ := hexValue?_hexDigit (n := c.toNat % 16) (Nat.mod_lt _ (by decide))
    have hbytes : ['\\', 'u', '0', '0', hexDigit (c.toNat / 16), hexDigit (c.toNat % 16)].flatMap
        String.utf8EncodeChar = [byte '\\', byte 'u', byte '0', byte '0', high, low] := by
      simp only [List.flatMap_cons, List.flatMap_nil, hhigh, hlow]
      rfl
    have hnumber : HexNumber (byte '0') (byte '0') high low c.toNat :=
      ⟨0, 0, _, _, by decide, by decide, hhighValue, hlowValue, by omega⟩
    rw [hbytes, ← encode_singleton, ← List.append_nil (Reader.encode c.toNat)]
    exact .unicode hnumber (.inl (by omega)) .nil
  · rename_i hquote hslash _ _ _ _ _ hcontrol
    rw [List.flatMap_singleton]
    exact .of_plain fun b hb => isPlain_of_mem hquote hslash hcontrol hb

/-- A string is written between quotes so that it is read back. -/
theorem spells_writeString (s : String) :
    ∃ body, Text.encode (writeString s) = byte '"' :: (body ++ [byte '"']) ∧ Spells body s := by
  refine ⟨(s.toList.flatMap escapeChar).flatMap String.utf8EncodeChar, ?_, ?_⟩
  · rw [writeString, Text.encode_ofList, List.flatMap_append, List.flatMap_cons]
    rfl
  · rw [Spells, Text.encode_eq]
    induction s.toList with
    | nil => exact .nil
    | cons c rest ih =>
      rw [List.flatMap_cons, List.flatMap_append, List.flatMap_cons]
      exact (spells_escapeChar c).append ih

/-! ## Numbers -/

theorem encode_word {cs : List Char} (h : cs.all fun c => c.toNat < 128) :
    Text.encode (String.ofList cs) = word cs := by
  rw [Text.encode_ofList]
  induction cs with
  | nil => rfl
  | cons c rest ih =>
    rw [List.all_cons, Bool.and_eq_true, decide_eq_true_eq] at h
    rw [List.flatMap_cons, Text.utf8EncodeChar_of_lt h.1, ih h.2]
    rfl

theorem toNat_byte {c : Char} (h : c.toNat < 256) : (byte c).toNat = c.toNat := by
  rw [byte, UInt8.toNat_ofNat', Nat.mod_eq_of_lt h]

theorem isDigit_byte {c : Char} (h : '0' ≤ c ∧ c ≤ '9') : isDigit (byte c) := by
  have hlow : 48 ≤ c.toNat := h.1
  have hhigh : c.toNat ≤ 57 := h.2
  have hbyte := toNat_byte (c := c) (by omega)
  rw [isDigit, Bool.and_eq_true, decide_eq_true_eq, decide_eq_true_eq, UInt8.le_iff_toNat_le,
    UInt8.le_iff_toNat_le, hbyte]
  exact ⟨hlow, hhigh⟩

/-- The digits of a number are written without a zero in front. -/
theorem isWhole_digits (n : Nat) : IsWhole (word (Decimal.digits n)) := by
  obtain ⟨hne, hdigits⟩ := Decimal.areDigits_digits n
  rcases Nat.eq_zero_or_pos n with rfl | hn
  · exact .zero
  · obtain ⟨c, rest, hcs⟩ := List.exists_cons_of_ne_nil hne
    have hhead := Decimal.head?_digits_ne (Nat.ne_of_gt hn)
    rw [hcs] at hdigits hhead ⊢
    obtain ⟨hc, hrest⟩ := List.forall_mem_cons.mp hdigits
    refine .digits (isDigit_byte hc) (fun hzero => hhead ?_) fun b hb => ?_
    · have hhigh : c.toNat ≤ 57 := hc.2
      have hnat := congrArg UInt8.toNat hzero
      rw [toNat_byte (by omega)] at hnat
      rw [List.head?_cons, ← Char.ofNat_toNat c, hnat]
      rfl
    · obtain ⟨d, hd, rfl⟩ := List.mem_map.mp hb
      exact isDigit_byte (hrest d hd)

/-- An integer is written in ASCII. -/
theorem encode_ofInt (n : Int) : Text.encode (Decimal.ofInt n) = word (Decimal.charsOfInt n) := by
  refine encode_word (List.all_eq_true.mpr fun c hc => decide_eq_true ?_)
  have hdigit : ∀ {m : Nat}, c ∈ Decimal.digits m → c.toNat < 128 := by
    intro m hm
    have hhigh : c.toNat ≤ 57 := ((Decimal.areDigits_digits m).2 c hm).2
    omega
  cases n with
  | ofNat n => exact hdigit hc
  | negSucc n =>
    rcases List.mem_cons.mp hc with rfl | hc
    · decide
    · exact hdigit hc

/-! ## Values -/

/-- A value is written as a JSON text. -/
def Value.IsWritten (v : Value) : Prop := IsValue (Text.encode v.compact)

namespace Value

theorem isWritten_bool (b : Bool) : (bool b).IsWritten := by
  cases b with
  | false =>
    show IsValue (Text.encode (String.ofList ['f', 'a', 'l', 's', 'e']))
    rw [encode_word (by decide)]
    exact .scalar .no
  | true =>
    show IsValue (Text.encode (String.ofList ['t', 'r', 'u', 'e']))
    rw [encode_word (by decide)]
    exact .scalar .yes

theorem isWritten_int (n : Int) : (int n).IsWritten := by
  show IsValue (Text.encode (Decimal.ofInt n))
  rw [encode_ofInt]
  cases n with
  | ofNat n => exact .scalar (.positive (isWhole_digits n).isUnsigned)
  | negSucc n => exact .scalar (.negative (isWhole_digits (n + 1)).isUnsigned)

theorem isWritten_string (s : String) : (string s).IsWritten := by
  obtain ⟨body, hwritten, hspells⟩ := spells_writeString s
  show IsValue (Text.encode (writeString s))
  rw [hwritten]
  exact .scalar (.string hspells.isStringBody)

/-- The names of the members of an object, with the texts in which their values are written. -/
def writtenMembers (members : List (String × Value)) : List (String × List UInt8) :=
  members.map fun m => (m.1, Text.encode m.2.compact)

@[simp]
theorem writtenMembers_cons (m : String × Value) (rest : List (String × Value)) :
    writtenMembers (m :: rest) = (m.1, Text.encode m.2.compact) :: writtenMembers rest := rfl

theorem compactMembers_cons (m : String × Value) (rest : List (String × Value)) :
    compactMembers (m :: rest) =
      (writeString m.1 ++ ":" ++ m.2.compact) :: compactMembers rest := by
  rw [compactMembers]

theorem encode_comma : Text.encode "," = [byte ','] := @encode_word [','] (by decide)

theorem encode_colon : Text.encode ":" = [byte ':'] := @encode_word [':'] (by decide)

theorem encode_intercalate (s : String) (rest : List String) :
    Text.encode (",".intercalate (s :: rest)) =
      Text.encode s ++ rest.flatMap fun t => byte ',' :: Text.encode t := by
  induction rest generalizing s with
  | nil => rw [String.intercalate_singleton, List.flatMap_nil, List.append_nil]
  | cons t rest ih =>
    rw [String.intercalate_cons_cons, Text.encode_append, Text.encode_append, ih,
      List.flatMap_cons, List.append_assoc, encode_comma]
    rfl

theorem isMembers_cons (name : String) {first : Bool} {separator value text : List UInt8}
    {members : List (String × List UInt8)} (hseparator : IsSeparator first separator)
    (hvalue : IsValue value) (hrest : IsMembers false members text) :
    IsMembers first ((name, value) :: members)
      (separator ++ (Text.encode (writeString name) ++ byte ':' :: (value ++ text))) := by
  obtain ⟨body, hwritten, hspells⟩ := spells_writeString name
  have hnext := IsMembers.next hseparator hspells areBlanks_nil areBlanks_nil hvalue hrest
  rw [hwritten]
  simpa using hnext

theorem encode_member (m : String × Value) :
    Text.encode (writeString m.1 ++ ":" ++ m.2.compact) =
      Text.encode (writeString m.1) ++ byte ':' :: Text.encode m.2.compact := by
  rw [Text.encode_append, Text.encode_append, List.append_assoc, encode_colon]
  rfl

/-- Behind the first member of an object every other one stands behind a comma. -/
theorem isMembers_flatMap {members : List (String × Value)} (h : ∀ m ∈ members, m.2.IsWritten) :
    IsMembers false (writtenMembers members)
      ((compactMembers members).flatMap (fun t => byte ',' :: Text.encode t) ++ [byte '\x7d']) := by
  induction members with
  | nil => exact .close areBlanks_nil
  | cons m rest ih =>
    have hrest := ih fun m' hm' => h m' (List.mem_cons_of_mem m hm')
    have hnext := isMembers_cons m.1 (.later areBlanks_nil areBlanks_nil)
      (h m List.mem_cons_self) hrest
    rw [compactMembers_cons, List.flatMap_cons, encode_member]
    simpa using hnext

/-- An object is written with the names and the written values of its members. -/
theorem isObject_compact {members : List (String × Value)} (h : ∀ m ∈ members, m.2.IsWritten) :
    IsObject (writtenMembers members) (Text.encode (object members).compact) := by
  have hopening : Text.encode "\x7b" = [byte '\x7b'] := @encode_word ['\x7b'] (by decide)
  have hclosing : Text.encode "\x7d" = [byte '\x7d'] := @encode_word ['\x7d'] (by decide)
  rw [compact, Text.encode_append, Text.encode_append, List.append_assoc, hopening, hclosing]
  cases members with
  | nil =>
    have hnothing : Text.encode "" = [] := @encode_word [] (by decide)
    rw [compactMembers, String.intercalate_nil, hnothing]
    exact .mk (.close areBlanks_nil)
  | cons m rest =>
    have hrest := isMembers_flatMap fun m' hm' => h m' (List.mem_cons_of_mem m hm')
    have hfirst := isMembers_cons m.1 (.first areBlanks_nil) (h m List.mem_cons_self) hrest
    rw [compactMembers_cons, encode_intercalate, encode_member]
    refine .mk ?_
    simpa using hfirst

/-- What is in a member is there under its name. -/
theorem isAt_object {members : List (String × Value)} (h : ∀ m ∈ members, m.2.IsWritten)
    {name : String} {v : Value} (honly : members.filter (·.1 = name) = [(name, v)])
    {path : List String} {value : List UInt8} (hat : IsAt path value (Text.encode v.compact)) :
    IsAt (name :: path) value (Text.encode (object members).compact) := by
  refine .under (isObject_compact h) ?_ hat
  rw [writtenMembers, List.filter_map]
  show (members.filter (·.1 = name)).map _ = _
  rw [honly]
  rfl

theorem isWritten_object {members : List (String × Value)} (h : ∀ m ∈ members, m.2.IsWritten) :
    (object members).IsWritten :=
  (isObject_compact h).isValue

/-! ## Maps -/

section

variable {κ α : Type} [Ord κ] [Std.LawfulEqOrd κ] {m : SortedMap κ α} {key : κ → String}
  {value : α → Value}

theorem isWritten_ofMap_members (h : ∀ k a, m.get? k = some a → (value a).IsWritten) :
    ∀ member ∈ m.entries.map fun (k, v) => (key k, value v), member.2.IsWritten := by
  intro member hmember
  obtain ⟨⟨k, a⟩, hentry, rfl⟩ := List.mem_map.mp hmember
  exact h k a (SortedMap.get?_eq_some_iff.mpr hentry)

theorem isWritten_ofMap (h : ∀ k a, m.get? k = some a → (value a).IsWritten) :
    (ofMap key value m).IsWritten :=
  isWritten_object (isWritten_ofMap_members h)

/-- What a map has for a key is written under the key. -/
theorem isAt_ofMap [DecidableEq κ] (h : ∀ k a, m.get? k = some a → (value a).IsWritten)
    (hkey : Function.Injective key) {k : κ} {a : α} (hget : m.get? k = some a)
    {path : List String} {text : List UInt8}
    (hat : IsAt path text (Text.encode (value a).compact)) :
    IsAt (key k :: path) text (Text.encode (ofMap key value m).compact) := by
  refine isAt_object (isWritten_ofMap_members h) ?_ hat
  rw [List.filter_map]
  show (m.entries.filter fun e => decide (key e.1 = key k)).map _ = _
  simp only [hkey.eq_iff]
  rw [SortedMap.filter_entries_eq hget]
  rfl

end

end Value

end Bulletin.Json
