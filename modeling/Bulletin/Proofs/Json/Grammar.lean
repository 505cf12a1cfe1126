import Bulletin.Json.Reader

/-!
# JSON texts

What bytes are JSON, said without reading them. A value is a word, a number, a string, or a list or
object of values, nested as deep as may be; blanks may stand around the parts of lists and objects:

    IsValue         : bytes that are a value
    Spells          : what stands between the quotes of a string, and the bytes it stands for
    IsObject, IsList: the values in a text, and their names

A name can stand in an object more than once. Then its last value counts (`lastOf?`).
-/

namespace Bulletin.Json

open Reader (byte isBlank isDigit hexValue? shortEscape?)

/-- White space and nothing else. -/
def AreBlanks (bs : List UInt8) : Prop := ∀ b ∈ bs, isBlank b

theorem areBlanks_nil : AreBlanks [] := fun _ h => absurd h List.not_mem_nil

theorem AreBlanks.append {bs bs' : List UInt8} (h : AreBlanks bs) (h' : AreBlanks bs') :
    AreBlanks (bs ++ bs') := fun b hb => (List.mem_append.mp hb).elim (h b) (h' b)

/-- The bytes of a word. -/
def word (cs : List Char) : List UInt8 := cs.map byte

/-! ## Numbers -/

/-- Digits, one or more. -/
def AreDigits (bs : List UInt8) : Prop := bs ≠ [] ∧ ∀ b ∈ bs, isDigit b

/-- What is before the point of a number. No zero stands in front of other digits. -/
inductive IsWhole : List UInt8 → Prop where
  | zero : IsWhole [byte '0']
  | digits {d : UInt8} {rest : List UInt8} (hdigit : isDigit d) (hne : d ≠ byte '0')
      (hrest : ∀ b ∈ rest, isDigit b) : IsWhole (d :: rest)

/-- The point of a number and what is behind it, or nothing. -/
inductive IsFraction : List UInt8 → Prop where
  | none : IsFraction []
  | digits {ds : List UInt8} (h : AreDigits ds) : IsFraction (byte '.' :: ds)

/-- The exponent of a number, or nothing. -/
inductive IsExponent : List UInt8 → Prop where
  | none : IsExponent []
  | digits {mark : UInt8} {sign ds : List UInt8} (hmark : mark = byte 'e' ∨ mark = byte 'E')
      (hsign : sign = [] ∨ sign = [byte '+'] ∨ sign = [byte '-']) (h : AreDigits ds) :
      IsExponent (mark :: (sign ++ ds))

/-- A number without a sign. -/
inductive IsUnsigned : List UInt8 → Prop where
  | mk {whole fraction exponent : List UInt8} (hwhole : IsWhole whole)
      (hfraction : IsFraction fraction) (hexponent : IsExponent exponent) :
      IsUnsigned (whole ++ (fraction ++ exponent))

theorem IsWhole.isUnsigned {bs : List UInt8} (h : IsWhole bs) : IsUnsigned bs := by
  have hmk : IsUnsigned (bs ++ ([] ++ [])) := .mk h .none .none
  simpa using hmk

/-! ## Strings -/

/-- The number in four hexadecimal digits. -/
def HexNumber (a b c d : UInt8) (n : Nat) : Prop :=
  ∃ i j k l, hexValue? a = some i ∧ hexValue? b = some j ∧ hexValue? c = some k ∧
    hexValue? d = some l ∧ n = ((i * 16 + j) * 16 + k) * 16 + l

/-- Whether a byte stands for itself between quotes. -/
def IsPlain (b : UInt8) : Prop := b ≠ byte '"' ∧ b ≠ byte '\\' ∧ ¬ b < 32

/-- What has the shape of a string between its quotes, whatever it stands for. -/
inductive IsStringBody : List UInt8 → Prop where
  | nil : IsStringBody []
  | plain {b : UInt8} {rest : List UInt8} (hplain : IsPlain b) (hrest : IsStringBody rest) :
      IsStringBody (b :: rest)
  | short {c : UInt8} {rest : List UInt8} (hc : (shortEscape? c).isSome)
      (hrest : IsStringBody rest) : IsStringBody (byte '\\' :: c :: rest)
  | unicode {a b c d : UInt8} {n : Nat} {rest : List UInt8} (hn : HexNumber a b c d n)
      (hrest : IsStringBody rest) :
      IsStringBody (byte '\\' :: byte 'u' :: a :: b :: c :: d :: rest)

/-- What stands between the quotes of a string, and the bytes that it stands for. A character
beyond the first plane is written as two escapes, or as it is. -/
inductive SpellsBytes : List UInt8 → List UInt8 → Prop where
  | nil : SpellsBytes [] []
  | plain {b : UInt8} {rest bytes : List UInt8} (hplain : IsPlain b)
      (hrest : SpellsBytes rest bytes) : SpellsBytes (b :: rest) (b :: bytes)
  | short {b c : UInt8} {rest bytes : List UInt8} (hc : shortEscape? c = some b)
      (hrest : SpellsBytes rest bytes) : SpellsBytes (byte '\\' :: c :: rest) (b :: bytes)
  | unicode {a b c d : UInt8} {n : Nat} {rest bytes : List UInt8} (hn : HexNumber a b c d n)
      (hwhole : n < 0xD800 ∨ 0xDFFF < n) (hrest : SpellsBytes rest bytes) :
      SpellsBytes (byte '\\' :: byte 'u' :: a :: b :: c :: d :: rest) (Reader.encode n ++ bytes)
  | pair {a b c d a' b' c' d' : UInt8} {n m : Nat} {rest bytes : List UInt8}
      (hn : HexNumber a b c d n) (hhigh : 0xD800 ≤ n ∧ n ≤ 0xDBFF) (hm : HexNumber a' b' c' d' m)
      (hlow : 0xDC00 ≤ m ∧ m ≤ 0xDFFF) (hrest : SpellsBytes rest bytes) :
      SpellsBytes
        (byte '\\' :: byte 'u' :: a :: b :: c :: d ::
          byte '\\' :: byte 'u' :: a' :: b' :: c' :: d' :: rest)
        (Reader.encode (0x10000 + (n - 0xD800) * 0x400 + (m - 0xDC00)) ++ bytes)

/-- What stands between the quotes of a string spells a text. -/
def Spells (body : List UInt8) (s : String) : Prop := SpellsBytes body (Text.encode s)

theorem SpellsBytes.isStringBody {body bytes : List UInt8} (h : SpellsBytes body bytes) :
    IsStringBody body := by
  induction h with
  | nil => exact .nil
  | plain hplain _ ih => exact .plain hplain ih
  | short hc _ ih => exact .short (by rw [hc]; rfl) ih
  | unicode hn _ _ ih => exact .unicode hn ih
  | pair hn _ hm _ _ ih => exact .unicode hn (.unicode hm ih)

/-! ## Values -/

/-- A value that is no list and no object. -/
inductive IsScalar : List UInt8 → Prop where
  | null : IsScalar (word ['n', 'u', 'l', 'l'])
  | yes : IsScalar (word ['t', 'r', 'u', 'e'])
  | no : IsScalar (word ['f', 'a', 'l', 's', 'e'])
  | positive {bs : List UInt8} (h : IsUnsigned bs) : IsScalar bs
  | negative {bs : List UInt8} (h : IsUnsigned bs) : IsScalar (byte '-' :: bs)
  | string {body : List UInt8} (h : IsStringBody body) :
      IsScalar (byte '"' :: (body ++ [byte '"']))

namespace Reader.Frame

/-- The bracket that opens a frame. -/
def opening : Frame → UInt8
  | list => byte '['
  | object => byte '\x7b'

/-- The bracket that closes a frame. -/
def closing : Frame → UInt8
  | list => byte ']'
  | object => byte '\x7d'

end Reader.Frame

open Reader (Frame)

/-- What may stand in front of a value inside a frame: blanks, and in an object a name. -/
inductive IsLead : Frame → List UInt8 → Prop where
  | list {blanks : List UInt8} (h : AreBlanks blanks) : IsLead .list blanks
  | object {blanks body blanks' blanks'' : List UInt8} (h : AreBlanks blanks)
      (hbody : IsStringBody body) (h' : AreBlanks blanks') (h'' : AreBlanks blanks'') :
      IsLead .object
        (blanks ++ (byte '"' :: (body ++ byte '"' :: (blanks' ++ byte ':' :: blanks''))))

theorem IsLead.blanks_append {frame : Frame} {blanks lead : List UInt8} (hblanks : AreBlanks blanks)
    (h : IsLead frame lead) : IsLead frame (blanks ++ lead) := by
  cases h with
  | list h => exact .list (hblanks.append h)
  | object h hbody h' h'' =>
    rw [← List.append_assoc]
    exact .object (hblanks.append h) hbody h' h''

theorem IsLead.append_blanks {frame : Frame} {blanks lead : List UInt8} (hblanks : AreBlanks blanks)
    (h : IsLead frame lead) : IsLead frame (lead ++ blanks) := by
  cases h with
  | list h => exact .list (h.append hblanks)
  | object h hbody h' h'' =>
    have hmore := IsLead.object h hbody h' (h''.append hblanks)
    simpa using hmore

mutual

/-- A value. -/
inductive IsValue : List UInt8 → Prop where
  | scalar {text : List UInt8} (h : IsScalar text) : IsValue text
  | empty {blanks : List UInt8} (frame : Frame) (h : AreBlanks blanks) :
      IsValue (frame.opening :: (blanks ++ [frame.closing]))
  | filled {frame : Frame} {lead value tail : List UInt8} (hlead : IsLead frame lead)
      (hvalue : IsValue value) (htail : IsTail frame tail) :
      IsValue (frame.opening :: (lead ++ (value ++ tail)))

/-- What stands behind a value inside a frame, with the bracket that closes it. -/
inductive IsTail : Frame → List UInt8 → Prop where
  | close {blanks : List UInt8} (frame : Frame) (h : AreBlanks blanks) :
      IsTail frame (blanks ++ [frame.closing])
  | next {frame : Frame} {blanks lead value tail : List UInt8} (h : AreBlanks blanks)
      (hlead : IsLead frame lead) (hvalue : IsValue value) (htail : IsTail frame tail) :
      IsTail frame (blanks ++ byte ',' :: (lead ++ (value ++ tail)))

end

/-! ## What is in objects and lists -/

/-- What stands in front of the first part of a list or object, or of a later one. -/
inductive IsSeparator : Bool → List UInt8 → Prop where
  | first {blanks : List UInt8} (h : AreBlanks blanks) : IsSeparator true blanks
  | later {blanks blanks' : List UInt8} (h : AreBlanks blanks) (h' : AreBlanks blanks') :
      IsSeparator false (blanks ++ byte ',' :: blanks')

/-- The names and values of members, up to the bracket that closes their object. -/
inductive IsMembers : Bool → List (String × List UInt8) → List UInt8 → Prop where
  | close {first : Bool} {blanks : List UInt8} (h : AreBlanks blanks) :
      IsMembers first [] (blanks ++ [byte '\x7d'])
  | next {first : Bool} {separator body blanks blanks' value text : List UInt8} {name : String}
      {members : List (String × List UInt8)} (hseparator : IsSeparator first separator)
      (hname : Spells body name) (h : AreBlanks blanks) (h' : AreBlanks blanks')
      (hvalue : IsValue value) (hrest : IsMembers false members text) :
      IsMembers first ((name, value) :: members)
        (separator ++ byte '"' :: (body ++ byte '"' :: (blanks ++ byte ':' :: (blanks' ++
          (value ++ text)))))

/-- An object with the names and values of its members. -/
inductive IsObject : List (String × List UInt8) → List UInt8 → Prop where
  | mk {members : List (String × List UInt8)} {text : List UInt8}
      (h : IsMembers true members text) : IsObject members (byte '\x7b' :: text)

/-- The elements of a list, up to the bracket that closes it. -/
inductive IsElements : Bool → List (List UInt8) → List UInt8 → Prop where
  | close {first : Bool} {blanks : List UInt8} (h : AreBlanks blanks) :
      IsElements first [] (blanks ++ [byte ']'])
  | next {first : Bool} {separator value text : List UInt8} {values : List (List UInt8)}
      (hseparator : IsSeparator first separator) (hvalue : IsValue value)
      (hrest : IsElements false values text) :
      IsElements first (value :: values) (separator ++ (value ++ text))

/-- A list with its elements. -/
inductive IsList : List (List UInt8) → List UInt8 → Prop where
  | mk {values : List (List UInt8)} {text : List UInt8} (h : IsElements true values text) :
      IsList values (byte '[' :: text)

/-- The value of a name that counts. -/
def lastOf? (name : String) (members : List (String × List UInt8)) : Option (List UInt8) :=
  members.reverse.lookup name

theorem lastOf?_cons (name name' : String) (value : List UInt8)
    (members : List (String × List UInt8)) :
    lastOf? name ((name', value) :: members) =
      (lastOf? name members).or (if name = name' then some value else none) := by
  rw [lastOf?, lastOf?, List.reverse_cons, List.lookup_append]
  congr 1
  by_cases h : name = name'
  · rw [h, List.lookup_cons_self, if_pos rfl]
  · rw [List.lookup_cons, beq_eq_false_iff_ne.mpr h, if_neg h]
    rfl

theorem lastOf?_filter (name : String) (members : List (String × List UInt8)) :
    lastOf? name (members.filter (·.1 = name)) = lastOf? name members := by
  induction members with
  | nil => rfl
  | cons m rest ih =>
    obtain ⟨name', value⟩ := m
    rw [lastOf?_cons]
    by_cases h : name' = name
    · rw [List.filter_cons_of_pos (by simpa using h), lastOf?_cons, ih]
    · rw [List.filter_cons_of_neg (by simpa using h), ih, if_neg (Ne.symm h), Option.or_none]

theorem mem_of_lastOf? {name : String} {members : List (String × List UInt8)} {value : List UInt8}
    (h : lastOf? name members = some value) : (name, value) ∈ members := by
  obtain ⟨behind, before, hsplit, -⟩ := List.lookup_eq_some_iff.mp h
  rw [← List.mem_reverse, hsplit]
  exact List.mem_append_right behind List.mem_cons_self

/-- Where a value stands in a text: under names, one inside the other, each of which is given once
only. -/
inductive IsAt : List String → List UInt8 → List UInt8 → Prop where
  | here {value : List UInt8} : IsAt [] value value
  | under {name : String} {path : List String} {members : List (String × List UInt8)}
      {inner value text : List UInt8} (hobject : IsObject members text)
      (honly : members.filter (·.1 = name) = [(name, inner)]) (h : IsAt path value inner) :
      IsAt (name :: path) value text

theorem IsMembers.isValue_of_mem {first : Bool} {members : List (String × List UInt8)}
    {text : List UInt8} (h : IsMembers first members text) :
    ∀ member ∈ members, IsValue member.2 := by
  induction h with
  | close => exact fun member hmember => absurd hmember List.not_mem_nil
  | next _ _ _ _ hvalue _ ih => exact List.forall_mem_cons.mpr ⟨hvalue, ih⟩

theorem IsMembers.isTail {members : List (String × List UInt8)} {text : List UInt8}
    (h : IsMembers false members text) : IsTail .object text := by
  induction members generalizing text with
  | nil =>
    cases h with
    | close h => exact .close .object h
  | cons member rest ih =>
    cases h with
    | next hseparator hname h h' hvalue hrest =>
      cases hseparator with
      | later hblanks hblanks' =>
        have hlead := IsLead.object hblanks' hname.isStringBody h h'
        have hnext := IsTail.next hblanks hlead hvalue (ih hrest)
        simpa using hnext

/-- An object is a value. -/
theorem IsObject.isValue {members : List (String × List UInt8)} {text : List UInt8}
    (h : IsObject members text) : IsValue text := by
  obtain ⟨h⟩ := h
  cases h with
  | close h => exact .empty .object h
  | next hseparator hname h h' hvalue hrest =>
    cases hseparator with
    | first hblanks =>
      have hlead := IsLead.object hblanks hname.isStringBody h h'
      have hfilled := IsValue.filled hlead hvalue hrest.isTail
      simpa [Frame.opening] using hfilled

end Bulletin.Json
