import Bulletin.Proofs.Json.Integers

/-!
# Values of a wanted kind are read

No value of the kind that is wanted is refused. A string is read as what it spells, a list element
by element, and an object member by member, whatever blanks stand between the parts:

    string_complete   : a string
    integer_complete  : an integer
    elements_complete : the elements of a list
    members_complete  : the members of an object
    run_complete      : all bytes, if nothing but blanks is left of them
-/

namespace Bulletin.Json.Reader

variable {α β : Type} {s t : List UInt8}

/-! ## Strings -/

theorem pairByte_complete (c : Char) (t : List UInt8) : pairByte c (byte c :: t) = .ok () t := by
  refine bind_eq_ok.mpr ⟨some (byte c), _, rfl, bind_eq_ok.mpr ⟨(), t, rfl, ?_⟩⟩
  rw [bne_self_eq_false, if_neg Bool.false_ne_true]
  rfl

theorem unicodeEscape_whole {a b c d : UInt8} {n : Nat} (h : HexNumber a b c d n)
    (hwhole : n < 0xD800 ∨ 0xDFFF < n) :
    unicodeEscape (a :: b :: c :: d :: t) = .ok (encode n) t := by
  refine bind_eq_ok.mpr ⟨n, t, hexEscape_complete h, ?_⟩
  rw [if_neg (by simp only [Bool.and_eq_true, decide_eq_true_eq]; omega),
    if_pos (by simp only [Bool.or_eq_true, decide_eq_true_eq]; omega)]
  rfl

theorem unicodeEscape_pair {a b c d a' b' c' d' : UInt8} {n m : Nat} (h : HexNumber a b c d n)
    (hhigh : 0xD800 ≤ n ∧ n ≤ 0xDBFF) (h' : HexNumber a' b' c' d' m)
    (hlow : 0xDC00 ≤ m ∧ m ≤ 0xDFFF) :
    unicodeEscape
        (a :: b :: c :: d :: byte '\\' :: byte 'u' :: a' :: b' :: c' :: d' :: t) =
      .ok (encode (0x10000 + (n - 0xD800) * 0x400 + (m - 0xDC00))) t := by
  refine bind_eq_ok.mpr ⟨n, _, hexEscape_complete h, ?_⟩
  rw [if_neg (by simp only [Bool.and_eq_true, decide_eq_true_eq]; omega),
    if_neg (by simp only [Bool.or_eq_true, decide_eq_true_eq]; omega)]
  refine bind_eq_ok.mpr ⟨(), _, pairByte_complete '\\' _, ?_⟩
  refine bind_eq_ok.mpr ⟨(), _, pairByte_complete 'u' _, ?_⟩
  refine bind_eq_ok.mpr ⟨m, t, hexEscape_complete h', ?_⟩
  rw [if_neg (by simp only [Bool.or_eq_true, decide_eq_true_eq]; omega)]
  rfl

theorem escape_short {b c : UInt8} (h : shortEscape? c = some b) :
    escape (c :: t) = .ok [b] t := by
  have hu : c ≠ byte 'u' := by
    rintro rfl
    cases h
  refine bind_eq_ok.mpr ⟨some c, t, rfl, ?_⟩
  dsimp only
  rw [if_neg (by simpa using hu), h]
  rfl

/-- One escape, and then the rest of a string. -/
theorem stringBytes_escape {fuel : Nat} {read : ByteArray} {more : List UInt8}
    (text : List UInt8) (h : escape (text ++ s) = .ok more s) :
    stringBytes (fuel + 1) read (byte '\\' :: (text ++ s)) =
      stringBytes fuel (more.foldl ByteArray.push read) s :=
  bind_eq_of_ok h

/-- What a string spells is put behind what has been read. -/
theorem stringBytes_complete {fuel : Nat} {read : ByteArray} {body bytes : List UInt8}
    (h : SpellsBytes body bytes) (hfuel : body.length < fuel) :
    ∃ bytes', stringBytes fuel read (body ++ byte '"' :: t) = .ok bytes' t ∧
      bytes'.data.toList = read.data.toList ++ bytes := by
  induction h generalizing fuel read with
  | nil =>
    obtain ⟨fuel, rfl⟩ := Nat.exists_eq_add_one_of_ne_zero (Nat.ne_zero_of_lt hfuel)
    exact ⟨read, rfl, (List.append_nil _).symm⟩
  | @plain b rest bytes hplain _ ih =>
    obtain ⟨fuel, rfl⟩ := Nat.exists_eq_add_one_of_ne_zero (Nat.ne_zero_of_lt hfuel)
    obtain ⟨hquote, hback, hlow⟩ := hplain
    obtain ⟨bytes', hread, hbytes⟩ := @ih fuel (read.push b) (Nat.lt_of_succ_lt_succ hfuel)
    refine ⟨bytes', ?_, ?_⟩
    · rw [stringBytes]
      refine bind_eq_ok.mpr ⟨some b, _, rfl, ?_⟩
      dsimp only
      rw [if_neg (by simpa using hquote), if_neg (by simpa using hback), if_neg hlow]
      exact hread
    · rw [hbytes, ByteArray.data_push, Array.toList_push, List.append_assoc]
      rfl
  | @short b c rest bytes hc _ ih =>
    obtain ⟨fuel, rfl⟩ := Nat.exists_eq_add_one_of_ne_zero (Nat.ne_zero_of_lt hfuel)
    simp only [List.length_cons] at hfuel
    obtain ⟨bytes', hread, hbytes⟩ := @ih fuel ([b].foldl ByteArray.push read) (by omega)
    refine ⟨bytes', (stringBytes_escape [c] (escape_short hc)).trans hread, ?_⟩
    rw [hbytes, data_foldl_push, List.append_assoc]
    rfl
  | @unicode a b c d n rest bytes hn hwhole _ ih =>
    obtain ⟨fuel, rfl⟩ := Nat.exists_eq_add_one_of_ne_zero (Nat.ne_zero_of_lt hfuel)
    simp only [List.length_cons] at hfuel
    obtain ⟨bytes', hread, hbytes⟩ :=
      @ih fuel ((Reader.encode n).foldl ByteArray.push read) (by omega)
    have hescape : escape (byte 'u' :: a :: b :: c :: d :: (rest ++ byte '"' :: t)) =
        .ok (Reader.encode n) (rest ++ byte '"' :: t) := unicodeEscape_whole hn hwhole
    refine ⟨bytes', (stringBytes_escape [byte 'u', a, b, c, d] hescape).trans hread, ?_⟩
    rw [hbytes, data_foldl_push, List.append_assoc]
  | @pair a b c d a' b' c' d' n m rest bytes hn hhigh hm hlow _ ih =>
    obtain ⟨fuel, rfl⟩ := Nat.exists_eq_add_one_of_ne_zero (Nat.ne_zero_of_lt hfuel)
    simp only [List.length_cons] at hfuel
    obtain ⟨bytes', hread, hbytes⟩ :=
      @ih fuel ((Reader.encode (0x10000 + (n - 0xD800) * 0x400 + (m - 0xDC00))).foldl
        ByteArray.push read) (by omega)
    have hescape : escape (byte 'u' :: a :: b :: c :: d :: byte '\\' :: byte 'u' :: a' :: b' ::
        c' :: d' :: (rest ++ byte '"' :: t)) = .ok _ (rest ++ byte '"' :: t) :=
      unicodeEscape_pair hn hhigh hm hlow
    refine ⟨bytes', (stringBytes_escape
      [byte 'u', a, b, c, d, byte '\\', byte 'u', a', b', c', d'] hescape).trans hread, ?_⟩
    rw [hbytes, data_foldl_push, List.append_assoc]

/-- A string is read as what it spells. -/
theorem string_complete {body : List UInt8} {text : String} (h : Spells body text) :
    string (body ++ byte '"' :: t) = .ok text t := by
  have hfuel : body.length < (body ++ byte '"' :: t).length + 1 := by
    rw [List.length_append]
    omega
  obtain ⟨bytes, hread, hbytes⟩ := @stringBytes_complete t _ ByteArray.empty _ _ h hfuel
  have hutf8 : String.fromUTF8? bytes = some text := by
    rw [← Text.fromUTF8?_eq_some_iff.mpr (hbytes.trans rfl).symm, Array.toArray_toList]
  refine bind_eq_ok.mpr ⟨_, _, rfl, bind_eq_ok.mpr ⟨bytes, t, hread, ?_⟩⟩
  rw [hutf8]
  rfl

/-! ## Values behind blanks -/

/-- A reader reads every text of a kind behind blanks, if it does not go on like a number. -/
def Takes (value : Reader α) (R : List UInt8 → α → Prop) : Prop :=
  ∀ blanks text a t, AreBlanks blanks → R text a → Stops isNumeral t →
    value (blanks ++ (text ++ t)) = .ok a t

theorem valueStart_eq {f : UInt8 → Reader β} {blanks : List UInt8} {c : UInt8}
    (h : AreBlanks blanks) (hc : isBlank c = false) :
    (valueStart >>= f) (blanks ++ c :: s) = f c (c :: s) := by
  unfold valueStart
  rw [bind_assoc, peekPastBlanks_eq h hc]
  rfl

theorem integerBehind_complete {negative : Bool} {m : Nat} {i : Int64}
    (h : IsSigned negative m i.toInt) (ht : Stops isNumeral t) :
    integerBehind negative (word (Decimal.digits m) ++ t) = .ok i t := by
  refine bind_eq_ok.mpr ⟨_, t, number_complete h ht, ?_⟩
  dsimp only
  rw [Decimal.fit?_toInt]
  rfl

/-- What is written for an integer is read. -/
theorem integer_complete :
    Takes integer fun text i => text = Text.encode (Decimal.ofInt64 i) := by
  rintro blanks _ i t hblanks rfl ht
  rw [Decimal.ofInt64, encode_ofInt]
  cases hi : i.toInt with
  | ofNat m =>
    have hsigned : IsSigned false m i.toInt := hi
    obtain ⟨d, rest, hfirst, hd⟩ := (isWhole_digits m).isUnsigned.exists_digit
    have hread := integerBehind_complete hsigned ht
    show integer (blanks ++ (word (Decimal.digits m) ++ t)) = _
    rw [hfirst] at hread ⊢
    have hblank := isBlank_of_isNumeral (isNumeral_of_isDigit hd)
    rw [integer, List.cons_append, valueStart_eq hblanks hblank]
    have hminus : (d == byte '-') = false := by
      rw [beq_eq_false_iff_ne]
      rintro rfl
      cases hd
    rw [hminus, if_neg Bool.false_ne_true, if_pos hd]
    exact hread
  | negSucc m =>
    have hsigned : IsSigned true (m + 1) i.toInt := ⟨Nat.succ_ne_zero m, hi⟩
    show integer (blanks ++ byte '-' :: (word (Decimal.digits (m + 1)) ++ t)) = _
    rw [integer, valueStart_eq hblanks (by decide), if_pos (by rfl)]
    exact integerBehind_complete hsigned ht

/-! ## Lists -/

theorem hasElement_closing (first : Bool) {blanks : List UInt8} (h : AreBlanks blanks)
    (t : List UInt8) : hasElement first (blanks ++ byte ']' :: t) = .ok false (byte ']' :: t) := by
  rw [hasElement, peekPastBlanks_eq h (by decide)]
  rfl

theorem hasElement_next {first : Bool} {separator : List UInt8} {c : UInt8}
    (h : IsSeparator first separator) (hc : isBlank c = false) (hne : c ≠ byte ']') :
    hasElement first (separator ++ c :: s) = .ok true (c :: s) := by
  have hclosing : (c == byte ']') = false := beq_eq_false_iff_ne.mpr hne
  cases h with
  | first hblanks =>
    rw [hasElement, peekPastBlanks_eq hblanks hc]
    dsimp only
    rw [hclosing, if_neg Bool.false_ne_true, Bool.not_true, Bool.and_false,
      if_neg Bool.false_ne_true, if_pos rfl]
    rfl
  | @later blanks blanks' hblanks hblanks' =>
    rw [hasElement, List.append_assoc, List.cons_append, peekPastBlanks_eq hblanks (by decide)]
    refine bind_eq_ok.mpr ⟨(), blanks' ++ c :: s, rfl, ?_⟩
    rw [peekPastBlanks_eq hblanks' hc]
    dsimp only
    rw [hclosing, if_neg Bool.false_ne_true]
    rfl

theorem endOfList_complete {blanks : List UInt8} (h : AreBlanks blanks) :
    endOfList (blanks ++ byte ']' :: t) = .ok () t := by
  rw [endOfList, peekPastBlanks_eq h (by decide)]
  rfl

theorem element?_complete {value : Reader α} {R : List UInt8 → α → Prop} (htakes : Takes value R)
    {first : Bool} {separator text : List UInt8} {a : α} (hseparator : IsSeparator first separator)
    (isvalue : IsValue text) (hR : R text a) (ht : Stops isNumeral t) :
    element? first value (separator ++ (text ++ t)) = .ok (some a) t := by
  have hread := htakes [] text a t areBlanks_nil hR ht
  obtain ⟨c, more, rfl, hc, hne⟩ := isvalue.exists_first
  refine bind_eq_ok.mpr ⟨true, _, hasElement_next hseparator hc hne, ?_⟩
  rw [if_pos rfl, map_eq_pure_bind]
  exact bind_eq_ok.mpr ⟨a, t, hread, rfl⟩

theorem elementsWith_complete {element : Reader α} {R : List UInt8 → α → Prop}
    (htakes : Takes element R) {fuel : Nat} {first : Bool} {values : List (List UInt8)}
    {text : List UInt8} {read as : List α} (h : IsElements first values text)
    (hall : List.Forall₂ R values as) (hfuel : text.length < fuel) :
    elementsWith element fuel first read (text ++ t) =
      .ok (read.reverse ++ as) (byte ']' :: t) := by
  induction h generalizing fuel read as with
  | @close first blanks hblanks =>
    obtain ⟨fuel, rfl⟩ := Nat.exists_eq_add_one_of_ne_zero (Nat.ne_zero_of_lt hfuel)
    cases hall
    rw [List.append_assoc, elementsWith]
    refine bind_eq_ok.mpr ⟨false, _, hasElement_closing first hblanks t, ?_⟩
    rw [List.append_nil]
    rfl
  | @next first separator value text values hseparator isvalue hrest ih =>
    obtain ⟨fuel, rfl⟩ := Nat.exists_eq_add_one_of_ne_zero (Nat.ne_zero_of_lt hfuel)
    obtain _ | @⟨_, a, _, as, hR, hall⟩ := hall
    have hread := htakes [] value a (text ++ t) areBlanks_nil hR (hrest.isTail.stops t)
    obtain ⟨c, more, rfl, hc, hne⟩ := isvalue.exists_first
    simp only [List.length_append, List.length_cons] at hfuel
    rw [List.append_assoc, List.append_assoc, elementsWith]
    refine bind_eq_ok.mpr ⟨true, _, hasElement_next hseparator hc hne, ?_⟩
    rw [if_pos rfl]
    refine bind_eq_ok.mpr ⟨a, text ++ t, hread, ?_⟩
    rw [ih hall (by omega), List.reverse_cons, List.append_assoc]
    rfl

theorem followedBy_eq {body : Reader α} {ending : Reader Unit} {a : α} {u : List UInt8}
    (hbody : body s = .ok a u) (hending : ending u = .ok () t) :
    followedBy body ending s = .ok a t := by
  unfold followedBy
  rw [hbody]
  dsimp only
  rw [hending]

theorem placing_eq {r : Reader α} {a : α} (h : r s = .ok a t) : placing r s = .ok a t := by
  unfold placing
  rw [h]

theorem list_complete {wanted : String} {contents : Reader α} {a : α} {blanks u : List UInt8}
    (hblanks : AreBlanks blanks) (hcontents : contents s = .ok a u)
    (hending : endOfList u = .ok () t) :
    list wanted contents (blanks ++ byte '[' :: s) = .ok a t := by
  rw [list, valueStart_eq hblanks (by decide)]
  exact placing_eq (followedBy_eq hcontents hending)

/-- A list is read of which every element is read. -/
theorem takes_list {element : Reader α} {R : List UInt8 → α → Prop} (htakes : Takes element R)
    (wanted : String) :
    Takes (list wanted (elements element)) fun text as =>
      ∃ values, IsList values text ∧ List.Forall₂ R values as := by
  rintro blanks _ as t hblanks ⟨values, ⟨hlist⟩, hall⟩ -
  rename_i text
  have hfuel : text.length < (text ++ t).length + 1 := by
    rw [List.length_append]
    omega
  have hwith := @elementsWith_complete _ t _ _ htakes _ _ _ _ [] _ hlist hall hfuel
  refine list_complete hblanks (bind_eq_ok.mpr ⟨_, _, rfl, hwith⟩) ?_
  exact endOfList_complete areBlanks_nil

/-! ## Objects -/

/-- A reader reads every member behind its key, if it does to the state what is said. -/
def TakesMember {σ : Type} (member : String → σ → Reader σ)
    (R : String → List UInt8 → σ → σ → Prop) : Prop :=
  ∀ name state state' blanks blanks' value t, AreBlanks blanks → AreBlanks blanks' →
    IsValue value → R name value state state' → Stops isNumeral t →
    member name state (blanks ++ byte ':' :: (blanks' ++ (value ++ t))) = .ok state' t

theorem once_complete {value : Reader α} {R : List UInt8 → α → Prop} (htakes : Takes value R)
    (name : String) {blanks blanks' text : List UInt8} {a : α} (hblanks : AreBlanks blanks)
    (hblanks' : AreBlanks blanks') (hR : R text a) (ht : Stops isNumeral t) :
    once name none value (blanks ++ byte ':' :: (blanks' ++ (text ++ t))) = .ok (some a) t := by
  refine bind_eq_ok.mpr ⟨(), _, takeMark_complete .expectedColon hblanks (by decide), ?_⟩
  exact bind_eq_ok.mpr ⟨a, t, htakes blanks' text a t hblanks' hR ht, rfl⟩

theorem skipMember_complete {state : α} {blanks blanks' value : List UInt8}
    (hblanks : AreBlanks blanks) (hblanks' : AreBlanks blanks') (isvalue : IsValue value)
    (ht : Stops isNumeral t) :
    (do colon; skip; return state : Reader α)
      (blanks ++ byte ':' :: (blanks' ++ (value ++ t))) = .ok state t := by
  refine bind_eq_ok.mpr ⟨(), _, takeMark_complete .expectedColon hblanks (by decide), ?_⟩
  exact bind_eq_ok.mpr ⟨(), t, skip_complete hblanks' isvalue ht, rfl⟩

theorem hasMember_closing (first : Bool) {blanks : List UInt8} (h : AreBlanks blanks)
    (t : List UInt8) :
    hasMember first (blanks ++ byte '\x7d' :: t) = .ok false (byte '\x7d' :: t) := by
  rw [hasMember, peekPastBlanks_eq h (by decide)]
  rfl

theorem hasMember_next {first : Bool} {separator : List UInt8} (h : IsSeparator first separator)
    (s : List UInt8) :
    hasMember first (separator ++ byte '"' :: s) = .ok true (byte '"' :: s) := by
  cases h with
  | first hblanks =>
    rw [hasMember, peekPastBlanks_eq hblanks (by decide)]
    rfl
  | @later blanks blanks' hblanks hblanks' =>
    rw [hasMember, List.append_assoc, List.cons_append, peekPastBlanks_eq hblanks (by decide)]
    refine bind_eq_ok.mpr ⟨(), blanks' ++ byte '"' :: s, rfl, ?_⟩
    rw [peekPastBlanks_eq hblanks' (by decide)]
    rfl

theorem membersWith_complete {σ : Type} {member : String → σ → Reader σ}
    {R : String → List UInt8 → σ → σ → Prop} (htakes : TakesMember member R) {fuel : Nat}
    {first : Bool} {members : List (String × List UInt8)} {text : List UInt8} {state state' : σ}
    (h : IsMembers first members text) (hgathers : Gathers R members state state')
    (hfuel : text.length < fuel) :
    membersWith member fuel first state (text ++ t) = .ok state' (byte '\x7d' :: t) := by
  induction h generalizing fuel state with
  | @close first blanks hblanks =>
    obtain ⟨fuel, rfl⟩ := Nat.exists_eq_add_one_of_ne_zero (Nat.ne_zero_of_lt hfuel)
    cases hgathers
    rw [List.append_assoc, membersWith]
    exact bind_eq_ok.mpr ⟨false, _, hasMember_closing first hblanks t, rfl⟩
  | @next first separator body blanks blanks' value text name members hseparator hname hblanks
      hblanks' isvalue hrest ih =>
    obtain ⟨fuel, rfl⟩ := Nat.exists_eq_add_one_of_ne_zero (Nat.ne_zero_of_lt hfuel)
    obtain _ | ⟨hfirst, hgathers⟩ := hgathers
    simp only [List.length_append, List.length_cons] at hfuel
    simp only [List.append_assoc, List.cons_append]
    rw [membersWith]
    refine bind_eq_ok.mpr ⟨true, _, hasMember_next hseparator _, ?_⟩
    rw [if_pos rfl]
    refine bind_eq_ok.mpr ⟨name, _, bind_eq_ok.mpr ⟨(), _, rfl, string_complete hname⟩, ?_⟩
    refine bind_eq_ok.mpr ⟨_, text ++ t, htakes _ _ _ _ _ _ _ hblanks hblanks' isvalue hfirst
      (hrest.isTail.stops t), ih hgathers (by omega)⟩

/-- An object is read of which every member is read. -/
theorem members_complete {σ : Type} {member : String → σ → Reader σ}
    {R : String → List UInt8 → σ → σ → Prop} (htakes : TakesMember member R)
    {members : List (String × List UInt8)} {text : List UInt8} {start state : σ}
    (h : IsMembers true members text) (hgathers : Gathers R members start state) :
    Reader.members start member (text ++ t) = .ok state (byte '\x7d' :: t) := by
  refine bind_eq_ok.mpr ⟨_, _, rfl, membersWith_complete htakes h hgathers ?_⟩
  rw [List.length_append]
  omega

theorem object_complete {wanted : String} {contents : Reader α} {a : α} {blanks u : List UInt8}
    (hblanks : AreBlanks blanks) (hcontents : contents s = .ok a u)
    (hending : endOfObject u = .ok () t) :
    object wanted contents (blanks ++ byte '\x7b' :: s) = .ok a t := by
  rw [object, valueStart_eq hblanks (by decide)]
  exact placing_eq (followedBy_eq hcontents hending)

/-! ## All bytes -/

/-- All bytes are read if behind what is read of them nothing but blanks is left. -/
theorem run_complete {r : Reader α} {bytes behind : List UInt8} {a : α}
    (hbehind : AreBlanks behind) (hread : r bytes = .ok a behind) : run r bytes = .ok a := by
  have hpast : peekPastBlanks behind = .ok none [] := by
    show EStateM.Result.ok (behind.dropWhile isBlank).head? (behind.dropWhile isBlank) = _
    rw [List.dropWhile_eq_nil_iff.mpr hbehind]
    rfl
  unfold run
  dsimp only
  split
  · rename_i heq
    cases (bind_eq_of_ok hpast).symm.trans ((bind_eq_of_ok hread).symm.trans heq)
    rfl
  · rename_i heq
    cases (bind_eq_of_ok hpast).symm.trans ((bind_eq_of_ok hread).symm.trans heq)

section

variable {wanted : String} {listed named : Reader α} {a : α} {before behind u : List UInt8}

theorem run_record_of_list (hbefore : AreBlanks before) (hbehind : AreBlanks behind)
    (hlisted : listed s = .ok a u) (hending : endOfList u = .ok () behind) :
    run (record wanted listed named) (before ++ byte '[' :: s) = .ok a := by
  refine run_complete hbehind ?_
  rw [record, valueStart_eq hbefore (by decide)]
  exact list_complete areBlanks_nil hlisted hending

theorem run_record_of_object (hbefore : AreBlanks before) (hbehind : AreBlanks behind)
    (hnamed : named s = .ok a u) (hending : endOfObject u = .ok () behind) :
    run (record wanted listed named) (before ++ byte '\x7b' :: s) = .ok a := by
  refine run_complete hbehind ?_
  rw [record, valueStart_eq hbefore (by decide)]
  exact object_complete areBlanks_nil hnamed hending

end

end Bulletin.Json.Reader
