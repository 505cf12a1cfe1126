import Bulletin.Proofs.Encoding
import Bulletin.Proofs.Json.Grammar
import Mathlib.Data.List.TakeWhile

/-!
# A text is one value only

What a value is in bytes can be told in one way only, where nothing follows that could belong to a
number. So an object has one list of members, and a list one list of elements:

    IsValue.areTrimmed : blanks around a value do not belong to it
    IsValue.unique     : of two values in front of the same bytes neither is longer
    IsObject.unique    : the names and values of an object
    IsList.unique      : the values of a list
    IsAt.unique        : the value that stands under names
-/

namespace Bulletin.Json

open Reader (Frame byte isBlank isDigit hexValue? shortEscape?)

/-! ## Where something ends -/

/-- What comes next does not go on with bytes of a kind. -/
def Stops (p : UInt8 → Bool) (t : List UInt8) : Prop := ∀ b ∈ t.head?, p b = false

theorem stops_cons {p : UInt8 → Bool} {c : UInt8} (h : p c = false) (t : List UInt8) :
    Stops p (c :: t) := by
  rintro b hb
  obtain rfl := Option.mem_some.mp hb
  exact h

theorem takeWhile_append {p : UInt8 → Bool} {bs t : List UInt8} (h : ∀ b ∈ bs, p b)
    (ht : Stops p t) : (bs ++ t).takeWhile p = bs := by
  rw [List.takeWhile_append_of_pos h]
  cases t with
  | nil => simp
  | cons c rest => rw [List.takeWhile_cons_of_neg (by simp [ht c rfl]), List.append_nil]

theorem dropWhile_append {p : UInt8 → Bool} {bs t : List UInt8} (h : ∀ b ∈ bs, p b)
    (ht : Stops p t) : (bs ++ t).dropWhile p = t := by
  rw [List.dropWhile_append_of_pos h]
  cases t with
  | nil => rfl
  | cons c rest => rw [List.dropWhile_cons_of_neg (by simp [ht c rfl])]

/-- Bytes of a kind, up to the first that is not, are the same in the same bytes. -/
theorem eq_of_stops {p : UInt8 → Bool} {bs bs' t t' : List UInt8} (h : ∀ b ∈ bs, p b)
    (h' : ∀ b ∈ bs', p b) (ht : Stops p t) (ht' : Stops p t') (heq : bs ++ t = bs' ++ t') :
    bs = bs' ∧ t = t' := by
  have hbs : bs = bs' := by rw [← takeWhile_append h ht, heq, takeWhile_append h' ht']
  subst hbs
  exact ⟨rfl, List.append_cancel_left heq⟩

/-- Blanks end where the first other byte is. -/
theorem eq_of_blanks {blanks blanks' t t' : List UInt8} {c c' : UInt8} (h : AreBlanks blanks)
    (h' : AreBlanks blanks') (hc : isBlank c = false) (hc' : isBlank c' = false)
    (heq : blanks ++ c :: t = blanks' ++ c' :: t') : blanks = blanks' ∧ c = c' ∧ t = t' := by
  obtain ⟨hblanks, hrest⟩ := eq_of_stops h h' (stops_cons hc t) (stops_cons hc' t') heq
  injection hrest with hhead htail
  exact ⟨hblanks, hhead, htail⟩

/-! ## Strings -/

theorem IsStringBody.unique {body body' t t' : List UInt8} (h : IsStringBody body)
    (h' : IsStringBody body') (heq : body ++ byte '"' :: t = body' ++ byte '"' :: t') :
    body = body' ∧ t = t' := by
  have hu : ∀ {c : UInt8}, c = byte 'u' → (shortEscape? c).isSome → False := by
    rintro _ rfl hsome
    cases hsome
  induction h generalizing body' with
  | nil =>
    cases h' with
    | nil => exact ⟨rfl, (List.cons.inj heq).2⟩
    | plain hplain => exact absurd (List.cons.inj heq).1.symm hplain.1
    | short | unicode => exact absurd (List.cons.inj heq).1 (by decide)
  | plain hplain _ ih =>
    cases h' with
    | nil => exact absurd (List.cons.inj heq).1 hplain.1
    | plain _ hrest' =>
      obtain ⟨rfl, hrest⟩ := List.cons.inj heq
      obtain ⟨rfl, ht⟩ := ih hrest' hrest
      exact ⟨rfl, ht⟩
    | short | unicode => exact absurd (List.cons.inj heq).1 hplain.2.1
  | short hc _ ih =>
    cases h' with
    | nil => exact absurd (List.cons.inj heq).1 (by decide)
    | plain hplain => exact absurd (List.cons.inj heq).1.symm hplain.2.1
    | short _ hrest' =>
      obtain ⟨-, hnext⟩ := List.cons.inj heq
      obtain ⟨rfl, hrest⟩ := List.cons.inj hnext
      obtain ⟨rfl, ht⟩ := ih hrest' hrest
      exact ⟨rfl, ht⟩
    | unicode =>
      obtain ⟨-, hnext⟩ := List.cons.inj heq
      exact (hu (List.cons.inj hnext).1 hc).elim
  | unicode _ _ ih =>
    cases h' with
    | nil => exact absurd (List.cons.inj heq).1 (by decide)
    | plain hplain => exact absurd (List.cons.inj heq).1.symm hplain.2.1
    | short hc =>
      obtain ⟨-, hnext⟩ := List.cons.inj heq
      exact (hu (List.cons.inj hnext).1.symm hc).elim
    | unicode _ hrest' =>
      simp only [List.cons_append, List.cons.injEq] at heq
      obtain ⟨-, -, rfl, rfl, rfl, rfl, hrest⟩ := heq
      obtain ⟨rfl, ht⟩ := ih hrest' hrest
      exact ⟨rfl, ht⟩

theorem HexNumber.unique {a b c d : UInt8} {n m : Nat} (h : HexNumber a b c d n)
    (h' : HexNumber a b c d m) : n = m := by
  obtain ⟨i, j, k, l, hi, hj, hk, hl, rfl⟩ := h
  obtain ⟨i', j', k', l', hi', hj', hk', hl', rfl⟩ := h'
  rw [hi] at hi'
  rw [hj] at hj'
  rw [hk] at hk'
  rw [hl] at hl'
  cases hi'
  cases hj'
  cases hk'
  cases hl'
  rfl

theorem SpellsBytes.unique {body bytes bytes' : List UInt8} (h : SpellsBytes body bytes)
    (h' : SpellsBytes body bytes') : bytes = bytes' := by
  have hu : shortEscape? (byte 'u') = none := rfl
  induction h generalizing bytes' with
  | nil =>
    cases h'
    rfl
  | plain hplain _ ih =>
    cases h' with
    | plain _ hrest' => rw [ih hrest']
    | short | unicode | pair => exact absurd rfl hplain.2.1
  | short hc _ ih =>
    cases h' with
    | plain hplain => exact absurd rfl hplain.2.1
    | short hc' hrest' =>
      rw [hc] at hc'
      cases hc'
      rw [ih hrest']
    | unicode | pair =>
      rw [hu] at hc
      cases hc
  | unicode hn hwhole _ ih =>
    cases h' with
    | plain hplain => exact absurd rfl hplain.2.1
    | short hc =>
      rw [hu] at hc
      cases hc
    | unicode hn' _ hrest' => rw [hn.unique hn', ih hrest']
    | pair hn' hhigh =>
      obtain rfl := hn.unique hn'
      omega
  | pair hn hhigh hm _ _ ih =>
    cases h' with
    | plain hplain => exact absurd rfl hplain.2.1
    | short hc =>
      rw [hu] at hc
      cases hc
    | unicode hn' hwhole =>
      obtain rfl := hn.unique hn'
      omega
    | pair hn' _ hm' _ hrest' => rw [hn.unique hn', hm.unique hm', ih hrest']

/-- A string spells one text only. -/
theorem Spells.unique {body : List UInt8} {s s' : String} (h : Spells body s)
    (h' : Spells body s') : s = s' :=
  Text.encode_injective (SpellsBytes.unique h h')

/-! ## Scalars -/

/-- Whether a byte can stand in a number. -/
def isNumeral (b : UInt8) : Bool :=
  isDigit b || b == byte '.' || b == byte 'e' || b == byte 'E' || b == byte '+' || b == byte '-'

theorem isNumeral_of_isDigit {b : UInt8} (h : isDigit b) : isNumeral b := by
  simp [isNumeral, h]

theorem isBlank_of_isNumeral {b : UInt8} (h : isNumeral b) : isBlank b = false := by
  cases hblank : isBlank b with
  | false => rfl
  | true =>
    simp only [isBlank, Bool.or_eq_true, beq_iff_eq] at hblank
    rcases hblank with ((rfl | rfl) | rfl) | rfl <;> exact absurd h (by decide)

theorem AreDigits.areNumerals {bs : List UInt8} (h : AreDigits bs) : ∀ b ∈ bs, isNumeral b :=
  fun b hb => isNumeral_of_isDigit (h.2 b hb)

/-- A number begins with a digit. -/
theorem IsUnsigned.exists_digit {bs : List UInt8} (h : IsUnsigned bs) :
    ∃ d rest, bs = d :: rest ∧ isDigit d := by
  obtain ⟨hwhole, -, -⟩ := h
  cases hwhole with
  | zero => exact ⟨_, _, rfl, rfl⟩
  | digits hdigit => exact ⟨_, _, rfl, hdigit⟩

theorem IsUnsigned.areNumerals {bs : List UInt8} (h : IsUnsigned bs) :
    ∀ b ∈ bs, isNumeral b := by
  obtain ⟨hwhole, hfraction, hexponent⟩ := h
  simp only [List.forall_mem_append]
  refine ⟨?_, ?_, ?_⟩
  · cases hwhole with
    | zero => exact List.forall_mem_singleton.mpr (by decide)
    | digits hdigit _ hrest =>
      exact List.forall_mem_cons.mpr
        ⟨isNumeral_of_isDigit hdigit, fun b hb => isNumeral_of_isDigit (hrest b hb)⟩
  · cases hfraction with
    | none => exact fun b hb => absurd hb List.not_mem_nil
    | digits hdigits => exact List.forall_mem_cons.mpr ⟨by decide, hdigits.areNumerals⟩
  · cases hexponent with
    | none => exact fun b hb => absurd hb List.not_mem_nil
    | digits hmark hsign hdigits =>
      refine List.forall_mem_cons.mpr ⟨?_, List.forall_mem_append.mpr ⟨?_, hdigits.areNumerals⟩⟩
      · rcases hmark with rfl | rfl <;> decide
      · rcases hsign with rfl | rfl | rfl
        · exact fun b hb => absurd hb List.not_mem_nil
        · exact List.forall_mem_singleton.mpr (by decide)
        · exact List.forall_mem_singleton.mpr (by decide)

/-- What a scalar goes on with, by its first byte. -/
def GoesOn (c : UInt8) (rest : List UInt8) : Prop :=
  if c = byte 'n' then rest = word ['u', 'l', 'l']
  else if c = byte 't' then rest = word ['r', 'u', 'e']
  else if c = byte 'f' then rest = word ['a', 'l', 's', 'e']
  else if c = byte '-' then IsUnsigned rest
  else if c = byte '"' then ∃ body, IsStringBody body ∧ rest = body ++ [byte '"']
  else isDigit c ∧ IsUnsigned (c :: rest)

theorem IsScalar.exists_goesOn {text : List UInt8} (h : IsScalar text) :
    ∃ c rest, text = c :: rest ∧ GoesOn c rest := by
  cases h with
  | null => exact ⟨_, _, rfl, rfl⟩
  | yes => exact ⟨_, _, rfl, rfl⟩
  | no => exact ⟨_, _, rfl, rfl⟩
  | positive h =>
    obtain ⟨d, rest, rfl, hdigit⟩ := h.exists_digit
    refine ⟨d, rest, rfl, ?_⟩
    have hne : ∀ {c : UInt8}, isDigit c = false → d ≠ c := by
      rintro c hc rfl
      rw [hdigit] at hc
      cases hc
    rw [GoesOn, if_neg (hne (by decide)), if_neg (hne (by decide)), if_neg (hne (by decide)),
      if_neg (hne (by decide)), if_neg (hne (by decide))]
    exact ⟨hdigit, h⟩
  | negative h => exact ⟨_, _, rfl, h⟩
  | string h => exact ⟨_, _, rfl, _, h, rfl⟩

/-- What a scalar goes on with is the same in front of the same bytes. -/
theorem GoesOn.unique {c : UInt8} {rest rest' t t' : List UInt8} (h : GoesOn c rest)
    (h' : GoesOn c rest') (ht : Stops isNumeral t) (ht' : Stops isNumeral t')
    (heq : rest ++ t = rest' ++ t') : rest = rest' := by
  unfold GoesOn at h h'
  by_cases hn : c = byte 'n'
  · rw [if_pos hn] at h h'
    rw [h, h']
  rw [if_neg hn] at h h'
  by_cases htrue : c = byte 't'
  · rw [if_pos htrue] at h h'
    rw [h, h']
  rw [if_neg htrue] at h h'
  by_cases hf : c = byte 'f'
  · rw [if_pos hf] at h h'
    rw [h, h']
  rw [if_neg hf] at h h'
  by_cases hminus : c = byte '-'
  · rw [if_pos hminus] at h h'
    exact (eq_of_stops h.areNumerals h'.areNumerals ht ht' heq).1
  rw [if_neg hminus] at h h'
  by_cases hquote : c = byte '"'
  · rw [if_pos hquote] at h h'
    obtain ⟨body, hbody, rfl⟩ := h
    obtain ⟨body', hbody', rfl⟩ := h'
    rw [List.append_assoc, List.append_assoc] at heq
    rw [(hbody.unique hbody' heq).1]
  · rw [if_neg hquote] at h h'
    have hwhole : c :: rest ++ t = c :: rest' ++ t' := congrArg (c :: ·) heq
    have hsame := (eq_of_stops h.2.areNumerals h'.2.areNumerals ht ht' hwhole).1
    exact (List.cons.inj hsame).2

/-- What a scalar begins with is no blank and no bracket. -/
theorem GoesOn.first {c : UInt8} {rest : List UInt8} (h : GoesOn c rest) :
    isBlank c = false ∧ c ≠ byte ']' ∧ c ≠ byte '[' ∧ c ≠ byte '\x7b' := by
  unfold GoesOn at h
  split at h
  · subst c
    decide
  split at h
  · subst c
    decide
  split at h
  · subst c
    decide
  split at h
  · subst c
    decide
  split at h
  · subst c
    decide
  · obtain ⟨hdigit, -⟩ := h
    have hne : ∀ {b : UInt8}, isDigit b = false → c ≠ b := by
      rintro b hb rfl
      rw [hdigit] at hb
      cases hb
    exact ⟨isBlank_of_isNumeral (isNumeral_of_isDigit hdigit), hne (by decide), hne (by decide),
      hne (by decide)⟩

/-! ## Values -/

theorem IsValue.exists_first {value : List UInt8} (h : IsValue value) :
    ∃ c rest, value = c :: rest ∧ isBlank c = false ∧ c ≠ byte ']' := by
  have hopening : ∀ frame : Frame, isBlank frame.opening = false ∧ frame.opening ≠ byte ']' := by
    intro frame
    cases frame <;> decide
  cases h with
  | scalar h =>
    obtain ⟨c, rest, rfl, hrest⟩ := h.exists_goesOn
    exact ⟨c, rest, rfl, hrest.first.1, hrest.first.2.1⟩
  | empty frame => exact ⟨_, _, rfl, hopening frame⟩
  | @filled frame => exact ⟨_, _, rfl, hopening frame⟩

theorem IsTail.exists_closing {frame : Frame} {tail : List UInt8} (h : IsTail frame tail) :
    ∃ rest, tail = rest ++ [frame.closing] := by
  refine @IsTail.rec (fun _ _ => True) (fun frame tail _ => ∃ rest, tail = rest ++ [frame.closing])
    (fun _ => trivial) (fun _ _ => trivial) (fun _ _ _ _ _ => trivial) ?_ ?_ frame tail h
  · exact fun frame _ => ⟨_, rfl⟩
  · rintro frame blanks lead value _ - - - - - ⟨rest, rfl⟩
    exact ⟨blanks ++ byte ',' :: (lead ++ (value ++ rest)), by simp⟩

/-- There are bytes, of which neither the first nor the last is a blank. -/
def AreTrimmed (bs : List UInt8) : Prop :=
  (∃ c rest, bs = c :: rest ∧ isBlank c = false) ∧ ∃ rest c, bs = rest ++ [c] ∧ isBlank c = false

theorem IsUnsigned.exists_last {bs : List UInt8} (h : IsUnsigned bs) :
    ∃ rest c, bs = rest ++ [c] ∧ isBlank c = false := by
  obtain ⟨d, more, hfirst, -⟩ := h.exists_digit
  rcases List.eq_nil_or_concat bs with rfl | ⟨rest, c, rfl⟩
  · cases hfirst
  · exact ⟨rest, c, List.concat_eq_append, isBlank_of_isNumeral (h.areNumerals c (by simp))⟩

/-- Blanks around a value do not belong to it. -/
theorem IsValue.areTrimmed {value : List UInt8} (h : IsValue value) : AreTrimmed value := by
  refine ⟨?_, ?_⟩
  · obtain ⟨c, rest, hfirst, hc, -⟩ := h.exists_first
    exact ⟨c, rest, hfirst, hc⟩
  have hclosing : ∀ frame : Frame, isBlank frame.closing = false := by
    intro frame
    cases frame <;> decide
  cases h with
  | scalar h =>
    cases h with
    | null => exact ⟨word ['n', 'u', 'l'], byte 'l', rfl, by decide⟩
    | yes => exact ⟨word ['t', 'r', 'u'], byte 'e', rfl, by decide⟩
    | no => exact ⟨word ['f', 'a', 'l', 's'], byte 'e', rfl, by decide⟩
    | positive h => exact h.exists_last
    | negative h =>
      obtain ⟨rest, c, rfl, hc⟩ := h.exists_last
      exact ⟨byte '-' :: rest, c, rfl, hc⟩
    | string => exact ⟨byte '"' :: _, byte '"', rfl, by decide⟩
  | empty frame => exact ⟨frame.opening :: _, frame.closing, rfl, hclosing frame⟩
  | @filled frame lead value tail _ _ htail =>
    obtain ⟨rest, rfl⟩ := htail.exists_closing
    exact ⟨frame.opening :: (lead ++ (value ++ rest)), frame.closing, by simp, hclosing frame⟩

/-- What stands in front of a value ends where the value begins. -/
theorem IsLead.unique {frame : Frame} {lead lead' t t' : List UInt8} {c c' : UInt8}
    (h : IsLead frame lead) (h' : IsLead frame lead') (hc : isBlank c = false)
    (hc' : isBlank c' = false) (heq : lead ++ c :: t = lead' ++ c' :: t') :
    lead = lead' ∧ c :: t = c' :: t' := by
  cases h with
  | list h =>
    cases h' with
    | list h' =>
      obtain ⟨rfl, rfl, rfl⟩ := eq_of_blanks h h' hc hc' heq
      exact ⟨rfl, rfl⟩
  | object h hbody hcolon hvalue =>
    cases h' with
    | object h' hbody' hcolon' hvalue' =>
      simp only [List.append_assoc, List.cons_append] at heq
      obtain ⟨rfl, -, hquote⟩ := eq_of_blanks h h' (by decide) (by decide) heq
      obtain ⟨rfl, hname⟩ := hbody.unique hbody' hquote
      obtain ⟨rfl, -, hmark⟩ := eq_of_blanks hcolon hcolon' (by decide) (by decide) hname
      obtain ⟨rfl, rfl, rfl⟩ := eq_of_blanks hvalue hvalue' hc hc' hmark
      exact ⟨rfl, rfl⟩

/-- Behind the bracket that opens a frame, in front of a value in it, there is none that closes. -/
theorem IsLead.exists_first {frame : Frame} {lead : List UInt8} {c : UInt8}
    (h : IsLead frame lead) (hc : isBlank c = false) (hne : c ≠ byte ']') (t : List UInt8) :
    ∃ blanks lead' d rest, lead = blanks ++ lead' ∧ AreBlanks blanks ∧ IsLead frame lead' ∧
      lead' ++ c :: t = d :: rest ∧ isBlank d = false ∧ d ≠ frame.closing := by
  cases h with
  | list h =>
    exact ⟨_, [], c, t, (List.append_nil _).symm, h, .list areBlanks_nil, rfl, hc, hne⟩
  | object h hbody h' h'' =>
    exact ⟨_, _, byte '"', _, rfl, h, .object areBlanks_nil hbody h' h'', rfl, by decide,
      by decide⟩

theorem IsTail.stops {frame : Frame} {tail : List UInt8} (h : IsTail frame tail)
    (t : List UInt8) : Stops isNumeral (tail ++ t) := by
  have hblank : ∀ {blanks : List UInt8} {c : UInt8} {rest : List UInt8}, AreBlanks blanks →
      isNumeral c = false → Stops isNumeral (blanks ++ c :: rest) := by
    intro blanks c rest hblanks hc
    cases blanks with
    | nil => exact stops_cons hc rest
    | cons b more =>
      refine stops_cons (Bool.eq_false_iff.mpr fun hnumeral => ?_) _
      have hb := hblanks b List.mem_cons_self
      rw [isBlank_of_isNumeral hnumeral] at hb
      cases hb
  cases h with
  | close frame h =>
    rw [List.append_assoc]
    exact hblank h (by cases frame <;> decide)
  | next h =>
    rw [List.append_assoc]
    exact hblank h (by decide)

/-- Of a value and another in front of the same bytes, which do not go on with a number, neither is
longer. -/
def OnlyValue (value : List UInt8) : Prop :=
  ∀ {value' t t' : List UInt8}, IsValue value' → Stops isNumeral t → Stops isNumeral t' →
    value ++ t = value' ++ t' → value = value'

/-- Of two ways to go on behind a value neither is longer. -/
def OnlyTail (frame : Frame) (tail : List UInt8) : Prop :=
  ∀ {tail' t t' : List UInt8}, IsTail frame tail' → tail ++ t = tail' ++ t' → tail = tail'

theorem opening_injective {frame frame' : Frame} (h : frame.opening = frame'.opening) :
    frame = frame' := by
  cases frame <;> cases frame' <;> first | rfl | exact absurd h (by decide)

theorem closing_first (frame : Frame) :
    isBlank frame.closing = false ∧ frame.closing ≠ byte ',' := by
  cases frame <;> decide

theorem isScalar_ne_opening {text rest t t' : List UInt8} {frame : Frame} (h : IsScalar text) :
    text ++ t ≠ frame.opening :: rest ++ t' := by
  intro heq
  obtain ⟨c, more, rfl, hmore⟩ := h.exists_goesOn
  obtain ⟨-, -, hlist, hobject⟩ := hmore.first
  cases frame with
  | list => exact hlist (List.cons.inj heq).1
  | object => exact hobject (List.cons.inj heq).1

/-- What is empty is not filled. -/
theorem closing_ne_lead {frame : Frame} {blanks lead value tail t t' : List UInt8}
    (hblanks : AreBlanks blanks) (hlead : IsLead frame lead) (hvalue : IsValue value) :
    blanks ++ frame.closing :: t ≠ lead ++ (value ++ (tail ++ t')) := by
  intro heq
  obtain ⟨c, rest, rfl, hc, hne⟩ := hvalue.exists_first
  obtain ⟨blanks', lead', d, rest', rfl, hblanks', -, hsplit, hd, hclosing⟩ :=
    hlead.exists_first hc hne (rest ++ (tail ++ t'))
  rw [List.append_assoc, List.cons_append, hsplit] at heq
  obtain ⟨-, hfirst, -⟩ := eq_of_blanks hblanks hblanks' (closing_first frame).1 hd heq
  exact hclosing hfirst.symm

/-- A value inside a frame, with what stands around it. -/
theorem eq_of_lead {frame : Frame} {lead lead' value value' tail tail' t t' : List UInt8}
    (hlead : IsLead frame lead) (hlead' : IsLead frame lead') (hvalue : IsValue value)
    (hvalue' : IsValue value') (htail : IsTail frame tail) (htail' : IsTail frame tail')
    (ihvalue : OnlyValue value) (ihtail : OnlyTail frame tail)
    (heq : lead ++ (value ++ (tail ++ t)) = lead' ++ (value' ++ (tail' ++ t'))) :
    lead = lead' ∧ value = value' ∧ tail = tail' := by
  have hbehind : lead = lead' ∧ value ++ (tail ++ t) = value' ++ (tail' ++ t') := by
    obtain ⟨c, more, rfl, hc, -⟩ := hvalue.exists_first
    obtain ⟨c', more', rfl, hc', -⟩ := hvalue'.exists_first
    exact hlead.unique hlead' hc hc' heq
  obtain ⟨rfl, hrest⟩ := hbehind
  obtain rfl := ihvalue hvalue' (htail.stops t) (htail'.stops t') hrest
  exact ⟨rfl, rfl, ihtail htail' (List.append_cancel_left hrest)⟩

theorem onlyValue_scalar {text : List UInt8} (h : IsScalar text) : OnlyValue text := by
  intro value' t t' h' ht ht' heq
  cases h' with
  | scalar h' =>
    obtain ⟨c, rest, rfl, hrest⟩ := h.exists_goesOn
    obtain ⟨c', rest', rfl, hrest'⟩ := h'.exists_goesOn
    obtain ⟨rfl, hmore⟩ := List.cons.inj heq
    rw [hrest.unique hrest' ht ht' hmore]
  | empty | filled => exact absurd heq (isScalar_ne_opening h)

theorem onlyValue_empty {blanks : List UInt8} (frame : Frame) (h : AreBlanks blanks) :
    OnlyValue (frame.opening :: (blanks ++ [frame.closing])) := by
  intro value' t t' h' _ _ heq
  cases h' with
  | scalar h' => exact absurd heq.symm (isScalar_ne_opening h')
  | empty frame' h' =>
    simp only [List.cons_append, List.append_assoc, List.cons.injEq] at heq
    obtain ⟨hopening, hrest⟩ := heq
    obtain rfl := opening_injective hopening
    obtain ⟨hfirst, -⟩ := closing_first frame
    rw [(eq_of_blanks h h' hfirst hfirst hrest).1]
  | filled hlead hvalue =>
    simp only [List.cons_append, List.append_assoc, List.cons.injEq] at heq
    obtain ⟨hopening, hrest⟩ := heq
    obtain rfl := opening_injective hopening
    exact absurd hrest (closing_ne_lead h hlead hvalue)

theorem onlyValue_filled {frame : Frame} {lead value tail : List UInt8} (hlead : IsLead frame lead)
    (hvalue : IsValue value) (htail : IsTail frame tail) (ihvalue : OnlyValue value)
    (ihtail : OnlyTail frame tail) : OnlyValue (frame.opening :: (lead ++ (value ++ tail))) := by
  intro value' t t' h' _ _ heq
  cases h' with
  | scalar h' => exact absurd heq.symm (isScalar_ne_opening h')
  | empty frame' h' =>
    simp only [List.cons_append, List.append_assoc, List.cons.injEq] at heq
    obtain ⟨hopening, hrest⟩ := heq
    obtain rfl := opening_injective hopening
    exact absurd hrest.symm (closing_ne_lead h' hlead hvalue)
  | filled hlead' hvalue' htail' =>
    simp only [List.cons_append, List.append_assoc, List.cons.injEq] at heq
    obtain ⟨hopening, hrest⟩ := heq
    obtain rfl := opening_injective hopening
    obtain ⟨rfl, rfl, rfl⟩ :=
      eq_of_lead hlead hlead' hvalue hvalue' htail htail' ihvalue ihtail hrest
    rfl

theorem onlyTail_close {blanks : List UInt8} (frame : Frame) (h : AreBlanks blanks) :
    OnlyTail frame (blanks ++ [frame.closing]) := by
  intro tail' t t' h' heq
  obtain ⟨hfirst, hcomma⟩ := closing_first frame
  cases h' with
  | close frame h' =>
    simp only [List.append_assoc, List.cons_append] at heq
    rw [(eq_of_blanks h h' hfirst hfirst heq).1]
  | next h' =>
    simp only [List.append_assoc, List.cons_append] at heq
    exact absurd (eq_of_blanks h h' hfirst (by decide) heq).2.1 hcomma

theorem onlyTail_next {frame : Frame} {blanks lead value tail : List UInt8} (h : AreBlanks blanks)
    (hlead : IsLead frame lead) (hvalue : IsValue value) (htail : IsTail frame tail)
    (ihvalue : OnlyValue value) (ihtail : OnlyTail frame tail) :
    OnlyTail frame (blanks ++ byte ',' :: (lead ++ (value ++ tail))) := by
  intro tail' t t' h' heq
  obtain ⟨hfirst, hcomma⟩ := closing_first frame
  cases h' with
  | close frame h' =>
    simp only [List.append_assoc, List.cons_append] at heq
    exact absurd (eq_of_blanks h h' (by decide) hfirst heq).2.1.symm hcomma
  | next h' hlead' hvalue' htail' =>
    simp only [List.append_assoc, List.cons_append] at heq
    obtain ⟨rfl, -, hrest⟩ := eq_of_blanks h h' (by decide) (by decide) heq
    obtain ⟨rfl, rfl, rfl⟩ :=
      eq_of_lead hlead hlead' hvalue hvalue' htail htail' ihvalue ihtail hrest
    rfl

/-- Of two values in front of the same bytes, which do not go on with a number, neither is longer. -/
theorem IsValue.unique {value : List UInt8} (h : IsValue value) : OnlyValue value :=
  @IsValue.rec (fun value _ => OnlyValue value) (fun frame tail _ => OnlyTail frame tail)
    (fun h => onlyValue_scalar h) (fun frame h => onlyValue_empty frame h)
    (fun hlead hvalue htail => onlyValue_filled hlead hvalue htail)
    (fun frame h => onlyTail_close frame h)
    (fun h hlead hvalue htail => onlyTail_next h hlead hvalue htail) value h

/-! ## What is in objects and lists -/

theorem IsSeparator.unique {first : Bool} {separator separator' t t' : List UInt8} {c c' : UInt8}
    (h : IsSeparator first separator) (h' : IsSeparator first separator') (hc : isBlank c = false)
    (hc' : isBlank c' = false) (heq : separator ++ c :: t = separator' ++ c' :: t') :
    separator = separator' ∧ c :: t = c' :: t' := by
  cases h with
  | first h =>
    cases h' with
    | first h' =>
      obtain ⟨rfl, rfl, rfl⟩ := eq_of_blanks h h' hc hc' heq
      exact ⟨rfl, rfl⟩
  | later h hmore =>
    cases h' with
    | later h' hmore' =>
      simp only [List.append_assoc, List.cons_append] at heq
      obtain ⟨rfl, -, hrest⟩ := eq_of_blanks h h' (by decide) (by decide) heq
      obtain ⟨rfl, rfl, rfl⟩ := eq_of_blanks hmore hmore' hc hc' hrest
      exact ⟨rfl, rfl⟩

theorem IsSeparator.unique_value {first : Bool} {separator separator' value value' t t' : List UInt8}
    (h : IsSeparator first separator) (h' : IsSeparator first separator') (hvalue : IsValue value)
    (hvalue' : IsValue value') (heq : separator ++ (value ++ t) = separator' ++ (value' ++ t')) :
    separator = separator' ∧ value ++ t = value' ++ t' := by
  obtain ⟨c, more, rfl, hc, -⟩ := hvalue.exists_first
  obtain ⟨c', more', rfl, hc', -⟩ := hvalue'.exists_first
  exact h.unique h' hc hc' heq

/-- Where there is another part, nothing is closed. -/
theorem IsSeparator.ne_closing {first : Bool} {separator blanks t t' : List UInt8} {c d : UInt8}
    (h : IsSeparator first separator) (hblanks : AreBlanks blanks) (hc : isBlank c = false)
    (hd : isBlank d = false) (hne : d ≠ c) (hcomma : d ≠ byte ',') :
    blanks ++ d :: t ≠ separator ++ c :: t' := by
  intro heq
  cases h with
  | first h => exact hne (eq_of_blanks hblanks h hd hc heq).2.1
  | later h =>
    rw [List.append_assoc] at heq
    exact hcomma (eq_of_blanks hblanks h hd (by decide) heq).2.1

theorem IsMembers.unique {first : Bool} {members members' : List (String × List UInt8)}
    {text text' t t' : List UInt8} (h : IsMembers first members text)
    (h' : IsMembers first members' text') (heq : text ++ t = text' ++ t') :
    members = members' ∧ t = t' := by
  induction h generalizing members' text' with
  | close h =>
    cases h' with
    | close h' =>
      simp only [List.append_assoc, List.cons_append] at heq
      obtain ⟨-, -, ht⟩ := eq_of_blanks h h' (by decide) (by decide) heq
      exact ⟨rfl, ht⟩
    | next hseparator' =>
      simp only [List.append_assoc, List.cons_append] at heq
      exact absurd heq
        (hseparator'.ne_closing h (by decide) (by decide) (by decide) (by decide))
  | next hseparator hname hcolon hblanks hvalue hrest ih =>
    cases h' with
    | close h' =>
      simp only [List.append_assoc, List.cons_append] at heq
      exact absurd heq.symm
        (hseparator.ne_closing h' (by decide) (by decide) (by decide) (by decide))
    | next hseparator' hname' hcolon' hblanks' hvalue' hrest' =>
      simp only [List.append_assoc, List.cons_append] at heq
      obtain ⟨rfl, hquote⟩ := hseparator.unique hseparator' (by decide) (by decide) heq
      obtain ⟨rfl, hbehind⟩ := hname.isStringBody.unique hname'.isStringBody
        (List.cons.inj hquote).2
      obtain ⟨rfl, -, hmark⟩ := eq_of_blanks hcolon hcolon' (by decide) (by decide) hbehind
      obtain ⟨rfl, hvalues⟩ :=
        (IsSeparator.first hblanks).unique_value (.first hblanks') hvalue hvalue' hmark
      obtain rfl := hvalue.unique hvalue' (hrest.isTail.stops t) (hrest'.isTail.stops t') hvalues
      obtain ⟨rfl, ht⟩ := ih hrest' (List.append_cancel_left hvalues)
      rw [hname.unique hname']
      exact ⟨rfl, ht⟩

/-- An object has one list of names and values. -/
theorem IsObject.unique {members members' : List (String × List UInt8)} {text text' t t' : List UInt8}
    (h : IsObject members text) (h' : IsObject members' text') (heq : text ++ t = text' ++ t') :
    members = members' ∧ t = t' := by
  obtain ⟨h⟩ := h
  obtain ⟨h'⟩ := h'
  exact h.unique h' (List.cons.inj heq).2

theorem IsObject.members_eq {members members' : List (String × List UInt8)} {text : List UInt8}
    (h : IsObject members text) (h' : IsObject members' text) : members = members' := by
  have hend : text ++ [] = text ++ [] := rfl
  exact (h.unique h' hend).1

/-- Under names there is one value. -/
theorem IsAt.unique {path : List String} {value value' text : List UInt8} (h : IsAt path value text)
    (h' : IsAt path value' text) : value = value' := by
  induction h generalizing value' with
  | here =>
    cases h'
    rfl
  | under hobject honly _ ih =>
    cases h' with
    | under hobject' honly' h' =>
      obtain rfl := hobject.members_eq hobject'
      rw [honly] at honly'
      cases honly'
      exact ih h'

theorem IsElements.isTail {values : List (List UInt8)} {text : List UInt8}
    (h : IsElements false values text) : IsTail .list text := by
  induction values generalizing text with
  | nil =>
    cases h with
    | close h => exact .close .list h
  | cons value rest ih =>
    cases h with
    | next hseparator hvalue hrest =>
      cases hseparator with
      | later hblanks hblanks' =>
        have hnext := IsTail.next hblanks (.list hblanks') hvalue (ih hrest)
        simpa using hnext

/-- A list is a value. -/
theorem IsList.isValue {values : List (List UInt8)} {text : List UInt8} (h : IsList values text) :
    IsValue text := by
  obtain ⟨h⟩ := h
  cases h with
  | close h => exact .empty .list h
  | next hseparator hvalue hrest =>
    cases hseparator with
    | first hblanks => exact .filled (.list hblanks) hvalue hrest.isTail

theorem IsElements.unique {first : Bool} {values values' : List (List UInt8)}
    {text text' t t' : List UInt8} (h : IsElements first values text)
    (h' : IsElements first values' text') (heq : text ++ t = text' ++ t') :
    values = values' ∧ t = t' := by
  induction h generalizing values' text' with
  | close h =>
    cases h' with
    | close h' =>
      simp only [List.append_assoc, List.cons_append] at heq
      obtain ⟨-, -, ht⟩ := eq_of_blanks h h' (by decide) (by decide) heq
      exact ⟨rfl, ht⟩
    | next hseparator' hvalue' =>
      obtain ⟨c', more', rfl, hc', hne'⟩ := hvalue'.exists_first
      simp only [List.append_assoc, List.cons_append] at heq
      exact absurd heq (hseparator'.ne_closing h hc' (by decide) hne'.symm (by decide))
  | next hseparator hvalue hrest ih =>
    cases h' with
    | close h' =>
      obtain ⟨c, more, rfl, hc, hne⟩ := hvalue.exists_first
      simp only [List.append_assoc, List.cons_append] at heq
      exact absurd heq.symm (hseparator.ne_closing h' hc (by decide) hne.symm (by decide))
    | next hseparator' hvalue' hrest' =>
      simp only [List.append_assoc] at heq
      obtain ⟨rfl, hvalues⟩ := hseparator.unique_value hseparator' hvalue hvalue' heq
      obtain rfl := hvalue.unique hvalue' (hrest.isTail.stops t) (hrest'.isTail.stops t') hvalues
      obtain ⟨rfl, ht⟩ := ih hrest' (List.append_cancel_left hvalues)
      exact ⟨rfl, ht⟩

/-- A list has one list of values. -/
theorem IsList.unique {values values' : List (List UInt8)} {text text' t t' : List UInt8}
    (h : IsList values text) (h' : IsList values' text') (heq : text ++ t = text' ++ t') :
    values = values' ∧ t = t' := by
  obtain ⟨h⟩ := h
  obtain ⟨h'⟩ := h'
  exact h.unique h' (List.cons.inj heq).2

end Bulletin.Json
