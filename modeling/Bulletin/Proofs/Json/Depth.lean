import Bulletin.Proofs.Json.Skipping
import Bulletin.Proofs.Json.Unambiguous

/-!
# Every value is skipped

No value is refused where one is skipped, however deep it is nested: the stack of open frames has no
bound, and there is fuel for every byte. What is skipped ends where the value ends, unless bytes of a
number follow:

    skipIn_complete   : a value in open frames, and what closes them
    skip_complete     : a value
    verbatim_complete : the text of a value is kept
-/

namespace Bulletin.Json.Reader

variable {s t : List UInt8}

theorem peekPastBlanks_eq {β : Type} {f : Option UInt8 → Reader β} {blanks : List UInt8}
    {c : UInt8} (h : AreBlanks blanks) (hc : isBlank c = false) :
    (peekPastBlanks >>= f) (blanks ++ c :: s) = f (some c) (c :: s) := by
  show f ((blanks ++ c :: s).dropWhile isBlank).head? ((blanks ++ c :: s).dropWhile isBlank) = _
  rw [dropWhile_append h (stops_cons hc s)]
  rfl

/-! ## Words and numbers -/

theorem restOfWord_complete (cs : List Char) (t : List UInt8) :
    restOfWord cs (word cs ++ t) = .ok () t := by
  induction cs with
  | nil => rfl
  | cons w rest ih =>
    show (if byte w == byte w then restOfWord rest else refuse .expectedWord) (word rest ++ t) = _
    rw [if_pos (BEq.refl (byte w))]
    exact ih

theorem skipDigits_complete {ds : List UInt8} (h : ∀ b ∈ ds, isDigit b) (ht : Stops isDigit t) :
    skipDigits (ds ++ t) = .ok ds.length t := by
  have hspan : (ds ++ t).span isDigit = (ds, t) := by
    rw [List.span_eq_takeWhile_dropWhile, takeWhile_append h ht, dropWhile_append h ht]
  show EStateM.Result.ok ((ds ++ t).span isDigit).1.length ((ds ++ t).span isDigit).2 = _
  rw [hspan]

theorem stops_of_imp {p q : UInt8 → Bool} (h : Stops p t) (himp : ∀ b, q b → p b) : Stops q t := by
  intro b hb
  refine Bool.eq_false_iff.mpr fun hq => ?_
  have hp := h b hb
  rw [himp b hq] at hp
  cases hp

/-- What does not go on with bytes of a kind is not at a mark of this kind. -/
theorem isAt_head?_eq_false {p : UInt8 → Bool} {ch : Char} (h : Stops p t) (hch : p (byte ch)) :
    isAt t.head? ch = false := by
  cases t with
  | nil => rfl
  | cons c rest =>
    refine Bool.eq_false_iff.mpr fun hat => ?_
    have hc := h c rfl
    rw [isAt_some hat, hch] at hc
    cases hc

theorem skipWhole_complete {whole : List UInt8} (h : IsWhole whole) (ht : Stops isDigit t) :
    skipWhole (whole ++ t) = .ok () t := by
  cases h with
  | zero =>
    cases t with
    | nil => rfl
    | cons d rest =>
      show (if isDigit d then refuseNext .invalidNumber else pure () : Reader Unit) (d :: rest) = _
      rw [ht d rfl]
      rfl
  | @digits d rest hdigit hne hrest =>
    show (if d == byte '0' then _ else if isDigit d then _ else _ : Reader Unit) (rest ++ t) = _
    rw [if_neg (by simpa using hne), if_pos hdigit]
    exact bind_eq_ok.mpr ⟨_, _, skipDigits_complete hrest ht, rfl⟩

theorem skipFraction_complete {fraction : List UInt8} (h : IsFraction fraction)
    (hdigit : Stops isDigit t) (hpoint : Stops (· == byte '.') t) :
    skipFraction (fraction ++ t) = .ok () t := by
  cases h with
  | none =>
    show (if isAt t.head? '.' then _ else pure () : Reader Unit) t = _
    rw [isAt_head?_eq_false hpoint (by decide)]
    rfl
  | @digits ds hds =>
    refine bind_eq_ok.mpr ⟨some (byte '.'), _, rfl, ?_⟩
    rw [if_pos (by rfl)]
    refine bind_eq_ok.mpr ⟨(), ds ++ t, rfl, ?_⟩
    refine bind_eq_ok.mpr ⟨ds.length, t, skipDigits_complete hds.2 hdigit, ?_⟩
    rw [if_neg (by simpa using hds.1)]
    rfl

theorem skipSign_complete {sign : List UInt8} {d : UInt8}
    (h : sign = [] ∨ sign = [byte '+'] ∨ sign = [byte '-']) (hdigit : isDigit d) :
    skipSign (sign ++ d :: t) = .ok () (d :: t) := by
  rcases h with rfl | rfl | rfl
  · have hplus : isAt (some d) '+' = false := by
      refine Bool.eq_false_iff.mpr fun hat => ?_
      rw [isAt_some hat] at hdigit
      cases hdigit
    have hminus : isAt (some d) '-' = false := by
      refine Bool.eq_false_iff.mpr fun hat => ?_
      rw [isAt_some hat] at hdigit
      cases hdigit
    show (if isAt (some d) '+' || isAt (some d) '-' then _ else pure () : Reader Unit) (d :: t) = _
    rw [hplus, hminus]
    rfl
  · rfl
  · rfl

theorem skipExponent_complete {exponent : List UInt8} (h : IsExponent exponent)
    (ht : Stops isNumeral t) : skipExponent (exponent ++ t) = .ok () t := by
  cases h with
  | none =>
    show (if isAt t.head? 'e' || isAt t.head? 'E' then _ else pure () : Reader Unit) t = _
    rw [isAt_head?_eq_false ht (by decide), isAt_head?_eq_false ht (by decide)]
    rfl
  | @digits mark sign ds hmark hsign hds =>
    obtain ⟨hne, hdigits⟩ := hds
    obtain ⟨d, more, rfl⟩ := List.exists_cons_of_ne_nil hne
    obtain ⟨hd, hmore⟩ := List.forall_mem_cons.mp hdigits
    have hmarks : marksExponent (some mark) := by
      rcases hmark with rfl | rfl <;> decide
    rw [List.cons_append, List.append_assoc, List.cons_append]
    refine bind_eq_ok.mpr ⟨some mark, _, rfl, ?_⟩
    rw [if_pos hmarks]
    refine bind_eq_ok.mpr ⟨(), sign ++ d :: (more ++ t), rfl, ?_⟩
    refine bind_eq_ok.mpr ⟨(), d :: (more ++ t), skipSign_complete hsign hd, ?_⟩
    refine bind_eq_ok.mpr ⟨some d, more ++ t, rfl, ?_⟩
    dsimp only
    rw [if_pos hd]
    have hdigit := stops_of_imp ht fun _ => isNumeral_of_isDigit
    exact bind_eq_ok.mpr ⟨_, _, skipDigits_complete hmore hdigit, rfl⟩

theorem stops_fraction {fraction : List UInt8} (h : IsFraction fraction) (ht : Stops isDigit t) :
    Stops isDigit (fraction ++ t) := by
  cases h with
  | none => exact ht
  | digits => exact stops_cons (by decide) _

theorem stops_exponent {exponent : List UInt8} {p : UInt8 → Bool} (h : IsExponent exponent)
    (hmarks : p (byte 'e') = false ∧ p (byte 'E') = false) (ht : Stops p t) :
    Stops p (exponent ++ t) := by
  cases h with
  | none => exact ht
  | digits hmark =>
    rcases hmark with rfl | rfl
    · exact stops_cons hmarks.1 _
    · exact stops_cons hmarks.2 _

theorem skipNumber_complete {number : List UInt8} (h : IsUnsigned number)
    (ht : Stops isNumeral t) : skipNumber (number ++ t) = .ok () t := by
  obtain @⟨whole, fraction, exponent, hwhole, hfraction, hexponent⟩ := h
  have hdigit : Stops isDigit (exponent ++ t) :=
    stops_exponent hexponent (by decide) (stops_of_imp ht fun _ => isNumeral_of_isDigit)
  have hpoint : Stops (· == byte '.') (exponent ++ t) := by
    refine stops_exponent hexponent (by decide) (stops_of_imp ht fun b hb => ?_)
    rw [eq_of_beq hb]
    decide
  rw [List.append_assoc, List.append_assoc]
  refine bind_eq_ok.mpr ⟨(), _, skipWhole_complete hwhole (stops_fraction hfraction hdigit), ?_⟩
  refine bind_eq_ok.mpr ⟨(), _, skipFraction_complete hfraction hdigit hpoint, ?_⟩
  exact skipExponent_complete hexponent ht

/-! ## Strings -/

theorem hexEscape_complete {a b c d : UInt8} {n : Nat} (h : HexNumber a b c d n) :
    hexEscape (a :: b :: c :: d :: t) = .ok n t := by
  obtain ⟨i, j, k, l, hi, hj, hk, hl, rfl⟩ := h
  refine bind_eq_ok.mpr ⟨_, _, rfl, ?_⟩
  dsimp only
  refine bind_eq_ok.mpr ⟨(), t, rfl, ?_⟩
  rw [hi, hj, hk, hl]
  rfl

theorem skipEscape_short {c : UInt8} (h : (shortEscape? c).isSome) :
    skipEscape (c :: t) = .ok () t := by
  have hu : c ≠ byte 'u' := by
    rintro rfl
    cases h
  refine bind_eq_ok.mpr ⟨some c, t, rfl, ?_⟩
  dsimp only
  rw [if_neg (by simpa using hu), if_neg (by simpa using Option.isSome_iff_ne_none.mp h)]
  rfl

theorem skipEscape_unicode {a b c d : UInt8} {n : Nat} (h : HexNumber a b c d n) :
    skipEscape (byte 'u' :: a :: b :: c :: d :: t) = .ok () t := by
  refine bind_eq_ok.mpr ⟨some (byte 'u'), _, rfl, ?_⟩
  exact bind_eq_ok.mpr ⟨n, t, hexEscape_complete h, rfl⟩

theorem skipString_complete {fuel : Nat} {body : List UInt8} (h : IsStringBody body)
    (hfuel : body.length < fuel) : skipString fuel (body ++ byte '"' :: t) = .ok () t := by
  induction h generalizing fuel with
  | nil =>
    obtain ⟨fuel, rfl⟩ := Nat.exists_eq_add_one_of_ne_zero (Nat.ne_zero_of_lt hfuel)
    rfl
  | @plain b rest hplain _ ih =>
    obtain ⟨fuel, rfl⟩ := Nat.exists_eq_add_one_of_ne_zero (Nat.ne_zero_of_lt hfuel)
    obtain ⟨hquote, hback, hlow⟩ := hplain
    rw [skipString]
    refine bind_eq_ok.mpr ⟨some b, _, rfl, ?_⟩
    dsimp only
    rw [if_neg (by simpa using hquote), if_neg (by simpa using hback), if_neg hlow]
    exact bind_eq_ok.mpr ⟨(), _, rfl, ih (Nat.lt_of_succ_lt_succ hfuel)⟩
  | @short c rest hc _ ih =>
    obtain ⟨fuel, rfl⟩ := Nat.exists_eq_add_one_of_ne_zero (Nat.ne_zero_of_lt hfuel)
    rw [skipString]
    refine bind_eq_ok.mpr ⟨some (byte '\\'), _, rfl, ?_⟩
    refine bind_eq_ok.mpr ⟨(), _, rfl, ?_⟩
    refine bind_eq_ok.mpr ⟨(), _, skipEscape_short hc, ih ?_⟩
    simp only [List.length_cons] at hfuel
    omega
  | @unicode a b c d n rest hn _ ih =>
    obtain ⟨fuel, rfl⟩ := Nat.exists_eq_add_one_of_ne_zero (Nat.ne_zero_of_lt hfuel)
    rw [skipString]
    refine bind_eq_ok.mpr ⟨some (byte '\\'), _, rfl, ?_⟩
    refine bind_eq_ok.mpr ⟨(), _, rfl, ?_⟩
    refine bind_eq_ok.mpr ⟨(), _, skipEscape_unicode hn, ih ?_⟩
    simp only [List.length_cons] at hfuel
    omega

/-! ## Values -/

theorem skipWord_complete (cs : List Char) (opened : Option Frame) (c : UInt8) (t : List UInt8) :
    (do drop; restOfWord cs; return opened : Reader (Option Frame)) (c :: (word cs ++ t)) =
      .ok opened t :=
  bind_eq_ok.mpr ⟨(), _, rfl, bind_eq_ok.mpr ⟨(), t, restOfWord_complete cs t, rfl⟩⟩

theorem skipScalar_complete {c : UInt8} {rest : List UInt8} (h : GoesOn c rest)
    (ht : Stops isNumeral t) : skipScalar c (c :: (rest ++ t)) = .ok none t := by
  unfold GoesOn at h
  unfold skipScalar
  by_cases hn : c = byte 'n'
  · subst hn
    rw [if_pos rfl] at h
    rw [h]
    exact skipWord_complete ['u', 'l', 'l'] none _ t
  rw [if_neg hn] at h
  rw [if_neg (by simpa using hn)]
  by_cases htrue : c = byte 't'
  · subst htrue
    rw [if_pos rfl] at h
    rw [h]
    exact skipWord_complete ['r', 'u', 'e'] none _ t
  rw [if_neg htrue] at h
  rw [if_neg (by simpa using htrue)]
  by_cases hf : c = byte 'f'
  · subst hf
    rw [if_pos rfl] at h
    rw [h]
    exact skipWord_complete ['a', 'l', 's', 'e'] none _ t
  rw [if_neg hf] at h
  rw [if_neg (by simpa using hf)]
  by_cases hminus : c = byte '-'
  · subst hminus
    rw [if_pos rfl] at h
    exact bind_eq_ok.mpr ⟨(), _, rfl, bind_eq_ok.mpr ⟨(), t, skipNumber_complete h ht, rfl⟩⟩
  rw [if_neg hminus] at h
  rw [if_neg (by simpa using hminus)]
  by_cases hquote : c = byte '"'
  · subst hquote
    rw [if_pos rfl] at h
    obtain ⟨body, hbody, rfl⟩ := h
    rw [List.append_assoc]
    refine bind_eq_ok.mpr ⟨(), _, rfl, bind_eq_ok.mpr ⟨_, _, rfl, ?_⟩⟩
    have hfuel : body.length < (body ++ byte '"' :: t).length + 1 := by
      rw [List.length_append]
      omega
    exact bind_eq_ok.mpr ⟨(), t, skipString_complete hbody hfuel, rfl⟩
  · rw [if_neg hquote] at h
    rw [if_pos h.1]
    exact bind_eq_ok.mpr ⟨(), t, skipNumber_complete h.2 ht, rfl⟩

theorem skipScalar_opening (frame : Frame) (t : List UInt8) :
    skipScalar frame.opening (frame.opening :: t) = .ok (some frame) t := by
  cases frame <;> rfl

theorem takeMark_complete {mark : Char} {blanks : List UInt8} (otherwise : Cause)
    (h : AreBlanks blanks) (hmark : isBlank (byte mark) = false) :
    takeMark mark otherwise (blanks ++ byte mark :: t) = .ok () t := by
  unfold takeMark
  rw [peekPastBlanks_eq h hmark]
  dsimp only
  rw [if_pos (BEq.refl (byte mark))]
  rfl

/-- The name of a member is skipped up to its colon. -/
theorem skipKey_complete {blanks body blanks' : List UInt8} (h : AreBlanks blanks)
    (hbody : IsStringBody body) (h' : AreBlanks blanks') :
    skipKey (blanks ++ (byte '"' :: (body ++ byte '"' :: (blanks' ++ byte ':' :: t)))) =
      .ok () t := by
  refine bind_eq_ok.mpr ⟨(), _, takeMark_complete .keyNotString h (by decide), ?_⟩
  refine bind_eq_ok.mpr ⟨_, _, rfl, ?_⟩
  refine bind_eq_ok.mpr ⟨(), _, skipString_complete hbody ?_, ?_⟩
  · rw [List.length_append]
    omega
  · exact takeMark_complete .expectedColon h' (by decide)

/-! ## Open frames -/

theorem skipClosing_closing {behindValue : Bool} {frame : Frame} {outer : List Frame}
    {blanks : List UInt8} (h : AreBlanks blanks) (t : List UInt8) :
    skipClosing behindValue (frame :: outer) (blanks ++ frame.closing :: t) =
      skipClosing true outer t := by
  obtain ⟨hblank, hcomma⟩ := closing_first frame
  rw [skipClosing, peekPastBlanks_eq h hblank]
  dsimp only
  rw [closing_eq, beq_eq_false_iff_ne.mpr hcomma, Bool.and_false, if_neg Bool.false_ne_true,
    if_pos (BEq.refl _)]
  rfl

/-- Behind a value frames are closed up to the next value. -/
theorem skipClosing_complete {frames : List Frame} {rest : List UInt8} (h : Closes frames rest)
    (t : List UInt8) :
    ∃ frames' w, skipClosing true frames (rest ++ t) = .ok frames' (w ++ t) ∧
      Resumes frames' w ∧ w.length ≤ rest.length := by
  induction h with
  | none => exact ⟨[], [], rfl, .none, Nat.le_refl 0⟩
  | @frame frame outer tail rest htail hrest ih =>
    cases htail with
    | close _ hblanks =>
      obtain ⟨frames', w, hskip, hresumes, hlength⟩ := ih
      refine ⟨frames', w, ?_, hresumes, ?_⟩
      · rw [List.append_assoc, List.append_assoc, List.singleton_append,
          skipClosing_closing hblanks, hskip]
      · rw [List.length_append]
        omega
    | @next _ blanks lead value tail hblanks hlead hvalue htail =>
      refine ⟨frame :: outer, lead ++ (value ++ (tail ++ rest)), ?_,
        .frame hlead hvalue (.frame htail hrest), ?_⟩
      · simp only [List.append_assoc, List.cons_append]
        rw [skipClosing, peekPastBlanks_eq hblanks (by decide)]
        rfl
      · simp only [List.append_assoc, List.cons_append, List.length_append, List.length_cons]
        omega

/-- Behind the bracket that opens a frame is the first value inside of it, if there is one. -/
theorem skipClosing_opened {frame : Frame} {outer : List Frame} {lead value rest : List UInt8}
    (hlead : IsLead frame lead) (hvalue : IsValue value) (hrest : Closes (frame :: outer) rest)
    (t : List UInt8) :
    ∃ w, skipClosing false (frame :: outer) (lead ++ (value ++ (rest ++ t))) =
        .ok (frame :: outer) (w ++ t) ∧
      Resumes (frame :: outer) w ∧ w.length ≤ (lead ++ (value ++ rest)).length := by
  obtain ⟨c, more, rfl, hc, hne⟩ := hvalue.exists_first
  obtain ⟨blanks, lead, d, behind, rfl, hblanks, hlead, hfirst, hd, hclosing⟩ :=
    hlead.exists_first hc hne (more ++ (rest ++ t))
  refine ⟨lead ++ (c :: more ++ rest), ?_, .frame hlead hvalue hrest, by simp⟩
  rw [skipClosing, List.append_assoc, List.cons_append, hfirst, peekPastBlanks_eq hblanks hd]
  dsimp only
  rw [closing_eq, Bool.false_and, if_neg Bool.false_ne_true, if_neg (by simpa using hclosing),
    if_neg Bool.false_ne_true, ← hfirst]
  show EStateM.Result.ok (frame :: outer) (lead ++ c :: (more ++ (rest ++ t))) = _
  simp only [List.append_assoc, List.cons_append]

/-- One step of skipping in open frames: what is skipped at once, and what closes frames behind it.
Less is left then. -/
theorem exists_resumes {frames : List Frame} {value rest : List UInt8} (hvalue : IsValue value)
    (hrest : Closes frames rest) (ht : Stops isNumeral (rest ++ t)) :
    ∃ c more, value = c :: more ∧ isBlank c = false ∧
      ∃ opened u frames' w, skipScalar c (value ++ (rest ++ t)) = .ok opened u ∧
        skipClosing opened.isNone (opened.toList ++ frames) u = .ok frames' (w ++ t) ∧
        Resumes frames' w ∧ w.length < (value ++ rest).length := by
  obtain ⟨c, more, hfirst, hc, -⟩ := hvalue.exists_first
  refine ⟨c, more, hfirst, hc, ?_⟩
  cases hvalue with
  | scalar h =>
    obtain ⟨c', more', rfl, hgoes⟩ := h.exists_goesOn
    cases hfirst
    obtain ⟨frames', w, hskip, hresumes, hlength⟩ := skipClosing_complete hrest t
    refine ⟨none, rest ++ t, frames', w, skipScalar_complete hgoes ht, hskip, hresumes, ?_⟩
    rw [List.length_append, List.length_cons]
    omega
  | @empty blanks frame hblanks =>
    cases hfirst
    obtain ⟨frames', w, hskip, hresumes, hlength⟩ := skipClosing_complete hrest t
    refine ⟨some frame, blanks ++ frame.closing :: (rest ++ t), frames', w, ?_, ?_, hresumes, ?_⟩
    · rw [← skipScalar_opening, List.cons_append, List.append_assoc, List.singleton_append]
    · exact (skipClosing_closing hblanks _).trans hskip
    · rw [List.length_append, List.length_cons]
      omega
  | @filled frame lead value tail hlead hvalue htail =>
    cases hfirst
    obtain ⟨w, hskip, hresumes, hlength⟩ :=
      skipClosing_opened hlead hvalue (.frame htail hrest) t
    refine ⟨some frame, _, frame :: frames, w, ?_, hskip, hresumes, ?_⟩
    · rw [← skipScalar_opening, List.cons_append]
      simp only [List.append_assoc]
    · simp only [List.length_append, List.length_cons] at hlength ⊢
      omega

/-- A value is skipped inside open frames, with what closes them. -/
theorem skipIn_complete {fuel : Nat} {frames : List Frame} {blanks value rest : List UInt8}
    (hblanks : AreBlanks blanks) (hvalue : IsValue value) (hrest : Closes frames rest)
    (ht : Stops isNumeral (rest ++ t)) (hfuel : (value ++ rest).length < fuel) :
    skipIn fuel frames (blanks ++ (value ++ (rest ++ t))) = .ok () t := by
  induction fuel generalizing frames blanks value rest with
  | zero => exact absurd hfuel (Nat.not_lt_zero _)
  | succ fuel ih =>
    obtain ⟨c, more, rfl, hc, opened, u, frames', w, hscalar, hclosing, hresumes, hless⟩ :=
      exists_resumes hvalue hrest ht
    rw [skipIn, List.cons_append, peekPastBlanks_eq hblanks hc]
    refine bind_eq_ok.mpr ⟨opened, u, hscalar, bind_eq_ok.mpr ⟨frames', w ++ t, hclosing, ?_⟩⟩
    -- the next value stands in the frames left open, with less behind it than there is fuel
    cases hresumes with
    | none => rfl
    | @frame frame outer lead value rest hlead hvalue hrest =>
      have hstops : Stops isNumeral (rest ++ t) := by
        cases hrest with
        | frame htail =>
          rw [List.append_assoc]
          exact htail.stops _
      have hleft : (value ++ rest).length < fuel := by
        rw [List.length_append] at hless
        omega
      cases hlead with
      | list hblanks => simpa using ih hblanks hvalue hrest hstops hleft
      | object h hbody h' h'' =>
        refine bind_eq_ok.mpr ⟨(), _, ?_, ih h'' hvalue hrest hstops hleft⟩
        simpa using skipKey_complete h hbody h'

/-- Every value is skipped. -/
theorem skip_complete {blanks value : List UInt8} (hblanks : AreBlanks blanks)
    (hvalue : IsValue value) (ht : Stops isNumeral t) :
    skip (blanks ++ (value ++ t)) = .ok () t := by
  refine bind_eq_ok.mpr ⟨_, _, rfl, skipIn_complete hblanks hvalue .none ht ?_⟩
  simp only [List.length_append, List.length_nil]
  omega

/-- The text of every value is kept. -/
theorem verbatim_complete {blanks : List UInt8} {text : String} (hblanks : AreBlanks blanks)
    (hvalue : IsValue (Text.encode text)) (ht : Stops isNumeral t) :
    verbatim (blanks ++ (Text.encode text ++ t)) = .ok text t := by
  obtain ⟨c, more, hfirst, hc, -⟩ := hvalue.exists_first
  have hpast : peekPastBlanks (blanks ++ (Text.encode text ++ t)) =
      .ok (some c) (Text.encode text ++ t) := by
    rw [hfirst, List.cons_append, ← bind_pure peekPastBlanks]
    exact peekPastBlanks_eq hblanks hc
  have hskip : skip (Text.encode text ++ t) = .ok () t := skip_complete areBlanks_nil hvalue ht
  have hkept : (Text.encode text ++ t).take ((Text.encode text ++ t).length - t.length) =
      Text.encode text := by
    rw [List.length_append, Nat.add_sub_cancel]
    exact List.take_left
  refine bind_eq_ok.mpr ⟨some c, _, hpast, bind_eq_ok.mpr ⟨_, _, rfl, ?_⟩⟩
  refine bind_eq_ok.mpr ⟨(), t, hskip, bind_eq_ok.mpr ⟨t, t, rfl, ?_⟩⟩
  rw [hkept, textOf, Text.fromUTF8?_eq_some_iff.mpr rfl]
  rfl

end Bulletin.Json.Reader
