import Bulletin.Proofs.Encoding
import Bulletin.Proofs.Json.Grammar
import Mathlib.Data.List.DropRight
import Mathlib.Data.List.TakeDrop

/-!
# What is skipped is a value

Skipping a value keeps a stack of the brackets that are open. What a stack still wants of the bytes
is said by `Closes`: for each frame, from the inside out, what stands behind a value in it up to its
closing bracket. A skipped value is then whatever fills the innermost frame, and with no frame open
it is a value by itself:

    skipIn_sound   : what is skipped in open frames is a value and what closes them
    skip_sound     : what is skipped is a value
    verbatim_sound : what is kept is the very text of the value
-/

namespace Bulletin.Json.Reader

variable {α β : Type} {s t : List UInt8}

/-! ## Readers one after the other -/

theorem bind_eq_ok {r : Reader α} {f : α → Reader β} {b : β} :
    (r >>= f) s = .ok b t ↔ ∃ a u, r s = .ok a u ∧ f a u = .ok b t := by
  show EStateM.bind r f s = _ ↔ _
  unfold EStateM.bind
  cases r s with
  | ok a u =>
    constructor
    · exact fun h => ⟨a, u, rfl, h⟩
    · rintro ⟨_, _, hr, h⟩
      cases hr
      exact h
  | error e u => simp

theorem bind_eq_of_ok {r : Reader α} {f : α → Reader β} {a : α} {u : List UInt8}
    (h : r s = .ok a u) : (r >>= f) s = f a u := by
  show EStateM.bind r f s = _
  unfold EStateM.bind
  rw [h]

theorem take_cases {f : Option UInt8 → Reader β} {b : β} (h : (take >>= f) s = .ok b t) :
    (s = [] ∧ f none [] = .ok b t) ∨ ∃ c rest, s = c :: rest ∧ f (some c) rest = .ok b t := by
  cases s with
  | nil => exact .inl ⟨rfl, h⟩
  | cons c rest => exact .inr ⟨c, rest, rfl, h⟩

theorem peek_cases {f : Option UInt8 → Reader β} {b : β} (h : (peek >>= f) s = .ok b t) :
    (s = [] ∧ f none [] = .ok b t) ∨
      ∃ c rest, s = c :: rest ∧ f (some c) (c :: rest) = .ok b t := by
  cases s with
  | nil => exact .inl ⟨rfl, h⟩
  | cons c rest => exact .inr ⟨c, rest, rfl, h⟩

theorem peekPastBlanks_cases {f : Option UInt8 → Reader β} {b : β}
    (h : (peekPastBlanks >>= f) s = .ok b t) :
    (s.dropWhile isBlank = [] ∧ f none [] = .ok b t) ∨
      ∃ c rest, s.dropWhile isBlank = c :: rest ∧ f (some c) (c :: rest) = .ok b t := by
  have hpast : f (s.dropWhile isBlank).head? (s.dropWhile isBlank) = .ok b t := h
  cases hs : s.dropWhile isBlank with
  | nil =>
    rw [hs] at hpast
    exact .inl ⟨rfl, hpast⟩
  | cons c rest =>
    rw [hs] at hpast
    exact .inr ⟨c, rest, rfl, hpast⟩

theorem of_drop {f : Unit → Reader β} {c : UInt8} {b : β}
    (h : (drop >>= f) (c :: s) = .ok b t) : f () s = .ok b t := h

/-- White space in front is blanks. -/
theorem exists_blanks (s : List UInt8) :
    ∃ blanks, AreBlanks blanks ∧ s = blanks ++ s.dropWhile isBlank :=
  ⟨s.takeWhile isBlank, fun _ hb => List.all_eq_true.mp List.all_takeWhile _ hb,
    List.takeWhile_append_dropWhile.symm⟩

/-! ## Words and numbers -/

theorem restOfWord_sound {cs : List Char} (h : restOfWord cs s = .ok () t) : s = word cs ++ t := by
  induction cs generalizing s with
  | nil =>
    cases h
    rfl
  | cons w rest ih =>
    rcases take_cases h with ⟨-, hend⟩ | ⟨c, s', rfl, hnext⟩
    · cases hend
    · dsimp only at hnext
      split at hnext
      · rename_i hc
        rw [ih hnext, eq_of_beq hc]
        rfl
      · cases hnext

theorem skipDigits_sound {n : Nat} (h : skipDigits s = .ok n t) :
    ∃ ds, s = ds ++ t ∧ ds.length = n ∧ ∀ b ∈ ds, isDigit b := by
  have hspan : EStateM.Result.ok (s.span isDigit).1.length (s.span isDigit).2 =
      (.ok n t : EStateM.Result Refusal (List UInt8) Nat) := h
  rw [List.span_eq_takeWhile_dropWhile] at hspan
  cases hspan
  exact ⟨s.takeWhile isDigit, List.takeWhile_append_dropWhile.symm, rfl,
    fun _ hb => List.all_eq_true.mp List.all_takeWhile _ hb⟩

theorem skipWhole_sound (h : skipWhole s = .ok () t) :
    ∃ whole, s = whole ++ t ∧ IsWhole whole := by
  rcases take_cases h with ⟨-, hend⟩ | ⟨c, rest, rfl, hnext⟩
  · cases hend
  · dsimp only at hnext
    split at hnext
    · rename_i hc
      obtain rfl := eq_of_beq hc
      rcases peek_cases hnext with ⟨rfl, hend⟩ | ⟨d, rest', rfl, hdigit⟩
      · cases hend
        exact ⟨_, rfl, .zero⟩
      · dsimp only at hdigit
        split at hdigit
        · cases hdigit
        · cases hdigit
          exact ⟨_, rfl, .zero⟩
    · rename_i hc
      split at hnext
      · rename_i hdigit
        obtain ⟨n, u, hskip, hdone⟩ := bind_eq_ok.mp hnext
        cases hdone
        obtain ⟨ds, rfl, -, hds⟩ := skipDigits_sound hskip
        exact ⟨c :: ds, rfl, .digits hdigit (fun heq => hc (beq_iff_eq.mpr heq)) hds⟩
      · cases hnext

theorem isAt_some {c : UInt8} {ch : Char} (h : isAt (some c) ch) : c = byte ch :=
  Option.some.inj (eq_of_beq h)

theorem skipFraction_sound (h : skipFraction s = .ok () t) :
    ∃ fraction, s = fraction ++ t ∧ IsFraction fraction := by
  rcases peek_cases h with ⟨rfl, hend⟩ | ⟨c, rest, rfl, hnext⟩
  · cases hend
    exact ⟨[], rfl, .none⟩
  · split at hnext
    · rename_i hpoint
      obtain rfl := isAt_some hpoint
      have hnext := of_drop hnext
      obtain ⟨n, u, hskip, hnext⟩ := bind_eq_ok.mp hnext
      obtain ⟨ds, rfl, rfl, hds⟩ := skipDigits_sound hskip
      split at hnext
      · cases hnext
      · rename_i hsome
        cases hnext
        have hne : ds ≠ [] := fun hnil => hsome (by rw [hnil]; rfl)
        exact ⟨byte '.' :: ds, rfl, .digits ⟨hne, hds⟩⟩
    · cases hnext
      exact ⟨[], rfl, .none⟩

theorem skipSign_sound (h : skipSign s = .ok () t) :
    ∃ sign, s = sign ++ t ∧ (sign = [] ∨ sign = [byte '+'] ∨ sign = [byte '-']) := by
  rcases peek_cases h with ⟨rfl, hend⟩ | ⟨c, rest, rfl, hnext⟩
  · cases hend
    exact ⟨[], rfl, .inl rfl⟩
  · split at hnext
    · rename_i hsign
      cases hnext
      rcases Bool.or_eq_true_iff.mp hsign with hplus | hminus
      · obtain rfl := isAt_some hplus
        exact ⟨_, rfl, .inr (.inl rfl)⟩
      · obtain rfl := isAt_some hminus
        exact ⟨_, rfl, .inr (.inr rfl)⟩
    · cases hnext
      exact ⟨[], rfl, .inl rfl⟩

theorem skipExponent_sound (h : skipExponent s = .ok () t) :
    ∃ exponent, s = exponent ++ t ∧ IsExponent exponent := by
  rcases peek_cases h with ⟨rfl, hend⟩ | ⟨c, rest, rfl, hnext⟩
  · cases hend
    exact ⟨[], rfl, .none⟩
  · split at hnext
    · rename_i hmark
      have hmark : c = byte 'e' ∨ c = byte 'E' :=
        (Bool.or_eq_true_iff.mp hmark).imp isAt_some isAt_some
      have hnext := of_drop hnext
      obtain ⟨_, u, hskip, hafter⟩ := bind_eq_ok.mp hnext
      obtain ⟨sign, rfl, hsign⟩ := skipSign_sound hskip
      rcases take_cases hafter with ⟨-, hend⟩ | ⟨d, rest', rfl, hlast⟩
      · cases hend
      · dsimp only at hlast
        split at hlast
        · rename_i hdigit
          obtain ⟨n, v, hskip, hdone⟩ := bind_eq_ok.mp hlast
          cases hdone
          obtain ⟨ds, rfl, -, hds⟩ := skipDigits_sound hskip
          have hdigits : AreDigits (d :: ds) :=
            ⟨List.cons_ne_nil d ds, List.forall_mem_cons.mpr ⟨hdigit, hds⟩⟩
          exact ⟨_, by simp, .digits hmark hsign hdigits⟩
        · cases hlast
    · cases hnext
      exact ⟨[], rfl, .none⟩

theorem skipNumber_sound (h : skipNumber s = .ok () t) :
    ∃ number, s = number ++ t ∧ IsUnsigned number := by
  obtain ⟨_, u, hwhole, hrest⟩ := bind_eq_ok.mp h
  obtain ⟨_, v, hfraction, hexponent⟩ := bind_eq_ok.mp hrest
  obtain ⟨whole, rfl, iswhole⟩ := skipWhole_sound hwhole
  obtain ⟨fraction, rfl, isfraction⟩ := skipFraction_sound hfraction
  obtain ⟨exponent, rfl, isexponent⟩ := skipExponent_sound hexponent
  exact ⟨whole ++ (fraction ++ exponent), by simp, .mk iswhole isfraction isexponent⟩

/-! ## Strings -/

theorem hexEscape_sound {n : Nat} (h : hexEscape s = .ok n t) :
    ∃ a b c d, s = a :: b :: c :: d :: t ∧ HexNumber a b c d n := by
  rcases s with _ | ⟨a, _ | ⟨b, _ | ⟨c, _ | ⟨d, rest⟩⟩⟩⟩
  · cases h
  · cases h
  · cases h
  · cases h
  · obtain ⟨_, u, hget, hnext⟩ := bind_eq_ok.mp h
    cases hget
    obtain ⟨_, u, hset, hvalues⟩ := bind_eq_ok.mp hnext
    cases hset
    cases ha : hexValue? a with
    | none => rw [ha] at hvalues; cases hvalues
    | some i =>
      cases hb : hexValue? b with
      | none => rw [ha, hb] at hvalues; cases hvalues
      | some j =>
        cases hc : hexValue? c with
        | none => rw [ha, hb, hc] at hvalues; cases hvalues
        | some k =>
          cases hd : hexValue? d with
          | none => rw [ha, hb, hc, hd] at hvalues; cases hvalues
          | some l =>
            rw [ha, hb, hc, hd] at hvalues
            cases hvalues
            exact ⟨a, b, c, d, rfl, i, j, k, l, ha, hb, hc, hd, rfl⟩

theorem skipEscape_sound (h : skipEscape s = .ok () t) :
    (∃ c, s = c :: t ∧ (shortEscape? c).isSome) ∨
      ∃ a b c d n, s = byte 'u' :: a :: b :: c :: d :: t ∧ HexNumber a b c d n := by
  rcases take_cases h with ⟨-, hend⟩ | ⟨c, rest, rfl, hnext⟩
  · cases hend
  · dsimp only at hnext
    split at hnext
    · rename_i hc
      obtain rfl := eq_of_beq hc
      obtain ⟨n, u, hhex, hdone⟩ := bind_eq_ok.mp hnext
      cases hdone
      obtain ⟨a, b, c, d, rfl, hn⟩ := hexEscape_sound hhex
      exact .inr ⟨a, b, c, d, n, rfl, hn⟩
    · split at hnext
      · cases hnext
      · rename_i hshort
        cases hnext
        exact .inl ⟨c, rfl, Option.isSome_iff_ne_none.mpr (by simpa using hshort)⟩

theorem skipString_sound {fuel : Nat} (h : skipString fuel s = .ok () t) :
    ∃ body, s = body ++ byte '"' :: t ∧ IsStringBody body := by
  induction fuel generalizing s with
  | zero => cases h
  | succ fuel ih =>
    rw [skipString] at h
    rcases peek_cases h with ⟨-, hend⟩ | ⟨c, rest, rfl, hnext⟩
    · cases hend
    · dsimp only at hnext
      split at hnext
      · rename_i hquote
        obtain rfl := eq_of_beq hquote
        cases hnext
        exact ⟨[], rfl, .nil⟩
      · rename_i hquote
        split at hnext
        · rename_i hback
          obtain rfl := eq_of_beq hback
          obtain ⟨_, u, hescape, hrest⟩ := bind_eq_ok.mp (of_drop hnext)
          obtain ⟨body, rfl, hbody⟩ := ih hrest
          rcases skipEscape_sound hescape with ⟨c, rfl, hc⟩ | ⟨a, b, c, d, n, rfl, hn⟩
          · exact ⟨_, rfl, .short hc hbody⟩
          · exact ⟨_, rfl, .unicode hn hbody⟩
        · rename_i hback
          split at hnext
          · cases hnext
          · rename_i hlow
            obtain ⟨body, rfl, hbody⟩ := ih (of_drop hnext)
            have hplain : IsPlain c :=
              ⟨fun heq => hquote (beq_iff_eq.mpr heq), fun heq => hback (beq_iff_eq.mpr heq), hlow⟩
            exact ⟨c :: body, rfl, .plain hplain hbody⟩

/-! ## Values -/

theorem skipWord_sound {cs : List Char} {opened : Option Frame} {c : UInt8}
    (h : (do drop; restOfWord cs; return none : Reader (Option Frame)) (c :: s) = .ok opened t) :
    opened = none ∧ c :: s = c :: word cs ++ t := by
  obtain ⟨_, u, hword, hdone⟩ := bind_eq_ok.mp (of_drop h)
  cases hdone
  rw [restOfWord_sound hword]
  exact ⟨rfl, rfl⟩

/-- What is skipped at once: a value that is no list and no object, or a bracket that opens. -/
theorem skipScalar_sound {c : UInt8} {opened : Option Frame}
    (h : skipScalar c (c :: s) = .ok opened t) :
    (opened = none ∧ ∃ text, c :: s = text ++ t ∧ IsScalar text) ∨
      ∃ frame, opened = some frame ∧ c = frame.opening ∧ s = t := by
  unfold skipScalar at h
  split at h
  · rename_i hc
    obtain rfl := eq_of_beq hc
    obtain ⟨rfl, htext⟩ := skipWord_sound h
    exact .inl ⟨rfl, _, htext, .null⟩
  split at h
  · rename_i hc
    obtain rfl := eq_of_beq hc
    obtain ⟨rfl, htext⟩ := skipWord_sound h
    exact .inl ⟨rfl, _, htext, .yes⟩
  split at h
  · rename_i hc
    obtain rfl := eq_of_beq hc
    obtain ⟨rfl, htext⟩ := skipWord_sound h
    exact .inl ⟨rfl, _, htext, .no⟩
  split at h
  · rename_i hc
    obtain rfl := eq_of_beq hc
    obtain ⟨_, u, hskip, hdone⟩ := bind_eq_ok.mp (of_drop h)
    cases hdone
    obtain ⟨number, rfl, hnumber⟩ := skipNumber_sound hskip
    exact .inl ⟨rfl, _, rfl, .negative hnumber⟩
  split at h
  · obtain ⟨_, u, hskip, hdone⟩ := bind_eq_ok.mp h
    cases hdone
    obtain ⟨number, hsplit, hnumber⟩ := skipNumber_sound hskip
    exact .inl ⟨rfl, _, hsplit, .positive hnumber⟩
  split at h
  · rename_i hc
    obtain rfl := eq_of_beq hc
    obtain ⟨s', u, hget, hnext⟩ := bind_eq_ok.mp (of_drop h)
    cases hget
    obtain ⟨_, v, hskip, hdone⟩ := bind_eq_ok.mp hnext
    cases hdone
    obtain ⟨body, rfl, hbody⟩ := skipString_sound hskip
    exact .inl ⟨rfl, byte '"' :: (body ++ [byte '"']), by simp, .string hbody⟩
  split at h
  · rename_i hc
    obtain rfl := eq_of_beq hc
    cases of_drop h
    exact .inr ⟨.list, rfl, rfl, rfl⟩
  split at h
  · rename_i hc
    obtain rfl := eq_of_beq hc
    cases of_drop h
    exact .inr ⟨.object, rfl, rfl, rfl⟩
  cases h

theorem takeMark_sound {mark : Char} {otherwise : Cause}
    (h : takeMark mark otherwise s = .ok () t) :
    ∃ blanks, s = blanks ++ byte mark :: t ∧ AreBlanks blanks := by
  obtain ⟨blanks, hblanks, hs⟩ := exists_blanks s
  rcases peekPastBlanks_cases h with ⟨-, hend⟩ | ⟨c, rest, hrest, hnext⟩
  · cases hend
  · dsimp only at hnext
    split at hnext
    · rename_i hc
      obtain rfl := eq_of_beq hc
      cases hnext
      rw [hrest] at hs
      exact ⟨blanks, hs, hblanks⟩
    · cases hnext

theorem skipKey_sound (h : skipKey s = .ok () t) : ∃ key, s = key ++ t ∧ IsLead .object key := by
  obtain ⟨_, u, hquote, hnext⟩ := bind_eq_ok.mp h
  obtain ⟨blanks, rfl, hblanks⟩ := takeMark_sound hquote
  obtain ⟨s', v, hget, hstring⟩ := bind_eq_ok.mp hnext
  cases hget
  obtain ⟨_, v, hskip, hcolon⟩ := bind_eq_ok.mp hstring
  obtain ⟨body, rfl, hbody⟩ := skipString_sound hskip
  obtain ⟨blanks', rfl, hblanks'⟩ := takeMark_sound hcolon
  exact ⟨_, by simp, .object hblanks hbody hblanks' areBlanks_nil⟩

/-! ## Open frames -/

/-- Bytes stand behind a value inside the open frames, from the inside out, and close all. -/
inductive Closes : List Frame → List UInt8 → Prop where
  | none : Closes [] []
  | frame {frame : Frame} {outer : List Frame} {tail rest : List UInt8} (htail : IsTail frame tail)
      (hrest : Closes outer rest) : Closes (frame :: outer) (tail ++ rest)

/-- Bytes stand where the next value does inside the open frames, and close all. -/
inductive Resumes : List Frame → List UInt8 → Prop where
  | none : Resumes [] []
  | frame {frame : Frame} {outer : List Frame} {lead value rest : List UInt8}
      (hlead : IsLead frame lead) (hvalue : IsValue value) (hrest : Closes (frame :: outer) rest) :
      Resumes (frame :: outer) (lead ++ (value ++ rest))

theorem closing_eq (frame : Frame) :
    (if frame == .list then byte ']' else byte '\x7d') = frame.closing := by
  cases frame <;> rfl

/-- Behind a value comes what closes some frames, and then the next value. -/
theorem skipClosing_sound {frames frames' : List Frame}
    (h : skipClosing true frames s = .ok frames' t) :
    ∃ u, s = u ++ t ∧ ∀ w, Resumes frames' w → Closes frames (u ++ w) := by
  induction frames generalizing s with
  | nil =>
    cases h
    refine ⟨[], rfl, fun w hw => ?_⟩
    cases hw
    exact .none
  | cons frame outer ih =>
    rw [skipClosing] at h
    obtain ⟨blanks, hblanks, hs⟩ := exists_blanks s
    rcases peekPastBlanks_cases h with ⟨-, hend⟩ | ⟨c, rest, hrest, hnext⟩
    · cases hend
    · rw [hrest] at hs
      dsimp only at hnext
      rw [closing_eq] at hnext
      split at hnext
      · rename_i hcomma
        obtain rfl := eq_of_beq hcomma
        cases hnext
        refine ⟨blanks ++ [byte ','], by rw [hs]; simp, fun w hw => ?_⟩
        cases hw with
        | frame hlead hvalue hcloses =>
          cases hcloses with
          | frame htail houter =>
            have hnext := Closes.frame (.next hblanks hlead hvalue htail) houter
            simpa using hnext
      · split at hnext
        · rename_i hclosing
          obtain rfl := eq_of_beq hclosing
          obtain ⟨u, rfl, hu⟩ := ih (of_drop hnext)
          refine ⟨blanks ++ frame.closing :: u, by rw [hs]; simp, fun w hw => ?_⟩
          have hclose := Closes.frame (.close frame hblanks) (hu w hw)
          simpa using hclose
        · cases hnext

/-- Behind a bracket that opens comes the one that closes it, or the first value between them. -/
theorem skipClosing_opened_sound {frame : Frame} {outer frames' : List Frame}
    (h : skipClosing false (frame :: outer) s = .ok frames' t) :
    ∃ u, s = u ++ t ∧ ∀ w, Resumes frames' w →
      ∃ value rest, frame.opening :: (u ++ w) = value ++ rest ∧ IsValue value ∧
        Closes outer rest := by
  rw [skipClosing] at h
  obtain ⟨blanks, hblanks, hs⟩ := exists_blanks s
  rcases peekPastBlanks_cases h with ⟨-, hend⟩ | ⟨c, rest, hrest, hnext⟩
  · cases hend
  · rw [hrest] at hs
    dsimp only at hnext
    rw [closing_eq, Bool.false_and, if_neg Bool.false_ne_true] at hnext
    split at hnext
    · rename_i hclosing
      obtain rfl := eq_of_beq hclosing
      obtain ⟨u, rfl, hu⟩ := skipClosing_sound (of_drop hnext)
      refine ⟨blanks ++ frame.closing :: u, by rw [hs]; simp, fun w hw => ?_⟩
      exact ⟨_, u ++ w, by simp, .empty frame hblanks, hu w hw⟩
    · cases hnext
      refine ⟨blanks, hs, fun w hw => ?_⟩
      cases hw with
      | frame hlead hvalue hcloses =>
        cases hcloses with
        | frame htail houter =>
          exact ⟨_, _, by simp, .filled (hlead.blanks_append hblanks) hvalue htail, houter⟩

/-- What is skipped inside open frames is a value and what closes the frames. -/
theorem skipIn_sound {fuel : Nat} {frames : List Frame} (h : skipIn fuel frames s = .ok () t) :
    ∃ value rest, s.dropWhile isBlank = value ++ (rest ++ t) ∧ IsValue value ∧
      Closes frames rest := by
  induction fuel generalizing s frames with
  | zero => cases h
  | succ fuel ih =>
    rw [skipIn] at h
    rcases peekPastBlanks_cases h with ⟨-, hend⟩ | ⟨c, rest, hrest, hnext⟩
    · cases hend
    obtain ⟨opened, u, hscalar, hclosing⟩ := bind_eq_ok.mp hnext
    obtain ⟨frames', v, hskip, hinner⟩ := bind_eq_ok.mp hclosing
    -- what is skipped from there on stands where the next value does
    have hresumes : ∃ w, v = w ++ t ∧ Resumes frames' w := by
      match frames' with
      | [] =>
        cases hinner
        exact ⟨[], rfl, .none⟩
      | .object :: outer =>
        obtain ⟨_, v', hkey, hin⟩ := bind_eq_ok.mp hinner
        obtain ⟨key, rfl, hlead⟩ := skipKey_sound hkey
        obtain ⟨blanks, hblanks, hv'⟩ := exists_blanks v'
        obtain ⟨value, more, hsplit, hvalue, hcloses⟩ := ih hin
        rw [hsplit] at hv'
        rw [hv']
        exact ⟨(key ++ blanks) ++ (value ++ more), by simp,
          .frame (hlead.append_blanks hblanks) hvalue hcloses⟩
      | .list :: outer =>
        obtain ⟨blanks, hblanks, hv⟩ := exists_blanks v
        obtain ⟨value, more, hsplit, hvalue, hcloses⟩ := ih hinner
        rw [hsplit] at hv
        rw [hv]
        exact ⟨blanks ++ (value ++ more), by simp, .frame (.list hblanks) hvalue hcloses⟩
    obtain ⟨w, rfl, hw⟩ := hresumes
    rcases skipScalar_sound hscalar with ⟨rfl, text, htext, hvalue⟩ | ⟨frame, rfl, rfl, rfl⟩
    · obtain ⟨closing, rfl, hcloses⟩ := skipClosing_sound hskip
      rw [hrest, htext]
      exact ⟨text, closing ++ w, by simp, .scalar hvalue, hcloses w hw⟩
    · obtain ⟨closing, rfl, hopened⟩ := skipClosing_opened_sound hskip
      obtain ⟨value, more, hsplit, hvalue, hcloses⟩ := hopened w hw
      refine ⟨value, more, ?_, hvalue, hcloses⟩
      rw [hrest, ← List.append_assoc value, ← hsplit]
      simp

/-- What is skipped is a value, perhaps with blanks in front. -/
theorem skip_sound (h : skip s = .ok () t) :
    ∃ value, s.dropWhile isBlank = value ++ t ∧ IsValue value := by
  obtain ⟨s', u, hget, hskip⟩ := bind_eq_ok.mp h
  cases hget
  obtain ⟨value, rest, hsplit, hvalue, hcloses⟩ := skipIn_sound hskip
  cases hcloses
  exact ⟨value, hsplit, hvalue⟩

theorem textOf_sound {bytes rest : List UInt8} {text : String}
    (h : textOf bytes rest s = .ok text t) : Text.encode text = bytes ∧ s = t := by
  unfold textOf at h
  cases htext : String.fromUTF8? ⟨bytes.toArray⟩ with
  | none =>
    rw [htext] at h
    cases h
  | some text' =>
    rw [htext] at h
    cases h
    exact ⟨Text.fromUTF8?_eq_some_iff.mp htext, rfl⟩

/-- What is kept of a value is the text it is written in, with nothing around it. -/
theorem verbatim_sound {text : String} (h : verbatim s = .ok text t) :
    s.dropWhile isBlank = Text.encode text ++ t ∧ IsValue (Text.encode text) := by
  obtain ⟨_, u, hblanks, hnext⟩ := bind_eq_ok.mp h
  cases hblanks
  obtain ⟨start, u, hget, hnext⟩ := bind_eq_ok.mp hnext
  cases hget
  obtain ⟨_, u, hskip, hnext⟩ := bind_eq_ok.mp hnext
  obtain ⟨rest, v, hget, htext⟩ := bind_eq_ok.mp hnext
  cases hget
  dsimp only at hskip htext
  obtain ⟨value, hsplit, hvalue⟩ := skip_sound hskip
  obtain ⟨hencode, rfl⟩ := textOf_sound htext
  rw [List.dropWhile_idempotent] at hsplit
  have htake : (s.dropWhile isBlank).take ((s.dropWhile isBlank).length - u.length) = value := by
    rw [hsplit, List.length_append, Nat.add_sub_cancel]
    exact List.take_left
  rw [htake] at hencode
  rw [hencode]
  exact ⟨hsplit, hvalue⟩

end Bulletin.Json.Reader
