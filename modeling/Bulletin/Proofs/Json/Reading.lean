import Bulletin.Proofs.Json.Skipping
import Bulletin.Proofs.Json.Unambiguous
import Mathlib.Data.List.Forall2

/-!
# What is read is a value

A reader that wants a value of some kind takes the text of a value of that kind, and refuses all
else. What is read of a string is the text that it spells, and what is read of an object goes
through its members one by one, each read by a reader for it:

    string_sound  : a string and what it spells
    members_sound : an object, its members, and what has been gathered from them
    element?_sound: an element of a list, if there is one
-/

namespace Bulletin.Json.Reader

variable {α β : Type} {s t : List UInt8}

/-! ## Strings -/

theorem pairByte_sound {c : Char} (h : pairByte c s = .ok () t) : s = byte c :: t := by
  rcases peek_cases h with ⟨-, hend⟩ | ⟨b, rest, rfl, hnext⟩
  · cases hend
  · have hbyte := of_drop hnext
    split at hbyte
    · cases hbyte
    · rename_i hb
      cases hbyte
      rw [Bool.not_eq_true, bne_eq_false_iff_eq] at hb
      rw [hb]

/-- What an escape stands for goes in front of what the rest of a string stands for. -/
theorem unicodeEscape_sound {more : List UInt8} (h : unicodeEscape s = .ok more t) :
    ∃ text, s = text ++ t ∧ ∀ rest bytes, SpellsBytes rest bytes →
      SpellsBytes (byte '\\' :: byte 'u' :: (text ++ rest)) (more ++ bytes) := by
  obtain ⟨n, u, hhex, hnext⟩ := bind_eq_ok.mp h
  obtain ⟨a, b, c, d, rfl, hn⟩ := hexEscape_sound hhex
  split at hnext
  · cases hnext
  · rename_i hlow
    split at hnext
    · rename_i hwhole
      cases hnext
      have hwhole : n < 0xD800 ∨ 0xDFFF < n := by
        simp only [Bool.and_eq_true, decide_eq_true_eq, Bool.or_eq_true] at hlow hwhole
        omega
      exact ⟨[a, b, c, d], rfl, fun rest bytes hrest => .unicode hn hwhole hrest⟩
    · rename_i hhigh
      obtain ⟨_, v, hback, hletter⟩ := bind_eq_ok.mp hnext
      obtain ⟨_, w, hu, hsecond⟩ := bind_eq_ok.mp hletter
      obtain ⟨m, w', hhex', hlast⟩ := bind_eq_ok.mp hsecond
      obtain rfl := pairByte_sound hback
      obtain rfl := pairByte_sound hu
      obtain ⟨a', b', c', d', rfl, hm⟩ := hexEscape_sound hhex'
      split at hlast
      · cases hlast
      · rename_i hpair
        cases hlast
        simp only [Bool.or_eq_true, decide_eq_true_eq] at hhigh hpair
        exact ⟨[a, b, c, d, byte '\\', byte 'u', a', b', c', d'], rfl,
          fun rest bytes hrest => .pair hn (by omega) hm (by omega) hrest⟩

theorem escape_sound {more : List UInt8} (h : escape s = .ok more t) :
    ∃ text, s = text ++ t ∧ ∀ rest bytes, SpellsBytes rest bytes →
      SpellsBytes (byte '\\' :: (text ++ rest)) (more ++ bytes) := by
  rcases take_cases h with ⟨-, hend⟩ | ⟨c, rest, rfl, hnext⟩
  · cases hend
  · dsimp only at hnext
    split at hnext
    · rename_i hc
      obtain rfl := eq_of_beq hc
      obtain ⟨text, rfl, hspells⟩ := unicodeEscape_sound hnext
      exact ⟨byte 'u' :: text, rfl, hspells⟩
    · cases hshort : shortEscape? c with
      | none =>
        rw [hshort] at hnext
        cases hnext
      | some b =>
        rw [hshort] at hnext
        cases hnext
        exact ⟨[c], rfl, fun rest bytes hrest => .short hshort hrest⟩

theorem data_foldl_push (more : List UInt8) (read : ByteArray) :
    (more.foldl ByteArray.push read).data.toList = read.data.toList ++ more := by
  induction more generalizing read with
  | nil => simp
  | cons b more ih =>
    rw [List.foldl_cons, ih, ByteArray.data_push, Array.toList_push, List.append_assoc]
    rfl

theorem stringBytes_sound {fuel : Nat} {read bytes : ByteArray}
    (h : stringBytes fuel read s = .ok bytes t) :
    ∃ body more, s = body ++ byte '"' :: t ∧ SpellsBytes body more ∧
      bytes.data.toList = read.data.toList ++ more := by
  induction fuel generalizing s read with
  | zero => cases h
  | succ fuel ih =>
    rw [stringBytes] at h
    rcases take_cases h with ⟨-, hend⟩ | ⟨c, rest, rfl, hnext⟩
    · cases hend
    · dsimp only at hnext
      split at hnext
      · rename_i hquote
        obtain rfl := eq_of_beq hquote
        cases hnext
        exact ⟨[], [], rfl, .nil, by simp⟩
      · rename_i hquote
        split at hnext
        · rename_i hback
          obtain rfl := eq_of_beq hback
          obtain ⟨piece, u, hescape, hrest⟩ := bind_eq_ok.mp hnext
          obtain ⟨text, rfl, hspells⟩ := escape_sound hescape
          obtain ⟨body, more, rfl, hbody, hbytes⟩ := ih hrest
          refine ⟨byte '\\' :: (text ++ body), piece ++ more, by simp, hspells body more hbody, ?_⟩
          rw [hbytes, data_foldl_push, List.append_assoc]
        · rename_i hback
          split at hnext
          · cases hnext
          · rename_i hlow
            obtain ⟨body, more, rfl, hbody, hbytes⟩ := ih hnext
            have hplain : IsPlain c :=
              ⟨fun heq => hquote (beq_iff_eq.mpr heq), fun heq => hback (beq_iff_eq.mpr heq), hlow⟩
            refine ⟨c :: body, c :: more, rfl, .plain hplain hbody, ?_⟩
            rw [hbytes, ByteArray.data_push, Array.toList_push, List.append_assoc]
            rfl

/-- What is read of a string is what it spells. -/
theorem string_sound {text : String} (h : string s = .ok text t) :
    ∃ body, s = body ++ byte '"' :: t ∧ Spells body text := by
  obtain ⟨s', u, hget, hnext⟩ := bind_eq_ok.mp h
  cases hget
  obtain ⟨bytes, v, hbytes, htext⟩ := bind_eq_ok.mp hnext
  obtain ⟨body, more, rfl, hbody, hmore⟩ := stringBytes_sound hbytes
  cases hutf8 : String.fromUTF8? bytes with
  | none =>
    rw [hutf8] at htext
    cases htext
  | some text' =>
    rw [hutf8] at htext
    cases htext
    have hencode : Text.encode text = bytes.data.toList := by
      rw [← Text.fromUTF8?_eq_some_iff, Array.toArray_toList]
      exact hutf8
    refine ⟨body, rfl, ?_⟩
    rw [Spells, hencode, hmore]
    exact hbody

/-! ## Kinds of results -/

/-- Whatever a reader comes to is of some kind. -/
def Yields (P : α → Prop) (r : Reader α) : Prop := ∀ s a t, r s = .ok a t → P a

section

variable {P : α → Prop}

theorem yields_of_not_ok {r : Reader α} (h : ∀ s a t, r s ≠ .ok a t) : Yields P r :=
  fun s a t hok => absurd hok (h s a t)

theorem yields_refuse (cause : Cause) : Yields P (refuse cause) :=
  yields_of_not_ok fun _ _ _ h => by cases h

theorem yields_refuseNext (cause : Cause) : Yields P (refuseNext cause) :=
  yields_of_not_ok fun _ _ _ h => by cases h

theorem yields_pure {a : α} (h : P a) : Yields P (pure a : Reader α) := by
  intro s b t hok
  cases hok
  exact h

theorem Yields.bind {r : Reader β} {f : β → Reader α} (h : ∀ b, Yields P (f b)) :
    Yields P (r >>= f) := by
  intro s a t hok
  obtain ⟨b, u, -, hf⟩ := bind_eq_ok.mp hok
  exact h b u a t hf

theorem Yields.ite {c : Prop} [Decidable c] {r r' : Reader α} (h : Yields P r)
    (h' : Yields P r') : Yields P (if c then r else r') := by
  split
  · exact h
  · exact h'

end

/-- A value that is not wanted is refused. -/
theorem refuseType_ne_ok (wanted : String) (a : α) :
    (refuseType wanted : Reader α) s ≠ .ok a t := by
  have hwrong : ∀ found, Yields (fun _ => False) (refuseType.wrong wanted found : Reader α) :=
    fun found => yields_refuse _
  have hnever : Yields (fun _ => False) (refuseType wanted : Reader α) := by
    unfold refuseType
    refine .bind fun c => .ite (.bind fun _ => .bind fun _ => hwrong _) ?_
    refine .ite (.bind fun _ => .bind fun _ => hwrong _) ?_
    refine .ite (.bind fun _ => .bind fun _ => hwrong _) ?_
    refine .ite (.bind fun _ => .bind fun _ => hwrong _) ?_
    refine .ite (.bind fun _ => hwrong _) ?_
    refine .ite (.bind fun _ => .bind fun _ => hwrong _) ?_
    exact .ite (hwrong _) (.ite (hwrong _) (yields_refuseNext _))
  exact fun h => hnever s a t h

theorem valueStart_cases {f : UInt8 → Reader α} {a : α} (h : (valueStart >>= f) s = .ok a t) :
    ∃ c rest, s.dropWhile isBlank = c :: rest ∧ f c (c :: rest) = .ok a t := by
  obtain ⟨c, u, hstart, hnext⟩ := bind_eq_ok.mp h
  rcases peekPastBlanks_cases hstart with ⟨-, hend⟩ | ⟨c', rest, hrest, hpure⟩
  · cases hend
  · cases hpure
    exact ⟨c, rest, hrest, hnext⟩

/-- What is read of bytes behind which only blanks are left is read of a value in them. -/
theorem run_cases {r : Reader α} {bytes : List UInt8} {a : α}
    (h : run r bytes = .ok a) :
    ∃ behind, AreBlanks behind ∧ r bytes = .ok a behind := by
  unfold run at h
  dsimp only at h
  split at h
  · rename_i a' rest hwhole
    cases h
    obtain ⟨a', behind, hr, hnext⟩ := bind_eq_ok.mp hwhole
    obtain ⟨blanks, hblanks, hbehind⟩ := exists_blanks behind
    rcases peekPastBlanks_cases hnext with ⟨hnone, hend⟩ | ⟨c, more, -, hend⟩
    · cases hend
      rw [hnone, List.append_nil] at hbehind
      rw [hbehind] at hr
      exact ⟨blanks, hblanks, hr⟩
    · cases hend
  · cases h

/-! ## Objects -/

theorem placing_sound {r : Reader α} {a : α} (h : placing r s = .ok a t) : r s = .ok a t := by
  unfold placing at h
  split at h
  · cases h
  · exact h

theorem followedBy_sound {body : Reader α} {ending : Reader Unit} {a : α}
    (h : followedBy body ending s = .ok a t) :
    ∃ u, body s = .ok a u ∧ ending u = .ok () t := by
  unfold followedBy at h
  cases hbody : body s with
  | error e u =>
    rw [hbody] at h
    dsimp only at h
    split at h <;> cases h
  | ok b u =>
    rw [hbody] at h
    dsimp only at h
    split at h
    · rename_i hending
      cases h
      exact ⟨u, rfl, hending⟩
    · cases h

/-- One after the other, members take a state to another. -/
inductive Gathers {σ : Type} (R : String → List UInt8 → σ → σ → Prop) :
    List (String × List UInt8) → σ → σ → Prop where
  | nil {state : σ} : Gathers R [] state state
  | cons {name : String} {value : List UInt8} {members : List (String × List UInt8)}
      {state state' state'' : σ} (hfirst : R name value state state')
      (hrest : Gathers R members state' state'') : Gathers R ((name, value) :: members) state state''

/-- If something in the state is set by members of one name only, and only where it has not been set,
then there is one of these members at most, and what is set is set by that one. -/
theorem Gathers.only {σ : Type} {S : String → List UInt8 → σ → σ → Prop} {key : String}
    {get : σ → Option α} {R : List UInt8 → α → Prop}
    (hset : ∀ {value state state'}, S key value state state' →
      get state = none ∧ ∃ a, get state' = some a ∧ R value a)
    (hkeep : ∀ {name value state state'}, name ≠ key → S name value state state' →
      get state' = get state)
    {members : List (String × List UInt8)} {state state' : σ} (h : Gathers S members state state') :
    (members.filter (·.1 = key) = [] ∧ get state' = get state) ∨
      (get state = none ∧ ∃ value a, members.filter (·.1 = key) = [(key, value)] ∧
        get state' = some a ∧ R value a) := by
  induction h with
  | nil => exact .inl ⟨rfl, rfl⟩
  | @cons name value members state state₁ state' hfirst hrest ih =>
    by_cases hname : name = key
    · subst hname
      obtain ⟨hnone, a, ha, hR⟩ := hset hfirst
      rcases ih with ⟨hfilter, hsame⟩ | ⟨hnone', -⟩
      · rw [List.filter_cons_of_pos (by simp), hfilter]
        exact .inr ⟨hnone, value, a, rfl, hsame.trans ha, hR⟩
      · rw [ha] at hnone'
        cases hnone'
    · rw [List.filter_cons_of_neg (by simpa using hname), ← hkeep hname hfirst]
      exact ih

/-- A reader takes a value, and what it returns is as is said. -/
def ReadsValue (value : Reader α) (R : List UInt8 → α → Prop) : Prop :=
  ∀ s a t, value s = .ok a t →
    ∃ text, s.dropWhile isBlank = text ++ t ∧ IsValue text ∧ R text a

/-- A reader takes the colon and the value of a member, and does to the state what is said. -/
def ReadsMember {σ : Type} (member : String → σ → Reader σ)
    (R : String → List UInt8 → σ → σ → Prop) : Prop :=
  ∀ name state state' s t, member name state s = .ok state' t →
    ∃ blanks blanks' value, s = blanks ++ byte ':' :: (blanks' ++ (value ++ t)) ∧
      AreBlanks blanks ∧ AreBlanks blanks' ∧ IsValue value ∧ R name value state state'

/-- A member that is not read again stands behind a colon. -/
theorem once_sound {value : Reader α} {R : List UInt8 → α → Prop} (hvalue : ReadsValue value R)
    {name : String} {before found : Option α} (h : once name before value s = .ok found t) :
    before = none ∧ ∃ blanks blanks' text a,
      s = blanks ++ byte ':' :: (blanks' ++ (text ++ t)) ∧ AreBlanks blanks ∧ AreBlanks blanks' ∧
        IsValue text ∧ R text a ∧ found = some a := by
  unfold once at h
  split at h
  · obtain ⟨_, u, hrefuse, -⟩ := bind_eq_ok.mp h
    cases hrefuse
  · rename_i hnone
    obtain ⟨_, u, hcolon, hnext⟩ := bind_eq_ok.mp h
    obtain ⟨blanks, rfl, hblanks⟩ := takeMark_sound hcolon
    obtain ⟨a, v, hread, hdone⟩ := bind_eq_ok.mp hnext
    cases hdone
    obtain ⟨text, hsplit, isvalue, hR⟩ := hvalue _ _ _ hread
    obtain ⟨blanks', hblanks', hu⟩ := exists_blanks u
    rw [hsplit] at hu
    rw [hu]
    exact ⟨by simpa using hnone, blanks, blanks', text, a, rfl, hblanks, hblanks', isvalue, hR, rfl⟩

/-- Of a member that nothing is wanted of the value is skipped. -/
theorem skipMember_sound {state state' : α}
    (h : (do colon; skip; return state : Reader α) s = .ok state' t) :
    state' = state ∧ ∃ blanks blanks' value,
      s = blanks ++ byte ':' :: (blanks' ++ (value ++ t)) ∧ AreBlanks blanks ∧ AreBlanks blanks' ∧
        IsValue value := by
  obtain ⟨_, u, hcolon, hnext⟩ := bind_eq_ok.mp h
  obtain ⟨blanks, rfl, hblanks⟩ := takeMark_sound hcolon
  obtain ⟨_, v, hskip, hdone⟩ := bind_eq_ok.mp hnext
  cases hdone
  obtain ⟨value, hsplit, isvalue⟩ := skip_sound hskip
  obtain ⟨blanks', hblanks', hu⟩ := exists_blanks u
  rw [hsplit] at hu
  rw [hu]
  exact ⟨rfl, blanks, blanks', value, rfl, hblanks, hblanks', isvalue⟩

theorem hasMember_sound {first more : Bool} (h : hasMember first s = .ok more t) :
    (more = false ∧ ∃ blanks rest, s = blanks ++ t ∧ t = byte '\x7d' :: rest ∧ AreBlanks blanks) ∨
      (more = true ∧ ∃ separator rest, s = separator ++ t ∧ t = byte '"' :: rest ∧
        IsSeparator first separator) := by
  obtain ⟨blanks, hblanks, hs⟩ := exists_blanks s
  rcases peekPastBlanks_cases h with ⟨-, hend⟩ | ⟨c, rest, hrest, hnext⟩
  · cases hend
  rw [hrest] at hs
  dsimp only at hnext
  split at hnext
  · rename_i hc
    obtain rfl := eq_of_beq hc
    cases hnext
    exact .inl ⟨rfl, blanks, rest, hs, rfl, hblanks⟩
  split at hnext
  · rename_i hcomma
    obtain ⟨hc, hlater⟩ := Bool.and_eq_true_iff.mp hcomma
    obtain rfl := eq_of_beq hc
    have hafter := of_drop hnext
    obtain ⟨blanks', hblanks', hs'⟩ := exists_blanks rest
    rcases peekPastBlanks_cases hafter with ⟨-, hend⟩ | ⟨d, rest', hrest', hquote⟩
    · cases hend
    rw [hrest'] at hs'
    dsimp only at hquote
    split at hquote
    · rename_i hd
      obtain rfl := eq_of_beq hd
      cases hquote
      have hfirst : first = false := by simpa using hlater
      refine .inr ⟨rfl, blanks ++ byte ',' :: blanks', rest', by rw [hs, hs']; simp, rfl, ?_⟩
      rw [hfirst]
      exact .later hblanks hblanks'
    · split at hquote <;> cases hquote
  split at hnext
  · rename_i hfirst
    split at hnext
    · rename_i hc
      obtain rfl := eq_of_beq hc
      cases hnext
      refine .inr ⟨rfl, blanks, rest, hs, rfl, ?_⟩
      rw [hfirst]
      exact .first hblanks
    · cases hnext
  · cases hnext

theorem membersWith_sound {σ : Type} {member : String → σ → Reader σ}
    {R : String → List UInt8 → σ → σ → Prop} (hmember : ReadsMember member R) {fuel : Nat}
    {first : Bool} {state state' : σ} (h : membersWith member fuel first state s = .ok state' t) :
    ∃ members text rest, s = text ++ rest ∧ t = byte '\x7d' :: rest ∧
      IsMembers first members text ∧ Gathers R members state state' := by
  induction fuel generalizing s first state with
  | zero => cases h
  | succ fuel ih =>
    rw [membersWith] at h
    obtain ⟨more, u, hmore, hnext⟩ := bind_eq_ok.mp h
    rcases hasMember_sound hmore with ⟨rfl, blanks, rest, rfl, rfl, hblanks⟩ |
      ⟨rfl, separator, rest, rfl, rfl, hseparator⟩
    · cases hnext
      exact ⟨[], blanks ++ [byte '\x7d'], rest, by simp, rfl, .close hblanks, .nil⟩
    · obtain ⟨name, v, hkey, hvalue⟩ := bind_eq_ok.mp hnext
      obtain ⟨body, rfl, hname⟩ := string_sound (of_drop hkey)
      obtain ⟨state₁, w, hread, hmembers⟩ := bind_eq_ok.mp hvalue
      obtain ⟨blanks, blanks', value, rfl, hblanks, hblanks', isvalue, hstep⟩ :=
        hmember _ _ _ _ _ hread
      obtain ⟨members, text, rest', rfl, rfl, ismembers, hgathers⟩ := ih hmembers
      exact ⟨_, _, rest', by simp, rfl, .next hseparator hname hblanks hblanks' isvalue ismembers,
        .cons hstep hgathers⟩

theorem object_cases {wanted : String} {contents : Reader α} {a : α}
    (h : object wanted contents s = .ok a t) :
    ∃ rest u, s.dropWhile isBlank = byte '\x7b' :: rest ∧ contents rest = .ok a u ∧
      endOfObject u = .ok () t := by
  obtain ⟨c, rest, hrest, hnext⟩ := valueStart_cases h
  have hplaced := placing_sound hnext
  split at hplaced
  · rename_i hc
    obtain rfl := eq_of_beq hc
    obtain ⟨u, hcontents, hending⟩ := followedBy_sound (of_drop hplaced)
    exact ⟨rest, u, hrest, hcontents, hending⟩
  · exact absurd hplaced (refuseType_ne_ok wanted a)

/-- What is read of an object is gathered from its members. -/
theorem members_sound {σ : Type} {member : String → σ → Reader σ}
    {R : String → List UInt8 → σ → σ → Prop} (hmember : ReadsMember member R) {start state : σ}
    {u : List UInt8} (h : members start member s = .ok state u)
    (hending : endOfObject u = .ok () t) :
    ∃ members text, s = text ++ t ∧ IsMembers true members text ∧
      Gathers R members start state := by
  obtain ⟨_, v, hget, hwith⟩ := bind_eq_ok.mp h
  cases hget
  obtain ⟨members, text, rest, rfl, rfl, ismembers, hgathers⟩ := membersWith_sound hmember hwith
  have hend : t = rest := by
    cases hending
    rfl
  rw [hend]
  exact ⟨members, text, rfl, ismembers, hgathers⟩

/-! ## Lists -/

theorem hasElement_sound {first more : Bool} (h : hasElement first s = .ok more t) :
    (more = false ∧ ∃ blanks rest, s = blanks ++ t ∧ t = byte ']' :: rest ∧ AreBlanks blanks) ∨
      (more = true ∧ ∃ separator, s = separator ++ t ∧ t.dropWhile isBlank = t ∧
        IsSeparator first separator) := by
  have hpast : ∀ {u v : List UInt8}, u.dropWhile isBlank = v → v.dropWhile isBlank = v := by
    rintro u v rfl
    exact List.dropWhile_idempotent isBlank u
  obtain ⟨blanks, hblanks, hs⟩ := exists_blanks s
  rcases peekPastBlanks_cases h with ⟨-, hend⟩ | ⟨c, rest, hrest, hnext⟩
  · cases hend
  rw [hrest] at hs
  dsimp only at hnext
  split at hnext
  · rename_i hc
    obtain rfl := eq_of_beq hc
    cases hnext
    exact .inl ⟨rfl, blanks, rest, hs, rfl, hblanks⟩
  split at hnext
  · rename_i hcomma
    obtain ⟨hc, hlater⟩ := Bool.and_eq_true_iff.mp hcomma
    obtain rfl := eq_of_beq hc
    have hafter := of_drop hnext
    obtain ⟨blanks', hblanks', hs'⟩ := exists_blanks rest
    rcases peekPastBlanks_cases hafter with ⟨-, hend⟩ | ⟨d, rest', hrest', hvalue⟩
    · cases hend
    rw [hrest'] at hs'
    dsimp only at hvalue
    split at hvalue
    · cases hvalue
    · cases hvalue
      have hfirst : first = false := by simpa using hlater
      refine .inr ⟨rfl, blanks ++ byte ',' :: blanks', by rw [hs, hs']; simp, hpast hrest', ?_⟩
      rw [hfirst]
      exact .later hblanks hblanks'
  split at hnext
  · rename_i hfirst
    cases hnext
    refine .inr ⟨rfl, blanks, hs, hpast hrest, ?_⟩
    rw [hfirst]
    exact .first hblanks
  · cases hnext

/-- The next element of a list, if there is one, is a value behind what separates it. -/
theorem element?_sound {value : Reader α} {R : List UInt8 → α → Prop} (hvalue : ReadsValue value R)
    {first : Bool} {found : Option α} (h : element? first value s = .ok found t) :
    (found = none ∧ ∃ blanks rest, s = blanks ++ t ∧ t = byte ']' :: rest ∧ AreBlanks blanks) ∨
      ∃ a separator text, found = some a ∧ s = separator ++ (text ++ t) ∧
        IsSeparator first separator ∧ IsValue text ∧ R text a := by
  obtain ⟨more, u, hmore, hnext⟩ := bind_eq_ok.mp h
  rcases hasElement_sound hmore with ⟨rfl, blanks, rest, rfl, rfl, hblanks⟩ |
    ⟨rfl, separator, rfl, hu, hseparator⟩
  · cases hnext
    exact .inl ⟨rfl, blanks, rest, rfl, rfl, hblanks⟩
  · obtain ⟨a, v, hread, hsome⟩ := bind_eq_ok.mp hnext
    cases hsome
    obtain ⟨text, hsplit, isvalue, hR⟩ := hvalue _ _ _ hread
    rw [hu] at hsplit
    exact .inr ⟨a, separator, text, rfl, by rw [hsplit], hseparator, isvalue, hR⟩

/-- At the end of a list there is no element, whichever is asked for. -/
theorem element?_of_end {value : Reader α} {first : Bool} {found : Option α}
    {rest t : List UInt8} (h : element? first value (byte ']' :: rest) = .ok found t) :
    found = none ∧ t = byte ']' :: rest := by
  have hnone : element? first value (byte ']' :: rest) = .ok none (byte ']' :: rest) := rfl
  rw [hnone] at h
  cases h
  exact ⟨rfl, rfl⟩

theorem endOfList_sound (h : endOfList s = .ok () t) :
    ∃ blanks, s = blanks ++ byte ']' :: t ∧ AreBlanks blanks := by
  obtain ⟨blanks, hblanks, hs⟩ := exists_blanks s
  rcases peekPastBlanks_cases h with ⟨-, hend⟩ | ⟨c, rest, hrest, hnext⟩
  · cases hend
  rw [hrest] at hs
  dsimp only at hnext
  split at hnext
  · rename_i hc
    obtain rfl := eq_of_beq hc
    cases hnext
    exact ⟨blanks, hs, hblanks⟩
  split at hnext
  · rcases peekPastBlanks_cases (of_drop hnext) with ⟨-, hend⟩ | ⟨d, rest', -, hend⟩
    · cases hend
    · dsimp only at hend
      split at hend <;> cases hend
  · cases hnext

theorem elementsWith_sound {element : Reader α} {R : List UInt8 → α → Prop}
    (helement : ReadsValue element R) {fuel : Nat} {first : Bool} {read found : List α}
    (h : elementsWith element fuel first read s = .ok found t) :
    ∃ values text rest as, s = text ++ rest ∧ t = byte ']' :: rest ∧
      IsElements first values text ∧ List.Forall₂ R values as ∧ found = read.reverse ++ as := by
  induction fuel generalizing s first read with
  | zero => cases h
  | succ fuel ih =>
    rw [elementsWith] at h
    obtain ⟨more, u, hmore, hnext⟩ := bind_eq_ok.mp h
    rcases hasElement_sound hmore with ⟨rfl, blanks, rest, rfl, rfl, hblanks⟩ |
      ⟨rfl, separator, rfl, hu, hseparator⟩
    · cases hnext
      exact ⟨[], blanks ++ [byte ']'], rest, [], by simp, rfl, .close hblanks, .nil, by simp⟩
    · obtain ⟨a, v, hread, hrest⟩ := bind_eq_ok.mp hnext
      obtain ⟨value, hsplit, isvalue, hR⟩ := helement _ _ _ hread
      obtain ⟨values, text, rest, as, rfl, rfl, iselements, hall, rfl⟩ := ih hrest
      rw [hu] at hsplit
      exact ⟨value :: values, separator ++ (value ++ text), rest, a :: as, by rw [hsplit]; simp, rfl,
        .next hseparator isvalue iselements, .cons hR hall, by simp⟩

theorem list_cases {wanted : String} {contents : Reader α} {a : α}
    (h : list wanted contents s = .ok a t) :
    ∃ rest u, s.dropWhile isBlank = byte '[' :: rest ∧ contents rest = .ok a u ∧
      endOfList u = .ok () t := by
  obtain ⟨c, rest, hrest, hnext⟩ := valueStart_cases h
  have hplaced := placing_sound hnext
  split at hplaced
  · rename_i hc
    obtain rfl := eq_of_beq hc
    obtain ⟨u, hcontents, hending⟩ := followedBy_sound (of_drop hplaced)
    exact ⟨rest, u, hrest, hcontents, hending⟩
  · exact absurd hplaced (refuseType_ne_ok wanted a)

/-- A record is read of a list or of an object, and nothing but blanks is around it. -/
theorem run_record_cases {wanted : String} {listed named : Reader α} {bytes : List UInt8} {a : α}
    (h : run (record wanted listed named) bytes = .ok a) :
    ∃ before rest u behind, AreBlanks before ∧ AreBlanks behind ∧
      ((bytes = before ++ byte '[' :: rest ∧ listed rest = .ok a u ∧
          endOfList u = .ok () behind) ∨
        (bytes = before ++ byte '\x7b' :: rest ∧ named rest = .ok a u ∧
          endOfObject u = .ok () behind)) := by
  obtain ⟨behind, hbehind, hread⟩ := run_cases h
  obtain ⟨before, hbefore, hbytes⟩ := exists_blanks bytes
  obtain ⟨c, rest, hrest, hnext⟩ := valueStart_cases hread
  rw [hrest] at hbytes
  have hidempotent : (c :: rest).dropWhile isBlank = c :: rest := by
    rw [← hrest, List.dropWhile_idempotent]
  split at hnext
  · obtain ⟨rest', u, hbracket, hlisted, hending⟩ := list_cases hnext
    rw [← hidempotent, hbracket] at hbytes
    exact ⟨before, rest', u, behind, hbefore, hbehind, .inl ⟨hbytes, hlisted, hending⟩⟩
  · obtain ⟨rest', u, hbrace, hnamed, hending⟩ := object_cases hnext
    rw [← hidempotent, hbrace] at hbytes
    exact ⟨before, rest', u, behind, hbefore, hbehind, .inr ⟨hbytes, hnamed, hending⟩⟩

/-- What is read of a list is read of its elements, one by one. -/
theorem readsValue_list {element : Reader α} {R : List UInt8 → α → Prop}
    (helement : ReadsValue element R) (wanted : String) :
    ReadsValue (list wanted (elements element)) fun text as =>
      ∃ values, IsList values text ∧ List.Forall₂ R values as := by
  intro s as t h
  obtain ⟨rest, u, hrest, helements, hending⟩ := list_cases h
  obtain ⟨_, v, hget, hwith⟩ := bind_eq_ok.mp helements
  cases hget
  obtain ⟨values, text, rest', as, rfl, rfl, iselements, hall, rfl⟩ :=
    elementsWith_sound helement hwith
  cases hending
  exact ⟨byte '[' :: text, hrest, (IsList.mk iselements).isValue, values, .mk iselements, hall⟩

end Bulletin.Json.Reader
