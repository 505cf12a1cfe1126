import Bulletin.Proofs.Replacement

/-!
# No reference to the reader is left

To make references neutral is to replace one word by another. What comes out could have the word
again: where a replacement and the text around it run together, or where what follows a replacement
makes another name of it. Neither happens if the name and the neutral one differ before either of
them ends. Of a reference that is found in the outcome, the colon shows where it is from:

    the colon of a replacement : the two names agree as far as both go
    a colon that was kept      : the number in front of it was kept, and the name behind it stood in
                                 the text, so there was a reference, which would have been replaced

    Replaces.not_infix_of_apart : the word that is replaced does not occur in what comes out
    neutralize_clears           : so to make references neutral once more changes nothing
-/

namespace Bulletin

namespace Text

variable {old new : List Char}

/-! ## How a text is gone through -/

/-- A text is gone through from the front: a word is replaced where there is one, and else one
character is kept. -/
inductive Replaces (old new : List Char) : List Char → List Char → Prop
  | done : Replaces old new [] []
  | word {rest out : List Char} (later : Replaces old new rest out) :
      Replaces old new (old ++ rest) (new ++ out)
  | kept {c : Char} {rest out : List Char} (other : ¬ old <+: c :: rest)
      (later : Replaces old new rest out) : Replaces old new (c :: rest) (c :: out)

/-- So is every text when words are replaced. -/
theorem replaces_replaceAll (h : old ≠ []) (s : List Char) :
    Replaces old new s (replaceAll old new s) := by
  -- behind a word less is left, but it is not the tail of what there was
  induction hlength : s.length using Nat.strongRecOn generalizing s with
  | ind length ih =>
    cases s with
    | nil => exact .done
    | cons c rest =>
      by_cases hword : old <+: c :: rest
      · obtain ⟨behind, hbehind⟩ := hword
        have hpos := List.length_pos_iff.mpr h
        have htotal := congrArg List.length hbehind
        rw [List.length_append] at htotal
        rw [← hbehind, replaceAll_word_append h]
        exact .word (ih behind.length (by omega) behind rfl)
      · rw [List.length_cons] at hlength
        rw [replaceAll_cons_of_no_match hword]
        exact .kept hword (ih rest.length (by omega) rest rfl)

/-- Where the word does not occur, nothing changes. -/
theorem replaceAll_eq_self {s : List Char} (h : ¬ old <:+: s) : replaceAll old new s = s := by
  induction s with
  | nil => rfl
  | cons c rest ih =>
    rw [List.infix_cons_iff, not_or] at h
    rw [replaceAll_cons_of_no_match h.1, ih h.2]

/-- A word that is replaced by itself stays. -/
theorem Replaces.eq_of_self {s out : List Char} (h : Replaces old old s out) : out = s := by
  induction h with
  | done => rfl
  | word later ih => rw [ih]
  | kept other later ih => rw [ih]

/-! ## Words with a colon -/

variable {number name neutral : List Char} {s out : List Char}

/-- Two texts that begin in the same way do so up to their first colons, and behind these. -/
theorem prefix_of_colon {front front' rest rest' : List Char} (hfront : ':' ∉ front)
    (hfront' : ':' ∉ front') (h : front ++ ':' :: rest <+: front' ++ ':' :: rest') :
    front = front' ∧ rest <+: rest' := by
  induction front generalizing front' with
  | nil =>
    cases front' with
    | nil => exact ⟨rfl, (List.cons_prefix_cons.mp h).2⟩
    | cons c front' =>
      obtain ⟨rfl, -⟩ := List.cons_prefix_cons.mp h
      exact absurd List.mem_cons_self hfront'
  | cons c front ih =>
    cases front' with
    | nil =>
      obtain ⟨rfl, -⟩ := List.cons_prefix_cons.mp h
      exact absurd List.mem_cons_self hfront
    | cons c' front' =>
      rw [List.mem_cons, not_or] at hfront hfront'
      obtain ⟨rfl, hrest⟩ := List.cons_prefix_cons.mp h
      obtain ⟨rfl, hbehind⟩ := ih hfront.2 hfront'.2 hrest
      exact ⟨rfl, hbehind⟩

/-- What begins a text and has no colon is in front of the first colon of that text. -/
theorem prefix_of_no_colon {text front rest : List Char} (htext : ':' ∉ text)
    (h : text <+: front ++ ':' :: rest) : text <+: front := by
  rcases List.prefix_or_prefix_of_prefix h (List.prefix_append front (':' :: rest)) with hin | hout
  · exact hin
  · obtain ⟨behind, rfl⟩ := hout
    rw [List.prefix_append_right_inj] at h
    cases behind with
    | nil => exact (List.append_nil front).symm ▸ List.prefix_rfl
    | cons c behind =>
      obtain ⟨rfl, -⟩ := List.cons_prefix_cons.mp h
      exact absurd (List.mem_append_right front List.mem_cons_self) htext

/-- Two texts differ before either of them ends. -/
structure Apart (a b : List Char) : Prop where
  not_begins : ¬ a <+: b
  not_extends : ¬ b <+: a

/-- They go on to differ, whatever follows. -/
theorem Apart.not_prefix_append {a b : List Char} (h : Apart a b) (rest : List Char) :
    ¬ a <+: b ++ rest := by
  intro hprefix
  rcases List.prefix_or_prefix_of_prefix hprefix (List.prefix_append b rest) with hin | hin
  · exact h.not_begins hin
  · exact h.not_extends hin

/-- What stands in front of any colon that comes out stood there before. -/
theorem Replaces.prefix_of_no_colon {text : List Char} (htext : ':' ∉ text)
    (h : Replaces (number ++ ':' :: name) (number ++ ':' :: neutral) s out) (hout : text <+: out) :
    text <+: s := by
  induction h generalizing text with
  | done => exact hout
  | word later ih =>
    rw [List.append_assoc] at hout ⊢
    exact (Text.prefix_of_no_colon htext hout).trans (List.prefix_append _ _)
  | kept other later ih =>
    cases text with
    | nil => exact List.nil_prefix
    | cons c text =>
      rw [List.mem_cons, not_or] at htext
      obtain ⟨rfl, hrest⟩ := List.cons_prefix_cons.mp hout
      exact List.cons_prefix_cons.mpr ⟨rfl, ih htext.2 hrest⟩

/-- A colon that comes out with the name behind it stood there before, with the same in front. -/
theorem Replaces.prefix_of_colon {front : List Char} (hnumber : ':' ∉ number) (hname : ':' ∉ name)
    (hapart : Apart name neutral) (hfront : ':' ∉ front)
    (h : Replaces (number ++ ':' :: name) (number ++ ':' :: neutral) s out)
    (hout : front ++ ':' :: name <+: out) : front ++ ':' :: name <+: s := by
  induction h generalizing front with
  | done => exact hout
  | word later ih =>
    -- the colon is that of a replacement
    rw [List.append_assoc] at hout
    obtain ⟨-, hnames⟩ := Text.prefix_of_colon hfront hnumber hout
    exact absurd hnames (hapart.not_prefix_append _)
  | kept other later ih =>
    cases front with
    | nil =>
      obtain ⟨rfl, hrest⟩ := List.cons_prefix_cons.mp hout
      exact List.cons_prefix_cons.mpr ⟨rfl, later.prefix_of_no_colon hname hrest⟩
    | cons c front =>
      rw [List.mem_cons, not_or] at hfront
      obtain ⟨rfl, hrest⟩ := List.cons_prefix_cons.mp hout
      exact List.cons_prefix_cons.mpr ⟨rfl, ih hfront.2 hrest⟩

/-- A word begins nowhere in what is put in front of a text, and nowhere in the text. -/
theorem not_infix_append {word front rest : List Char}
    (hfront : ∀ back, back <:+ front → back ≠ [] → ¬ word <+: back ++ rest)
    (hrest : ¬ word <:+: rest) : ¬ word <:+: front ++ rest := by
  induction front with
  | nil => exact hrest
  | cons c front ih =>
    rw [List.cons_append, List.infix_cons_iff, not_or]
    refine ⟨hfront _ List.suffix_rfl (List.cons_ne_nil c front), ih fun back hback => ?_⟩
    exact hfront back (hback.trans (List.suffix_cons c front))

/-- No reference begins in a neutral one: not in its number, as it would be that very one, and not
behind that, as a reference begins with its number. -/
theorem not_prefix_neutral {back rest : List Char} (hnumber : ':' ∉ number) (hne : number ≠ [])
    (hother : ∀ c ∈ neutral, c ∉ number) (hapart : Apart name neutral)
    (hback : back <:+ number ++ ':' :: neutral) (hpos : back ≠ []) :
    ¬ number ++ ':' :: name <+: back ++ rest := by
  intro h
  rcases List.suffix_or_suffix_of_suffix hback (List.suffix_append number (':' :: neutral)) with
    hlate | hearly
  · obtain ⟨c, back', rfl⟩ := List.exists_cons_of_ne_nil hpos
    obtain ⟨d, number', rfl⟩ := List.exists_cons_of_ne_nil hne
    obtain ⟨rfl, -⟩ := List.cons_prefix_cons.mp h
    rcases List.mem_cons.mp (hlate.subset List.mem_cons_self) with rfl | hmem
    · exact hnumber List.mem_cons_self
    · exact hother _ hmem List.mem_cons_self
  · obtain ⟨front, rfl⟩ := hearly
    obtain ⟨lead, hlead⟩ := hback
    rw [← List.append_assoc] at hlead
    have hfront : ':' ∉ front := by
      intro hmem
      rw [← List.append_cancel_right hlead] at hnumber
      exact hnumber (List.mem_append_right lead hmem)
    rw [List.append_assoc] at h
    obtain ⟨-, hnames⟩ := Text.prefix_of_colon hnumber hfront h
    exact hapart.not_prefix_append _ hnames

/-- What is replaced by a neutral reference does not occur in what comes out. -/
theorem Replaces.not_infix_of_apart (hnumber : ':' ∉ number) (hne : number ≠ [])
    (hname : ':' ∉ name)
    (hother : ∀ c ∈ neutral, c ∉ number) (hapart : Apart name neutral)
    (h : Replaces (number ++ ':' :: name) (number ++ ':' :: neutral) s out) :
    ¬ number ++ ':' :: name <:+: out := by
  induction h with
  | done => simp
  | word later ih =>
    exact not_infix_append
      (fun back hback hpos => not_prefix_neutral hnumber hne hother hapart hback hpos) ih
  | kept other later ih =>
    rw [List.infix_cons_iff, not_or]
    refine ⟨fun hprefix => other ?_, ih⟩
    exact (Replaces.kept other later).prefix_of_colon hnumber hname hapart hnumber hprefix

end Text

/-! ## References -/

theorem Decimal.charsOfInt_ne_nil (n : Int) : charsOfInt n ≠ [] := by
  cases n with
  | ofNat n => exact digitsWith_ne_nil n n
  | negSucc n => exact List.cons_ne_nil _ _

theorem reference_ne_nil (period : Period) (user : String) : reference period user ≠ [] := by
  unfold reference
  simp

theorem replaces_neutralize (period : Period) (user content : String) :
    Text.Replaces (reference period user) (reference period neutralUser) content.toList
      (neutralize period user content).toList := by
  unfold neutralize
  rw [String.toList_ofList]
  exact Text.replaces_replaceAll (reference_ne_nil period user) content.toList

/-- Where a user is not referred to, nothing changes. -/
theorem neutralize_eq_self {period : Period} {user content : String}
    (h : ¬ reference period user <:+: content.toList) :
    neutralize period user content = content := by
  unfold neutralize
  rw [Text.replaceAll_eq_self h, String.ofList_toList]

/-- Once references to a user have been made neutral there is none left, if the user's name has no
colon, and it and the neutral one differ before either of them ends, so that it is not empty; and so
to make them neutral again changes nothing. References to the neutral user stay. -/
theorem neutralize_clears (period : Period) :
    (∀ user : String, ':' ∉ user.toList → Text.Apart user.toList neutralUser.toList →
        ∀ content : String,
          ¬ reference period user <:+: (neutralize period user content).toList ∧
            neutralize period user (neutralize period user content) =
              neutralize period user content) ∧
      ∀ content : String, neutralize period neutralUser content = content := by
  constructor
  · intro user hcolon hapart content
    have hplain : ∀ c ∈ neutralUser.toList, Decimal.digitValue? c = none ∧ c ≠ '-' := by
      simp [neutralUser, Decimal.digitValue?]
    have hletters : ∀ c ∈ neutralUser.toList, c ∉ Decimal.charsOfInt period.toInt :=
      fun c hc => Decimal.not_mem_charsOfInt (hplain c hc).1 (hplain c hc).2 _
    have hclear : ¬ reference period user <:+: (neutralize period user content).toList :=
      (replaces_neutralize period user content).not_infix_of_apart
        (Decimal.not_mem_charsOfInt rfl (by decide) _) (Decimal.charsOfInt_ne_nil _) hcolon hletters
        hapart
    exact ⟨hclear, neutralize_eq_self hclear⟩
  · intro content
    exact String.toList_inj.mp (replaces_neutralize period neutralUser content).eq_of_self

/-- The user is called by the number of the period, so that references run together. -/
theorem neutralize_clears_sevens :
    let content := "77:7:7, 7:77"
    let neutral := "77:web:7, 7:web7"
    ':' ∉ "7".toList ∧ Text.Apart "7".toList neutralUser.toList ∧
      neutralize 7 "7" content = neutral ∧ ¬ reference 7 "7" <:+: neutral.toList ∧
      neutralize 7 "7" neutral = neutral := by
  intro content neutral
  have hcolon : ':' ∉ "7".toList := by decide
  have hapart : Text.Apart "7".toList neutralUser.toList := ⟨by decide, by decide⟩
  have houtcome : neutralize 7 "7" content = neutral := by decide +kernel
  obtain ⟨hclear, hagain⟩ := (neutralize_clears 7).1 "7" hcolon hapart content
  rw [houtcome] at hclear hagain
  exact ⟨hcolon, hapart, houtcome, hclear, hagain⟩

end Bulletin
