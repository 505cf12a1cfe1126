import Bulletin.Section.SelfReference

/-!
# What replacing a word does

`Text.replaceAll` goes through a text from the front. At a word it writes the replacement and goes on
behind the word; anywhere else it keeps one character:

    replaceAll_word_append : replaceAll old new (old ++ rest) = new ++ replaceAll old new rest
    replaceAll_kept_append : replaceAll old new (kept ++ rest) = kept ++ replaceAll old new rest,
      where no word begins in `kept`

A reference is a number, a colon and a name. Where pieces of text without that number and a colon are
joined by the reference, it occurs at the seams only:

    replaceAll_intercalate : replaceAll old new (old.intercalate pieces) = new.intercalate pieces
-/

namespace Bulletin.Text

variable {old new : List Char}

/-! ## At a word, and anywhere else -/

/-- What has been replaced is passed over. -/
theorem replaceFrom_length_append (old new passed rest : List Char) :
    replaceFrom old new passed.length (passed ++ rest) = replaceAll old new rest := by
  induction passed with
  | nil => rfl
  | cons c passed ih => exact ih

theorem replaceAll_word_append (h : old ≠ []) (rest : List Char) :
    replaceAll old new (old ++ rest) = new ++ replaceAll old new rest := by
  obtain ⟨c, old', rfl⟩ := List.exists_cons_of_ne_nil h
  have hword : (c :: old').isPrefixOf (c :: (old' ++ rest)) = true :=
    List.isPrefixOf_iff_prefix.mpr (List.prefix_append _ _)
  show replaceFrom _ new 0 (c :: (old' ++ rest)) = _
  rw [replaceFrom, if_pos hword]
  exact congrArg (new ++ ·) (replaceFrom_length_append (c :: old') new old' rest)

theorem replaceAll_cons_of_no_match {c : Char} {rest : List Char} (h : ¬ old <+: c :: rest) :
    replaceAll old new (c :: rest) = c :: replaceAll old new rest := by
  unfold replaceAll
  rw [replaceFrom, if_neg fun hprefix => h (List.isPrefixOf_iff_prefix.mp hprefix)]

/-- Where no word begins, everything is kept. -/
theorem replaceAll_kept_append {kept rest : List Char}
    (h : ∀ back, back <:+ kept → back ≠ [] → ¬ old <+: back ++ rest) :
    replaceAll old new (kept ++ rest) = kept ++ replaceAll old new rest := by
  induction kept with
  | nil => rfl
  | cons c kept ih =>
    have hhere : ¬ old <+: c :: (kept ++ rest) := h _ List.suffix_rfl (List.cons_ne_nil c kept)
    rw [List.cons_append, replaceAll_cons_of_no_match hhere,
      ih fun back hback => h back (hback.trans (List.suffix_cons c kept))]
    rfl

/-! ## References between pieces of text -/

variable {number name : List Char}

/-- In front of another reference, or of the end, no reference begins in a text that does not have
its number with a colon: the colon would be that of the other reference, whose number is as long. -/
theorem not_prefix_back {piece back rest : List Char} (hnumber : ':' ∉ number)
    (hpiece : ¬ number ++ [':'] <:+: piece) (hrest : rest = [] ∨ number ++ [':'] <+: rest)
    (hback : back <:+ piece) (hne : back ≠ []) : ¬ number ++ ':' :: name <+: back ++ rest := by
  intro hprefix
  have hmark : number ++ [':'] <+: back ++ rest := by
    refine List.IsPrefix.trans ⟨name, ?_⟩ hprefix
    simp
  rcases List.prefix_or_prefix_of_prefix hmark (List.prefix_append back rest) with hin | hout
  · exact hpiece (hin.isInfix.trans hback.isInfix)
  · obtain ⟨later, hlater⟩ := hout
    rw [← hlater, List.prefix_append_right_inj] at hmark
    have hlength := congrArg List.length hlater
    have hpos := List.length_pos_iff.mpr hne
    simp only [List.length_append, List.length_singleton] at hlength
    have hcolon : later = [] ∨ ':' ∈ later := by
      rcases List.eq_nil_or_concat later with hnil | ⟨front, c, rfl⟩
      · exact .inl hnil
      · have hlast := congrArg List.getLast? hlater
        simp at hlast
        simp [hlast]
    rcases hcolon with rfl | hcolon
    · rw [List.append_nil] at hlater
      exact hpiece (hlater ▸ hback.isInfix)
    rcases hrest with rfl | hrest
    · rw [List.prefix_nil.mp hmark] at hcolon
      exact List.not_mem_nil hcolon
    · have hnumber' := (List.prefix_append number [':']).trans hrest
      have hinside := List.prefix_of_prefix_length_le hmark hnumber' (by omega)
      exact hnumber (hinside.subset hcolon)

/-- Where pieces of text are joined by a reference, that is replaced between them and nothing else. -/
theorem replaceAll_intercalate {pieces : List (List Char)} (hnumber : ':' ∉ number)
    (hpieces : ∀ piece ∈ pieces, ¬ number ++ [':'] <:+: piece) :
    replaceAll (number ++ ':' :: name) new ((number ++ ':' :: name).intercalate pieces) =
      new.intercalate pieces := by
  induction pieces with
  | nil => rfl
  | cons piece rest ih =>
    have hpiece := hpieces piece List.mem_cons_self
    have hrest := ih fun piece hmem => hpieces piece (List.mem_cons_of_mem _ hmem)
    cases rest with
    | nil =>
      have hkept : ∀ back, back <:+ piece → back ≠ [] → ¬ number ++ ':' :: name <+: back ++ [] :=
        fun back => not_prefix_back hnumber hpiece (.inl rfl)
      have hwhole : replaceAll _ new (piece ++ []) = piece ++ replaceAll _ new [] :=
        replaceAll_kept_append hkept
      simpa [replaceAll, replaceFrom] using hwhole
    | cons next rest =>
      have hseam : number ++ [':'] <+: (number ++ ':' :: name) ++
          (number ++ ':' :: name).intercalate (next :: rest) := ⟨_, by simp; rfl⟩
      rw [List.intercalate_cons_cons, List.intercalate_cons_cons, List.append_assoc,
        replaceAll_kept_append fun back => not_prefix_back hnumber hpiece (.inr hseam),
        replaceAll_word_append (by simp), hrest, List.append_assoc]

end Bulletin.Text
