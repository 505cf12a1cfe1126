import Bulletin.Loading
import Bulletin.Proofs.Places
import Bulletin.Proofs.Spelling
import Mathlib.Algebra.Group.Int.Defs

/-!
# What the names of archives tell

The name of an archive is a number and a suffix, and tells its period. Whatever directory it is in,
the period of an archive can be read off its path, so no two periods have an archive in common:

    -7.tar.gz                    the archive of -7
    +07.tar.gz                   tells 7, and is no name that is given to an archive
    9223372036854775808.tar.gz   tells nothing: the number is too large
    7.tar.gz.renew               tells nothing: it asks for an archive

    periodOf?_eq_some_iff : a name tells what its number denotes
    names_tell_periods    : what names tell, which tell nothing, and that archives tell their periods
-/

namespace Bulletin

namespace Layout

variable {layout : Layout} {name : String} {period : Period}

/-- The name of an archive is that of a file in a directory. -/
theorem isFileName_of_periodOf? (h : layout.periodOf? name = some period) : IsFileName name := by
  have hnone : ∀ other, layout.periodOf? other = none → name ≠ other := by
    rintro other hother rfl
    rw [hother] at h
    cases h
  refine isFileName_ofString.mpr ⟨hnone _ ?_, hnone _ ?_, hnone _ ?_, ?_⟩
  · cases layout <;> decide +kernel
  · cases layout <;> decide +kernel
  · cases layout <;> decide +kernel
  · obtain ⟨stem, rfl, hstem⟩ := periodOf?_eq_some_iff.mp h
    rw [String.toList_append, List.mem_append, not_or]
    refine ⟨fun hslash => absurd (hstem.digit_or_sign '/' hslash) (by decide), ?_⟩
    cases layout <;> decide

/-- The name of an archive is ASCII, so that there are no other bytes that read like it. -/
theorem ofString_text_of_periodOf? {name : RawText} (h : layout.periodOf? name.text = some period) :
    RawText.ofString name.text = name := by
  obtain ⟨stem, hname, hstem⟩ := periodOf?_eq_some_iff.mp h
  have hsuffix : layout.suffix.toList.all fun c => c.toNat < 128 := by cases layout <;> rfl
  refine RawText.ofString_text fun c hc => ?_
  rw [hname, String.toList_append, List.mem_append] at hc
  rcases hc with hc | hc
  · rcases hstem.digit_or_sign c hc with hdigit | rfl | rfl
    · have hhigh : c.toNat ≤ 57 := hdigit.2
      omega
    · decide
    · decide
  · exact of_decide_eq_true (List.all_eq_true.mp hsuffix c hc)

theorem isFileName_archiveName (layout : Layout) (period : Period) :
    IsFileName (layout.archiveName period) :=
  isFileName_of_periodOf? (layout.periodOf?_archiveName period)

theorem fileName?_archivePath (layout : Layout) (root : Path) (period : Period) :
    (layout.archivePath root period).fileName? =
      some (RawText.ofString (layout.archiveName period)) :=
  Path.fileName?_join root (layout.isFileName_archiveName period)

/-- A number that does not fit is no period. -/
theorem periodOf?_of_not_fit {stem : String} {n : Int} (h : Decimal.Denotes stem.toList n)
    (hfit : n < -2 ^ 63 ∨ 2 ^ 63 ≤ n) : layout.periodOf? (stem ++ layout.suffix) = none := by
  cases hperiod : layout.periodOf? (stem ++ layout.suffix) with
  | none => rfl
  | some period =>
    obtain ⟨stem', hname, hstem⟩ := periodOf?_eq_some_iff.mp hperiod
    rw [← String.toList_inj, String.toList_append, String.toList_append] at hname
    rw [← List.append_cancel_right hname] at hstem
    have hlow : -2 ^ 63 ≤ period.toInt := period.le_toInt
    have hhigh : period.toInt < 2 ^ 63 := period.toInt_lt
    rw [h.unique hstem] at hfit
    omega

/-- What asks for a reload is no archive: an archive's name ends in a digit or in another suffix. -/
theorem periodOf?_append_triggerSuffix (layout : Layout) (lead : String) :
    layout.periodOf? (lead ++ triggerSuffix) = none := by
  cases hperiod : layout.periodOf? (lead ++ triggerSuffix) with
  | none => rfl
  | some period =>
    obtain ⟨stem, hname, hstem⟩ := periodOf?_eq_some_iff.mp hperiod
    rw [← String.toList_inj, String.toList_append, String.toList_append] at hname
    cases layout with
    | tarball =>
      have hlast := congrArg List.getLast? hname
      simp [triggerSuffix, suffix] at hlast
    | directory =>
      have hmem : 'w' ∈ stem.toList := by
        have hin : 'w' ∈ stem.toList ++ (suffix directory).toList :=
          hname ▸ List.mem_append_right _ (by decide)
        simpa [suffix] using hin
      exact absurd (hstem.digit_or_sign 'w' hmem) (by decide)

theorem not_endsWith_archiveName (layout : Layout) (period : Period) :
    Text.endsWith (layout.archiveName period) triggerSuffix = false := by
  rw [Bool.eq_false_iff]
  intro hends
  obtain ⟨lead, hlead⟩ := Text.endsWith_iff.mp hends
  have hperiod := layout.periodOf?_archiveName period
  rw [hlead, periodOf?_append_triggerSuffix] at hperiod
  cases hperiod

/-- The period of an archive is told by the end of its path, wherever the archives are, so that
different periods have different paths. And a name tells a period just if it is a number that
denotes it, and the suffix: no number that does not fit tells one, and nothing that asks for a
reload. -/
theorem names_tell_periods (layout : Layout) :
    (∀ root period,
        ((layout.archivePath root period).fileName?.bind fun name => layout.periodOf? name.text) =
          some period) ∧
      (∀ root period period',
        (layout.archivePath root period).same (layout.archivePath root period') ↔
          period = period') ∧
      (∀ name period, layout.periodOf? name = some period ↔
        ∃ stem, name = stem ++ layout.suffix ∧ Decimal.Denotes stem.toList period.toInt) ∧
      (∀ stem n, Decimal.Denotes stem.toList n → n < -2 ^ 63 ∨ 2 ^ 63 ≤ n →
        layout.periodOf? (stem ++ layout.suffix) = none) ∧
      ∀ lead, layout.periodOf? (lead ++ triggerSuffix) = none := by
  have htold (root : Path) (period : Period) :
      ((layout.archivePath root period).fileName?.bind fun name => layout.periodOf? name.text) =
        some period := by
    rw [layout.fileName?_archivePath, Option.bind_some, RawText.text_ofString]
    exact layout.periodOf?_archiveName period
  refine ⟨htold, fun root period period' => ⟨fun hsame => ?_, ?_⟩,
    fun name period => periodOf?_eq_some_iff, fun stem n => periodOf?_of_not_fit,
    layout.periodOf?_append_triggerSuffix⟩
  · -- the name at the end of a path is one of its parts
    have hparts : (layout.archivePath root period).parts =
        (layout.archivePath root period').parts := beq_iff_eq.mp hsame
    have hperiod := htold root period
    rw [Path.fileName?, hparts, ← Path.fileName?, htold root period'] at hperiod
    exact (Option.some.inj hperiod).symm
  · rintro rfl
    exact beq_self_eq_true _

/-- The smallest period, and the number behind the largest. -/
theorem names_tell_periods_at_bounds :
    Decimal.Denotes "9223372036854775808".toList 9223372036854775808 ∧
      directory.periodOf? "9223372036854775808" = none ∧
      ((directory.archivePath ⟨"/srv/"⟩ Int64.minValue).fileName?.bind fun name =>
          directory.periodOf? name.text) = some Int64.minValue := by
  have hdenotes : Decimal.Denotes "9223372036854775808".toList 9223372036854775808 :=
    Decimal.intOfChars?_eq_some_iff.mp (by decide +kernel)
  obtain ⟨htold, -, -, hnone, -⟩ := names_tell_periods directory
  exact ⟨hdenotes, hnone "9223372036854775808" _ hdenotes (.inr (by decide)),
    htold ⟨"/srv/"⟩ Int64.minValue⟩

end Layout

end Bulletin
