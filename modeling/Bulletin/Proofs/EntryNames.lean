import Bulletin.Archive.Entry
import Mathlib.Data.List.Basic

/-!
# What the names of entries say

A name is taken apart twice. To read an entry, its user is looked for before the first dot of the
name and its extension behind the last one. To put files in order, names are cut in the same places,
whether they can be read or not:

    name                 user     extension
    alice.mail           alice    mail
    j.doe.mail.header    j        header
    ..header                      header
    alice, alice.        cannot be read

A name that can be read is put in order by what it says.

    ofString?_eq_some_iff : a name is read as it splits
    name_reads_as_split   : which names can be read, and that they are put in order by what is read
-/

namespace Bulletin

/-- An extension says what an entry is, and its place among the entries of one user. -/
inductive EntryKind.Marks : String → EntryKind → Nat → Prop
  | header : Marks "header" .header 0
  | body : Marks "mail" .body 1
  | blank : Marks "empty" .blank 2
  | other {extension : String} (not_header : extension ≠ "header") (not_body : extension ≠ "mail")
      (not_blank : extension ≠ "empty") : Marks extension (.other extension) 3

theorem EntryKind.marks_iff {extension : String} {kind : EntryKind} {place : Nat} :
    Marks extension kind place ↔ kind = ofExtension extension ∧ place = kind.rank := by
  constructor
  · intro h
    cases h with
    | header => exact ⟨rfl, rfl⟩
    | body => exact ⟨rfl, rfl⟩
    | blank => exact ⟨rfl, rfl⟩
    | other hheader hbody hblank =>
      rw [ofExtension, if_neg hheader, if_neg hbody, if_neg hblank]
      exact ⟨rfl, rfl⟩
  · rintro ⟨rfl, rfl⟩
    unfold ofExtension
    split
    · rename_i h
      exact h ▸ .header
    · split
      · rename_i h
        exact h ▸ .body
      · split
        · rename_i h
          exact h ▸ .blank
        · exact .other ‹_› ‹_› ‹_›

namespace EntryName

/-- A name is that of a user, and what follows it up to the extension, which may be nothing. -/
structure Splits (name user extension : String) : Prop where
  user_plain : '.' ∉ user.toList
  extension_plain : '.' ∉ extension.toList
  extension_ne : extension ≠ ""
  name_eq : name = user ++ "." ++ extension ∨
    ∃ middle, name = user ++ "." ++ middle ++ "." ++ extension

variable {name user extension : String}

namespace Splits

/-- The extension is behind the last dot. -/
theorem cutLast?_eq (h : Splits name user extension) :
    ∃ front, Text.cutLast? '.' name.toList = some (front, extension.toList) := by
  rcases h.name_eq with hname | ⟨middle, hname⟩
  · refine ⟨user.toList, Text.cutLast?_eq_some_iff.mpr ⟨?_, h.extension_plain⟩⟩
    simp [hname]
  · refine ⟨user.toList ++ '.' :: middle.toList,
      Text.cutLast?_eq_some_iff.mpr ⟨?_, h.extension_plain⟩⟩
    simp [hname]

/-- The user is before the first dot, and of what is behind that the extension is the same. -/
theorem cutFirst?_eq (h : Splits name user extension) :
    ∃ rest, Text.cutFirst? '.' name.toList = some (user.toList, rest) ∧
      EntryName.extension rest = extension.toList := by
  rcases h.name_eq with hname | ⟨middle, hname⟩
  · refine ⟨extension.toList, Text.cutFirst?_eq_some_iff.mpr ⟨?_, h.user_plain⟩, ?_⟩
    · simp [hname]
    · rw [EntryName.extension, Text.cutLast?_eq_none_iff.mpr h.extension_plain]
      rfl
  · refine ⟨middle.toList ++ '.' :: extension.toList,
      Text.cutFirst?_eq_some_iff.mpr ⟨?_, h.user_plain⟩, ?_⟩
    · simp [hname]
    · rw [EntryName.extension, Text.cutLast?_append_cons h.extension_plain]
      rfl

theorem getLast?_ne (h : Splits name user extension) : name.toList.getLast? ≠ some '.' := by
  obtain ⟨front, hcut⟩ := h.cutLast?_eq
  obtain ⟨c, rest, hextension⟩ := List.exists_cons_of_ne_nil
    (mt String.toList_eq_nil_iff.mp h.extension_ne)
  have hplain := h.extension_plain
  rw [(Text.cutLast?_eq_some_iff.mp hcut).1]
  rw [hextension] at hplain ⊢
  intro hlast
  rw [List.getLast?_append_of_ne_nil _ (by simp), List.getLast?_cons_cons] at hlast
  exact hplain (List.mem_of_getLast? hlast)

theorem group_eq (h : Splits name user extension) : group name = user := by
  obtain ⟨rest, hcut, -⟩ := h.cutFirst?_eq
  rw [group, hcut]
  exact String.ofList_toList

theorem rank_eq (h : Splits name user extension) :
    rank name = (EntryKind.ofExtension extension).rank := by
  obtain ⟨front, hcut⟩ := h.cutLast?_eq
  rw [rank, hcut]
  dsimp only
  rw [String.ofList_toList]

end Splits

/-- A name with a dot, which is not its end, splits at its first dot and its last one. -/
theorem splits_of_cutFirst? {before rest : List Char}
    (hcut : Text.cutFirst? '.' name.toList = some (before, rest))
    (hlast : name.toList.getLast? ≠ some '.') :
    Splits name (String.ofList before) (String.ofList (EntryName.extension rest)) := by
  obtain ⟨hname, hbefore⟩ := Text.cutFirst?_eq_some_iff.mp hcut
  have hname' : name = String.ofList (before ++ '.' :: rest) := by
    rw [← hname, String.ofList_toList]
  rw [hname, List.getLast?_append_of_ne_nil _ (by simp)] at hlast
  cases hlater : Text.cutLast? '.' rest with
  | none =>
    have hrest : rest ≠ [] := by
      rintro rfl
      exact hlast rfl
    refine ⟨by simpa using hbefore, ?_, ?_, .inl ?_⟩
    · rw [EntryName.extension, hlater, String.toList_ofList]
      exact Text.cutLast?_eq_none_iff.mp hlater
    · rw [EntryName.extension, hlater]
      simpa using hrest
    · rw [EntryName.extension, hlater, hname']
      simp [← String.toList_inj]
  | some cut =>
    obtain ⟨middle, extension⟩ := cut
    obtain ⟨rfl, hplain⟩ := Text.cutLast?_eq_some_iff.mp hlater
    have hne : extension ≠ [] := by
      rintro rfl
      rw [← List.cons_append, List.getLast?_concat] at hlast
      exact hlast rfl
    refine ⟨by simpa using hbefore, ?_, ?_, .inr ⟨String.ofList middle, ?_⟩⟩
    · rw [EntryName.extension, hlater]
      simpa using hplain
    · rw [EntryName.extension, hlater]
      simpa using hne
    · rw [EntryName.extension, hlater, hname']
      simp [← String.toList_inj]

/-- A name is read as it splits. -/
theorem ofString?_eq_some_iff {entry : EntryName} :
    ofString? name = some entry ↔
      ∃ extension, Splits name entry.user extension ∧
        entry.kind = EntryKind.ofExtension extension := by
  constructor
  · intro h
    unfold ofString? at h
    split at h
    · cases h
    · rename_i before rest hcut
      split at h
      · cases h
      · rename_i hends
        cases h
        refine ⟨_, splits_of_cutFirst? hcut ?_, rfl⟩
        simp only [Bool.or_eq_true, beq_iff_eq, not_or] at hends
        exact hends.2
  · rintro ⟨extension, hsplits, hkind⟩
    obtain ⟨rest, hcut, hextension⟩ := hsplits.cutFirst?_eq
    have hrest : rest ≠ [] := by
      rintro rfl
      exact hsplits.extension_ne (String.toList_eq_nil_iff.mp hextension.symm)
    rw [ofString?, hcut]
    dsimp only
    rw [if_neg (by simp [hrest, hsplits.getLast?_ne]), hextension, String.ofList_toList,
      String.ofList_toList, ← hkind]

/-- The user of an entry is what is before the first dot of its name. -/
theorem dot_not_mem_user {entry : EntryName} (h : ofString? name = some entry) :
    '.' ∉ entry.user.toList := by
  obtain ⟨extension, hsplits, -⟩ := ofString?_eq_some_iff.mp h
  exact hsplits.user_plain

theorem group_eq_user {entry : EntryName} (h : ofString? name = some entry) :
    group name = entry.user := by
  obtain ⟨extension, hsplits, -⟩ := ofString?_eq_some_iff.mp h
  exact hsplits.group_eq

theorem isSome_ofString?_iff :
    (ofString? name).isSome ↔ '.' ∈ name.toList ∧ name.toList.getLast? ≠ some '.' := by
  constructor
  · intro h
    obtain ⟨entry, hentry⟩ := Option.isSome_iff_exists.mp h
    obtain ⟨extension, hsplits, -⟩ := ofString?_eq_some_iff.mp hentry
    obtain ⟨front, hcut⟩ := hsplits.cutLast?_eq
    refine ⟨?_, hsplits.getLast?_ne⟩
    rw [(Text.cutLast?_eq_some_iff.mp hcut).1]
    simp
  · rintro ⟨hdot, hlast⟩
    cases hcut : Text.cutFirst? '.' name.toList with
    | none => exact absurd hdot (Text.cutFirst?_eq_none_iff.mp hcut)
    | some cut =>
      obtain ⟨before, rest⟩ := cut
      have hread := ofString?_eq_some_iff.mpr
        ⟨_, splits_of_cutFirst? hcut hlast, (rfl : (EntryName.mk _ _).kind = _)⟩
      rw [hread]
      rfl

/-- A name can be read if it has a dot and does not end in one. It is read as it splits: its
extension says what the entry is. And of such a name the user is the group, and the place among the
entries of the group is the one that the extension says. -/
theorem name_reads_as_split (name : String) :
    ((ofString? name).isSome ↔ '.' ∈ name.toList ∧ name.toList.getLast? ≠ some '.') ∧
      ∀ entry, ofString? name = some entry ↔
        ∃ extension, Splits name entry.user extension ∧
          EntryKind.Marks extension entry.kind (rank name) ∧ group name = entry.user := by
  refine ⟨isSome_ofString?_iff, fun entry => ?_⟩
  rw [ofString?_eq_some_iff]
  constructor
  · rintro ⟨extension, hsplits, hkind⟩
    refine ⟨extension, hsplits, EntryKind.marks_iff.mpr ⟨hkind, ?_⟩, hsplits.group_eq⟩
    rw [hsplits.rank_eq, hkind]
  · rintro ⟨extension, hsplits, hmarks, -⟩
    exact ⟨extension, hsplits, (EntryKind.marks_iff.mp hmarks).1⟩

example : ofString? "j.doe.mail.header" = some ⟨"j", .header⟩ := by decide +kernel

end EntryName

end Bulletin
