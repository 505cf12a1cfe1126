/-!
# Taking text apart

Cutting at a separator, taking off a beginning or an end, and replacing one text by another. The
work is done on lists of characters:

    cutFirst? '.' "a.b.c" = some ("a", "b.c")
    cutLast?  '.' "a.b.c" = some ("a.b", "c")
    cutAll    '.' "a..b"  = ["a", "", "b"]
    replaceAll "aa" "b" "aaa" = "ba"
-/

namespace Bulletin.Text

/-- The text before the first `sep` and the text behind it. -/
def cutFirst? (sep : Char) : List Char → Option (List Char × List Char)
  | [] => none
  | c :: rest =>
    if c = sep then some ([], rest)
    else (cutFirst? sep rest).map fun (before, behind) => (c :: before, behind)

/-- The text before the last `sep` and the text behind it. -/
def cutLast? (sep : Char) : List Char → Option (List Char × List Char)
  | [] => none
  | c :: rest =>
    match cutLast? sep rest with
    | some (before, behind) => some (c :: before, behind)
    | none => if c = sep then some ([], rest) else none

/-- A list cut at every `sep`. -/
def cutAll {α : Type} [DecidableEq α] (sep : α) : List α → List (List α)
  | [] => [[]]
  | c :: rest =>
    if c = sep then [] :: cutAll sep rest
    else
      match cutAll sep rest with
      | part :: parts => (c :: part) :: parts
      | [] => [[c]]

/-- What follows `lead`, if the text begins with it. -/
def afterLead? : List Char → List Char → Option (List Char)
  | [], s => some s
  | _ :: _, [] => none
  | l :: lead, c :: s => if l = c then afterLead? lead s else none

/-- What precedes `tail`, if the text ends with it. -/
def beforeTail? (tail s : List Char) : Option (List Char) :=
  (afterLead? tail.reverse s.reverse).map List.reverse

theorem cutFirst?_eq_none_iff {sep : Char} {s : List Char} : cutFirst? sep s = none ↔ sep ∉ s := by
  induction s with
  | nil => simp [cutFirst?]
  | cons c rest ih =>
    rw [cutFirst?]
    by_cases hc : c = sep
    · simp [hc]
    · simp [hc, ih, Ne.symm hc]

theorem cutFirst?_append_cons {sep : Char} {before : List Char} (h : sep ∉ before)
    (behind : List Char) : cutFirst? sep (before ++ sep :: behind) = some (before, behind) := by
  induction before with
  | nil => simp [cutFirst?]
  | cons c before ih =>
    rw [List.mem_cons, not_or] at h
    rw [List.cons_append, cutFirst?, if_neg (Ne.symm h.1), ih h.2]
    rfl

theorem cutFirst?_eq_some_iff {sep : Char} {s before behind : List Char} :
    cutFirst? sep s = some (before, behind) ↔ s = before ++ sep :: behind ∧ sep ∉ before := by
  constructor
  · intro h
    have hmem : sep ∈ s := Decidable.of_not_not fun hno => by
      rw [cutFirst?_eq_none_iff.mpr hno] at h
      cases h
    obtain ⟨front, back, rfl, hfront⟩ := List.eq_append_cons_of_mem hmem
    rw [cutFirst?_append_cons hfront] at h
    cases h
    exact ⟨rfl, hfront⟩
  · rintro ⟨rfl, hbefore⟩
    exact cutFirst?_append_cons hbefore behind

theorem cutLast?_eq_none_iff {sep : Char} {s : List Char} : cutLast? sep s = none ↔ sep ∉ s := by
  induction s with
  | nil => simp [cutLast?]
  | cons c rest ih =>
    rw [cutLast?]
    cases hcut : cutLast? sep rest with
    | none => simp [ih.mp hcut, eq_comm]
    | some cut =>
      rw [hcut] at ih
      simpa using fun _ => ih

theorem cutLast?_append_cons {sep : Char} {behind : List Char} (h : sep ∉ behind)
    (before : List Char) : cutLast? sep (before ++ sep :: behind) = some (before, behind) := by
  induction before with
  | nil => simp [cutLast?, cutLast?_eq_none_iff.mpr h]
  | cons c before ih => rw [List.cons_append, cutLast?, ih]

theorem cutLast?_eq_some_iff {sep : Char} {s before behind : List Char} :
    cutLast? sep s = some (before, behind) ↔ s = before ++ sep :: behind ∧ sep ∉ behind := by
  constructor
  · intro h
    have hmem : sep ∈ s.reverse := Decidable.of_not_not fun hno => by
      rw [List.mem_reverse] at hno
      rw [cutLast?_eq_none_iff.mpr hno] at h
      cases h
    -- the last separator is the first one from the other end
    obtain ⟨back, front, hsplit, hback⟩ := List.eq_append_cons_of_mem hmem
    obtain rfl : s = front.reverse ++ sep :: back.reverse := by
      have hreverse := congrArg List.reverse hsplit
      simpa using hreverse
    rw [cutLast?_append_cons (by simpa using hback)] at h
    cases h
    exact ⟨rfl, by simpa using hback⟩
  · rintro ⟨rfl, hbehind⟩
    exact cutLast?_append_cons hbehind before

theorem afterLead?_eq_some_iff {lead s rest : List Char} :
    afterLead? lead s = some rest ↔ s = lead ++ rest := by
  induction lead generalizing s with
  | nil => cases s <;> simp [afterLead?]
  | cons l lead ih =>
    cases s with
    | nil => simp [afterLead?]
    | cons c s =>
      rw [afterLead?]
      split
      · rename_i h
        simp [ih, h]
      · rename_i h
        simp [Ne.symm h]

theorem beforeTail?_eq_some_iff {tail s rest : List Char} :
    beforeTail? tail s = some rest ↔ s = rest ++ tail := by
  rw [beforeTail?, Option.map_eq_some_iff]
  constructor
  · rintro ⟨r, hr, rfl⟩
    have := congrArg List.reverse (afterLead?_eq_some_iff.mp hr)
    simpa using this
  · rintro rfl
    exact ⟨rest.reverse, afterLead?_eq_some_iff.mpr (by simp), by simp⟩

theorem map_beforeTail?_eq_some_iff {tail s rest : String} :
    (beforeTail? tail.toList s.toList).map String.ofList = some rest ↔ s = rest ++ tail := by
  constructor
  · intro h
    obtain ⟨chars, hchars, rfl⟩ := Option.map_eq_some_iff.mp h
    apply String.toList_inj.mp
    rw [beforeTail?_eq_some_iff.mp hchars, String.toList_append, String.toList_ofList]
  · rintro rfl
    rw [beforeTail?_eq_some_iff.mpr String.toList_append, Option.map_some, String.ofList_toList]

/-- The text from the first occurrence of `word` on. -/
def from? (word : List Char) : List Char → Option (List Char)
  | [] => if word.isEmpty then some [] else none
  | c :: rest => if word.isPrefixOf (c :: rest) then some (c :: rest) else from? word rest

/-- `replaceAll` behind `skip` characters that have been replaced already. -/
def replaceFrom (old new : List Char) : Nat → List Char → List Char
  | _, [] => []
  | skip + 1, _ :: rest => replaceFrom old new skip rest
  | 0, c :: rest =>
    if old.isPrefixOf (c :: rest) then new ++ replaceFrom old new (old.length - 1) rest
    else c :: replaceFrom old new 0 rest

/-- Replaces every occurrence of `old`, which is not empty, by `new`. Occurrences are looked for
from the front, and none overlaps the one before it. -/
def replaceAll (old new s : List Char) : List Char := replaceFrom old new 0 s

def endsWith (s tail : String) : Bool := tail.toList.isSuffixOf s.toList

theorem endsWith_iff {s tail : String} : endsWith s tail ↔ ∃ lead, s = lead ++ tail := by
  unfold endsWith
  rw [List.isSuffixOf_iff_suffix]
  constructor
  · rintro ⟨lead, hlead⟩
    refine ⟨String.ofList lead, String.toList_inj.mp ?_⟩
    rw [String.toList_append, String.toList_ofList, hlead]
  · rintro ⟨lead, rfl⟩
    exact ⟨lead.toList, String.toList_append.symm⟩

/-- Removes blanks of the given kind at both ends. -/
def trim (isBlank : Char → Bool) (s : List Char) : List Char :=
  ((s.dropWhile isBlank).reverse.dropWhile isBlank).reverse

end Bulletin.Text
