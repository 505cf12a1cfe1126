/-!
# The table of shared texts

A text that many bulletins share is kept once, under the number it got when it was first seen.
Numbers begin at one and are never given again:

    get?_intern         : (t.intern s).1.get? (t.intern s).2 = some s
    get?_intern_of_some : t.get? id = some s → (t.intern s').1.get? id = some s
    idOf?_eq_some_iff   : t.idOf? s = some id ↔ t.get? id = some s
-/

namespace Bulletin

/-- The number of a shared text. -/
abbrev ContentId := Nat

/-- The shared texts in the order they were first seen. -/
structure Contents where
  texts : List String
  nodup : texts.Nodup
  deriving DecidableEq

namespace Contents

instance : Inhabited Contents := ⟨⟨[], .nil⟩⟩

/-- The table without texts. -/
def empty : Contents := ⟨[], .nil⟩

def size (t : Contents) : Nat := t.texts.length

/-- The text of a number. -/
def get? (t : Contents) : ContentId → Option String
  | 0 => none
  | n + 1 => t.texts[n]?

/-- The number of a text. -/
def idOf? (t : Contents) (s : String) : Option ContentId := (t.texts.idxOf? s).map (· + 1)

/-- Adds a text behind all others. -/
def push (t : Contents) (s : String) (h : s ∉ t.texts) : Contents :=
  ⟨t.texts ++ [s], by
    rw [List.nodup_append]
    refine ⟨t.nodup, by simp, ?_⟩
    intro a ha b hb
    rw [List.mem_singleton] at hb
    rintro rfl
    exact h (hb ▸ ha)⟩

/-- The table with a text, and the number of that text. -/
def intern (t : Contents) (s : String) : Contents × ContentId :=
  if h : s ∈ t.texts then (t, t.texts.idxOf s + 1) else (t.push s h, t.size + 1)

/-- The texts with their numbers, in the order of the numbers. -/
def entries (t : Contents) : List (ContentId × String) :=
  t.texts.zipIdx.map fun (s, n) => (n + 1, s)

/-! ## Look-ups -/

theorem intern_of_mem {t : Contents} {s : String} (h : s ∈ t.texts) :
    t.intern s = (t, t.texts.idxOf s + 1) := dif_pos h

theorem intern_of_not_mem {t : Contents} {s : String} (h : s ∉ t.texts) :
    t.intern s = (t.push s h, t.size + 1) := dif_neg h

@[simp]
theorem get?_intern (t : Contents) (s : String) :
    (t.intern s).1.get? (t.intern s).2 = some s := by
  by_cases h : s ∈ t.texts
  · rw [intern_of_mem h]
    have hlt := List.idxOf_lt_length_of_mem h
    simp [get?, List.getElem?_eq_getElem hlt]
  · rw [intern_of_not_mem h]
    simp [get?, push, size]

/-- A number that has been given keeps its text. -/
theorem get?_intern_of_some {t : Contents} {id : ContentId} {s : String} (s' : String)
    (h : t.get? id = some s) : (t.intern s').1.get? id = some s := by
  by_cases h' : s' ∈ t.texts
  · rwa [intern_of_mem h']
  · rw [intern_of_not_mem h']
    cases id with
    | zero => simp [get?] at h
    | succ n =>
      rw [get?] at h
      rw [get?, push, List.getElem?_append_left (List.getElem?_eq_some_iff.mp h).1, h]

/-- Texts and numbers belong to each other. -/
theorem idOf?_eq_some_iff {t : Contents} {s : String} {id : ContentId} :
    t.idOf? s = some id ↔ t.get? id = some s := by
  unfold idOf?
  rw [Option.map_eq_some_iff]
  constructor
  · rintro ⟨n, hn, rfl⟩
    obtain ⟨hlt, heq, -⟩ := List.idxOf?_eq_some_iff.mp hn
    rw [get?, List.getElem?_eq_getElem hlt, heq]
  · intro h
    cases id with
    | zero => simp [get?] at h
    | succ n =>
      refine ⟨n, ?_, rfl⟩
      obtain ⟨hlt, heq⟩ := List.getElem?_eq_some_iff.mp h
      refine List.idxOf?_eq_some_iff.mpr ⟨hlt, heq, fun j hj hsame => ?_⟩
      have hj' : j < t.texts.length := Nat.lt_trans hj hlt
      have : t.texts[j]? = t.texts[n]? := by
        rw [List.getElem?_eq_getElem hj', List.getElem?_eq_getElem hlt, hsame, heq]
      exact Nat.ne_of_lt hj ((List.getElem?_inj hj' t.nodup).mp this)

end Contents

end Bulletin
