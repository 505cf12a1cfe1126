/-!
# Sorted maps

A map is the list of its entries, each key once and in increasing order, so that two maps with the
same look-ups are the same map:

    get?_insert : (m.insert k v).get? k' = if k' = k then some v else m.get? k'
    ext_get?    : (∀ k, m.get? k = n.get? k) → m = n
-/

namespace Bulletin

/-- A map whose entries are kept in the order of their keys. -/
structure SortedMap (κ α : Type) [Ord κ] where
  entries : List (κ × α)
  increasing : entries.Pairwise fun a b => compare a.1 b.1 = .lt

namespace SortedMap

variable {κ α β : Type} [Ord κ]

instance : Inhabited (SortedMap κ α) := ⟨[], .nil⟩

instance [DecidableEq κ] [DecidableEq α] : DecidableEq (SortedMap κ α) := fun m n =>
  decidable_of_iff (m.entries = n.entries) ⟨fun h => by cases m; cases n; simp_all, congrArg _⟩

def empty : SortedMap κ α := ⟨[], .nil⟩

/-- The keys, in order. -/
def keys (m : SortedMap κ α) : List κ := m.entries.map Prod.fst

def size (m : SortedMap κ α) : Nat := m.entries.length

def isEmpty (m : SortedMap κ α) : Bool := m.entries.isEmpty

/-- The value of a key in a list of entries. -/
def find (k : κ) : List (κ × α) → Option α
  | [] => none
  | (k', v) :: rest => if compare k k' = .eq then some v else find k rest

/-- The value of a key. -/
def get? (m : SortedMap κ α) (k : κ) : Option α := find k m.entries

/-- Whether a key has a value. -/
def contains (m : SortedMap κ α) (k : κ) : Bool := (m.get? k).isSome

/-- Gives a key its value in a list of entries. -/
def put (k : κ) (v : α) : List (κ × α) → List (κ × α)
  | [] => [(k, v)]
  | (k', v') :: rest =>
    match compare k k' with
    | .lt => (k, v) :: (k', v') :: rest
    | .eq => (k, v) :: rest
    | .gt => (k', v') :: put k v rest

theorem mem_put {k : κ} {v : α} {e : κ × α} {l : List (κ × α)} (h : e ∈ put k v l) :
    e = (k, v) ∨ e ∈ l := by
  induction l with
  | nil => exact .inl (by simpa [put] using h)
  | cons hd tl ih =>
    rw [put] at h
    split at h
    · simpa using h
    · rcases List.mem_cons.mp h with h | h
      · exact .inl h
      · exact .inr (List.mem_cons_of_mem _ h)
    · rcases List.mem_cons.mp h with h | h
      · exact .inr (h ▸ List.mem_cons_self)
      · exact (ih h).imp id (List.mem_cons_of_mem _)

theorem increasing_put [Std.TransOrd κ] (k : κ) (v : α) {l : List (κ × α)}
    (h : l.Pairwise fun a b => compare a.1 b.1 = .lt) :
    (put k v l).Pairwise fun a b => compare a.1 b.1 = .lt := by
  induction l with
  | nil => simp [put]
  | cons hd tl ih =>
    obtain ⟨k', v'⟩ := hd
    rw [List.pairwise_cons] at h
    rw [put]
    split
    · rename_i hlt
      refine List.pairwise_cons.mpr ⟨?_, List.pairwise_cons.mpr h⟩
      intro e he
      rcases List.mem_cons.mp he with rfl | he
      · exact hlt
      · exact Std.TransCmp.lt_trans hlt (h.1 e he)
    · rename_i heq
      refine List.pairwise_cons.mpr ⟨?_, h.2⟩
      intro e he
      exact Std.TransCmp.lt_of_eq_of_lt heq (h.1 e he)
    · rename_i hgt
      refine List.pairwise_cons.mpr ⟨?_, ih h.2⟩
      intro e he
      rcases mem_put he with rfl | he
      · exact Std.OrientedCmp.gt_iff_lt.mp hgt
      · exact h.1 e he

/-- Gives a key its value. -/
def insert [Std.TransOrd κ] (m : SortedMap κ α) (k : κ) (v : α) : SortedMap κ α :=
  ⟨put k v m.entries, increasing_put k v m.increasing⟩

/-- The map of entries, of which the last with a key counts. -/
def ofList [Std.TransOrd κ] (entries : List (κ × α)) : SortedMap κ α :=
  entries.foldl (fun m (k, v) => m.insert k v) empty

theorem increasing_filterMap (f : κ → α → Option β) {l : List (κ × α)}
    (h : l.Pairwise fun a b => compare a.1 b.1 = .lt) :
    (l.filterMap fun e => (f e.1 e.2).map fun b => (e.1, b)).Pairwise
      fun a b => compare a.1 b.1 = .lt := by
  refine h.filterMap _ fun a a' hlt b hb b' hb' => ?_
  simp only [Option.map_eq_some_iff] at hb hb'
  obtain ⟨_, _, rfl⟩ := hb
  obtain ⟨_, _, rfl⟩ := hb'
  exact hlt

/-- Keeps the entries that `f` gives a new value. -/
def filterMap (m : SortedMap κ α) (f : κ → α → Option β) : SortedMap κ β :=
  ⟨m.entries.filterMap fun e => (f e.1 e.2).map fun b => (e.1, b),
    increasing_filterMap f m.increasing⟩

/-- Keeps the entries that `p` accepts. -/
def filter (m : SortedMap κ α) (p : κ → α → Bool) : SortedMap κ α :=
  m.filterMap fun k v => if p k v then some v else none

/-! ## Look-ups -/

theorem find_eq_some_iff [Std.LawfulEqOrd κ] {k : κ} {v : α} {l : List (κ × α)}
    (h : l.Pairwise fun a b => compare a.1 b.1 = .lt) : find k l = some v ↔ (k, v) ∈ l := by
  induction l with
  | nil => simp [find]
  | cons hd tl ih =>
    obtain ⟨k', v'⟩ := hd
    rw [List.pairwise_cons] at h
    rw [find]
    split
    · rename_i heq
      obtain rfl := Std.LawfulEqOrd.eq_of_compare heq
      simp only [Option.some.injEq, List.mem_cons, Prod.mk.injEq, true_and]
      refine ⟨fun hv => .inl hv.symm, fun hv => hv.elim Eq.symm fun hm => ?_⟩
      have := h.1 _ hm
      simp_all
    · rename_i hne
      rw [ih h.2]
      simp only [List.mem_cons, Prod.mk.injEq]
      refine ⟨.inr, fun hv => hv.elim (fun hk => ?_) id⟩
      rw [hk.1] at hne
      simp at hne

theorem get?_eq_some_iff [Std.LawfulEqOrd κ] {m : SortedMap κ α} {k : κ} {v : α} :
    m.get? k = some v ↔ (k, v) ∈ m.entries := by
  exact find_eq_some_iff m.increasing

@[simp]
theorem get?_empty (k : κ) : (empty : SortedMap κ α).get? k = none := rfl

theorem find_put [Std.LawfulEqOrd κ] (k k' : κ) (v : α) (l : List (κ × α)) :
    find k' (put k v l) = if compare k' k = .eq then some v else find k' l := by
  induction l with
  | nil => simp [put, find]
  | cons hd tl ih =>
    obtain ⟨k'', v''⟩ := hd
    rw [put]
    split
    · simp [find]
    · rename_i heq
      obtain rfl := Std.LawfulEqOrd.eq_of_compare heq
      simp only [find]
      split <;> simp_all
    · rename_i hgt
      simp only [find, ih]
      split <;> split
      · rename_i h1 h2
        obtain rfl := Std.LawfulEqOrd.eq_of_compare h1
        obtain rfl := Std.LawfulEqOrd.eq_of_compare h2
        simp at hgt
      all_goals rfl

theorem get?_insert [Std.TransOrd κ] [Std.LawfulEqOrd κ] [DecidableEq κ] (m : SortedMap κ α)
    (k k' : κ) (v : α) : (m.insert k v).get? k' = if k' = k then some v else m.get? k' := by
  unfold get? insert
  rw [find_put]
  simp only [Std.LawfulEqOrd.compare_eq_iff_eq]

@[simp]
theorem get?_insert_self [Std.TransOrd κ] [Std.LawfulEqOrd κ] (m : SortedMap κ α) (k : κ)
    (v : α) : (m.insert k v).get? k = some v := by
  classical rw [get?_insert, if_pos rfl]

theorem contains_insert [Std.TransOrd κ] [Std.LawfulEqOrd κ] [DecidableEq κ] (m : SortedMap κ α)
    (k k' : κ) (v : α) : (m.insert k v).contains k' ↔ k' = k ∨ m.contains k' := by
  unfold contains
  rw [get?_insert]
  by_cases h : k' = k
  · simp [h]
  · simp [h]

theorem isEmpty_insert [Std.TransOrd κ] [Std.LawfulEqOrd κ] (m : SortedMap κ α) (k : κ) (v : α) :
    (m.insert k v).isEmpty = false := by
  cases h : (m.insert k v).isEmpty with
  | false => rfl
  | true =>
    -- a map without entries would not find the key
    have hget := get?_insert_self m k v
    unfold isEmpty at h
    unfold get? at hget
    rw [List.isEmpty_iff.mp h] at hget
    cases hget

theorem length_put {k : κ} {l : List (κ × α)} (h : find k l = none) (v : α) :
    (put k v l).length = l.length + 1 := by
  induction l with
  | nil => rfl
  | cons hd tl ih =>
    obtain ⟨k', v'⟩ := hd
    rw [find] at h
    split at h
    · cases h
    · rename_i hne
      rw [put]
      split
      · rfl
      · rename_i heq
        exact absurd heq hne
      · rw [List.length_cons, ih h, List.length_cons]

/-- A key that has no value is one more. -/
theorem size_insert [Std.TransOrd κ] {m : SortedMap κ α} {k : κ} (h : m.get? k = none) (v : α) :
    (m.insert k v).size = m.size + 1 := length_put h v

theorem find_filterMap [Std.LawfulEqOrd κ] (f : κ → α → Option β) (k : κ) {l : List (κ × α)}
    (h : l.Pairwise fun a b => compare a.1 b.1 = .lt) :
    find k (l.filterMap fun e => (f e.1 e.2).map fun b => (e.1, b)) = (find k l).bind (f k) := by
  apply Option.ext
  intro b
  rw [find_eq_some_iff (increasing_filterMap f h), Option.bind_eq_some_iff]
  simp only [List.mem_filterMap, Option.map_eq_some_iff, Prod.mk.injEq]
  constructor
  · rintro ⟨⟨k', a⟩, hm, b', hb, rfl, rfl⟩
    exact ⟨a, (find_eq_some_iff h).mpr hm, hb⟩
  · rintro ⟨a, ha, hb⟩
    exact ⟨(k, a), (find_eq_some_iff h).mp ha, b, hb, rfl, rfl⟩

theorem get?_filterMap [Std.LawfulEqOrd κ] (m : SortedMap κ α) (f : κ → α → Option β) (k : κ) :
    (m.filterMap f).get? k = (m.get? k).bind (f k) := find_filterMap f k m.increasing

theorem get?_filter [Std.LawfulEqOrd κ] (m : SortedMap κ α) (p : κ → α → Bool) (k : κ) :
    (m.filter p).get? k = (m.get? k).filter (p k) := by
  unfold filter
  rw [get?_filterMap]
  cases m.get? k with
  | none => rfl
  | some v =>
    show (if p k v then some v else none) = Option.filter (p k) (some v)
    by_cases h : p k v
    · rw [if_pos h, Option.filter_some, if_pos h]
    · rw [if_neg h, Option.filter_some, if_neg h]

/-- Lists of entries in increasing order with the same members are the same. -/
theorem eq_of_mem_iff [Std.TransOrd κ] [Std.LawfulEqOrd κ] {l l' : List (κ × α)}
    (h : l.Pairwise fun a b => compare a.1 b.1 = .lt)
    (h' : l'.Pairwise fun a b => compare a.1 b.1 = .lt)
    (hm : ∀ e, e ∈ l ↔ e ∈ l') : l = l' := by
  induction l generalizing l' with
  | nil =>
    cases l' with
    | nil => rfl
    | cons e _ => simpa using hm e
  | cons e tl ih =>
    cases l' with
    | nil => simpa using hm e
    | cons e' tl' =>
      rw [List.pairwise_cons] at h h'
      have hee : e = e' := by
        rcases List.mem_cons.mp ((hm e).mp List.mem_cons_self) with heq | hin
        · exact heq
        rcases List.mem_cons.mp ((hm e').mpr List.mem_cons_self) with heq | hin'
        · exact heq.symm
        have := Std.TransCmp.lt_trans (h'.1 e hin) (h.1 e' hin')
        simp at this
      subst hee
      rw [ih h.2 h'.2]
      intro x
      constructor
      · intro hx
        rcases List.mem_cons.mp ((hm x).mp (List.mem_cons_of_mem _ hx)) with rfl | hx'
        · have := h.1 x hx
          simp at this
        · exact hx'
      · intro hx
        rcases List.mem_cons.mp ((hm x).mpr (List.mem_cons_of_mem _ hx)) with rfl | hx'
        · have := h'.1 x hx
          simp at this
        · exact hx'

theorem ext_get? [Std.TransOrd κ] [Std.LawfulEqOrd κ] {m n : SortedMap κ α}
    (h : ∀ k, m.get? k = n.get? k) : m = n := by
  have he : m.entries = n.entries := by
    refine eq_of_mem_iff m.increasing n.increasing fun e => ?_
    rw [← get?_eq_some_iff, ← get?_eq_some_iff, h]
  cases m
  cases n
  simp_all

/-- There is one entry for a key. -/
theorem filter_entries_eq [Std.LawfulEqOrd κ] [DecidableEq κ] {m : SortedMap κ α} {k : κ} {v : α}
    (h : m.get? k = some v) : m.entries.filter (fun e => e.1 = k) = [(k, v)] := by
  obtain ⟨before, behind, hsplit⟩ := List.append_of_mem (get?_eq_some_iff.mp h)
  have hincreasing := m.increasing
  rw [hsplit, List.pairwise_append, List.pairwise_cons] at hincreasing
  obtain ⟨-, ⟨hbehind, -⟩, hbefore⟩ := hincreasing
  have hnone : ∀ {l : List (κ × α)}, (∀ e ∈ l, e.1 ≠ k) → l.filter (fun e => e.1 = k) = [] := by
    intro l hl
    rw [List.filter_eq_nil_iff]
    simpa using hl
  rw [hsplit, List.filter_append, List.filter_cons_of_pos (by simp), hnone, hnone]
  · rfl
  · rintro e he rfl
    have hlt := hbehind e he
    simp at hlt
  · rintro e he rfl
    have hlt := hbefore e he _ List.mem_cons_self
    simp at hlt

/-! ## Several insertions -/

section

variable [Std.TransOrd κ] [Std.LawfulEqOrd κ] [DecidableEq κ]

/-- Of two values for a key the later one counts. -/
theorem insert_insert_self (m : SortedMap κ α) (k : κ) (v v' : α) :
    (m.insert k v).insert k v' = m.insert k v' := by
  apply ext_get?
  intro k'
  rw [get?_insert, get?_insert, get?_insert]
  split <;> rfl

/-- A value that is there already changes nothing. -/
theorem insert_of_get?_eq_some {m : SortedMap κ α} {k : κ} {v : α} (h : m.get? k = some v) :
    m.insert k v = m := by
  apply ext_get?
  intro k'
  rw [get?_insert]
  split
  · rename_i hk
    rw [hk, h]
  · rfl

/-- Values for different keys can be given in either order. -/
theorem insert_comm (m : SortedMap κ α) {k k' : κ} (h : k ≠ k') (v v' : α) :
    (m.insert k v).insert k' v' = (m.insert k' v').insert k v := by
  apply ext_get?
  intro k''
  simp only [get?_insert]
  by_cases hk : k'' = k
  · rw [if_pos hk, if_neg (hk ▸ h), if_pos hk]
  · rw [if_neg hk, if_neg hk]

end

end SortedMap

/-- A set whose members are kept in order. -/
abbrev SortedSet (κ : Type) [Ord κ] := SortedMap κ Unit

/-- Sets with the same members are the same. -/
theorem SortedSet.ext_contains {κ : Type} [Ord κ] [Std.TransOrd κ] [Std.LawfulEqOrd κ]
    {s s' : SortedSet κ} (h : ∀ k, s.contains k = s'.contains k) : s = s' := by
  apply SortedMap.ext_get?
  intro k
  have hk := h k
  unfold SortedMap.contains at hk
  cases hs : s.get? k <;> cases hs' : s'.get? k <;> simp_all

end Bulletin
