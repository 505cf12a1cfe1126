import Mathlib.Data.List.Basic
import Bulletin.SortedMap
import Bulletin.Store.Contents

/-!
# Texts and their numbers

A text gets its number when it comes for the first time, and every later time the same. So a run of
texts leaves a table of the different ones among them, in the order in which they first came, and
the numbers are their places:

    texts_internAll   : the texts in the table behind a run
    numbers_internAll : the number that each text of the run was given
    isFor_internAll   : two maps, one for each direction, come to the same
    lawful_internAll  : all of it, from the empty table on

A table never loses anything. Where one run has stopped another goes on, and what comes later
stands behind.
-/

namespace Bulletin

/-- Takes a step for each member of a list, and gathers what the steps yield. -/
def takeSteps {σ α β : Type} (step : σ → α → σ × β) : σ → List α → σ × List β
  | st, [] => (st, [])
  | st, a :: rest =>
    let (st', b) := step st a
    let (st'', bs) := takeSteps step st' rest
    (st'', b :: bs)

/-- Where single steps keep two states in a relation and yield the same, so do runs. -/
theorem takeSteps_rel {σ τ α β : Type} {step : σ → α → σ × β} {step' : τ → α → τ × β}
    {R : σ → τ → Prop}
    (hstep : ∀ st st' a, R st st' →
      R (step st a).1 (step' st' a).1 ∧ (step' st' a).2 = (step st a).2)
    (l : List α) {st : σ} {st' : τ} (h : R st st') :
    R (takeSteps step st l).1 (takeSteps step' st' l).1 ∧
      (takeSteps step' st' l).2 = (takeSteps step st l).2 := by
  induction l generalizing st st' with
  | nil => exact ⟨h, rfl⟩
  | cons a rest ih =>
    obtain ⟨hone, hyield⟩ := hstep st st' a h
    obtain ⟨hrest, hyields⟩ := ih hone
    refine ⟨hrest, ?_⟩
    show (step' st' a).2 :: (takeSteps step' (step' st' a).1 rest).2 = _
    rw [hyield, hyields]
    rfl

namespace Contents

variable {t t' : Contents} {s text : String} {id : ContentId}

/-! ## One text -/

theorem mem_texts_intern : text ∈ (t.intern s).1.texts ↔ text ∈ t.texts ∨ text = s := by
  by_cases h : s ∈ t.texts
  · rw [intern_of_mem h]
    constructor
    · exact .inl
    · rintro (hmem | rfl)
      · exact hmem
      · exact h
  · rw [intern_of_not_mem h]
    simp [push]

theorem idOf?_intern (t : Contents) (s : String) :
    (t.intern s).1.idOf? s = some (t.intern s).2 := idOf?_eq_some_iff.mpr (t.get?_intern s)

theorem exists_idOf?_of_mem (h : s ∈ t.texts) : ∃ id, t.idOf? s = some id := by
  refine ⟨t.texts.idxOf s + 1, idOf?_eq_some_iff.mpr ?_⟩
  have hlt := List.idxOf_lt_length_of_mem h
  simp [get?, List.getElem?_eq_getElem hlt]

theorem idOf?_eq_none_iff : t.idOf? s = none ↔ s ∉ t.texts := by
  unfold idOf?
  rw [Option.map_eq_none_iff, List.idxOf?_eq_none_iff]

/-- A text keeps its number. -/
theorem idOf?_intern_of_mem (h : text ∈ t.texts) :
    (t.intern s).1.idOf? text = t.idOf? text := by
  obtain ⟨id, hid⟩ := exists_idOf?_of_mem h
  rw [hid, idOf?_eq_some_iff]
  exact get?_intern_of_some s (idOf?_eq_some_iff.mp hid)

/-- The numbers in use go from one to how many texts there are. -/
theorem isSome_get?_iff {n : Nat} : (t.get? n).isSome ↔ 1 ≤ n ∧ n ≤ t.size := by
  cases n with
  | zero => simp [get?]
  | succ n =>
    have hlt : (t.texts[n]?).isSome ↔ n < t.texts.length := by simp
    rw [get?, hlt, size]
    exact ⟨fun h => ⟨Nat.le_add_left 1 n, h⟩, fun h => h.2⟩

/-- A table with more texts behind has the same texts for the numbers. -/
theorem get?_of_prefix (h : t.texts <+: t'.texts) (hid : t.get? id = some s) :
    t'.get? id = some s := by
  obtain ⟨later, hlater⟩ := h
  cases id with
  | zero => cases hid
  | succ n =>
    rw [get?] at hid
    rw [get?, ← hlater, List.getElem?_append_left (List.getElem?_eq_some_iff.mp hid).1, hid]

theorem intern_fst_eq_iff : (t.intern s).1 = t ↔ s ∈ t.texts := by
  constructor
  · intro h
    have hmem : s ∈ (t.intern s).1.texts := mem_texts_intern.mpr (.inr rfl)
    rwa [h] at hmem
  · intro h
    rw [intern_of_mem h]

/-- A second time the table stays as it is, and the number is the same. -/
theorem intern_intern (t : Contents) (s : String) : (t.intern s).1.intern s = t.intern s := by
  have hmem : s ∈ (t.intern s).1.texts := mem_texts_intern.mpr (.inr rfl)
  have hsame : ((t.intern s).1.intern s).1 = (t.intern s).1 := intern_fst_eq_iff.mpr hmem
  have hid := idOf?_intern (t.intern s).1 s
  rw [hsame, idOf?_intern] at hid
  exact Prod.ext hsame (Option.some.inj hid).symm

theorem get?_push (h : s ∉ t.texts) (id : ContentId) :
    (t.push s h).get? id = if id = t.size + 1 then some s else t.get? id := by
  cases id with
  | zero => rfl
  | succ n =>
    show (t.texts ++ [s])[n]? = if n + 1 = t.texts.length + 1 then some s else t.texts[n]?
    rcases Nat.lt_trichotomy n t.texts.length with hlt | rfl | hgt
    · rw [List.getElem?_append_left hlt, if_neg (by omega)]
    · rw [List.getElem?_concat_length, if_pos rfl]
    · have hend : (t.texts ++ [s]).length ≤ n := by simp; omega
      rw [List.getElem?_eq_none hend, List.getElem?_eq_none (Nat.le_of_lt hgt), if_neg (by omega)]

theorem idOf?_push (h : s ∉ t.texts) (text : String) :
    (t.push s h).idOf? text = if text = s then some (t.size + 1) else t.idOf? text := by
  by_cases htext : text = s
  · rw [if_pos htext, idOf?_eq_some_iff, get?_push, if_pos rfl, htext]
  · rw [if_neg htext]
    apply Option.ext
    intro id
    rw [idOf?_eq_some_iff, idOf?_eq_some_iff, get?_push]
    by_cases hid : id = t.size + 1
    · -- the new number is that of another text, and was not in use before
      have hfree : ¬ (t.get? id).isSome := by
        rw [hid, isSome_get?_iff]
        omega
      rw [if_pos hid, Option.not_isSome_iff_eq_none.mp hfree]
      simpa using Ne.symm htext
    · rw [if_neg hid]

/-! ## Runs of texts -/

/-- Adds texts, one after the other, and says which number each of them has. -/
def internAll : Contents → List String → Contents × List ContentId := takeSteps intern

theorem internAll_cons (t : Contents) (s : String) (rest : List String) :
    t.internAll (s :: rest) =
      (((t.intern s).1.internAll rest).1, (t.intern s).2 :: ((t.intern s).1.internAll rest).2) :=
  rfl

/-- Behind a run there are the texts from before, and then those that are new, in the order in which
they first came. -/
theorem texts_internAll (t : Contents) (seen : List String) :
    (t.internAll seen).1.texts = t.texts ++ (seen.filter fun s => s ∉ t.texts).eraseDups := by
  induction seen generalizing t with
  | nil => exact (List.append_nil _).symm
  | cons s rest ih =>
    rw [internAll_cons]
    dsimp only
    rw [ih]
    by_cases h : s ∈ t.texts
    · rw [intern_of_mem h, List.filter_cons_of_neg (by simpa using h)]
    · have hnew : (t.push s h).texts = t.texts ++ [s] := rfl
      rw [intern_of_not_mem h, List.filter_cons_of_pos (by simpa using h), List.eraseDups_cons,
        List.filter_filter, hnew, List.append_assoc, List.singleton_append]
      -- what comes behind is new if it is neither there yet nor the text that is added here
      have hlater : ∀ x, decide (x ∉ t.texts ++ [s]) = (!x == s && decide (x ∉ t.texts)) := by
        intro x
        by_cases hx : x = s <;> simp [hx]
      simp only [hlater]

theorem prefix_internAll (t : Contents) (seen : List String) :
    t.texts <+: (t.internAll seen).1.texts := by
  rw [texts_internAll]
  exact List.prefix_append _ _

/-- Each text was given the number under which it is found in the end. -/
theorem numbers_internAll (t : Contents) (seen : List String) :
    (t.internAll seen).2.map (t.internAll seen).1.get? = seen.map some := by
  induction seen generalizing t with
  | nil => rfl
  | cons s rest ih =>
    have hlater := prefix_internAll (t.intern s).1 rest
    rw [internAll_cons]
    dsimp only
    rw [List.map_cons, List.map_cons, ih, get?_of_prefix hlater (get?_intern t s)]

/-- Two texts were given the same number just if they are the same. -/
theorem number_eq_iff (t : Contents) (seen : List String) (i j : Nat) :
    (t.internAll seen).2[i]? = (t.internAll seen).2[j]? ↔ seen[i]? = seen[j]? := by
  have hnumbers := numbers_internAll t seen
  generalize (t.internAll seen).1 = t' at hnumbers
  generalize (t.internAll seen).2 = ids at hnumbers
  have hat (i : Nat) : ids[i]?.map t'.get? = seen[i]?.map some := by
    rw [← List.getElem?_map, hnumbers, List.getElem?_map]
  constructor
  · intro h
    have hsame := hat i
    rw [h, hat j] at hsame
    exact (Option.map_injective (fun _ _ => Option.some.inj) hsame).symm
  · intro h
    have hi := hat i
    have hj := hat j
    rw [h] at hi
    cases hs : seen[j]? with
    | none =>
      rw [hs] at hi hj
      rw [Option.map_eq_none_iff.mp hi, Option.map_eq_none_iff.mp hj]
    | some s =>
      rw [hs] at hi hj
      obtain ⟨id, hid, hget⟩ := Option.map_eq_some_iff.mp hi
      obtain ⟨id', hid', hget'⟩ := Option.map_eq_some_iff.mp hj
      have hone := idOf?_eq_some_iff.mpr hget
      have hother := idOf?_eq_some_iff.mpr hget'
      rw [hid, hid', ← hone, hother]

end Contents

/-! ## Two maps -/

/-- A table kept as two maps, one for each direction. -/
structure TextMaps where
  numbers : SortedMap String ContentId
  texts : SortedMap ContentId String

namespace TextMaps

/-- Nothing is kept. -/
def empty : TextMaps := ⟨SortedMap.empty, SortedMap.empty⟩

/-- The maps with a text, and the number of that text. Whether it is there is a matter of one map,
and what number is next is one of the other. -/
def intern (m : TextMaps) (s : String) : TextMaps × ContentId :=
  match m.numbers.get? s with
  | some id => (m, id)
  | none =>
    let id := m.texts.size + 1
    (⟨m.numbers.insert s id, m.texts.insert id s⟩, id)

/-- Two maps say what a table says. -/
structure IsFor (m : TextMaps) (t : Contents) : Prop where
  numbers : ∀ s, m.numbers.get? s = t.idOf? s
  texts : ∀ id, m.texts.get? id = t.get? id
  size : m.texts.size = t.size

theorem isFor_empty : empty.IsFor Contents.empty := by
  refine ⟨fun s => rfl, fun id => ?_, rfl⟩
  cases id <;> rfl

theorem IsFor.intern {m : TextMaps} {t : Contents} (h : m.IsFor t) (s : String) :
    (m.intern s).1.IsFor (t.intern s).1 ∧ (t.intern s).2 = (m.intern s).2 := by
  by_cases hmem : s ∈ t.texts
  · obtain ⟨id, hid⟩ := Contents.exists_idOf?_of_mem hmem
    have hkept : m.intern s = (m, id) := by
      unfold TextMaps.intern
      rw [h.numbers, hid]
    have hsame : (t.intern s).1 = t := Contents.intern_fst_eq_iff.mpr hmem
    have hnumber := t.idOf?_intern s
    rw [hsame, hid] at hnumber
    rw [hkept, hsame]
    exact ⟨h, (Option.some.inj hnumber).symm⟩
  · have hnone : t.idOf? s = none := Contents.idOf?_eq_none_iff.mpr hmem
    have hfree : m.texts.get? (m.texts.size + 1) = none := by
      rw [h.texts, h.size, ← Option.not_isSome_iff_eq_none, Contents.isSome_get?_iff]
      omega
    have hadded : m.intern s = (⟨m.numbers.insert s (t.size + 1), m.texts.insert (t.size + 1) s⟩,
        t.size + 1) := by
      unfold TextMaps.intern
      rw [h.numbers, hnone, ← h.size]
    rw [h.size] at hfree
    rw [hadded, Contents.intern_of_not_mem hmem]
    refine ⟨⟨fun text => ?_, fun id => ?_, ?_⟩, rfl⟩
    · rw [SortedMap.get?_insert, Contents.idOf?_push, h.numbers]
    · rw [SortedMap.get?_insert, Contents.get?_push, h.texts]
    · rw [SortedMap.size_insert hfree, h.size]
      simp [Contents.size, Contents.push]

/-- So do two maps behind a run of texts, and each text is given the same number. -/
theorem isFor_internAll (seen : List String) :
    (takeSteps intern empty seen).1.IsFor (Contents.empty.internAll seen).1 ∧
      (Contents.empty.internAll seen).2 = (takeSteps intern empty seen).2 :=
  takeSteps_rel (fun _ _ s h => h.intern s) seen isFor_empty

end TextMaps

/-! ## Tables behind runs of texts -/

namespace Contents

theorem texts_internAll_empty (seen : List String) :
    (empty.internAll seen).1.texts = seen.eraseDups := by
  rw [texts_internAll]
  simp [empty]

/-- Behind a run of texts, from the empty table on: the numbers go from one to how many texts there
are, and numbers and texts belong to each other. Each text was given the number under which it is
found, so that two have the same number just if they are the same, and the numbers are in the order
in which the different texts first came. A text can always be had under the number that it gets; it
gets the same a second time, and the table changes just by texts that have not come before. What is
added later changes none of this. And two maps, one for each direction, would have said the same. -/
theorem lawful_internAll (seen later : List String) :
    let t : Contents := (empty.internAll seen).1
    let ids : List ContentId := (empty.internAll seen).2
    let t' : Contents := (t.internAll later).1
    let maps := takeSteps TextMaps.intern TextMaps.empty seen
    (∀ n : Nat, (t.get? n).isSome ↔ 1 ≤ n ∧ n ≤ t.size) ∧
      (∀ s id, t.idOf? s = some id ↔ t.get? id = some s) ∧
      ids.map t.get? = seen.map some ∧
      (∀ i j : Nat, ids[i]? = ids[j]? ↔ seen[i]? = seen[j]?) ∧
      (∀ n : Nat, t.get? (n + 1) = seen.eraseDups[n]?) ∧
      (∀ s, (t.intern s).1.get? (t.intern s).2 = some s ∧ (t.intern s).1.intern s = t.intern s ∧
        ((t.intern s).1 = t ↔ s ∈ seen)) ∧
      (∀ id s, t.get? id = some s → t'.get? id = some s) ∧
      (∀ s id, t.idOf? s = some id → t'.idOf? s = some id) ∧
      maps.2 = ids ∧ (∀ s, maps.1.numbers.get? s = t.idOf? s) ∧
      (∀ id, maps.1.texts.get? id = t.get? id) ∧ maps.1.texts.size = t.size := by
  intro t ids t' maps
  have htexts : t.texts = seen.eraseDups := texts_internAll_empty seen
  have hlater : t.texts <+: t'.texts := prefix_internAll t later
  have hkept (id : ContentId) (s : String) (h : t.get? id = some s) : t'.get? id = some s :=
    get?_of_prefix hlater h
  obtain ⟨hmaps, hids⟩ := TextMaps.isFor_internAll seen
  refine ⟨fun n => isSome_get?_iff, fun s id => idOf?_eq_some_iff, numbers_internAll empty seen,
    number_eq_iff empty seen, fun n => ?_, fun s => ⟨get?_intern t s, intern_intern t s, ?_⟩, hkept,
    fun s id h => ?_, hids.symm, hmaps.numbers, hmaps.texts, hmaps.size⟩
  · rw [get?, htexts]
  · rw [intern_fst_eq_iff, htexts, List.mem_eraseDups]
  · rw [idOf?_eq_some_iff] at h ⊢
    exact hkept id s h

/-- A text that comes twice has one number, which it keeps when more come. -/
theorem lawful_internAll_twice :
    let t := (empty.internAll ["a", "b", "a"]).1
    let t' := (t.internAll ["c", "b"]).1
    (empty.internAll ["a", "b", "a"]).2 = [1, 2, 1] ∧ t.get? 2 = some "b" ∧
      t'.get? 2 = some "b" ∧ t.idOf? "a" = some 1 ∧ t'.idOf? "a" = some 1 ∧ t ≠ t' := by
  intro t t'
  obtain ⟨-, -, -, -, -, -, hget, hidOf, -⟩ := lawful_internAll ["a", "b", "a"] ["c", "b"]
  have hb : t.get? 2 = some "b" := by decide +kernel
  have ha : t.idOf? "a" = some 1 := by decide +kernel
  exact ⟨by decide +kernel, hb, hget 2 "b" hb, ha, hidOf "a" 1 ha, by decide +kernel⟩

end Contents

end Bulletin
