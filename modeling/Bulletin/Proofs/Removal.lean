import Bulletin.Proofs.Places

/-!
# Removing a file

To remove a file, or a link, is to erase its place and all that is below. Where whatever there is is
in a directory, there is nothing below a file or a link, so that nothing else is lost:

    directory_of_prefix : in front of whatever there is there are directories
    find?_unlink        : what there is behind the removal of what a path leads to
-/

namespace Bulletin.FileTree

variable {t : FileTree}

/-! ## Everything is in a directory -/

/-- Whatever there is is in a directory, and the working directory is one. -/
structure IsGrounded (t : FileTree) : Prop where
  inside : ∀ n ∈ t.nodes, t.find? n.1.dropLast = some .directory
  home : t.find? t.home = some .directory

instance (t : FileTree) : Decidable t.IsGrounded :=
  decidable_of_iff ((∀ n ∈ t.nodes, t.find? n.1.dropLast = some .directory) ∧
      t.find? t.home = some .directory)
    ⟨fun h => ⟨h.1, h.2⟩, fun h => ⟨h.inside, h.home⟩⟩

theorem exists_node_of_find? {l : Location} (hl : l ≠ []) (h : (t.find? l).isSome) :
    ∃ n ∈ t.nodes, n.1 = l := by
  unfold find? at h
  rw [if_neg hl, Option.isSome_map, List.find?_isSome] at h
  obtain ⟨n, hn, hplace⟩ := h
  exact ⟨n, hn, of_decide_eq_true hplace⟩

theorem IsGrounded.directory_of_concat (ht : t.IsGrounded) {l : Location} {name : RawText}
    (h : (t.find? (l ++ [name])).isSome) : t.find? l = some .directory := by
  obtain ⟨n, hn, hplace⟩ := exists_node_of_find? (by simp) h
  have hparent := ht.inside n hn
  rw [hplace, List.dropLast_concat] at hparent
  exact hparent

/-- In front of whatever there is there are directories. -/
theorem IsGrounded.directory_of_prefix (ht : t.IsGrounded) (l below : Location)
    (hbelow : below ≠ []) (h : (t.find? (l ++ below)).isSome) : t.find? l = some .directory := by
  induction below generalizing l with
  | nil => exact absurd rfl hbelow
  | cons name rest ih =>
    by_cases hrest : rest = []
    · rw [hrest] at h
      exact ht.directory_of_concat h
    · have hsplit : l ++ name :: rest = (l ++ [name]) ++ rest := by simp
      rw [hsplit] at h
      have hnext : t.find? (l ++ [name]) = some .directory := ih (l ++ [name]) hrest h
      exact ht.directory_of_concat (by rw [hnext]; rfl)

/-! ## Erasing a place -/

/-- What is erased is what is at the place and below. -/
theorem find?_erase {l : Location} (hl : l ≠ []) (l' : Location) :
    (t.erase l).find? l' = if l <+: l' then none else t.find? l' := by
  by_cases hroot : l' = []
  · -- the root of all files stays
    have hnot : ¬ l <+: l' := by
      rw [hroot, List.prefix_nil]
      exact hl
    rw [if_neg hnot]
    unfold find?
    rw [if_pos hroot, if_pos hroot]
  · unfold find? erase
    rw [if_neg hroot, if_neg hroot, List.find?_filter]
    by_cases hbelow : l <+: l'
    · have hnone : (t.nodes.find? fun n => !l.isPrefixOf n.1 && decide (n.1 = l')) = none := by
        rw [List.find?_eq_none]
        intro n _ hn
        simp only [Bool.and_eq_true, Bool.not_eq_true', decide_eq_true_eq] at hn
        obtain ⟨hnot, hplace⟩ := hn
        rw [hplace, List.isPrefixOf_iff_prefix.mpr hbelow] at hnot
        cases hnot
      simp [hbelow, hnone]
    · have hsame : (fun n : Location × FileNode => !l.isPrefixOf n.1 && decide (n.1 = l')) =
          fun n => decide (n.1 = l') := by
        funext n
        by_cases hplace : n.1 = l'
        · have hnot : l.isPrefixOf n.1 = false := by
            rw [Bool.eq_false_iff, hplace]
            exact fun hprefix => hbelow (List.isPrefixOf_iff_prefix.mp hprefix)
          simp [hplace ▸ hnot, hplace]
        · simp [hplace]
      simp [hbelow, hsame]

/-- There may be nothing erased that the working directory is in. -/
theorem IsGrounded.erase (ht : t.IsGrounded) {l : Location} (hl : ¬ l <+: t.home) :
    (t.erase l).IsGrounded := by
  have hne : l ≠ [] := by
    rintro rfl
    exact hl List.nil_prefix
  refine ⟨fun n hn => ?_, ?_⟩
  · obtain ⟨hmem, hnot⟩ := List.mem_filter.mp hn
    have hstays : ¬ l <+: n.1.dropLast := by
      intro hprefix
      have hbelow : l <+: n.1 := hprefix.trans (List.dropLast_prefix n.1)
      rw [List.isPrefixOf_iff_prefix.mpr hbelow] at hnot
      cases hnot
    rw [find?_erase hne, if_neg hstays]
    exact ht.inside n hmem
  · rw [find?_erase hne]
    exact (if_neg hl).trans ht.home

/-! ## Removing what a path leads to -/

/-- At a place there is a file or a link. -/
def IsRemovable (t : FileTree) (l : Location) : Prop :=
  (∃ bytes, t.find? l = some (.file bytes)) ∨ ∃ target, t.find? l = some (.link target)

theorem IsRemovable.ne_directory {l : Location} (h : t.IsRemovable l) :
    t.find? l ≠ some .directory := by
  intro hdirectory
  rcases h with ⟨bytes, hfind⟩ | ⟨target, hfind⟩
  · rw [hdirectory] at hfind
    cases hfind
  · rw [hdirectory] at hfind
    cases hfind

/-- There is nothing below a file or a link. -/
theorem IsGrounded.eq_nil_of_isRemovable (ht : t.IsGrounded) {l below : Location}
    (h : t.IsRemovable l) (hbelow : (t.find? (l ++ below)).isSome) : below = [] :=
  Classical.byContradiction fun hne => h.ne_directory (ht.directory_of_prefix l below hne hbelow)

/-- Removing what a path leads to takes away the file, or the link, at a place, if the directory
that it is in may be changed. -/
structure Removes (t : FileTree) (p : Path) (l : Location) : Prop where
  located : t.locate false p = .ok l
  removable : t.IsRemovable l
  permitted : t.permits .change l.dropLast = true

theorem Removes.ne_nil {p : Path} {l : Location} (h : t.Removes p l) : l ≠ [] := by
  rintro rfl
  exact h.removable.ne_directory rfl

theorem unlink_of_removes {p : Path} {l : Location} (h : t.Removes p l) :
    t.unlink p = t.erase l := by
  unfold unlink
  rw [h.located]
  rcases h.removable with ⟨bytes, hfind⟩ | ⟨target, hfind⟩
  · simp only [hfind, h.permitted, if_true]
  · simp only [hfind, h.permitted, if_true]

/-- Where there is nothing that can be removed, nothing is. -/
theorem unlink_of_not_removes {p : Path} (h : ∀ l, ¬ t.Removes p l) : t.unlink p = t := by
  unfold unlink
  cases hlocate : t.locate false p with
  | error reason => rfl
  | ok l =>
    have hstays (hnode : t.IsRemovable l) :
        (if t.permits .change l.dropLast then t.erase l else t) = t :=
      if_neg fun hpermitted => h l ⟨hlocate, hnode, hpermitted⟩
    dsimp only
    cases hfind : t.find? l with
    | none => rfl
    | some node =>
      cases node with
      | directory => rfl
      | file bytes => exact hstays (.inl ⟨bytes, hfind⟩)
      | link target => exact hstays (.inr ⟨target, hfind⟩)

theorem Removes.unique {p : Path} {l l' : Location} (h : t.Removes p l) (h' : t.Removes p l') :
    l' = l := by
  have hsame : (Except.ok l' : Except OpenFailure Location) = .ok l := h'.located.symm.trans h.located
  exact Except.ok.inj hsame

open Classical in
/-- What is removed is what the path leads to, and all else stays. -/
theorem IsGrounded.find?_unlink (ht : t.IsGrounded) (p : Path) (l : Location) :
    (t.unlink p).find? l = if t.Removes p l then none else t.find? l := by
  by_cases hany : ∃ place, t.Removes p place
  · obtain ⟨place, hremoves⟩ := hany
    rw [unlink_of_removes hremoves, find?_erase hremoves.ne_nil]
    by_cases hl : t.Removes p l
    · rw [if_pos hl, hremoves.unique hl, if_pos (List.prefix_refl place)]
    · rw [if_neg hl]
      by_cases hbelow : place <+: l
      · -- what is at the place is no directory, and so nothing is below
        rw [if_pos hbelow]
        obtain ⟨below, rfl⟩ := hbelow
        cases hfind : t.find? (place ++ below) with
        | none => rfl
        | some node =>
          have hnil := ht.eq_nil_of_isRemovable hremoves.removable (by rw [hfind]; rfl)
          rw [hnil, List.append_nil] at hl
          exact absurd hremoves hl
      · rw [if_neg hbelow]
  · have hnone : ∀ place, ¬ t.Removes p place := fun place hplace => hany ⟨place, hplace⟩
    rw [unlink_of_not_removes hnone, if_neg (hnone l)]

theorem IsGrounded.unlink (ht : t.IsGrounded) (p : Path) : (t.unlink p).IsGrounded := by
  by_cases hany : ∃ place, t.Removes p place
  · obtain ⟨place, hremoves⟩ := hany
    have hhome : ¬ place <+: t.home := by
      rintro ⟨below, hbelow⟩
      have hdirectory := ht.home
      rw [← hbelow] at hdirectory
      have hnil := ht.eq_nil_of_isRemovable hremoves.removable (by rw [hdirectory]; rfl)
      rw [hnil, List.append_nil] at hdirectory
      exact hremoves.removable.ne_directory hdirectory
    rw [unlink_of_removes hremoves]
    exact ht.erase hhome
  · have hnone : ∀ place, ¬ t.Removes p place := fun place hplace => hany ⟨place, hplace⟩
    rw [unlink_of_not_removes hnone]
    exact ht

end Bulletin.FileTree
