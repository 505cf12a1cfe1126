import Bulletin.Loading

/-!
# Sorting by a comparison

Files and archives are sorted by comparisons that look at one thing after the other. Where two of
them never come out equal unless they are the same, what is sorted is a matter of what there is, and
not of the order in which it came:

    mergeSort_eq_of_perm : l ~ l' → both are sorted into the same list

The orders of entries and of archives are of that kind.
-/

namespace Bulletin

/-! ## Any comparison -/

section

variable {α : Type} {cmp : α → α → Ordering}

/-- Whether one thing may stand in front of another. -/
def notBehind (cmp : α → α → Ordering) (a b : α) : Bool := cmp a b != .gt

theorem notBehind_eq_isLE (a b : α) : notBehind cmp a b = (cmp a b).isLE := by
  unfold notBehind
  cases cmp a b <;> rfl

variable [Std.TransCmp cmp]

theorem pairwise_mergeSort_notBehind (l : List α) :
    (l.mergeSort (notBehind cmp)).Pairwise fun a b => notBehind cmp a b = true := by
  apply List.pairwise_mergeSort
  · intro a b c hab hbc
    rw [notBehind_eq_isLE] at *
    exact Std.TransCmp.isLE_trans hab hbc
  · intro a b
    have hswap : cmp b a = (cmp a b).swap := Std.OrientedCmp.eq_swap
    rw [notBehind_eq_isLE, notBehind_eq_isLE, hswap]
    cases cmp a b <;> rfl

variable [Std.LawfulEqCmp cmp]

theorem eq_of_notBehind {a b : α} (hab : notBehind cmp a b) (hba : notBehind cmp b a) : a = b := by
  rw [notBehind_eq_isLE] at *
  have heq : cmp a b = .eq := Std.OrientedCmp.isLE_antisymm hab hba
  exact Std.LawfulEqCmp.eq_of_compare heq

theorem mergeSort_eq_of_perm {l l' : List α} (h : l.Perm l') :
    l.mergeSort (notBehind cmp) = l'.mergeSort (notBehind cmp) := by
  have hperm : (l.mergeSort (notBehind cmp)).Perm (l'.mergeSort (notBehind cmp)) :=
    ((List.mergeSort_perm l _).trans h).trans (List.mergeSort_perm l' _).symm
  exact List.Perm.eq_of_pairwise (fun a b _ _ hab hba => eq_of_notBehind hab hba)
    (pairwise_mergeSort_notBehind l) (pairwise_mergeSort_notBehind l') hperm

end

/-! ## Entries -/

namespace EntryName

/-- The metadata first. -/
def metadataOrder (a b : String) : Ordering := compare (b == metadataName) (a == metadataName)

theorem order_eq_compareLex :
    order = compareLex metadataOrder (compareLex (compareOn group)
      (compareLex (compareOn rank) compare)) := rfl

instance : Std.TransCmp metadataOrder :=
  inferInstanceAs (Std.TransCmp fun a b => compareOn (· == metadataName) b a)

instance : Std.TransCmp order := by
  rw [order_eq_compareLex]
  infer_instance

instance : Std.LawfulEqCmp order where
  eq_of_compare h := by
    rw [order_eq_compareLex] at h
    simp only [compareLex_eq_eq] at h
    exact Std.LawfulEqOrd.eq_of_compare h.2.2.2

end EntryName

/-! ## Archives -/

instance : Std.TransOrd RawText := inferInstanceAs (Std.TransCmp (compareOn RawText.bytes))

instance : Std.LawfulEqOrd RawText where
  eq_of_compare h := congrArg RawText.mk (Std.LawfulEqOrd.eq_of_compare h)

namespace ArchiveRoot

/-- The order of archives: by period, and then by name. -/
def archiveOrder : Period × RawText → Period × RawText → Ordering :=
  compareLex (compareOn Prod.fst) (compareOn Prod.snd)

instance : Std.TransCmp archiveOrder := inferInstanceAs (Std.TransCmp (compareLex _ _))

instance : Std.LawfulEqCmp archiveOrder where
  eq_of_compare h := by
    obtain ⟨hperiod, hname⟩ := compareLex_eq_eq.mp h
    exact Prod.ext (Std.LawfulEqOrd.eq_of_compare hperiod) (Std.LawfulEqOrd.eq_of_compare hname)

/-- Of archives of two periods the one of the smaller period comes first. -/
theorem lt_of_notBehind {a b : Period × RawText} (h : notBehind archiveOrder a b = true)
    (hne : a.1 ≠ b.1) : a.1 < b.1 := by
  rw [notBehind_eq_isLE] at h
  have hle : (compare a.1 b.1).isLE := Ordering.isLE_left_of_isLE_then h
  cases hcmp : compare a.1 b.1 with
  | lt => exact Std.compare_eq_lt.mp hcmp
  | eq => exact absurd (Std.LawfulEqOrd.eq_of_compare hcmp) hne
  | gt =>
    rw [hcmp] at hle
    cases hle

end ArchiveRoot

end Bulletin
