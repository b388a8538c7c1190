/-!
# Sorting

Insertion sort by a comparison. A value goes before those it does not lie above, so values that
compare as equal keep their order.
-/

namespace Isolation

/-- A value at its place in an ordered list, before what does not lie below it. -/
def insertSorted {α : Type} (cmp : α → α → Ordering) (a : α) : List α → List α
  | [] => [a]
  | b :: r => if cmp a b = .gt then b :: insertSorted cmp a r else a :: b :: r

/-- The values of a list in order. -/
def sortedBy {α : Type} (cmp : α → α → Ordering) (l : List α) : List α :=
  l.foldr (insertSorted cmp) []

theorem insertSorted_perm {α : Type} (cmp : α → α → Ordering) (a : α) (l : List α) :
    (insertSorted cmp a l).Perm (a :: l) := by
  induction l with
  | nil => exact .refl _
  | cons b r ih =>
    rw [insertSorted]
    split
    · exact (ih.cons b).trans (.swap a b r)
    · exact .refl _

/-- Sorting keeps the values. -/
theorem sortedBy_perm {α : Type} (cmp : α → α → Ordering) (l : List α) :
    (sortedBy cmp l).Perm l := by
  induction l with
  | nil => exact .refl _
  | cons a r ih => exact (insertSorted_perm cmp a _).trans (ih.cons a)

theorem insertSorted_map {α β : Type} (f : α → β) (cmp : β → β → Ordering) (a : α) (l : List α) :
    insertSorted cmp (f a) (l.map f) =
      (insertSorted (fun a b => cmp (f a) (f b)) a l).map f := by
  induction l with
  | nil => rfl
  | cons b r ih =>
    rw [List.map_cons, insertSorted, insertSorted, ih]
    split <;> rfl

/-- To sort values by what is read off them is to sort what is read off them. -/
theorem sortedBy_map {α β : Type} (f : α → β) (cmp : β → β → Ordering) (l : List α) :
    sortedBy cmp (l.map f) = (sortedBy (fun a b => cmp (f a) (f b)) l).map f := by
  induction l with
  | nil => rfl
  | cons a r ih =>
    rw [List.map_cons, sortedBy, List.foldr_cons, ← sortedBy, ih, insertSorted_map]
    rfl

section Order

variable {α : Type} {cmp : α → α → Ordering} [Std.TransCmp cmp]

theorem pairwise_insertSorted {a : α} {l : List α} (hl : l.Pairwise fun a b => (cmp a b).isLE) :
    (insertSorted cmp a l).Pairwise fun a b => (cmp a b).isLE := by
  induction l with
  | nil => exact List.pairwise_singleton _ a
  | cons b r ih =>
    rw [insertSorted]
    obtain ⟨hb, hr⟩ := List.pairwise_cons.mp hl
    split
    · rename_i hab
      refine List.pairwise_cons.mpr ⟨fun x hx => ?_, ih hr⟩
      rcases List.mem_cons.mp ((insertSorted_perm cmp a r).mem_iff.mp hx) with rfl | hx
      · rw [Std.OrientedCmp.lt_of_gt hab]
        rfl
      · exact hb x hx
    · rename_i hab
      have hle : (cmp a b).isLE := by
        rw [← Ordering.ne_gt_iff_isLE]
        exact hab
      refine List.pairwise_cons.mpr ⟨fun x hx => ?_, hl⟩
      rcases List.mem_cons.mp hx with rfl | hx
      · exact hle
      · exact Std.TransCmp.isLE_trans hle (hb x hx)

/-- Sorting puts the values in order. -/
theorem pairwise_sortedBy (l : List α) :
    (sortedBy cmp l).Pairwise fun a b => (cmp a b).isLE := by
  induction l with
  | nil => exact .nil
  | cons a r ih => exact pairwise_insertSorted ih

variable [Std.LawfulEqCmp cmp]

/-- Sorted values do not depend on the order in which they came. -/
theorem sortedBy_eq_of_perm {l l' : List α} (h : l.Perm l') : sortedBy cmp l = sortedBy cmp l' := by
  have hperm : (sortedBy cmp l).Perm (sortedBy cmp l') :=
    (sortedBy_perm cmp l).trans (h.trans (sortedBy_perm cmp l').symm)
  refine hperm.eq_of_pairwise (fun a b _ _ hab hba => ?_) (pairwise_sortedBy l)
    (pairwise_sortedBy l')
  exact Std.LawfulEqCmp.eq_of_compare (Std.OrientedCmp.isLE_antisymm hab hba)

/-- Values that occur once ascend. -/
theorem pairwise_lt_sortedBy {l : List α} (h : l.Nodup) :
    (sortedBy cmp l).Pairwise fun a b => cmp a b = .lt := by
  have hne : (sortedBy cmp l).Pairwise (· ≠ ·) := (sortedBy_perm cmp l).nodup_iff.mpr h
  refine (hne.and (pairwise_sortedBy l)).imp fun {a b} hab => ?_
  rcases Ordering.isLE_iff_eq_lt_or_eq_eq.mp hab.2 with hlt | heq
  · exact hlt
  · exact absurd (Std.LawfulEqCmp.eq_of_compare heq) hab.1

end Order

end Isolation
