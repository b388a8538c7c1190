/-!
# First occurrences

Collecting the values of a list once each, in the order of their first occurrences. A module's
dependencies and a bundle's members are collected this way, one value after another (`pushNew`), so
that a collection can also be continued later.
-/

namespace Isolation

variable {α : Type} [DecidableEq α]

/-- A value at the end of a list that does not hold it yet. -/
def pushNew (xs : List α) (a : α) : List α := if a ∈ xs then xs else xs ++ [a]

/-- The values of a list, each once, in the order of first occurrence. -/
def distinct (xs : List α) : List α := xs.foldl pushNew []

theorem mem_pushNew {xs : List α} {a x : α} : x ∈ pushNew xs a ↔ x ∈ xs ∨ x = a := by
  rw [pushNew]
  split
  · rename_i h
    constructor
    · exact Or.inl
    · rintro (h' | rfl)
      · exact h'
      · exact h
  · simp

theorem nodup_pushNew {xs : List α} (h : xs.Nodup) (a : α) : (pushNew xs a).Nodup := by
  rw [pushNew]
  split
  · exact h
  · rename_i ha
    rw [List.nodup_append]
    refine ⟨h, by simp, fun x hx y hy e => ha ?_⟩
    rw [List.mem_singleton] at hy
    exact hy ▸ e ▸ hx

theorem nodup_foldl_pushNew {acc : List α} (xs : List α) (h : acc.Nodup) :
    (xs.foldl pushNew acc).Nodup := by
  induction xs generalizing acc with
  | nil => exact h
  | cons a xs ih => exact ih (nodup_pushNew h a)

theorem mem_foldl_pushNew {acc xs : List α} {x : α} :
    x ∈ xs.foldl pushNew acc ↔ x ∈ acc ∨ x ∈ xs := by
  induction xs generalizing acc with
  | nil => simp
  | cons a xs ih => rw [List.foldl_cons, ih, mem_pushNew, List.mem_cons, or_assoc]

theorem foldl_pushNew_of_nodup {acc xs : List α} (h : (acc ++ xs).Nodup) :
    xs.foldl pushNew acc = acc ++ xs := by
  induction xs generalizing acc with
  | nil => exact (List.append_nil acc).symm
  | cons a xs ih =>
    have ha : a ∉ acc := fun hmem =>
      (List.nodup_append.mp h).2.2 a hmem a List.mem_cons_self rfl
    rw [List.append_cons] at h
    rw [List.foldl_cons, pushNew, if_neg ha, ih h, ← List.append_cons]

theorem distinct_of_nodup {xs : List α} (h : xs.Nodup) : distinct xs = xs :=
  foldl_pushNew_of_nodup h

theorem nodup_distinct (xs : List α) : (distinct xs).Nodup := nodup_foldl_pushNew xs .nil

@[simp] theorem mem_distinct {xs : List α} {x : α} : x ∈ distinct xs ↔ x ∈ xs := by
  simp [distinct, mem_foldl_pushNew]

/-- Nothing is erased from a list without repeats. -/
theorem eraseReps_of_nodup {l : List α} (h : l.Nodup) :
    l.eraseReps = l := by
  have key : ∀ (l acc : List α) (a : α), (a :: l).Nodup →
      List.eraseRepsBy.loop (· == ·) a l acc = acc.reverse ++ a :: l := by
    intro l
    induction l with
    | nil =>
      intro acc a _
      exact List.reverse_cons
    | cons b l ih =>
      intro acc a hab
      obtain ⟨ha, hb⟩ := List.nodup_cons.mp hab
      have hne : (a == b) = false := beq_eq_false_iff_ne.mpr (List.ne_of_not_mem_cons ha)
      rw [List.eraseRepsBy.loop, hne, ih (a :: acc) b hb, List.reverse_cons, List.append_assoc]
      rfl
  cases l with
  | nil => rfl
  | cons a l => exact key l [] a h

end Isolation
