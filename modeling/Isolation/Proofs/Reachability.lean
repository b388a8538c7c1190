import Isolation.Graph
import Mathlib.Logic.Relation

/-!
# What a walk reaches

`Branching.collect` enters each value once and therefore skips whole parts of what it was asked to
walk. This file fixes that nothing is lost by it:

* `collected_collect` -- the four facts about every walk, whatever was entered before it: nothing
  is dropped, the start is entered, what is newly entered has all its children entered
  (`Collected.settled`), and nothing is entered but what was reached;
* **`mem_below`** -- so the values `below` a value are exactly those that some chain of one or
  more children leads to;
* `AgreeFrom` -- two branchings with the same children from a value on, which therefore have the
  same values below it (`AgreeFrom.below_iff`);
* `mem_closure`, `exists_closure_iff`, `closure_eq_error_iff` -- a graph answers with the closure of
  exactly the identities that it has a module for, and the closure is what is below.
-/

namespace Isolation

namespace Branching

variable {α : Type}

/-! ## 1. Chains of children -/

theorem below_iff_transGen {b : Branching α} {a d : α} :
    b.Below a d ↔ Relation.TransGen (fun a c => c ∈ b.children a) a d := by
  constructor
  · intro h
    induction h with
    | child h => exact .single h
    | further h _ ih => exact .head h ih
  · intro h
    induction h using Relation.TransGen.head_induction_on with
    | single h => exact .child h
    | head h _ ih => exact .further h ih

theorem Below.irrefl {b : Branching α} {a : α} : ¬ b.Below a a :=
  fun h => Nat.lt_irrefl _ h.rank_lt

/-- What is below a value is a child of it or below a child of it. -/
theorem below_iff_exists_child {b : Branching α} {a d : α} :
    b.Below a d ↔ ∃ c ∈ b.children a, d = c ∨ b.Below c d := by
  constructor
  · intro h
    cases h with
    | child h => exact ⟨d, h, Or.inl rfl⟩
    | further h h' => exact ⟨_, h, Or.inr h'⟩
  · rintro ⟨c, hc, rfl | h⟩
    · exact .child hc
    · exact .further hc h

/-- The two branchings have the same children at `a` and at everything below it. -/
def AgreeFrom (b b' : Branching α) (a : α) : Prop :=
  ∀ x, x = a ∨ b.Below a x → b.children x = b'.children x

namespace AgreeFrom

variable {b b' : Branching α} {a c d : α}

theorem children_eq (h : b.AgreeFrom b' a) : b.children a = b'.children a := h a (Or.inl rfl)

theorem child (h : b.AgreeFrom b' a) (hc : c ∈ b.children a) : b.AgreeFrom b' c := by
  intro x hx
  exact h x (Or.inr (below_iff_exists_child.mpr ⟨c, hc, hx⟩))

/-- What is below a value is the same in both branchings, by induction on the chain. -/
theorem below_iff (h : b.AgreeFrom b' a) : b.Below a d ↔ b'.Below a d := by
  constructor
  · intro hb
    induction hb with
    | child hc =>
      rw [h.children_eq] at hc
      exact .child hc
    | further hc _ ih =>
      have hc' := hc
      rw [h.children_eq] at hc'
      exact .further hc' (ih (h.child hc))
  · intro hb
    induction hb with
    | child hc =>
      rw [← h.children_eq] at hc
      exact .child hc
    | further hc _ ih =>
      rw [← h.children_eq] at hc
      exact .further hc (ih (h.child hc))

end AgreeFrom

/-! ## 2. Collecting -/

/-- What a walk from `roots` makes of the values entered before it. -/
structure Collected (b : Branching α) (entered roots result : List α) : Prop where
  keeps : ∀ x ∈ entered, x ∈ result
  roots_mem : ∀ r ∈ roots, r ∈ result
  /-- The children of what was newly entered are entered. -/
  settled : ∀ x ∈ result, x ∉ entered → ∀ c ∈ b.children x, c ∈ result
  reached : ∀ x ∈ result, x ∈ entered ∨ ∃ r ∈ roots, x = r ∨ b.Below r x

namespace Collected

variable {b : Branching α} {entered middle result roots : List α} {a : α}

theorem nil : Collected b entered [] entered where
  keeps _ h := h
  roots_mem _ h := absurd h List.not_mem_nil
  settled _ h h' := absurd h h'
  reached _ h := Or.inl h

/-- A walk from one root goes on as a walk from the others. -/
theorem cons (h : Collected b entered [a] middle) (h' : Collected b middle roots result) :
    Collected b entered (a :: roots) result where
  keeps x hx := h'.keeps x (h.keeps x hx)
  roots_mem r hr := by
    rcases List.mem_cons.mp hr with rfl | hr
    · exact h'.keeps r (h.roots_mem r List.mem_cons_self)
    · exact h'.roots_mem r hr
  settled x hx hne c hc := by
    by_cases hm : x ∈ middle
    · exact h'.keeps c (h.settled x hm hne c hc)
    · exact h'.settled x hx hm c hc
  reached x hx := by
    rcases h'.reached x hx with hm | ⟨r, hr, hx⟩
    · rcases h.reached x hm with he | ⟨r, hr, hx⟩
      · exact Or.inl he
      · exact Or.inr ⟨a, List.mem_cons_self, List.mem_singleton.mp hr ▸ hx⟩
    · exact Or.inr ⟨r, List.mem_cons_of_mem _ hr, hx⟩

/-- A walk from the children of a value, the value being entered, is a walk from the value. -/
theorem node (h : Collected b (a :: entered) (b.children a) result) :
    Collected b entered [a] result where
  keeps x hx := h.keeps x (List.mem_cons_of_mem _ hx)
  roots_mem r hr := List.mem_singleton.mp hr ▸ h.keeps a List.mem_cons_self
  settled x hx hne c hc := by
    by_cases hxa : x = a
    · subst hxa
      exact h.roots_mem c hc
    · exact h.settled x hx (List.not_mem_cons_of_ne_of_not_mem hxa hne) c hc
  reached x hx := by
    rcases h.reached x hx with he | ⟨c, hc, hx⟩
    · rcases List.mem_cons.mp he with rfl | he
      · exact Or.inr ⟨x, List.mem_cons_self, Or.inl rfl⟩
      · exact Or.inl he
    · exact Or.inr ⟨a, List.mem_cons_self, Or.inr (below_iff_exists_child.mpr ⟨c, hc, hx⟩)⟩

/-- A walk from one root, when nothing was entered before, enters the root and what is below it. -/
theorem mem_iff (h : Collected b [] [a] result) {d : α} : d ∈ result ↔ d = a ∨ b.Below a d := by
  constructor
  · intro hd
    rcases h.reached d hd with he | ⟨r, hr, hd⟩
    · exact absurd he List.not_mem_nil
    · exact List.mem_singleton.mp hr ▸ hd
  · have hroot : a ∈ result := h.roots_mem a List.mem_cons_self
    have hclosed : ∀ x d, b.Below x d → x ∈ result → d ∈ result := by
      intro x d hb
      induction hb with
      | child hc => exact fun hx => h.settled _ hx List.not_mem_nil _ hc
      | further hc _ ih => exact fun hx => ih (h.settled _ hx List.not_mem_nil _ hc)
    rintro (rfl | hd)
    · exact hroot
    · exact hclosed a d hd hroot

end Collected

section Walks

variable [DecidableEq α] (b : Branching α)

theorem collect_of_mem {entered : List α} {a : α} (h : a ∈ entered) :
    b.collect entered a = entered := by
  rw [collect, if_pos h]

theorem collect_of_not_mem {entered : List α} {a : α} (h : a ∉ entered) :
    b.collect entered a = (b.children a).foldl b.collect (a :: entered) := by
  rw [collect, if_neg h]
  exact List.foldl_attach

theorem collected_foldl {roots : List α}
    (h : ∀ r ∈ roots, ∀ entered, Collected b entered [r] (b.collect entered r))
    (entered : List α) : Collected b entered roots (roots.foldl b.collect entered) := by
  induction roots generalizing entered with
  | nil => exact .nil
  | cons r roots ih =>
    have hr := h r List.mem_cons_self entered
    exact hr.cons (ih (fun r' hr' => h r' (List.mem_cons_of_mem _ hr')) _)

/-- **The four facts about a walk**, by induction on the rank of its start. -/
theorem collected_collect (entered : List α) (a : α) :
    Collected b entered [a] (b.collect entered a) := by
  induction hn : b.rank a using Nat.strongRecOn generalizing a entered with
  | _ n ih =>
    by_cases ha : a ∈ entered
    · rw [collect_of_mem b ha]
      exact ⟨fun _ h => h, fun r hr => List.mem_singleton.mp hr ▸ ha, fun _ h h' => absurd h h',
        fun _ h => Or.inl h⟩
    · rw [collect_of_not_mem b ha]
      refine .node (collected_foldl b (fun c hc entered => ?_) _)
      exact ih (b.rank c) (hn ▸ b.falls a c hc) entered c rfl

/-- **The values below a value are exactly those that a chain of children leads to.** -/
theorem mem_below {a d : α} : d ∈ b.below a ↔ b.Below a d := by
  rw [below, List.mem_filter, decide_eq_true_iff, (b.collected_collect [] a).mem_iff]
  constructor
  · rintro ⟨hd, hne⟩
    exact hd.resolve_left hne
  · intro h
    exact ⟨Or.inr h, fun e => Below.irrefl (e ▸ h)⟩

end Walks

end Branching

/-! ## 3. Closures -/

namespace Graph

variable {g : Graph} {id d : Identity} {m : Module} {s : NameSet} {f : Fault}

theorem id_of_get? (h : g.get? id = some m) : m.id = id := (Register.find?_eq_some_iff.mp h).2

theorem mem_of_get? (h : g.get? id = some m) : m ∈ g.modules := (Register.find?_eq_some_iff.mp h).1

theorem mem_dependenciesIn {modules : Register Module.id} :
    d ∈ dependenciesIn modules id ↔ ∃ m, modules.find? id = some m ∧ d ∈ m.dependencies := by
  rw [dependenciesIn]
  cases modules.find? id with
  | none => simp
  | some m => simp

theorem mem_dependencyIds :
    d ∈ g.dependencyIds id ↔ ∃ m, g.get? id = some m ∧ d ∈ m.dependencies := mem_dependenciesIn

/-- What a module pulls in is declared in the graph. -/
theorem exists_get?_of_below (h : g.downward.Below id d) : ∃ n, g.get? d = some n := by
  induction h with
  | child h =>
    obtain ⟨m, hm, hd⟩ := mem_dependencyIds.mp h
    obtain ⟨n, hn, _⟩ := g.sound m (mem_of_get? hm) _ hd
    exact ⟨n, hn⟩
  | further _ _ ih => exact ih

theorem closure_of_get? (h : g.get? id = some m) :
    g.closure id = .ok (Register.ofList (g.downward.below id)) := by
  rw [closure, lookUp, h, ← id_of_get? h]
  rfl

theorem closure_of_get?_eq_none (h : g.get? id = none) :
    g.closure id = .error (.unknownModule id) := by
  rw [closure, lookUp, h]
  rfl

/-- A closure is refused exactly for an identity without a module. -/
theorem closure_eq_error_iff :
    g.closure id = .error f ↔ g.get? id = none ∧ f = .unknownModule id := by
  cases h : g.get? id with
  | none => simp [closure_of_get?_eq_none h, eq_comm]
  | some m => simp [closure_of_get? h]

theorem mem_ofList_below :
    d ∈ (Register.ofList (g.downward.below id) : NameSet) ↔ g.downward.Below id d := by
  rw [NameSet.mem_ofList, Branching.mem_below]

/-- **A closure holds exactly what is below its root.** -/
theorem mem_closure (h : g.closure id = .ok s) : d ∈ s ↔ g.downward.Below id d := by
  cases hm : g.get? id with
  | none => rw [closure_of_get?_eq_none hm] at h; cases h
  | some m =>
    rw [closure_of_get? hm] at h
    cases h
    exact mem_ofList_below

theorem exists_closure_iff : (∃ s, g.closure id = .ok s) ↔ ∃ m, g.get? id = some m := by
  cases hm : g.get? id with
  | none => simp [closure_of_get?_eq_none hm]
  | some m => simp [closure_of_get? hm]

end Graph

end Isolation
