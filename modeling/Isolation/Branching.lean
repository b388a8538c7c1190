/-!
# Branchings

A branching gives every value a list of children and a rank that falls from a value to each of its
children. The rank is what lets every walk below end, so none of them carries a bound of its own: a
module graph branches downwards into dependencies, ranked by tier, and upwards into dependents,
ranked by the distance from the highest tier.

Three walks are fixed here, all depth first and all in the order of the children:

* `collect`: everything reached from a value, each value entered once;
* `search`: the first path to a target, giving up on a value for good once it failed;
* `firstPath`: the same path without that shortcut, as the plain account of what `search` finds.
-/

namespace Isolation

/-- Lists of children along which a rank falls. -/
structure Branching (α : Type) where
  /-- The values directly below a value, in order. -/
  children : α → List α
  rank : α → Nat
  falls : ∀ a, ∀ c ∈ children a, rank c < rank a

namespace Branching

variable {α : Type}

/-! ## 1. Reachability -/

/-- `b.Below a d`: some chain of one or more children leads from `a` to `d`. -/
inductive Below (b : Branching α) : α → α → Prop where
  | child {a c : α} : c ∈ b.children a → Below b a c
  | further {a c d : α} : c ∈ b.children a → Below b c d → Below b a d

/-- **What is below has a smaller rank**, so nothing is below itself. -/
theorem Below.rank_lt {b : Branching α} {a d : α} (h : b.Below a d) : b.rank d < b.rank a := by
  induction h with
  | child h => exact b.falls _ _ h
  | further h _ ih => exact Nat.lt_trans ih (b.falls _ _ h)

section Walks

variable [DecidableEq α] (b : Branching α)

/-- The values entered so far, with those entered from `a` on: `a` and what is reached from it
    without passing a value already entered. -/
def collect (entered : List α) (a : α) : List α :=
  if a ∈ entered then entered
  else (b.children a).attach.foldl (fun s c => collect s c.1) (a :: entered)
termination_by b.rank a
decreasing_by exact b.falls a c.1 c.2

/-- Everything below a value. -/
def below (a : α) : List α := (b.collect [] a).filter (· ≠ a)

/-! ## 2. Paths -/

/-- Where a search stands. -/
inductive Search (α : Type) where
  /-- The target was reached along this path. -/
  | found (path : List α)
  /-- It was not, and these values need not be tried again. -/
  | exhausted (failed : List α)

/-- Look for `target` from `a` on, skipping the values that failed before. -/
def search (target : α) (failed : List α) (a : α) : Search α :=
  if a = target then .found [a]
  else if a ∈ failed then .exhausted failed
  else
    let rest := (b.children a).attach.foldl (fun (s : Search α) c =>
      match s with
      | .found p => .found p
      | .exhausted f => search target f c.1) (.exhausted (a :: failed))
    match rest with
    | .found p => .found (a :: p)
    | .exhausted f => .exhausted f
termination_by b.rank a
decreasing_by exact b.falls a c.1 c.2

/-- A path from `a` to `target`, both included. -/
def path? (a target : α) : Option (List α) :=
  match b.search target [] a with
  | .found p => some p
  | .exhausted _ => none

/-- The first path from `a` to `target` when every value is tried every time it is met. -/
def firstPath (target a : α) : Option (List α) :=
  if a = target then some [a]
  else ((b.children a).attach.findSome? fun c => firstPath target c.1).map (a :: ·)
termination_by b.rank a
decreasing_by exact b.falls a c.1 c.2

end Walks

end Branching

end Isolation
