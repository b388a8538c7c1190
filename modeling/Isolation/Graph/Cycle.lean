import Isolation.Identity

/-!
# The search for a dependency cycle

Whether the dependencies of a module set run in a circle is decided by a depth first walk with three
marks. The walk is written as single steps on a state (`CycleSearch.step`), so that what holds at
every step can be stated: the marks, the path from the current start down to the current module, and
the starts still to come. Each frame of the path remembers which of its module's dependencies is
examined next.

A dependency that is found in progress lies on the path, and the part of the path from it on is the
cycle. **No recursion is involved**, so the depth of the dependencies is not limited; the number of
steps is bounded by the modules and their dependency entries (`CycleSearch.budget`).
-/

namespace Isolation

namespace CycleSearch

/-- How far the walk is with a module. -/
inductive Mark where
  | unvisited
  | inProgress
  | done
deriving DecidableEq, Repr

/-- A module on the path, and the position of the dependency to examine next. -/
structure Frame where
  node : Identity
  next : Nat
deriving DecidableEq, Repr

/-- The state of the walk. -/
structure State where
  /-- The marks set so far. -/
  marks : NameMap Mark
  /-- The modules in progress, the innermost first. -/
  path : List Frame
  /-- The modules from which the walk is still to be started. -/
  starts : List Identity

/-- The mark of a module. -/
def State.mark (s : State) (id : Identity) : Mark := (s.marks.get? id).getD .unvisited

/-- What a step leads to. -/
inductive Outcome where
  /-- The walk goes on. -/
  | running (s : State)
  /-- A cycle was found; its last identity repeats the first. -/
  | cycle (ids : List Identity)
  /-- Every start is done. -/
  | finished

/-- Put a module on the path. -/
def State.enter (s : State) (id : Identity) : State :=
  { s with marks := s.marks.put id .inProgress, path := ⟨id, 0⟩ :: s.path }

/-- The cycle that a dependency on `id` closes: the path from `id` on, and `id` again. -/
def closedBy (path : List Frame) (id : Identity) : List Identity :=
  id :: ((path.takeWhile fun f => f.node != id).map Frame.node).reverse ++ [id]

/-- One step of the walk: begin at the next start, leave a module whose dependencies are all
    examined, or examine the next dependency of the innermost module. -/
def step (dependencies : Identity → List Identity) (s : State) : Outcome :=
  match s.path with
  | [] =>
    match s.starts with
    | [] => .finished
    | id :: rest =>
      let s := { s with starts := rest }
      if s.mark id = .unvisited then .running (s.enter id) else .running s
  | frame :: above =>
    match (dependencies frame.node)[frame.next]? with
    | none => .running { s with marks := s.marks.put frame.node .done, path := above }
    | some d =>
      let s := { s with path := { frame with next := frame.next + 1 } :: above }
      match s.mark d with
      | .inProgress => .cycle (closedBy s.path d)
      | .unvisited => .running (s.enter d)
      | .done => .running s

/-- At most so many steps; `none` when no cycle is found in them. -/
def run (dependencies : Identity → List Identity) : Nat → State → Option (List Identity)
  | 0, _ => none
  | n + 1, s =>
    match step dependencies s with
    | .running s' => run dependencies n s'
    | .cycle ids => some ids
    | .finished => none

/-- The state before the first step. -/
def initial (starts : List Identity) : State := ⟨Register.empty, [], starts⟩

/-- Enough steps for a whole walk: each start is begun once, each module left once, each dependency
    entry examined once, and one step sees that nothing is left. -/
def budget (dependencies : Identity → List Identity) (ids : List Identity) : Nat :=
  (ids.map fun id => 2 + (dependencies id).length).foldr (· + ·) 0 + 1

/-- The first cycle that the walk meets when it starts from each module in turn. -/
def find? (dependencies : Identity → List Identity) (ids : List Identity) :
    Option (List Identity) :=
  run dependencies (budget dependencies ids) (initial ids)

end CycleSearch

end Isolation
