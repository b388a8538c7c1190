import Isolation.Verify

/-!
# Checks that run among each other

The checks of a run are tasks that share one memo and nothing else. Each is spawned under its
number, takes its atomic steps whenever it is scheduled, and is joined once it has answered; the
answers of a kind are put in the order of the numbers after the last one is joined. The bounds and
the bundles are two such pools of tasks (`Pool`), and nothing is said of who is scheduled next: a
run of the checks is any sequence of steps (`Checking.Step`).

`checkThrough` is the run in which the tasks follow one another.
-/

namespace Isolation

/-! ## 1. Pools of tasks -/

/-- The tasks of one kind, each with the number under which it was spawned. -/
structure Pool (α : Type) where
  /-- The tasks not yet joined. -/
  running : List (Task α × Nat)
  /-- The answers of the joined tasks, in the order of joining. -/
  joined : List (α × Nat)

namespace Pool

variable {α : Type}

/-- All inquiries spawned, none begun. -/
def start (qs : List (Inquiry α)) : Pool α := ⟨(qs.map Task.ofInquiry).zipIdx, []⟩

/-- One step in a pool that shares a memo: some waiting task takes its next atomic step, or some
    task that has answered is joined. -/
inductive Step (g : Graph) : Memo × Pool α → Memo × Pool α → Prop where
  | advance (memo : Memo) (before after : List (Task α × Nat)) (joined : List (α × Nat))
      (request : Request) (next : ClosureAnswer → Inquiry α) (i : Nat) :
      Step g (memo, ⟨before ++ (.waiting request next, i) :: after, joined⟩)
        (((Task.waiting request next).step g memo).1,
          ⟨before ++ (((Task.waiting request next).step g memo).2, i) :: after, joined⟩)
  | join (memo : Memo) (before after : List (Task α × Nat)) (joined : List (α × Nat))
      (a : α) (i : Nat) :
      Step g (memo, ⟨before ++ (.finished a, i) :: after, joined⟩)
        (memo, ⟨before ++ after, joined ++ [(a, i)]⟩)

/-- The answers joined so far, in the order of the numbers. -/
def inOrder (p : Pool α) : List α := (sortedBy (compareOn Prod.snd) p.joined).map Prod.fst

end Pool

/-! ## 2. Runs of the checks -/

/-- The state of a run: the memo, and the two pools that share it. -/
structure Checking where
  memo : Memo
  bounds : Pool (Identity × Except Fault Finding)
  bundles : Pool (Bundle × Except Fault (List Conflict))

namespace Checking

/-- All checks spawned on an empty memo. -/
def start (g : Graph) (bounds : List (Identity × Bound)) (bundles : List Bundle) : Checking where
  memo := Memo.empty
  bounds := Pool.start (bounds.map fun p => (p.2.check p.1).map fun r => (p.1, r))
  bundles := Pool.start (bundles.map fun b => (b.conflicts g).map fun r => (b, r))

/-- One step of a run: a step in either pool. -/
inductive Step (g : Graph) : Checking → Checking → Prop where
  | bound (c : Checking) (memo : Memo) (pool : Pool (Identity × Except Fault Finding))
      (h : Pool.Step g (c.memo, c.bounds) (memo, pool)) :
      Step g c { c with memo, bounds := pool }
  | bundle (c : Checking) (memo : Memo) (pool : Pool (Bundle × Except Fault (List Conflict)))
      (h : Pool.Step g (c.memo, c.bundles) (memo, pool)) :
      Step g c { c with memo, bundles := pool }

/-- Every task is joined. -/
def IsOver (c : Checking) : Prop := c.bounds.running = [] ∧ c.bundles.running = []

/-- The report that is assembled from the joined answers. -/
def report (c : Checking) : Report := Report.ofChecks c.bounds.inOrder c.bundles.inOrder

end Checking

end Isolation
