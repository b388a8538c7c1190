import Isolation.Graph
import Isolation.Sorting

/-!
# Graphs as they are stored

A graph is stored three times over: its modules are NODES, each known by its position; its
dependencies are EDGES between positions; and an INDEX leads from identities to positions. Every
query reads the form that suits it. What a module depends on is read off its own dependency list,
through the index; what depends on a module is read off the edges; and how much there is, is
counted.

No type says that the three forms fit together, as `Graph.sound` says of a graph that its
dependencies resolve. A look-up may fail therefore, and a query in which one fails is STUCK
(`Stop.stuck`). The walks have a limit, on the number of steps or on the depth of calls, and are
stuck when they come to it.

* `StoredGraph.build` fills the three forms from a list of modules, one after another, and then
  examines what it stored; its checks run in the order in which those of `Graph.build` do;
* `size` … `closure` are the queries of a graph, answered from the stored forms.
-/

namespace Isolation

/-- Why a query of a stored graph has no answer. -/
inductive Stop where
  /-- A look-up failed, or a walk came to its limit. -/
  | stuck
  | fault (f : Fault)
deriving DecidableEq, Repr

/-- A result that is not stuck. -/
def Stop.lift {α : Type} (r : Except Fault α) : Except Stop α := r.mapError .fault

/-- A graph in the three forms in which it is stored. -/
structure StoredGraph where
  /-- The modules, in the order in which they were added. -/
  nodes : List Module
  /-- The positions of a module and of one that it depends on, in the order of addition. -/
  edges : List (Nat × Nat)
  /-- The position of each identity. -/
  index : NameMap Nat
deriving DecidableEq, Repr

namespace StoredGraph

variable (s : StoredGraph)

/-! ## 1. Look-ups -/

/-- The module at a position. -/
def nodeAt (i : Nat) : Except Stop Module :=
  match s.nodes[i]? with
  | some m => .ok m
  | none => .error .stuck

/-- The position of an identity that is taken to be in the index. -/
def positionOf (id : Identity) : Except Stop Nat :=
  match s.index.get? id with
  | some i => .ok i
  | none => .error .stuck

/-- The position of an identity, or the fault of asking for an unknown one. -/
def lookUp (id : Identity) : Except Stop Nat :=
  match s.index.get? id with
  | some i => .ok i
  | none => .error (.fault (.unknownModule id))

/-- The module that a dependency leads to. -/
def target (d : Identity) : Except Stop Module := do s.nodeAt (← s.positionOf d)

/-- Positions in the order of the identities that are found there. -/
def arranged (is : List Nat) : Except Stop (List Nat) := do
  let keyed ← is.mapM fun i => do return ((← s.nodeAt i).id, i)
  return (sortedBy (fun a b => compare a.1 b.1) keyed).map Prod.snd

/-- All positions, in the order of the identities. -/
def positions : Except Stop (List Nat) := s.arranged (List.range s.nodes.length)

/-- The positions from which an edge leads to a position, in the order of the identities. Edges are
    gone through from the newest one on. -/
def dependentPositions (i : Nat) : Except Stop (List Nat) := do
  let sources := (s.edges.reverse.filter fun e => e.2 == i).map Prod.fst
  return (← s.arranged sources).eraseReps

/-! ## 2. Checks -/

/-- Where the search for a cycle stands: as `CycleSearch.State`, with positions for identities, and
    with a mark for every node. -/
structure CycleWalk where
  marks : List CycleSearch.Mark
  path : List (Nat × Nat)
  starts : List Nat

namespace CycleWalk

def markAt (w : CycleWalk) (i : Nat) : Except Stop CycleSearch.Mark :=
  match w.marks[i]? with
  | some mark => .ok mark
  | none => .error .stuck

def setMark (w : CycleWalk) (i : Nat) (mark : CycleSearch.Mark) : Except Stop CycleWalk :=
  if i < w.marks.length then .ok { w with marks := w.marks.set i mark } else .error .stuck

/-- Put a node on the path. -/
def enter (w : CycleWalk) (i : Nat) : Except Stop CycleWalk := do
  let w ← w.setMark i .inProgress
  return { w with path := (i, 0) :: w.path }

/-- Begin at a node, unless it was reached before. -/
def begin (w : CycleWalk) (i : Nat) : Except Stop CycleWalk := do
  if (← w.markAt i) = .unvisited then w.enter i else return w

/-- Leave the innermost node; `above` is the rest of the path. -/
def leave (w : CycleWalk) (i : Nat) (above : List (Nat × Nat)) : Except Stop CycleWalk := do
  let w ← w.setMark i .done
  return { w with path := above }

/-- The part of the path from a node on, the outermost node first; the whole path where the node is
    not on it. -/
def pathFrom (w : CycleWalk) (i : Nat) : List Nat :=
  let nodes := (w.path.map Prod.fst).reverse
  nodes.drop ((nodes.findIdx? (· == i)).getD 0)

end CycleWalk

/-- Examine a dependency of the innermost node: go down into it, pass over it, or report the cycle
    that it closes. -/
def examineDependency (w : CycleWalk) (d : Identity) : Except Stop CycleWalk := do
  let j ← s.positionOf d
  match ← w.markAt j with
  | .unvisited => w.enter j
  | .done => return w
  | .inProgress =>
    let cycle ← (w.pathFrom j).mapM fun k => return (← s.nodeAt k).id
    .error (.fault (.cyclicDependency (cycle ++ [d])))

/-- One step of the search for a cycle: where it goes on, or `none` where it ends. -/
def cycleStep (w : CycleWalk) : Except Stop (Option CycleWalk) :=
  match w.path with
  | [] =>
    match w.starts with
    | [] => .ok none
    | i :: rest => some <$> { w with starts := rest }.begin i
  | (i, next) :: above => do
    match (← s.nodeAt i).dependencies[next]? with
    | none => some <$> w.leave i above
    | some d => some <$> s.examineDependency { w with path := (i, next + 1) :: above } d

/-- The search for a cycle in at most so many steps. -/
def cycleRun : Nat → CycleWalk → Except Stop Unit
  | 0, _ => .error .stuck
  | n + 1, w => do
    match ← s.cycleStep w with
    | some w => cycleRun n w
    | none => return ()

/-- As many steps as `CycleSearch.budget` allows. -/
def cycleBudget : Nat :=
  (s.nodes.map fun m => 2 + m.dependencies.length).foldr (· + ·) 0 + 1

/-- Refuse a cycle of dependencies. -/
def checkAcyclic : Except Stop Unit := do
  let starts ← s.positions
  s.cycleRun s.cycleBudget ⟨List.replicate s.nodes.length .unvisited, [], starts⟩

/-- Refuse a dependency of a module on the same tier or a higher one. -/
def checkTiersOf (m : Module) : Except Stop Unit :=
  m.dependencies.forM fun d => do
    let n ← s.target d
    if m.tier ≤ n.tier then .error (.fault (.tierInversion m.id m.tier d n.tier)) else .ok ()

/-- Refuse such a dependency of any module. -/
def checkTiers : Except Stop Unit := do
  (← s.positions).forM fun i => do s.checkTiersOf (← s.nodeAt i)

/-! ## 3. Building -/

/-- Add a module as a node. -/
def addNode (m : Module) : Except Stop StoredGraph :=
  if s.index.has m.id then .error (.fault (.duplicateModule m.id))
  else .ok { s with nodes := s.nodes ++ [m], index := s.index.put m.id s.nodes.length }

/-- Add an edge for a dependency of the module `m` at the position `i`. -/
def addEdge (m : Module) (i : Nat) (s : StoredGraph) (d : Identity) : Except Stop StoredGraph :=
  match s.index.get? d with
  | some j => .ok { s with edges := s.edges ++ [(i, j)] }
  | none => .error (.fault (.unresolvedDependency m.id d))

/-- Add the edges of a module. -/
def addEdges (m : Module) : Except Stop StoredGraph := do
  m.dependencies.foldlM (addEdge m (← s.positionOf m.id)) s

/-- Store a list of modules: all nodes first, then all edges, then the checks. -/
def build (ms : List Module) : Except Stop StoredGraph := do
  let noded ← ms.foldlM addNode ⟨[], [], Register.empty⟩
  let s ← ms.foldlM addEdges noded
  s.checkAcyclic
  s.checkTiers
  return s

/-! ## 4. Modules -/

/-- The number of modules. -/
def size : Nat := s.nodes.length

/-- The number of dependencies. -/
def edgeCount : Nat := s.edges.length

/-- The module of an identity. -/
def get? (id : Identity) : Except Stop (Option Module) :=
  match s.index.get? id with
  | some i => return some (← s.nodeAt i)
  | none => .ok none

/-- All modules, in ascending order. -/
def modules : Except Stop (List Module) := do (← s.positions).mapM s.nodeAt

/-- The direct dependencies of a module, in the order of declaration. -/
def dependenciesOf (id : Identity) : Except Stop (List Module) := do
  (← s.nodeAt (← s.lookUp id)).dependencies.mapM s.target

/-- The modules that depend on a module directly, in ascending order. -/
def dependentsOf (id : Identity) : Except Stop (List Module) := do
  (← s.dependentPositions (← s.lookUp id)).mapM s.nodeAt

/-! ## 5. Walks -/

/-- The line of a module in a tree. -/
def line (m : Module) (lasts : List Bool) (repeated : Bool) : String :=
  Entry.text Module.label ⟨m, lasts, repeated⟩

/-- The lines of siblings after those written so far, and the nodes expanded after them, when `f`
    writes one sibling from the nodes expanded before it and the place of its line. -/
def siblings {α : Type} (f : List Nat → List Bool → α → Except Stop (String × List Nat))
    (lasts : List Bool) (cs : List α) (st : String × List Nat) :
    Except Stop (String × List Nat) :=
  (markLast cs).foldlM (fun st c => do
    let sub ← f st.2 (lasts ++ [c.2]) c.1
    return (st.1 ++ sub.1, sub.2)) st

/-- The lines from a dependency on, and the nodes expanded after that, with calls at most so deep
    inside one another. -/
def subtree (limit : Option Nat) :
    Nat → List Nat → List Bool → Identity → Except Stop (String × List Nat)
  | 0, _, _, _ => .error .stuck
  | n + 1, expanded, lasts, d => do
    let i ← s.positionOf d
    let m ← s.nodeAt i
    if m.dependencies ≠ [] ∧ i ∈ expanded then return (line m lasts true, expanded)
    else if Branching.atLimit limit lasts.length then return (line m lasts false, expanded)
    else siblings (subtree limit n) lasts m.dependencies (line m lasts false, i :: expanded)

/-- The dependency tree of a module, down to a depth if one is given. -/
def tree (n : Nat) (id : Identity) (limit : Option Nat) : Except Stop String := do
  let i ← s.lookUp id
  let m ← s.nodeAt i
  return (← siblings (s.subtree limit n) [] m.dependencies (line m [] false, [i])).1

/-- The lines from a dependent on, and the nodes expanded after that, with calls at most so deep. -/
def invertedSubtree : Nat → List Nat → List Bool → Nat → Except Stop (String × List Nat)
  | 0, _, _, _ => .error .stuck
  | n + 1, expanded, lasts, i => do
    let m ← s.nodeAt i
    let dependents ← s.dependentPositions i
    if dependents = [] then return (line m lasts false, expanded)
    else if i ∈ expanded then return (line m lasts true, expanded)
    else siblings (invertedSubtree n) lasts dependents (line m lasts false, i :: expanded)

/-- The tree of the modules that depend on a module, directly or not. -/
def invertedTree (n : Nat) (id : Identity) : Except Stop String := do
  let i ← s.lookUp id
  let m ← s.nodeAt i
  let dependents ← s.dependentPositions i
  return (← siblings (s.invertedSubtree n) [] dependents (line m [] false, [i])).1

/-- Try one more dependency with `f`, unless the target was found before. -/
def tryNext (f : List Nat → Nat → Except Stop (Branching.Search Nat))
    (found : Branching.Search Nat) (d : Identity) : Except Stop (Branching.Search Nat) :=
  match found with
  | .found p => .ok (.found p)
  | .exhausted failed => do f failed (← s.positionOf d)

/-- Look for a position from another one on, skipping those that failed, with calls at most so
    deep. -/
def search (target : Nat) : Nat → List Nat → Nat → Except Stop (Branching.Search Nat)
  | 0, _, _ => .error .stuck
  | n + 1, failed, i =>
    if i = target then .ok (.found [i])
    else if i ∈ failed then .ok (.exhausted failed)
    else do
      let rest ← (← s.nodeAt i).dependencies.foldlM (s.tryNext (search target n))
        (.exhausted (i :: failed))
      match rest with
      | .found p => return .found (i :: p)
      | .exhausted failed => return .exhausted failed

/-- A chain of dependencies from one module to another, both included. -/
def path? (n : Nat) (start target : Identity) : Except Stop (Option (List Module)) := do
  let i ← s.lookUp start
  let j ← s.lookUp target
  match ← s.search j n [] i with
  | .found p => return some (← p.mapM s.nodeAt)
  | .exhausted _ => return none

/-- The positions that edges lead to from a position, in the order of addition. -/
def successors (i : Nat) : List Nat := (s.edges.filter fun e => e.1 == i).map Prod.snd

/-- The positions that edges lead to from those that wait, in at most so many steps; `visited` were
    visited before. -/
def visit : Nat → List Nat → List Nat → Except Stop (List Nat)
  | 0, _, _ => .error .stuck
  | _ + 1, [], visited => .ok visited
  | n + 1, i :: waiting, visited =>
    if i ∈ visited then visit n waiting visited
    else visit n ((s.successors i).filter (· ∉ i :: visited) ++ waiting) (i :: visited)

/-- The modules that a module pulls in, directly or not. No position waits more often than edges
    lead to it, so there are steps enough. -/
def closure (id : Identity) : Except Stop NameSet := do
  let i ← s.lookUp id
  let visited ← s.visit (s.edges.length + 2) [i] []
  return Register.ofList (← (visited.filter (· ≠ i)).mapM fun j => return (← s.nodeAt j).id)

end StoredGraph

end Isolation
