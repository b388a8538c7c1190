import Isolation.Graph.Cycle
import Isolation.Module
import Isolation.Outline

/-!
# Module graphs

A graph is a register of modules in which every dependency resolves to a module of a smaller tier.
That is a field of the type (`Graph.sound`), so no query on a graph has a case for a dangling
dependency, and every walk along dependencies ends. A graph does not remember the order of the
list that it was built from.

* `Graph.build` decides whether a list of modules is a graph. Its checks run in a fixed order and
  the first failure is reported: duplicate identities, unresolved dependencies, cycles, tiers.
* `Graph.downward` and `Graph.upward` are the two branchings of a graph, into dependencies and into
  dependents; reachability, paths and outlines are those of the branchings.
-/

namespace Isolation

/-- A set of modules whose dependencies all resolve and all lie on smaller tiers. -/
structure Graph where
  /-- The modules, in ascending order of their identities. -/
  modules : Register Module.id
  sound : ∀ m ∈ modules, ∀ d ∈ m.dependencies, ∃ n, modules.find? d = some n ∧ n.tier < m.tier

namespace Graph

/-! ## 1. Building -/

/-- The first identity of a list that occurs earlier in it or among `before`. -/
def firstDuplicate? (before : List Identity) : List Identity → Option Identity
  | [] => none
  | id :: ids => if id ∈ before then some id else firstDuplicate? (id :: before) ids

/-- The first dependency that names no module of the register, with the module that lists it. -/
def firstUnresolved? (modules : Register Module.id) : List Module → Option (Module × Identity)
  | [] => none
  | m :: ms =>
    match m.dependencies.find? fun d => !modules.has d with
    | some d => some (m, d)
    | none => firstUnresolved? modules ms

/-- A dependency of `m` on the same tier or a higher one. -/
def inversion? (modules : Register Module.id) (m : Module) : Option Module :=
  m.dependencies.findSome? fun d => (modules.find? d).filter fun n => m.tier ≤ n.tier

/-- The first module with such a dependency, and the first such dependency of it. -/
def firstInversion? (modules : Register Module.id) : List Module → Option (Module × Module)
  | [] => none
  | m :: ms =>
    match inversion? modules m with
    | some n => some (m, n)
    | none => firstInversion? modules ms

/-- The dependencies that a register lists for an identity. -/
def dependenciesIn (modules : Register Module.id) (id : Identity) : List Identity :=
  match modules.find? id with
  | some m => m.dependencies
  | none => []

theorem has_of_firstUnresolved? {modules : Register Module.id} {ms : List Module}
    (h : firstUnresolved? modules ms = none) :
    ∀ m ∈ ms, ∀ d ∈ m.dependencies, modules.has d = true := by
  induction ms with
  | nil => simp
  | cons a ms ih =>
    rw [firstUnresolved?] at h
    split at h
    · cases h
    · rename_i hf
      intro m hm d hd
      rcases List.mem_cons.mp hm with rfl | hm
      · simpa using List.find?_eq_none.mp hf d hd
      · exact ih h m hm d hd

theorem tier_lt_of_firstInversion? {modules : Register Module.id} {ms : List Module}
    (h : firstInversion? modules ms = none) :
    ∀ m ∈ ms, ∀ d ∈ m.dependencies, ∀ n, modules.find? d = some n → n.tier < m.tier := by
  induction ms with
  | nil => simp
  | cons a ms ih =>
    rw [firstInversion?] at h
    split at h
    · cases h
    · rename_i hf
      intro m hm d hd n hn
      rcases List.mem_cons.mp hm with rfl | hm
      · have := List.findSome?_eq_none_iff.mp hf d hd
        rw [hn, Option.filter_some] at this
        simpa using this
      · exact ih h m hm d hd n hn

/-- The graph of a list of modules, or the first fault of the list. -/
def build (ms : List Module) : Except Fault Graph :=
  match firstDuplicate? [] (ms.map Module.id) with
  | some id => .error (.duplicateModule id)
  | none =>
    let modules : Register Module.id := Register.ofList ms
    match hu : firstUnresolved? modules ms with
    | some (m, d) => .error (.unresolvedDependency m.id d)
    | none =>
      match CycleSearch.find? (dependenciesIn modules) modules.names with
      | some cycle => .error (.cyclicDependency cycle)
      | none =>
        match hi : firstInversion? modules modules.toList with
        | some (m, n) => .error (.tierInversion m.id m.tier n.id n.tier)
        | none => .ok ⟨modules, fun m hm d hd => by
            obtain ⟨n, hn⟩ := Option.isSome_iff_exists.mp
              (has_of_firstUnresolved? hu m (Register.mem_of_mem_ofList hm) d hd)
            exact ⟨n, hn, tier_lt_of_firstInversion? hi m hm d hd n hn⟩⟩

/-! ## 2. Modules -/

variable (g : Graph)

/-- The module of an identity. -/
def get? (id : Identity) : Option Module := g.modules.find? id

/-- The module of an identity, or the fault of asking for an unknown one. -/
def lookUp (id : Identity) : Except Fault Module :=
  match g.get? id with
  | some m => .ok m
  | none => .error (.unknownModule id)

/-- The number of modules. -/
def size : Nat := g.modules.size

/-- The number of dependencies declared in all modules together. -/
def edgeCount : Nat := (g.modules.toList.map fun m => m.dependencies.length).foldr (· + ·) 0

/-- The identities of the direct dependencies, in the order of declaration. -/
def dependencyIds (id : Identity) : List Identity := dependenciesIn g.modules id

/-- The identities of the modules that depend on `id` directly, in ascending order. -/
def dependentIds (id : Identity) : List Identity :=
  (g.modules.toList.filter fun m => m.dependsOn id).map Module.id

/-- The tier of an identity; 0 when no module has it. -/
def tier (id : Identity) : Nat :=
  match g.get? id with
  | some m => m.tier
  | none => 0

/-- The highest tier of the graph. -/
def topTier : Nat := (g.modules.toList.map Module.tier).foldl max 0

/-- How an identity is shown: as its module's label. -/
def label (id : Identity) : String :=
  match g.get? id with
  | some m => m.label
  | none => id

/-- The modules of a list of identities. -/
def modulesOf (ids : List Identity) : List Module := ids.filterMap g.get?

/-- The direct dependencies of a module, in the order of declaration. -/
def dependenciesOf (id : Identity) : Except Fault (List Module) :=
  return g.modulesOf (← g.lookUp id).dependencies

/-- The modules that depend on a module directly, in ascending order. -/
def dependentsOf (id : Identity) : Except Fault (List Module) :=
  return g.modulesOf (g.dependentIds (← g.lookUp id).id)

/-! ## 3. The two branchings -/

theorem tier_lt_of_mem_dependencyIds {id d : Identity} (h : d ∈ g.dependencyIds id) :
    g.tier d < g.tier id := by
  rw [dependencyIds, dependenciesIn] at h
  split at h
  · rename_i m hm
    obtain ⟨n, hn, hlt⟩ := g.sound m (Register.find?_eq_some_iff.mp hm).1 d h
    simpa [tier, get?, hm, hn] using hlt
  · cases h

theorem le_foldl_max (l : List Nat) (k : Nat) : k ≤ l.foldl max k ∧ ∀ n ∈ l, n ≤ l.foldl max k := by
  induction l generalizing k with
  | nil => simp
  | cons a l ih =>
    have h := ih (max k a)
    refine ⟨Nat.le_trans (Nat.le_max_left k a) h.1, fun n hn => ?_⟩
    rcases List.mem_cons.mp hn with rfl | hn
    · exact Nat.le_trans (Nat.le_max_right k n) h.1
    · exact h.2 n hn

theorem tier_le_topTier {m : Module} (h : m ∈ g.modules) : m.tier ≤ g.topTier :=
  (le_foldl_max _ 0).2 m.tier (List.mem_map_of_mem h)

theorem rank_lt_of_mem_dependentIds {id p : Identity} (h : p ∈ g.dependentIds id) :
    g.topTier - g.tier p < g.topTier - g.tier id := by
  rw [dependentIds, List.mem_map] at h
  obtain ⟨m, hm, rfl⟩ := h
  obtain ⟨hm, hd⟩ := List.mem_filter.mp hm
  have hself : g.modules.find? m.id = some m := Register.find?_eq_some_iff.mpr ⟨hm, rfl⟩
  obtain ⟨n, hn, hlt⟩ := g.sound m hm id (by simpa [Module.dependsOn] using hd)
  have htop := g.tier_le_topTier hm
  simp only [tier, get?, hself, hn]
  omega

/-- A graph branches downwards into dependencies; the tier is the rank. -/
def downward : Branching Identity where
  children := g.dependencyIds
  rank := g.tier
  falls _ _ h := g.tier_lt_of_mem_dependencyIds h

/-- A graph branches upwards into dependents; the distance from the highest tier is the rank. -/
def upward : Branching Identity where
  children := g.dependentIds
  rank id := g.topTier - g.tier id
  falls _ _ h := g.rank_lt_of_mem_dependentIds h

/-! ## 4. Walks -/

/-- The modules that a module pulls in, directly or not. -/
def closure (id : Identity) : Except Fault NameSet :=
  return Register.ofList (g.downward.below (← g.lookUp id).id)

/-- The dependency tree of a module, down to a depth if one is given. -/
def tree (id : Identity) (depth : Option Nat) : Except Fault String :=
  return g.downward.drawing g.label depth (← g.lookUp id).id

/-- The tree of the modules that depend on a module, directly or not. -/
def invertedTree (id : Identity) : Except Fault String :=
  return g.upward.fullDrawing g.label (← g.lookUp id).id

/-- A chain of dependencies from one module to another, both included. -/
def path? (start target : Identity) : Except Fault (Option (List Module)) := do
  let s ← g.lookUp start
  let t ← g.lookUp target
  return (g.downward.path? s.id t.id).map g.modulesOf

end Graph

end Isolation
