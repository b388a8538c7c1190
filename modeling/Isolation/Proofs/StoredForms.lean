import Isolation.Proofs.FirstPaths
import Isolation.Proofs.StoredQueries

/-!
# The three forms of a stored graph agree

A graph is stored as nodes, as edges and in an index, and every query reads the form that suits it.
This file says what each form holds of a list of modules that was stored, and what the queries tell:

* `Coherent` -- the nodes are the modules, the index leads to where each of them stands, and one
  edge is stored for each dependency; so every dependency is found through the index
  (`coherent_of_build`);
* `Tells` -- counts, modules, dependencies and dependents are those of the list, whichever form they
  are read from (`tells_of_build`);
* `AnswersAs` -- every query has the answer of the graph, **and so none is stuck**
  (`answersAs_of_build`);
* **`stored_forms_agree`** -- all of this for every list of modules that is stored; and storing is
  never stuck itself, not even where it is refused.

NOT here: how the search for a cycle, the walks and the visits over positions follow those over
identities. That is shown step by step in the modules on stored checks and stored queries.
-/

namespace Isolation

namespace StoredGraph

open Isolation.Graph (blindAlley)

/-! ## 1. What the forms hold -/

/-- The three forms fit together, and hold a list of modules. -/
structure Coherent (s : StoredGraph) (ms : List Module) : Prop where
  /-- The modules stand as they were listed. -/
  nodes_eq : s.nodes = ms
  /-- The index leads from an identity to where its module stands, and knows no other identity. -/
  index_iff : ∀ id i, s.index.get? id = some i ↔ ∃ m, s.nodes[i]? = some m ∧ m.id = id
  /-- Edges lead from a module to those that it declares as dependencies. -/
  edges_iff : ∀ i j, (i, j) ∈ s.edges ↔
    ∃ m n, s.nodes[i]? = some m ∧ s.nodes[j]? = some n ∧ n.id ∈ m.dependencies
  edges_nodup : s.edges.Nodup
  /-- The look-up of a dependency succeeds, wherever it is declared. -/
  resolves : ∀ m ∈ s.nodes, ∀ d ∈ m.dependencies,
    ∃ i n, s.index.get? d = some i ∧ s.nodes[i]? = some n ∧ n.id = d

/-- What the queries tell of a list of modules that was stored. -/
structure Tells (s : StoredGraph) (ms : List Module) : Prop where
  size_eq : s.size = ms.length
  edgeCount_eq : s.edgeCount = (ms.map fun m => m.dependencies.length).sum
  get?_of_mem : ∀ m ∈ ms, s.get? m.id = .ok (some m)
  get?_of_not_mem : ∀ id, id ∉ ms.map Module.id → s.get? id = .ok none
  modules_ascending : ∃ l, s.modules = .ok l ∧ l.Perm ms ∧ l.Pairwise fun m n => m.id < n.id
  /-- Dependencies are read off the modules, in the order of declaration. -/
  dependencies_declared : ∀ m ∈ ms, ∃ l, s.dependenciesOf m.id = .ok l ∧
    l.map Module.id = m.dependencies ∧ ∀ n ∈ l, n ∈ ms
  /-- Dependents are read off the edges. -/
  dependents_declare : ∀ m ∈ ms, ∃ l, s.dependentsOf m.id = .ok l ∧
    (l.Pairwise fun n p => n.id < p.id) ∧ ∀ p, p ∈ l ↔ p ∈ ms ∧ m.id ∈ p.dependencies

/-- The queries of a stored graph have the answers of a graph. A walk may call itself as deep as the
    graph has tiers. -/
structure AnswersAs (s : StoredGraph) (g : Graph) : Prop where
  checkAcyclic : s.checkAcyclic = .ok ()
  checkTiers : s.checkTiers = .ok ()
  size : s.size = g.size
  edgeCount : s.edgeCount = g.edgeCount
  get? : ∀ id, s.get? id = .ok (g.get? id)
  modules : s.modules = .ok g.modules.toList
  dependenciesOf : ∀ id, s.dependenciesOf id = Stop.lift (g.dependenciesOf id)
  dependentsOf : ∀ id, s.dependentsOf id = Stop.lift (g.dependentsOf id)
  tree : ∀ n, g.topTier < n → ∀ id limit, s.tree n id limit = Stop.lift (g.tree id limit)
  invertedTree : ∀ n, g.topTier < n → ∀ id, s.invertedTree n id = Stop.lift (g.invertedTree id)
  path? : ∀ n, g.topTier < n → ∀ start target,
    s.path? n start target = Stop.lift (g.path? start target)
  closure : ∀ id, s.closure id = Stop.lift (g.closure id)

/-! ## 2. Lists that were stored -/

section Built

variable {ms : List Module} {g : Graph} (h : Graph.build ms = .ok g)
include h

theorem coherent_of_build : (stored ms).Coherent ms := by
  obtain ⟨hd, hr, _⟩ := Graph.build_eq_ok_iff_modules.mp h
  have hindex : ∀ id i, (stored ms).index.get? id = some i ↔
      ∃ m, (stored ms).nodes[i]? = some m ∧ m.id = id := fun _ _ => get?_indexOf_iff hd
  refine ⟨rfl, hindex, fun i j => ?_, nodup_edges_stored hd hr, fun m hm d hdep => ?_⟩
  · rw [mem_edges_stored]
    constructor
    · rintro ⟨_, d, ⟨m, hm, rfl, hdep⟩, rfl, rfl⟩
      obtain ⟨n, hn, rfl⟩ := List.mem_map.mp (hr m hm d hdep)
      exact ⟨m, n, getElem?_placeOf hd hm, getElem?_placeOf hd hn, hdep⟩
    · rintro ⟨m, n, hm, hn, hdep⟩
      exact ⟨m.id, n.id, ⟨m, List.mem_of_getElem? hm, rfl, hdep⟩, placeOf_of_getElem? hd hm,
        placeOf_of_getElem? hd hn⟩
  · obtain ⟨n, hn, rfl⟩ := List.mem_map.mp (hr m hm d hdep)
    exact ⟨placeOf ms n.id, n, get?_indexOf hd hn, getElem?_placeOf hd hn, rfl⟩

theorem mem_of_mem_modulesOf {ids : List Identity} {n : Module} (hn : n ∈ g.modulesOf ids) :
    n ∈ ms := by
  obtain ⟨_, _, hget⟩ := List.mem_filterMap.mp hn
  exact ((Graph.get?_eq_some_iff_of_build h).mp hget).1

/-- The modules that depend on one, as the list of modules has them. -/
theorem mem_modulesOf_dependentIds_iff {id : Identity} {p : Module} :
    p ∈ g.modulesOf (g.dependentIds id) ↔ p ∈ ms ∧ id ∈ p.dependencies := by
  rw [Graph.modulesOf, List.mem_filterMap]
  constructor
  · rintro ⟨a, ha, hget⟩
    obtain ⟨n, hn, hdep⟩ := Graph.mem_dependencyIds.mp (Graph.mem_dependentIds.mp ha)
    rw [hget] at hn
    cases hn
    exact ⟨((Graph.get?_eq_some_iff_of_build h).mp hget).1, hdep⟩
  · rintro ⟨hp, hdep⟩
    have hget : g.get? p.id = some p := (Graph.get?_eq_some_iff_of_build h).mpr ⟨hp, rfl⟩
    have hmem := Graph.mem_dependencyIds.mpr ⟨p, hget, hdep⟩
    exact ⟨p.id, Graph.mem_dependentIds.mpr hmem, hget⟩

omit h in
theorem modulesOf_dependentIds_ascending (id : Identity) :
    (g.modulesOf (g.dependentIds id)).Pairwise fun n p => n.id < p.id := by
  have hids : (g.dependentIds id).Pairwise (· < ·) :=
    (ascending_names g.modules).sublist (List.filter_sublist.map Module.id)
  rw [← Graph.map_id_modulesOf fun _ => Graph.known_of_mem_dependentIds] at hids
  exact List.pairwise_map.mp hids

theorem tells_of_build : (stored ms).Tells ms := by
  obtain ⟨hd, _, _, hmodules⟩ := Graph.build_eq_ok_iff_modules.mp h
  have hget : ∀ m ∈ ms, g.get? m.id = some m := fun m hm =>
    (Graph.get?_eq_some_iff_of_build h).mpr ⟨hm, rfl⟩
  refine ⟨rfl, length_edges_stored, fun m hm => ?_, fun id hid => ?_,
    ⟨_, modules_stored h, hmodules ▸ toList_ofList_perm hd, g.modules.ascending⟩,
    fun m hm => ⟨g.modulesOf m.dependencies, ?_, ?_, fun n hn => mem_of_mem_modulesOf h hn⟩,
    fun m hm => ⟨g.modulesOf (g.dependentIds m.id), ?_, modulesOf_dependentIds_ascending m.id,
      fun p => mem_modulesOf_dependentIds_iff h⟩⟩
  · rw [get?_stored h, hget m hm]
  · rw [get?_stored h, Graph.get?_of_not_known (mt (Graph.known_iff_of_build h).mp hid)]
  · rw [dependenciesOf_stored h, Graph.dependenciesOf, Graph.lookUp, hget m hm]
    rfl
  · exact Graph.map_id_modulesOf (dependencies_known (hget m hm))
  · rw [dependentsOf_stored h, Graph.dependentsOf_of_get? (hget m hm)]
    rfl

theorem answersAs_of_build : (stored ms).AnswersAs g := by
  obtain ⟨hd, hr, hs, hmodules⟩ := Graph.build_eq_ok_iff_modules.mp h
  have hperm : g.modules.toList.Perm ms := hmodules ▸ toList_ofList_perm hd
  have hedges : (stored ms).edgeCount = g.edgeCount := by
    rw [edgeCount, length_edges_stored, List.sum_eq_foldr, Graph.edgeCount]
    exact (foldr_add_eq_of_perm (hperm.map fun m => m.dependencies.length)).symm
  exact {
    checkAcyclic := checkAcyclic_of_not_cyclic hd hr (not_cyclic_of_descending hd hs hr)
    checkTiers := checkTiers_of_descending hd hr hs
    size := hperm.length_eq.symm
    edgeCount := hedges
    get? := get?_stored h
    modules := modules_stored h
    dependenciesOf := dependenciesOf_stored h
    dependentsOf := dependentsOf_stored h
    tree := fun _ hn => tree_stored h hn
    invertedTree := fun _ hn => invertedTree_stored h hn
    path? := fun _ hn => path?_stored h hn
    closure := closure_stored h }

end Built

/-! ## 3. Any list -/

/-- **The three forms agree.** Storing a list of modules is never stuck: it is refused for the fault
    for which there is no graph of the list. When it is stored, the nodes, the edges and the index
    hold the list; the queries tell what the list says, whichever form they read; and all of them,
    checks and walks included, have the answers that the graph of the list has, so that no look-up
    fails in any of them. -/
theorem stored_forms_agree (ms : List Module) :
    build ms ≠ .error .stuck ∧
    (∀ f, build ms = .error (.fault f) ↔ Graph.build ms = .error f) ∧
    ∀ s, build ms = .ok s → s.Coherent ms ∧ s.Tells ms ∧
      ∃ g, Graph.build ms = .ok g ∧ s.AnswersAs g := by
  rw [build_eq]
  cases hg : Graph.build ms with
  | error f =>
    refine ⟨fun hstuck => ?_, fun f' => ?_, fun s hs => ?_⟩
    · cases hstuck
    · rw [Except.error.injEq, Except.error.injEq, Stop.fault.injEq]
    · cases hs
  | ok g =>
    refine ⟨fun hstuck => ?_, fun f => ⟨fun hf => ?_, fun hf => ?_⟩, fun s hs => ?_⟩
    · cases hstuck
    · cases hf
    · cases hf
    · cases hs
      exact ⟨coherent_of_build hg, tells_of_build hg, g, rfl, answersAs_of_build hg⟩

/-- What is stored for the repository with a blind alley: six modules and six edges. The
    dependencies of `right` are read off the modules, what lies above `mid` off the edges, with
    calls no deeper than four. -/
theorem stored_forms_of_blind_alley : ∃ s, build blindAlley = .ok s ∧
    s.size = 6 ∧ s.edgeCount = 6 ∧ s.get? "nowhere" = .ok none ∧
    (∃ l, s.dependenciesOf "right" = .ok l ∧ l.map Module.id = ["mid", "goal"]) ∧
    s.invertedTree 4 "mid" =
      .ok "mid\n├── left\n│   └── top\n└── right\n    └── top\n" := by
  obtain ⟨g, hg⟩ : ∃ g, Graph.build blindAlley = .ok g :=
    Graph.build_eq_ok_iff.mpr ⟨by decide, by decide, by decide⟩
  have hs : build blindAlley = .ok (stored blindAlley) := by
    rw [build_eq, hg]
  obtain ⟨_, _, hstored⟩ := stored_forms_agree blindAlley
  obtain ⟨_, ht, g', hg', ha⟩ := hstored _ hs
  have htop : (Graph.build blindAlley).toOption.map Graph.topTier = some 3 := by decide +kernel
  have htree : (Graph.build blindAlley).toOption.map (fun g => g.invertedTree "mid") =
      some (.ok "mid\n├── left\n│   └── top\n└── right\n    └── top\n") := by decide +kernel
  rw [hg'] at htop htree
  have hfour : g'.topTier < 4 := by
    rw [Option.some.inj htop]
    decide
  obtain ⟨right, hright, hid, hdeclared⟩ :
      ∃ m ∈ blindAlley, m.id = "right" ∧ m.dependencies = ["mid", "goal"] := by decide
  obtain ⟨below, hbelow, hnames, _⟩ := ht.dependencies_declared right hright
  exact ⟨_, hs, ht.size_eq.trans (by decide), ht.edgeCount_eq.trans (by decide),
    ht.get?_of_not_mem "nowhere" (by decide), ⟨below, hid ▸ hbelow, hnames.trans hdeclared⟩,
    (ha.invertedTree 4 hfour "mid").trans (congrArg Stop.lift (Option.some.inj htree))⟩

end StoredGraph

end Isolation
