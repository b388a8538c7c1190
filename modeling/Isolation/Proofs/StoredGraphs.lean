import Isolation.Graph.Stored
import Isolation.Proofs.Arrangement
import Isolation.Proofs.Results

/-!
# What is stored for a list of modules

A list of modules is stored in three forms: as nodes, as edges and in an index. This file fixes what
the three forms are for a list without repeated identities, and reads them the way the queries do:

* `indexOf`, `placeOf` -- the index of a list, and the position that it gives; **it leads to where
  the module of an identity stands** (`get?_indexOf_iff`), so no two identities have one position
  (`placeOf_inj`);
* `stored` -- the three forms of a list; a look-up of an identity of the list succeeds
  (`positionOf_of_mem`, `target_of_mem`);
* `arranged_map`, `positions_stored` -- positions are put in the order of their identities;
* **`dependentPositions_stored`** -- the edges that lead to a module come from those that depend on
  it, each of them once; `mem_edges_stored`, `nodup_edges_stored` say it of single edges;
* `build_eq_checks` -- building stores these three forms, unless an identity occurs twice or a
  dependency is unresolved, and examines them then.

Below, what is stored is read through `placeOf` only: a list of positions is always the image of a
list of identities.
-/

namespace Isolation

/-! ## 1. Positions -/

/-- The index of a list of modules: each identity with its position. -/
def indexOf (ms : List Module) : NameMap Nat :=
  Register.ofList (ms.zipIdx.map fun p => (p.1.id, p.2))

/-- The position of an identity; 0 where no module has it. -/
def placeOf (ms : List Module) (id : Identity) : Nat := ((indexOf ms).get? id).getD 0

theorem indexOf_concat (ms : List Module) (m : Module) :
    indexOf (ms ++ [m]) = (indexOf ms).put m.id ms.length := by
  simp only [indexOf, Register.ofList, List.zipIdx_append, List.map_append, List.foldl_append,
    Nat.zero_add]
  rfl

section Places

variable {ms : List Module} (hd : Distinct ms)
include hd

/-- **The index leads from an identity to where its module stands.** -/
theorem get?_indexOf_iff {id : Identity} {i : Nat} :
    (indexOf ms).get? id = some i ↔ ∃ m, ms[i]? = some m ∧ m.id = id := by
  have hids : (ms.zipIdx.map fun p => (p.1.id, p.2)).map Prod.fst = ms.map Module.id := by
    conv_rhs => rw [← List.zipIdx_map_fst 0 ms]
    rw [List.map_map, List.map_map]
    rfl
  rw [indexOf, NameMap.get?_ofList_eq_some_iff (hids ▸ hd), List.mem_map]
  simp only [List.mem_zipIdx_iff_getElem?, Prod.mk.injEq]
  constructor
  · rintro ⟨⟨m, j⟩, hm, hid, rfl⟩
    exact ⟨m, hm, hid⟩
  · rintro ⟨m, hm, hid⟩
    exact ⟨(m, i), hm, hid, rfl⟩

theorem get?_indexOf {m : Module} (hm : m ∈ ms) :
    (indexOf ms).get? m.id = some (placeOf ms m.id) := by
  obtain ⟨i, hi⟩ := List.mem_iff_getElem?.mp hm
  have hget := (get?_indexOf_iff hd).mpr ⟨m, hi, rfl⟩
  rw [placeOf, hget, Option.getD_some]

theorem placeOf_of_getElem? {m : Module} {i : Nat} (hm : ms[i]? = some m) :
    placeOf ms m.id = i := by
  rw [placeOf, (get?_indexOf_iff hd).mpr ⟨m, hm, rfl⟩, Option.getD_some]

theorem getElem?_placeOf {m : Module} (hm : m ∈ ms) : ms[placeOf ms m.id]? = some m := by
  obtain ⟨n, hn, hid⟩ := (get?_indexOf_iff hd).mp (get?_indexOf hd hm)
  rw [hn, List.inj_on_of_nodup_map hd (List.mem_of_getElem? hn) hm hid]

/-- **No two identities have one position.** -/
theorem placeOf_inj {a b : Identity} (ha : a ∈ ms.map Module.id) (hb : b ∈ ms.map Module.id) :
    placeOf ms a = placeOf ms b ↔ a = b := by
  refine ⟨fun h => ?_, fun h => h ▸ rfl⟩
  obtain ⟨m, hm, rfl⟩ := List.mem_map.mp ha
  obtain ⟨n, hn, rfl⟩ := List.mem_map.mp hb
  have hsame := (getElem?_placeOf hd hm).symm.trans (h ▸ getElem?_placeOf hd hn)
  exact congrArg Module.id (Option.some.inj hsame)

theorem mem_map_placeOf {a : Identity} {ids : List Identity} (ha : a ∈ ms.map Module.id)
    (hids : ∀ b ∈ ids, b ∈ ms.map Module.id) : placeOf ms a ∈ ids.map (placeOf ms) ↔ a ∈ ids := by
  rw [List.mem_map]
  constructor
  · rintro ⟨b, hb, hab⟩
    exact (placeOf_inj hd (hids b hb) ha).mp hab ▸ hb
  · exact fun h => ⟨a, h, rfl⟩

theorem has_indexOf_iff {id : Identity} : (indexOf ms).has id = true ↔ id ∈ ms.map Module.id := by
  rw [NameMap.has_eq, Option.isSome_iff_exists, List.mem_map]
  simp only [get?_indexOf_iff hd]
  constructor
  · rintro ⟨i, m, hm, hid⟩
    exact ⟨m, List.mem_of_getElem? hm, hid⟩
  · rintro ⟨m, hm, hid⟩
    obtain ⟨i, hi⟩ := List.mem_iff_getElem?.mp hm
    exact ⟨i, m, hi, hid⟩

/-- The modules in their order stand at the positions in theirs. -/
theorem map_placeOf_ids : (ms.map Module.id).map (placeOf ms) = List.range ms.length := by
  refine List.ext_getElem? fun i => ?_
  rw [List.map_map, List.getElem?_map]
  cases hi : ms[i]? with
  | none =>
    rw [Option.map_none, eq_comm, List.getElem?_eq_none_iff, List.length_range]
    exact List.getElem?_eq_none_iff.mp hi
  | some m =>
    rw [Option.map_some, Function.comp_apply, placeOf_of_getElem? hd hi, eq_comm,
      List.getElem?_range (List.getElem?_eq_some_iff.mp hi).1]

end Places

namespace StoredGraph

/-! ## 2. Look-ups -/

/-- The edges of a module of a list, in the order of its dependencies. -/
def edgesOf (ms : List Module) (m : Module) : List (Nat × Nat) :=
  m.dependencies.map fun d => (placeOf ms m.id, placeOf ms d)

/-- What is stored for a list of modules. -/
def stored (ms : List Module) : StoredGraph := ⟨ms, ms.flatMap (edgesOf ms), indexOf ms⟩

section LookUps

variable {ms : List Module} (hd : Distinct ms)
include hd

theorem nodeAt_placeOf {m : Module} (hm : m ∈ ms) :
    (stored ms).nodeAt (placeOf ms m.id) = .ok m := by
  have hget : (stored ms).nodes[placeOf ms m.id]? = some m := getElem?_placeOf hd hm
  rw [nodeAt, hget]

theorem positionOf_of_mem {id : Identity} (hid : id ∈ ms.map Module.id) :
    (stored ms).positionOf id = .ok (placeOf ms id) := by
  obtain ⟨m, hm, rfl⟩ := List.mem_map.mp hid
  have hget : (stored ms).index.get? m.id = some (placeOf ms m.id) := get?_indexOf hd hm
  rw [positionOf, hget]

theorem lookUp_of_mem {id : Identity} (hid : id ∈ ms.map Module.id) :
    (stored ms).lookUp id = .ok (placeOf ms id) := by
  obtain ⟨m, hm, rfl⟩ := List.mem_map.mp hid
  have hget : (stored ms).index.get? m.id = some (placeOf ms m.id) := get?_indexOf hd hm
  rw [lookUp, hget]

theorem get?_index_of_not_mem {id : Identity} (hid : id ∉ ms.map Module.id) :
    (stored ms).index.get? id = none := by
  rw [← has_indexOf_iff hd, NameMap.has_eq, Option.not_isSome_iff_eq_none] at hid
  exact hid

theorem lookUp_of_not_mem {id : Identity} (hid : id ∉ ms.map Module.id) :
    (stored ms).lookUp id = .error (.fault (.unknownModule id)) := by
  rw [lookUp, get?_index_of_not_mem hd hid]

theorem target_of_mem {n : Module} (hn : n ∈ ms) : (stored ms).target n.id = .ok n := by
  rw [target, positionOf_of_mem hd (List.mem_map_of_mem hn)]
  exact nodeAt_placeOf hd hn

/-! ## 3. Positions in order -/

omit hd in
/-- The ascending list of some names is what sorting makes of them. -/
theorem sortedBy_eq_of_ascending {ids names : List Identity} (hids : ids.Nodup)
    (hnames : names.Pairwise (· < ·)) (hmem : ∀ id, id ∈ ids ↔ id ∈ names) :
    sortedBy compare ids = names := by
  have hlt : (sortedBy compare ids).Pairwise fun a b => compare a b = .lt :=
    pairwise_lt_sortedBy hids
  have hsorted : (sortedBy compare ids).Pairwise fun a b => (id a : String) < id b :=
    hlt.imp fun h => compareOfLessAndEq_eq_lt.mp h
  refine @Register.eq_of_ascending Identity id _ _ hsorted hnames fun a => ?_
  rw [(sortedBy_perm compare ids).mem_iff, hmem]

omit hd in
theorem ascending_names (r : Register Module.id) : r.names.Pairwise (· < ·) :=
  List.pairwise_map.mpr r.ascending

/-- **Positions are put in the order of their identities.** -/
theorem arranged_map {ids : List Identity} (hids : ∀ a ∈ ids, a ∈ ms.map Module.id) :
    (stored ms).arranged (ids.map (placeOf ms)) =
      .ok ((sortedBy compare ids).map (placeOf ms)) := by
  have hkeyed : (ids.map (placeOf ms)).mapM (fun i => do
      return ((← (stored ms).nodeAt i).id, i)) = .ok (ids.map fun a => (a, placeOf ms a)) := by
    refine mapM_map_eq_ok fun a ha => ?_
    obtain ⟨m, hm, rfl⟩ := List.mem_map.mp (hids a ha)
    rw [nodeAt_placeOf hd hm]
    rfl
  rw [arranged, hkeyed]
  show Except.ok ((sortedBy _ (ids.map _)).map Prod.snd) = _
  rw [sortedBy_map, List.map_map]
  rfl

theorem positions_stored : (stored ms).positions =
    .ok ((Register.ofList ms : Register Module.id).names.map (placeOf ms)) := by
  have hmem : ∀ id, id ∈ ms.map Module.id ↔
      id ∈ (Register.ofList ms : Register Module.id).names :=
    fun _ => (Graph.mem_names_ofList hd).symm
  have hsorted := sortedBy_eq_of_ascending hd
    (ascending_names (Register.ofList ms : Register Module.id)) hmem
  rw [positions, show (stored ms).nodes.length = ms.length from rfl, ← map_placeOf_ids hd,
    arranged_map hd fun _ h => h, hsorted]

/-! ## 4. Edges -/

omit hd in
theorem mem_edges_stored {i j : Nat} : (i, j) ∈ (stored ms).edges ↔
    ∃ a d, DependsOn ms a d ∧ placeOf ms a = i ∧ placeOf ms d = j := by
  rw [stored, List.mem_flatMap]
  simp only [edgesOf, List.mem_map, Prod.mk.injEq]
  constructor
  · rintro ⟨m, hm, d, hdep, hi, hj⟩
    exact ⟨m.id, d, ⟨m, hm, rfl, hdep⟩, hi, hj⟩
  · rintro ⟨_, d, ⟨m, hm, rfl, hdep⟩, hi, hj⟩
    exact ⟨m, hm, d, hdep, hi, hj⟩

omit hd in
theorem length_edges_stored : (stored ms).edges.length =
    (ms.map fun m => m.dependencies.length).sum := by
  rw [stored, List.length_flatMap]
  simp only [edgesOf, List.length_map]

/-- **No edge is stored twice.** -/
theorem nodup_edges_stored (hr : Resolved ms) : (stored ms).edges.Nodup := by
  rw [stored, List.nodup_flatMap]
  constructor
  · intro m hm
    refine List.Nodup.map_on (fun d hdep e hdep' h => ?_) m.dependencies_nodup
    exact (placeOf_inj hd (hr m hm d hdep) (hr m hm e hdep')).mp (Prod.mk.inj h).2
  · refine (List.pairwise_map.mp hd).imp_of_mem fun hm hn hne => ?_
    intro p hp hp'
    obtain ⟨d, _, rfl⟩ := List.mem_map.mp hp
    obtain ⟨e, _, he⟩ := List.mem_map.mp hp'
    have hsame := (placeOf_inj hd (List.mem_map_of_mem hn) (List.mem_map_of_mem hm)).mp
      (Prod.mk.inj he).1
    exact hne hsame.symm

/-- One edge leads from a module to each of its dependencies. -/
theorem sources_edgesOf (hr : Resolved ms) {m : Module} (hm : m ∈ ms) {id : Identity}
    (hid : id ∈ ms.map Module.id) :
    ((edgesOf ms m).filter fun e => e.2 == placeOf ms id).map Prod.fst =
      if m.dependsOn id then [placeOf ms m.id] else [] := by
  have hsame : m.dependencies.filter ((fun e : Nat × Nat => e.2 == placeOf ms id) ∘
      fun d => (placeOf ms m.id, placeOf ms d)) = m.dependencies.filter fun d => d == id := by
    refine List.filter_congr fun d hdep => ?_
    rw [Function.comp_apply, Bool.eq_iff_iff, beq_iff_eq, beq_iff_eq,
      placeOf_inj hd (hr m hm d hdep) hid]
  rw [edgesOf, List.filter_map, hsame, List.filter_beq, List.map_map, Module.dependsOn]
  by_cases hdep : id ∈ m.dependencies
  · rw [List.count_eq_one_of_mem m.dependencies_nodup hdep, List.contains_iff_mem.mpr hdep]
    rfl
  · rw [List.count_eq_zero.mpr hdep, if_neg (by rwa [List.contains_iff_mem])]
    rfl

/-- **The edges that lead to a module come from those that depend on it.** -/
theorem sources_stored (hr : Resolved ms) {id : Identity} (hid : id ∈ ms.map Module.id) :
    (((stored ms).edges.reverse.filter fun e => e.2 == placeOf ms id).map Prod.fst) =
      (((ms.filter fun m => m.dependsOn id).map Module.id).reverse).map (placeOf ms) := by
  have key : ∀ l : List Module, (∀ m ∈ l, m ∈ ms) →
      ((l.flatMap (edgesOf ms)).filter fun e => e.2 == placeOf ms id).map Prod.fst =
        ((l.filter fun m => m.dependsOn id).map Module.id).map (placeOf ms) := by
    intro l
    induction l with
    | nil => exact fun _ => rfl
    | cons m l ih =>
      intro hl
      obtain ⟨hm, hl⟩ := List.forall_mem_cons.mp hl
      rw [List.flatMap_cons, List.filter_append, List.map_append, sources_edgesOf hd hr hm hid,
        ih hl, List.filter_cons]
      split <;> rfl
  rw [List.filter_reverse, List.map_reverse, List.map_reverse]
  exact congrArg List.reverse (key ms fun _ h => h)

/-- The identities that depend on one, in ascending order. -/
def dependentsIn (modules : Register Module.id) (id : Identity) : List Identity :=
  (modules.toList.filter fun m => m.dependsOn id).map Module.id

/-- **What depends on a module directly is found through the edges**, each module once. -/
theorem dependentPositions_stored (hr : Resolved ms) {id : Identity}
    (hid : id ∈ ms.map Module.id) : (stored ms).dependentPositions (placeOf ms id) =
      .ok ((dependentsIn (Register.ofList ms) id).map (placeOf ms)) := by
  have hsources : ((ms.filter fun m => m.dependsOn id).map Module.id).Sublist (ms.map Module.id) :=
    List.filter_sublist.map Module.id
  have hascending : (dependentsIn (Register.ofList ms) id).Pairwise (· < ·) :=
    (ascending_names (Register.ofList ms)).sublist (List.filter_sublist.map Module.id)
  have hmem : ∀ a, a ∈ ((ms.filter fun m => m.dependsOn id).map Module.id).reverse ↔
      a ∈ dependentsIn (Register.ofList ms) id := by
    intro a
    rw [List.mem_reverse, dependentsIn, List.mem_map, List.mem_map]
    simp only [List.mem_filter, ← Register.mem_def, Register.mem_ofList_of_nodup hd]
  have hsorted := sortedBy_eq_of_ascending (List.nodup_reverse.mpr (hd.sublist hsources))
    hascending hmem
  have hknown : ∀ a ∈ dependentsIn (Register.ofList ms) id, a ∈ ms.map Module.id := fun a ha =>
    hsources.subset (List.mem_reverse.mp ((hmem a).mpr ha))
  have hnodup : ((dependentsIn (Register.ofList ms) id).map (placeOf ms)).Nodup := by
    refine List.Nodup.map_on (fun a ha b hb h => ?_) (hascending.imp fun h => ?_)
    · exact (placeOf_inj hd (hknown a ha) (hknown b hb)).mp h
    · exact fun e => String.lt_irrefl _ (e ▸ h)
  rw [dependentPositions, sources_stored hd hr hid,
    arranged_map hd fun a ha => hsources.subset (List.mem_reverse.mp ha), hsorted]
  exact congrArg Except.ok (eraseReps_of_nodup hnodup)

end LookUps

/-! ## 5. Filling the three forms -/

/-- The nodes that were added, or the fault of the first identity that was there before. -/
theorem foldlM_addNode (ms : List Module) {before : List Module} {seen : List Identity}
    (hd : Distinct before) (hseen : ∀ id, id ∈ seen ↔ id ∈ before.map Module.id) :
    ms.foldlM addNode ⟨before, [], indexOf before⟩ =
      match Graph.firstDuplicate? seen (ms.map Module.id) with
      | some id => .error (.fault (.duplicateModule id))
      | none => .ok ⟨before ++ ms, [], indexOf (before ++ ms)⟩ := by
  induction ms generalizing before seen with
  | nil =>
    rw [List.append_nil]
    rfl
  | cons m ms ih =>
    rw [List.foldlM_cons, List.map_cons, addNode]
    by_cases hm : m.id ∈ seen
    · have hhas := (has_indexOf_iff hd).mpr ((hseen m.id).mp hm)
      rw [if_pos hhas, Graph.firstDuplicate?_cons_of_mem hm]
      rfl
    · have hnot : m.id ∉ before.map Module.id := fun h => hm ((hseen m.id).mpr h)
      have hhas : ¬ (indexOf before).has m.id = true := fun h => hnot ((has_indexOf_iff hd).mp h)
      have hd' : Distinct (before ++ [m]) := by
        rw [Distinct, List.map_append, List.map_singleton, List.nodup_append]
        exact ⟨hd, List.nodup_singleton _, fun a ha b hb e =>
          hnot (List.mem_singleton.mp hb ▸ e ▸ ha)⟩
      have hseen' : ∀ id, id ∈ m.id :: seen ↔ id ∈ (before ++ [m]).map Module.id := by
        intro id
        rw [List.map_append, List.mem_append, List.mem_cons, hseen, or_comm, List.map_singleton,
          List.mem_singleton]
      have hrest := ih hd' hseen'
      rw [List.append_assoc, List.singleton_append, indexOf_concat] at hrest
      rw [if_neg hhas, Graph.firstDuplicate?_cons_of_not_mem hm]
      exact hrest

section Edges

variable {ms : List Module} (hd : Distinct ms)
include hd

/-- The edges of one module that were added, or the fault of its first unresolved dependency. -/
theorem foldlM_addEdge (m : Module) (i : Nat) (ds : List Identity) (edges : List (Nat × Nat)) :
    ds.foldlM (addEdge m i) ⟨ms, edges, indexOf ms⟩ =
      match ds.find? fun d => !(Register.ofList ms : Register Module.id).has d with
      | some d => .error (.fault (.unresolvedDependency m.id d))
      | none => .ok ⟨ms, edges ++ ds.map fun d => (i, placeOf ms d), indexOf ms⟩ := by
  induction ds generalizing edges with
  | nil =>
    rw [List.map_nil, List.append_nil]
    rfl
  | cons d ds ih =>
    rw [List.foldlM_cons, addEdge, List.find?_cons]
    by_cases hdep : d ∈ ms.map Module.id
    · obtain ⟨n, hn, rfl⟩ := List.mem_map.mp hdep
      rw [(Graph.has_ofList_iff hd).mpr hdep, show (StoredGraph.index ⟨ms, edges, indexOf ms⟩).get?
        n.id = some (placeOf ms n.id) from get?_indexOf hd hn]
      refine (ih _).trans ?_
      rw [List.append_assoc]
      rfl
    · have hnone : (indexOf ms).get? d = none := get?_index_of_not_mem hd hdep
      have hhas : (Register.ofList ms : Register Module.id).has d = false :=
        Bool.eq_false_iff.mpr fun h => hdep ((Graph.has_ofList_iff hd).mp h)
      rw [hhas, show (StoredGraph.index ⟨ms, edges, indexOf ms⟩).get? d = none from hnone]
      rfl

/-- The edges of modules that were added, or the fault of the first unresolved dependency. -/
theorem foldlM_addEdges {l : List Module} (hl : ∀ m ∈ l, m ∈ ms) (edges : List (Nat × Nat)) :
    l.foldlM addEdges ⟨ms, edges, indexOf ms⟩ =
      match Graph.firstUnresolved? (Register.ofList ms) l with
      | some (m, d) => .error (.fault (.unresolvedDependency m.id d))
      | none => .ok ⟨ms, edges ++ l.flatMap (edgesOf ms), indexOf ms⟩ := by
  induction l generalizing edges with
  | nil =>
    rw [List.flatMap_nil, List.append_nil]
    rfl
  | cons m l ih =>
    obtain ⟨hm, hl⟩ := List.forall_mem_cons.mp hl
    have hplace : positionOf ⟨ms, edges, indexOf ms⟩ m.id = .ok (placeOf ms m.id) :=
      positionOf_of_mem hd (List.mem_map_of_mem hm)
    have hedges := foldlM_addEdge hd m (placeOf ms m.id) m.dependencies edges
    rw [List.foldlM_cons, addEdges, hplace, Graph.firstUnresolved?]
    show (List.foldlM (addEdge m (placeOf ms m.id)) _ m.dependencies >>= _) = _
    rw [hedges]
    cases m.dependencies.find? fun d => !(Register.ofList ms : Register Module.id).has d with
    | some d => rfl
    | none =>
      refine (ih hl _).trans ?_
      rw [List.flatMap_cons, List.append_assoc]
      rfl

end Edges

/-- **What building stores and then examines**, where no identity occurs twice and no dependency is
    unresolved. -/
theorem build_eq_checks (ms : List Module) : build ms =
    match Graph.firstDuplicate? [] (ms.map Module.id) with
    | some id => .error (.fault (.duplicateModule id))
    | none =>
      match Graph.firstUnresolved? (Register.ofList ms) ms with
      | some (m, d) => .error (.fault (.unresolvedDependency m.id d))
      | none => do
        (stored ms).checkAcyclic
        (stored ms).checkTiers
        return stored ms := by
  have hempty : Distinct [] := List.nodup_nil
  have hseen : ∀ id : Identity, id ∈ [] ↔ id ∈ ([] : List Module).map Module.id := fun _ => Iff.rfl
  have hnodes := foldlM_addNode ms hempty hseen
  rw [build, show (⟨[], [], Register.empty⟩ : StoredGraph) = ⟨[], [], indexOf []⟩ from rfl, hnodes]
  cases hdup : Graph.firstDuplicate? [] (ms.map Module.id) with
  | some id => rfl
  | none =>
    have hd := Graph.firstDuplicate?_eq_none_iff_distinct.mp hdup
    have hedges := foldlM_addEdges hd (fun _ h => h) []
    show (List.foldlM addEdges ⟨ms, [], indexOf ms⟩ ms >>= _) = _
    rw [hedges]
    cases Graph.firstUnresolved? (Register.ofList ms) ms with
    | some p => rfl
    | none => rfl

end StoredGraph

end Isolation
