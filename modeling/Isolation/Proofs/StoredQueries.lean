import Isolation.Proofs.Closures
import Isolation.Proofs.Paths
import Isolation.Proofs.Reversal
import Isolation.Proofs.StoredChecks

/-!
# The queries of what is stored

A stored graph answers its queries from nodes, edges and index. This file shows for each of them
that it has the answer of the graph that was built from the same list of modules. Every answer is a
`Stop.lift`, **so no look-up fails on the way and no walk comes to its limit**.

* `get?_stored`, `modules_stored`, `dependenciesOf_stored`, `dependentsOf_stored` -- modules;
* `siblings_written` -- lines are written below one another as they are listed, whatever writes one
  sibling; from it `tree_stored` and `invertedTree_stored`, by induction on the depth of calls that
  is left;
* `search_stored`, `path?_stored` -- a search over positions finds the path that the search over
  identities finds;
* `exists_visit`, `closure_stored` -- a visit along the edges comes to all that can be reached, in
  as many steps as there are edges, and the names of what it visits are the closure.

NOT here: counts, and what the answers are in terms of the list.
-/

namespace Isolation

namespace StoredGraph

section Queries

variable {ms : List Module} {g : Graph} (h : Graph.build ms = .ok g)
include h

/-! ## 1. A graph and what is stored for it -/

theorem nodeAt_of_get? {id : Identity} {m : Module} (hm : g.get? id = some m) :
    (stored ms).nodeAt (placeOf ms id) = .ok m := by
  obtain ⟨hd, _⟩ := Graph.build_eq_ok_iff_modules.mp h
  obtain ⟨hmem, rfl⟩ := (Graph.get?_eq_some_iff_of_build h).mp hm
  exact nodeAt_placeOf hd hmem

theorem positionOf_of_known {id : Identity} (hid : g.Known id) :
    (stored ms).positionOf id = .ok (placeOf ms id) := by
  obtain ⟨hd, _⟩ := Graph.build_eq_ok_iff_modules.mp h
  exact positionOf_of_mem hd ((Graph.known_iff_of_build h).mp hid)

theorem lookUp_of_known {id : Identity} (hid : g.Known id) :
    (stored ms).lookUp id = .ok (placeOf ms id) := by
  obtain ⟨hd, _⟩ := Graph.build_eq_ok_iff_modules.mp h
  exact lookUp_of_mem hd ((Graph.known_iff_of_build h).mp hid)

theorem lookUp_of_not_known {id : Identity} (hid : ¬ g.Known id) :
    (stored ms).lookUp id = .error (.fault (.unknownModule id)) := by
  obtain ⟨hd, _⟩ := Graph.build_eq_ok_iff_modules.mp h
  exact lookUp_of_not_mem hd (mt (Graph.known_iff_of_build h).mpr hid)

theorem mem_map_placeOf_of_known {a : Identity} {ids : List Identity} (ha : g.Known a)
    (hids : ∀ b ∈ ids, g.Known b) : placeOf ms a ∈ ids.map (placeOf ms) ↔ a ∈ ids := by
  obtain ⟨hd, _⟩ := Graph.build_eq_ok_iff_modules.mp h
  exact mem_map_placeOf hd ((Graph.known_iff_of_build h).mp ha) fun b hb =>
    (Graph.known_iff_of_build h).mp (hids b hb)

theorem dependentPositions_of_known {id : Identity} (hid : g.Known id) :
    (stored ms).dependentPositions (placeOf ms id) =
      .ok ((g.dependentIds id).map (placeOf ms)) := by
  obtain ⟨hd, hr, _, hmodules⟩ := Graph.build_eq_ok_iff_modules.mp h
  rw [dependentPositions_stored hd hr ((Graph.known_iff_of_build h).mp hid), ← hmodules]
  rfl

/-! ## 2. Modules -/

omit h in
theorem tier_le_topTier {id : Identity} (hid : g.Known id) : g.tier id ≤ g.topTier := by
  obtain ⟨m, hm⟩ := hid
  rw [Graph.tier_of_get? hm]
  exact g.tier_le_topTier (Graph.mem_of_get? hm)

theorem get?_stored (id : Identity) : (stored ms).get? id = .ok (g.get? id) := by
  obtain ⟨hd, _⟩ := Graph.build_eq_ok_iff_modules.mp h
  rw [get?]
  by_cases hid : g.Known id
  · obtain ⟨m, hm⟩ := hid
    obtain ⟨hmem, rfl⟩ := (Graph.get?_eq_some_iff_of_build h).mp hm
    have hindex : (stored ms).index.get? m.id = some (placeOf ms m.id) := get?_indexOf hd hmem
    rw [hindex]
    dsimp only
    rw [nodeAt_of_get? h hm, hm]
    rfl
  · rw [get?_index_of_not_mem hd (mt (Graph.known_iff_of_build h).mpr hid),
      Graph.get?_of_not_known hid]

/-- The modules at some positions are those of their identities. -/
theorem mapM_nodeAt {ids : List Identity} (hids : ∀ a ∈ ids, g.Known a) :
    (ids.map (placeOf ms)).mapM (stored ms).nodeAt = .ok (g.modulesOf ids) := by
  rw [List.mapM_map]
  refine mapM_eq_filterMap fun a ha => ?_
  obtain ⟨m, hm⟩ := hids a ha
  exact ⟨m, nodeAt_of_get? h hm, hm⟩

theorem mapM_target {ids : List Identity} (hids : ∀ a ∈ ids, g.Known a) :
    ids.mapM (stored ms).target = .ok (g.modulesOf ids) := by
  refine mapM_eq_filterMap fun a ha => ?_
  obtain ⟨m, hm⟩ := hids a ha
  refine ⟨m, ?_, hm⟩
  rw [target, positionOf_of_known h ⟨m, hm⟩, ok_bind, nodeAt_of_get? h hm]

theorem modules_stored : (stored ms).modules = .ok g.modules.toList := by
  obtain ⟨hd, _, _, hmodules⟩ := Graph.build_eq_ok_iff_modules.mp h
  have hnodes : ∀ m ∈ g.modules.toList,
      (stored ms).nodeAt ((placeOf ms ∘ Module.id) m) = .ok (id m) := fun m hm =>
    nodeAt_of_get? h (Register.find?_eq_some_iff.mpr ⟨hm, rfl⟩)
  rw [modules, positions_stored hd, ok_bind, ← hmodules, Register.names, List.map_map,
    mapM_map_eq_ok hnodes, List.map_id]

omit h in
theorem dependencies_known {id : Identity} {m : Module} (hm : g.get? id = some m) :
    ∀ d ∈ m.dependencies, g.Known d := fun _ hd =>
  Graph.known_of_mem_dependencyIds (Graph.mem_dependencyIds.mpr ⟨m, hm, hd⟩)

theorem dependenciesOf_stored (id : Identity) :
    (stored ms).dependenciesOf id = Stop.lift (g.dependenciesOf id) := by
  rw [dependenciesOf, Graph.dependenciesOf, Graph.lookUp]
  by_cases hid : g.Known id
  · obtain ⟨m, hm⟩ := hid
    have hid : g.Known id := ⟨m, hm⟩
    rw [lookUp_of_known h hid, ok_bind, nodeAt_of_get? h hm, ok_bind, hm,
      mapM_target h (dependencies_known hm)]
    rfl
  · rw [lookUp_of_not_known h hid, Graph.get?_of_not_known hid]
    rfl

theorem dependentsOf_stored (id : Identity) :
    (stored ms).dependentsOf id = Stop.lift (g.dependentsOf id) := by
  by_cases hid : g.Known id
  · obtain ⟨m, hm⟩ := hid
    have hid : g.Known id := ⟨m, hm⟩
    rw [dependentsOf, lookUp_of_known h hid, ok_bind, dependentPositions_of_known h hid, ok_bind,
      mapM_nodeAt h fun a ha => Graph.known_of_mem_dependentIds ha, Graph.dependentsOf_of_get? hm]
    rfl
  · rw [dependentsOf, lookUp_of_not_known h hid, Graph.dependentsOf, Graph.lookUp,
      Graph.get?_of_not_known hid]
    rfl

/-! ## 3. Trees -/

/-- Entries as lines of text, and identities as positions. -/
def written (ms : List Module) (g : Graph) (st : List (Entry Identity) × List Identity) :
    String × List Nat :=
  (String.join (st.1.map (Entry.text g.label)), st.2.map (placeOf ms))

omit h in
theorem line_of_get? {id : Identity} {m : Module} (hm : g.get? id = some m) (lasts : List Bool)
    (repeated : Bool) : line m lasts repeated =
      String.join ([⟨id, lasts, repeated⟩].map (Entry.text g.label)) := by
  have hlabel : g.label id = m.label := by
    rw [Graph.label, hm]
  rw [line, Entry.text, List.map_singleton, String.join_cons, Entry.text, hlabel]
  exact String.append_empty.symm

/-- `f` writes each of some identities, given as `φ` has it, as `F` lists it; and what `F` notes is
    known. -/
def Writes {α : Type} (ms : List Module) (g : Graph)
    (f : List Nat → List Bool → α → Except Stop (String × List Nat))
    (F : List Identity → List Bool → Identity → List (Entry Identity) × List Identity)
    (φ : Identity → α) (cs : List Identity) : Prop :=
  ∀ c ∈ cs, ∀ expanded lasts, (∀ x ∈ expanded, g.Known x) →
    f (expanded.map (placeOf ms)) lasts (φ c) = .ok (written ms g (F expanded lasts c)) ∧
      ∀ x ∈ (F expanded lasts c).2, g.Known x

omit h in
/-- **Siblings are written as they are listed**, when each of them is. -/
theorem siblings_written {α : Type} {f : List Nat → List Bool → α → Except Stop (String × List Nat)}
    {F : List Identity → List Bool → Identity → List (Entry Identity) × List Identity}
    {φ : Identity → α} {cs : List Identity} (hf : Writes ms g f F φ cs) (lasts : List Bool)
    (st : List (Entry Identity) × List Identity) (hst : ∀ x ∈ st.2, g.Known x) :
    siblings f lasts (cs.map φ) (written ms g st) =
        .ok (written ms g (Branching.siblings F lasts cs st)) ∧
      ∀ x ∈ (Branching.siblings F lasts cs st).2, g.Known x := by
  rw [siblings, markLast_map, List.foldlM_map, Branching.siblings]
  refine foldlM_eq_ok (written ms g) (fun st => ∀ x ∈ st.2, g.Known x) ?_ hst
  intro c hc st hst
  obtain ⟨hsub, hknown⟩ := hf c.1 (mem_of_mem_markLast hc) st.2 (lasts ++ [c.2]) hst
  refine ⟨?_, hknown⟩
  show (f (st.2.map (placeOf ms)) _ (φ c.1) >>= _) = _
  rw [hsub, ok_bind]
  simp only [written, List.map_append, String.join_append]
  rfl

/-- **The lines below a dependency**, by induction on the depth that is left. -/
theorem subtree_stored {limit : Option Nat} {n : Nat} {a : Identity} {expanded : List Identity}
    {lasts : List Bool} (hn : g.tier a < n) (ha : g.Known a) (he : ∀ x ∈ expanded, g.Known x) :
    (stored ms).subtree limit n (expanded.map (placeOf ms)) lasts a =
        .ok (written ms g (g.downward.entriesFrom limit expanded lasts a)) ∧
      ∀ x ∈ (g.downward.entriesFrom limit expanded lasts a).2, g.Known x := by
  induction n generalizing a expanded lasts with
  | zero => exact absurd hn (Nat.not_lt_zero _)
  | succ n ih =>
    obtain ⟨m, hm⟩ := ha
    have ha : g.Known a := ⟨m, hm⟩
    have hchildren : g.downward.children a = m.dependencies := Graph.dependencyIds_of_get? hm
    have hwrites : Writes ms g ((stored ms).subtree limit n) (g.downward.entriesFrom limit) id
        m.dependencies := by
      intro d hd e lasts he
      have hfalls := g.downward.falls a d (hchildren ▸ hd)
      exact ih (Nat.lt_of_lt_of_le hfalls (Nat.le_of_lt_succ hn)) (dependencies_known hm d hd) he
    have hsiblings := siblings_written hwrites lasts ([⟨a, lasts, false⟩], a :: expanded)
      (List.forall_mem_cons.mpr ⟨ha, he⟩)
    have hmem := mem_map_placeOf_of_known h ha he
    rw [subtree, positionOf_of_known h ha, ok_bind, nodeAt_of_get? h hm, ok_bind,
      Branching.entriesFrom_eq, hchildren, line_of_get? hm, line_of_get? hm]
    by_cases hagain : m.dependencies ≠ [] ∧ a ∈ expanded
    · rw [if_pos ⟨hagain.1, hmem.mpr hagain.2⟩, if_pos hagain]
      exact ⟨rfl, he⟩
    · rw [if_neg fun hc => hagain ⟨hc.1, hmem.mp hc.2⟩, if_neg hagain]
      split
      · exact ⟨rfl, he⟩
      · rw [List.map_id] at hsiblings
        exact hsiblings

theorem tree_stored {n : Nat} (hn : g.topTier < n) (id : Identity) (limit : Option Nat) :
    (stored ms).tree n id limit = Stop.lift (g.tree id limit) := by
  by_cases hid : g.Known id
  · obtain ⟨m, hm⟩ := hid
    have hid : g.Known id := ⟨m, hm⟩
    have hchildren : g.downward.children id = m.dependencies := Graph.dependencyIds_of_get? hm
    have hwrites : Writes ms g ((stored ms).subtree limit n) (g.downward.entriesFrom limit)
        (fun d => d) m.dependencies := by
      intro d hd e lasts he
      have hknown := dependencies_known hm d hd
      exact subtree_stored h (Nat.lt_of_le_of_lt (tier_le_topTier hknown) hn) hknown he
    have hsiblings := siblings_written hwrites [] ([⟨id, [], false⟩], [id])
      (List.forall_mem_singleton.mpr hid)
    rw [List.map_id'] at hsiblings
    rw [tree, lookUp_of_known h hid, ok_bind, nodeAt_of_get? h hm, ok_bind, line_of_get? hm,
      Graph.tree_of_get? hm, Branching.drawing, Branching.outline_eq_siblings, hchildren]
    exact congrArg (Functor.map Prod.fst) hsiblings.1
  · rw [tree, lookUp_of_not_known h hid, Graph.tree, Graph.lookUp, Graph.get?_of_not_known hid]
    rfl

/-- **The lines below a dependent**, by induction on the depth that is left. -/
theorem invertedSubtree_stored {n : Nat} {a : Identity} {expanded : List Identity}
    {lasts : List Bool} (hn : g.upward.rank a < n) (ha : g.Known a)
    (he : ∀ x ∈ expanded, g.Known x) :
    (stored ms).invertedSubtree n (expanded.map (placeOf ms)) lasts (placeOf ms a) =
        .ok (written ms g (g.upward.fullEntriesFrom expanded lasts a)) ∧
      ∀ x ∈ (g.upward.fullEntriesFrom expanded lasts a).2, g.Known x := by
  induction n generalizing a expanded lasts with
  | zero => exact absurd hn (Nat.not_lt_zero _)
  | succ n ih =>
    obtain ⟨m, hm⟩ := ha
    have ha : g.Known a := ⟨m, hm⟩
    have hwrites : Writes ms g ((stored ms).invertedSubtree n) g.upward.fullEntriesFrom (placeOf ms)
        (g.dependentIds a) := by
      intro p hp e lasts he
      have hfalls := g.upward.falls a p hp
      exact ih (Nat.lt_of_lt_of_le hfalls (Nat.le_of_lt_succ hn))
        (Graph.known_of_mem_dependentIds hp) he
    have hsiblings := siblings_written hwrites lasts ([⟨a, lasts, false⟩], a :: expanded)
      (List.forall_mem_cons.mpr ⟨ha, he⟩)
    have hmem := mem_map_placeOf_of_known h ha he
    have hchildren : g.upward.children a = g.dependentIds a := rfl
    rw [invertedSubtree, nodeAt_of_get? h hm, ok_bind, dependentPositions_of_known h ha, ok_bind,
      Branching.fullEntriesFrom_eq, hchildren, line_of_get? hm, line_of_get? hm]
    by_cases hleaf : g.dependentIds a = []
    · rw [if_pos (List.map_eq_nil_iff.mpr hleaf), if_pos hleaf]
      exact ⟨rfl, he⟩
    · rw [if_neg (mt List.map_eq_nil_iff.mp hleaf), if_neg hleaf]
      by_cases hagain : a ∈ expanded
      · rw [if_pos (hmem.mpr hagain), if_pos hagain]
        exact ⟨rfl, he⟩
      · rw [if_neg (mt hmem.mp hagain), if_neg hagain]
        exact hsiblings

theorem invertedTree_stored {n : Nat} (hn : g.topTier < n) (id : Identity) :
    (stored ms).invertedTree n id = Stop.lift (g.invertedTree id) := by
  by_cases hid : g.Known id
  · obtain ⟨m, hm⟩ := hid
    have hid : g.Known id := ⟨m, hm⟩
    have hwrites : Writes ms g ((stored ms).invertedSubtree n) g.upward.fullEntriesFrom (placeOf ms)
        (g.dependentIds id) := by
      intro p hp e lasts he
      exact invertedSubtree_stored h (Nat.lt_of_le_of_lt (Nat.sub_le _ _) hn)
        (Graph.known_of_mem_dependentIds hp) he
    have hsiblings := siblings_written hwrites [] ([⟨id, [], false⟩], [id])
      (List.forall_mem_singleton.mpr hid)
    rw [invertedTree, lookUp_of_known h hid, ok_bind, nodeAt_of_get? h hm, ok_bind,
      dependentPositions_of_known h hid, ok_bind, line_of_get? hm, Graph.invertedTree_of_get? hm,
      Branching.fullDrawing, Branching.fullOutline_eq_siblings]
    exact congrArg (Functor.map Prod.fst) hsiblings.1
  · rw [invertedTree, lookUp_of_not_known h hid, Graph.invertedTree, Graph.lookUp,
      Graph.get?_of_not_known hid]
    rfl

/-! ## 4. Paths -/

/-- A search over identities as one over positions. -/
def searched (ms : List Module) : Branching.Search Identity → Branching.Search Nat
  | .found p => .found (p.map (placeOf ms))
  | .exhausted failed => .exhausted (failed.map (placeOf ms))

/-- What failed in a search is known. -/
def FailedKnown (g : Graph) : Branching.Search Identity → Prop
  | .found _ => True
  | .exhausted failed => ∀ x ∈ failed, g.Known x

/-- One more dependency is tried as over identities, when the search from it on is. -/
theorem tryNext_stored {f : List Nat → Nat → Except Stop (Branching.Search Nat)}
    {F : List Identity → Identity → Branching.Search Identity} {d : Identity} (hd : g.Known d)
    (hf : ∀ failed, (∀ x ∈ failed, g.Known x) →
      f (failed.map (placeOf ms)) (placeOf ms d) = .ok (searched ms (F failed d)) ∧
        FailedKnown g (F failed d))
    {found : Branching.Search Identity} (hfound : FailedKnown g found) :
    (stored ms).tryNext f (searched ms found) d =
        .ok (searched ms (Branching.Search.next F found d)) ∧
      FailedKnown g (Branching.Search.next F found d) := by
  cases found with
  | found p => exact ⟨rfl, trivial⟩
  | exhausted failed =>
    show ((stored ms).positionOf d >>= _) = _ ∧ _
    rw [positionOf_of_known h hd, ok_bind]
    exact hf failed hfound

/-- **A search from a known identity on**, by induction on the depth that is left. -/
theorem search_stored {target : Identity} (ht : g.Known target) {n : Nat} {a : Identity}
    {failed : List Identity} (hn : g.tier a < n) (ha : g.Known a)
    (hf : ∀ x ∈ failed, g.Known x) :
    (stored ms).search (placeOf ms target) n (failed.map (placeOf ms)) (placeOf ms a) =
        .ok (searched ms (g.downward.search target failed a)) ∧
      FailedKnown g (g.downward.search target failed a) := by
  obtain ⟨hd, _⟩ := Graph.build_eq_ok_iff_modules.mp h
  induction n generalizing a failed with
  | zero => exact absurd hn (Nat.not_lt_zero _)
  | succ n ih =>
    obtain ⟨m, hm⟩ := ha
    have ha : g.Known a := ⟨m, hm⟩
    have hchildren : g.downward.children a = m.dependencies := Graph.dependencyIds_of_get? hm
    have hsame : placeOf ms a = placeOf ms target ↔ a = target :=
      placeOf_inj hd ((Graph.known_iff_of_build h).mp ha) ((Graph.known_iff_of_build h).mp ht)
    have hmem := mem_map_placeOf_of_known h ha hf
    rw [search, Branching.search_eq, hchildren]
    by_cases hat : a = target
    · rw [if_pos (hsame.mpr hat), if_pos hat]
      exact ⟨rfl, trivial⟩
    · rw [if_neg (mt hsame.mp hat), if_neg hat]
      by_cases hfailed : a ∈ failed
      · rw [if_pos (hmem.mpr hfailed), if_pos hfailed]
        exact ⟨rfl, hf⟩
      · have hnext : ∀ d ∈ m.dependencies, ∀ found, FailedKnown g found →
            (stored ms).tryNext ((stored ms).search (placeOf ms target) n) (searched ms found) d =
                .ok (searched ms (Branching.Search.next (g.downward.search target) found d)) ∧
              FailedKnown g (Branching.Search.next (g.downward.search target) found d) := by
          intro d hd found hfound
          have hknown := dependencies_known hm d hd
          have hfalls := g.downward.falls a d (hchildren ▸ hd)
          exact tryNext_stored h hknown
            (fun _ hf => ih (Nat.lt_of_lt_of_le hfalls (Nat.le_of_lt_succ hn)) hknown hf) hfound
        have hstart : FailedKnown g (.exhausted (a :: failed)) := List.forall_mem_cons.mpr ⟨ha, hf⟩
        have hbelow := foldlM_eq_ok (searched ms) (FailedKnown g) hnext hstart
        rw [if_neg (mt hmem.mp hfailed), if_neg hfailed, nodeAt_of_get? h hm, ok_bind]
        obtain ⟨hrest, hknown⟩ := hbelow
        refine ⟨(congrArg (· >>= _) hrest).trans ?_, ?_⟩
        · rw [ok_bind]
          cases m.dependencies.foldl (Branching.Search.next (g.downward.search target))
            (.exhausted (a :: failed)) <;> rfl
        · revert hknown
          cases m.dependencies.foldl (Branching.Search.next (g.downward.search target))
            (.exhausted (a :: failed)) <;> exact id

theorem path?_stored {n : Nat} (hn : g.topTier < n) (start target : Identity) :
    (stored ms).path? n start target = Stop.lift (g.path? start target) := by
  by_cases hs : g.Known start
  · by_cases ht : g.Known target
    · obtain ⟨m, hm⟩ := hs
      have hs : g.Known start := ⟨m, hm⟩
      obtain ⟨k, hk⟩ := ht
      have ht : g.Known target := ⟨k, hk⟩
      have hnone : ∀ x ∈ ([] : List Identity), g.Known x := fun _ hx =>
        absurd hx List.not_mem_nil
      have hsearch :=
        (search_stored h ht (Nat.lt_of_le_of_lt (tier_le_topTier hs) hn) hs hnone).1
      rw [path?, lookUp_of_known h hs, ok_bind, lookUp_of_known h ht, ok_bind,
        Graph.path?_of_get? hm hk, Branching.path?]
      refine (congrArg (· >>= _) hsearch).trans ?_
      rw [ok_bind]
      cases hfound : g.downward.search target [] start with
      | exhausted failed => rfl
      | found p =>
        have hp : ∀ x ∈ p, g.Known x := by
          intro x hx
          rcases Branching.mem_of_search_eq_found hfound x hx with rfl | hbelow
          · exact hs
          · exact Graph.exists_get?_of_below hbelow
        dsimp only [searched]
        rw [mapM_nodeAt h hp]
        rfl
    · rw [path?, lookUp_of_known h hs, ok_bind, lookUp_of_not_known h ht, Graph.path?, Graph.lookUp,
        Graph.lookUp, Graph.get?_of_not_known ht]
      obtain ⟨m, hm⟩ := hs
      have hs : g.Known start := ⟨m, hm⟩
      rw [hm]
      rfl
  · rw [path?, lookUp_of_not_known h hs, Graph.path?, Graph.lookUp, Graph.get?_of_not_known hs]
    rfl

end Queries

/-! ## 5. Closures -/

section Visits

variable {s : StoredGraph} {i j n : Nat} {waiting visited : List Nat}

/-- What can be reached along edges. -/
def Reaches (s : StoredGraph) : Nat → Nat → Prop :=
  Relation.ReflTransGen fun i j => (i, j) ∈ s.edges

/-- Where a visit of all that can be reached from `i` stands. -/
structure Visiting (s : StoredGraph) (i : Nat) (waiting visited : List Nat) : Prop where
  reached : ∀ j, j ∈ visited ∨ j ∈ waiting → s.Reaches i j
  start : i ∈ visited ∨ i ∈ waiting
  /-- What edges lead to from a position that was visited was visited too, or waits. -/
  frontier : ∀ j ∈ visited, ∀ k, (j, k) ∈ s.edges → k ∈ visited ∨ k ∈ waiting

theorem mem_successors : j ∈ s.successors i ↔ (i, j) ∈ s.edges := by
  rw [successors, List.mem_map]
  simp only [List.mem_filter, beq_iff_eq]
  constructor
  · rintro ⟨⟨_, _⟩, ⟨he, rfl⟩, rfl⟩
    exact he
  · exact fun h => ⟨(i, j), ⟨h, rfl⟩, rfl⟩

/-- At most so many steps are left: one for each position that waits and one for each edge from a
    position that was not visited. -/
def visitsLeft (s : StoredGraph) (waiting visited : List Nat) : Nat :=
  waiting.length + (s.edges.filter fun e => e.1 ∉ visited).length

/-- The edges from a position that is visited are no longer ahead. -/
theorem visitsLeft_of_not_mem (hi : i ∉ visited) :
    s.visitsLeft ((s.successors i).filter (· ∉ i :: visited) ++ waiting) (i :: visited) <
      s.visitsLeft (i :: waiting) visited := by
  have hsplit := List.length_eq_length_filter_add (l := s.edges.filter fun e => e.1 ∉ visited)
    fun e => e.1 == i
  have hfrom : (s.edges.filter fun e => e.1 ∉ visited).filter (fun e => e.1 == i) =
      s.edges.filter fun e => e.1 == i := by
    rw [List.filter_filter]
    refine List.filter_congr fun e _ => ?_
    by_cases he : e.1 = i
    · rw [he, decide_eq_true hi, Bool.and_true]
    · rw [beq_eq_false_iff_ne.mpr he, Bool.false_and]
  have hother : (s.edges.filter fun e => e.1 ∉ visited).filter (fun e => !(e.1 == i)) =
      s.edges.filter fun e => e.1 ∉ i :: visited := by
    rw [List.filter_filter]
    refine List.filter_congr fun e _ => ?_
    by_cases he : e.1 = i
    · rw [he, beq_self_eq_true, Bool.not_true, Bool.false_and,
        decide_eq_false (not_not_intro List.mem_cons_self)]
    · rw [beq_eq_false_iff_ne.mpr he, Bool.not_false, Bool.true_and]
      exact decide_eq_decide.mpr (by rw [List.mem_cons, or_iff_right he])
  have hpushed : ((s.successors i).filter (· ∉ i :: visited)).length ≤
      (s.edges.filter fun e => e.1 == i).length :=
    (List.length_filter_le _ _).trans_eq (List.length_map _)
  rw [hfrom, hother] at hsplit
  rw [visitsLeft, visitsLeft, List.length_append, List.length_cons]
  omega

theorem visitsLeft_start (s : StoredGraph) {i : Nat} :
    s.visitsLeft [i] [] < s.edges.length + 2 := by
  have hle := List.length_filter_le (fun e : Nat × Nat => e.1 ∉ ([] : List Nat)) s.edges
  rw [visitsLeft, List.length_singleton]
  omega

theorem visiting_start (s : StoredGraph) {i : Nat} : s.Visiting i [i] [] where
  reached _ hj := List.mem_singleton.mp (hj.resolve_left List.not_mem_nil) ▸ .refl
  start := .inr List.mem_cons_self
  frontier _ hj := absurd hj List.not_mem_nil

/-- Nothing changes with a position that was visited before. -/
theorem Visiting.skip (h : s.Visiting i (j :: waiting) visited) (hj : j ∈ visited) :
    s.Visiting i waiting visited := by
  have hmem : ∀ k, k ∈ visited ∨ k ∈ j :: waiting → k ∈ visited ∨ k ∈ waiting := by
    intro k hk
    rcases hk with hk | hk
    · exact .inl hk
    · rcases List.mem_cons.mp hk with rfl | hk
      · exact .inl hj
      · exact .inr hk
  exact ⟨fun k hk => h.reached k (hk.imp_right (List.mem_cons_of_mem j)), hmem i h.start,
    fun k hk l hl => hmem l (h.frontier k hk l hl)⟩

/-- A position is visited, and what edges lead to from it waits. -/
theorem Visiting.enter (h : s.Visiting i (j :: waiting) visited) :
    s.Visiting i ((s.successors j).filter (· ∉ j :: visited) ++ waiting) (j :: visited) := by
  have hmem : ∀ k, k ∈ visited ∨ k ∈ j :: waiting → k ∈ j :: visited ∨
      k ∈ (s.successors j).filter (· ∉ j :: visited) ++ waiting := by
    intro k hk
    rcases hk with hk | hk
    · exact .inl (List.mem_cons_of_mem j hk)
    · rcases List.mem_cons.mp hk with rfl | hk
      · exact .inl List.mem_cons_self
      · exact .inr (List.mem_append_right _ hk)
  have hj : s.Reaches i j := h.reached j (.inr List.mem_cons_self)
  refine ⟨fun k hk => ?_, hmem i h.start, fun k hk l hl => ?_⟩
  · rcases hk with hk | hk
    · rcases List.mem_cons.mp hk with rfl | hk
      · exact hj
      · exact h.reached k (.inl hk)
    · rcases List.mem_append.mp hk with hk | hk
      · exact hj.tail (mem_successors.mp (List.mem_filter.mp hk).1)
      · exact h.reached k (.inr (List.mem_cons_of_mem j hk))
  · rcases List.mem_cons.mp hk with rfl | hk
    · by_cases hvisited : l ∈ k :: visited
      · exact .inl hvisited
      · exact .inr (List.mem_append_left _
          (List.mem_filter.mpr ⟨mem_successors.mpr hl, decide_eq_true hvisited⟩))
    · exact hmem l (h.frontier k hk l hl)

/-- Where nothing waits, all that can be reached was visited. -/
theorem Visiting.mem_iff (h : s.Visiting i [] visited) : j ∈ visited ↔ s.Reaches i j := by
  have hmem : ∀ k, k ∈ visited ∨ k ∈ [] → k ∈ visited := fun k hk =>
    hk.resolve_right List.not_mem_nil
  refine ⟨fun hj => h.reached j (.inl hj), fun hj => ?_⟩
  induction hj with
  | refl => exact hmem i h.start
  | tail _ he ih => exact hmem _ (h.frontier _ ih _ he)

/-- **A visit that may take as many steps as are left visits all that can be reached**, and nothing
    else. -/
theorem exists_visit (h : s.Visiting i waiting visited) (hn : s.visitsLeft waiting visited < n) :
    ∃ l, s.visit n waiting visited = .ok l ∧ ∀ j, j ∈ l ↔ s.Reaches i j := by
  induction n generalizing waiting visited with
  | zero => exact absurd hn (Nat.not_lt_zero _)
  | succ n ih =>
    cases waiting with
    | nil => exact ⟨visited, rfl, fun _ => h.mem_iff⟩
    | cons j waiting =>
      rw [visit]
      by_cases hj : j ∈ visited
      · rw [if_pos hj]
        refine ih (h.skip hj) ?_
        rw [visitsLeft, List.length_cons] at hn
        rw [visitsLeft]
        omega
      · rw [if_neg hj]
        exact ih h.enter (Nat.lt_of_lt_of_le (visitsLeft_of_not_mem hj) (Nat.le_of_lt_succ hn))

end Visits

section Closures

variable {ms : List Module} {g : Graph} (h : Graph.build ms = .ok g)
include h

/-- Edges lead from the position of a module to those of the modules that it reaches. -/
theorem reaches_placeOf_iff {a : Identity} (ha : g.Known a) {j : Nat} :
    (stored ms).Reaches (placeOf ms a) j ↔
      ∃ b, Relation.ReflTransGen (DependsOn ms) a b ∧ g.Known b ∧ placeOf ms b = j := by
  obtain ⟨hd, hr, _⟩ := Graph.build_eq_ok_iff_modules.mp h
  constructor
  · intro hj
    induction hj with
    | refl => exact ⟨a, .refl, ha, rfl⟩
    | tail _ he ih =>
      obtain ⟨b, hb, hknown, rfl⟩ := ih
      obtain ⟨c, d, hdep, hc, rfl⟩ := mem_edges_stored.mp he
      obtain ⟨m, hm, hid, hdm⟩ := hdep
      have hdep : DependsOn ms c d := ⟨m, hm, hid, hdm⟩
      have hsame : c = b := (placeOf_inj hd (hid ▸ List.mem_map_of_mem hm)
        ((Graph.known_iff_of_build h).mp hknown)).mp hc
      exact ⟨d, hb.tail (hsame ▸ hdep), (Graph.known_iff_of_build h).mpr (hr m hm d hdm), rfl⟩
  · rintro ⟨b, hb, _, rfl⟩
    exact Relation.ReflTransGen.lift (placeOf ms)
      (fun c d hdep => mem_edges_stored.mpr ⟨c, d, hdep, rfl, rfl⟩) _ _ hb

theorem id_of_nodeAt {a : Identity} (ha : g.Known a) :
    (do return (← (stored ms).nodeAt (placeOf ms a)).id) = (.ok a : Except Stop Identity) := by
  obtain ⟨m, hm⟩ := ha
  rw [nodeAt_of_get? h hm, ← Graph.id_of_get? hm]
  rfl

/-- The names of what was visited, less the root, are those of the closure. -/
theorem mem_names_of_visited {id : Identity} (hid : g.Known id) {s : NameSet}
    (hs : g.closure id = .ok s) {visited : List Nat}
    (hv : ∀ j, j ∈ visited ↔ (stored ms).Reaches (placeOf ms id) j) {names : List Identity}
    (hnames : (visited.filter (· ≠ placeOf ms id)).mapM
      (fun j => do return (← (stored ms).nodeAt j).id) = .ok names) {x : Identity} :
    x ∈ names ↔ x ∈ s := by
  obtain ⟨hd, _⟩ := Graph.build_eq_ok_iff_modules.mp h
  rw [mem_of_mapM_eq_ok hnames]
  simp only [List.mem_filter, decide_eq_true_iff, hv, reaches_placeOf_iff h hid]
  constructor
  · rintro ⟨_, ⟨⟨b, hb, hknown, rfl⟩, hne⟩, hx⟩
    rw [id_of_nodeAt h hknown] at hx
    cases hx
    refine (Graph.mem_closure_iff_transGen h hs).mpr ?_
    exact (Relation.reflTransGen_iff_eq_or_transGen.mp hb).resolve_left fun e => hne (e ▸ rfl)
  · intro hx
    have hknown : g.Known x := Graph.exists_get?_of_below ((Graph.mem_closure hs).mp hx)
    have hchain := ((Graph.mem_closure_iff_transGen h hs).mp hx).to_reflTransGen
    have hne : placeOf ms x ≠ placeOf ms id := fun e => by
      have hsame := (placeOf_inj hd ((Graph.known_iff_of_build h).mp hknown)
        ((Graph.known_iff_of_build h).mp hid)).mp e
      exact Graph.root_not_mem_closure hs (hsame ▸ hx)
    exact ⟨placeOf ms x, ⟨⟨x, hchain, hknown, rfl⟩, hne⟩, id_of_nodeAt h hknown⟩

theorem closure_stored (id : Identity) :
    (stored ms).closure id = Stop.lift (g.closure id) := by
  by_cases hid : g.Known id
  · have hmem : id ∈ ms.map Module.id := (Graph.known_iff_of_build h).mp hid
    obtain ⟨s, hs⟩ := (Graph.exists_closure_iff_of_build h).mpr hmem
    obtain ⟨visited, hvisit, hv⟩ := exists_visit (stored ms).visiting_start
      (stored ms).visitsLeft_start
    obtain ⟨names, hnames⟩ := exists_mapM_eq_ok (l := visited.filter (· ≠ placeOf ms id))
      (f := fun j => do return (← (stored ms).nodeAt j).id) fun j hj => by
        obtain ⟨b, _, hb, rfl⟩ := (reaches_placeOf_iff h hid).mp
          ((hv j).mp (List.mem_filter.mp hj).1)
        exact ⟨b, id_of_nodeAt h hb⟩
    have hset : Register.ofList names = s := by
      refine Register.ext_mem fun x => ?_
      rw [NameSet.mem_ofList, mem_names_of_visited h hid hs hv hnames]
    rw [closure, lookUp_of_known h hid, ok_bind, hvisit, ok_bind, hnames, ok_bind, hset, hs]
    rfl
  · have hno : g.closure id = .error (.unknownModule id) :=
      Graph.closure_of_not_mem h (mt (Graph.known_iff_of_build h).mpr hid)
    rw [closure, lookUp_of_not_known h hid, hno]
    rfl

end Closures

end StoredGraph

end Isolation
