import Isolation.Proofs.Arrangement
import Isolation.Proofs.StoredForms

/-!
# The numbering of a stored graph does not matter

A stored graph numbers its modules by the places at which they were listed, and keeps its edges in
the order of addition. Another arrangement of the same modules gives them other numbers, and the
edges come in another order. Every query goes through these numbers and orders, and this file says
that none of it is left in any answer:

* `Joins` -- an edge, told by the identities at its ends and not by their numbers;
* `AnswersAlike`, `AnswersAs.alike` -- stored graphs that answer as one graph does answer alike;
* `BuiltAlike` -- two ways in which storing a list of modules ends that are alike;
* **`stored_alike_of_perm`** -- all arrangements of a list of modules are stored alike, and give
  graphs that are alike, bounds and bundles included.
-/

namespace Isolation

namespace StoredGraph

/-! ## 1. Answers -/

/-- An edge leads from the node of one identity to that of another. -/
def Joins (s : StoredGraph) (a b : Identity) : Prop :=
  ∃ i j m n, (i, j) ∈ s.edges ∧ s.nodes[i]? = some m ∧ s.nodes[j]? = some n ∧ m.id = a ∧ n.id = b

/-- No query tells `s` and `s'` apart. Walks are given leave to call themselves more than `deep`
    times inside one another. -/
structure AnswersAlike (deep : Nat) (s s' : StoredGraph) : Prop where
  size : s.size = s'.size
  edgeCount : s.edgeCount = s'.edgeCount
  get? (id : Identity) : s.get? id = s'.get? id
  modules : s.modules = s'.modules
  dependenciesOf (id : Identity) : s.dependenciesOf id = s'.dependenciesOf id
  dependentsOf (id : Identity) : s.dependentsOf id = s'.dependentsOf id
  closure (id : Identity) : s.closure id = s'.closure id
  path? {n : Nat} (hn : deep < n) (start target : Identity) :
    s.path? n start target = s'.path? n start target
  tree {n : Nat} (hn : deep < n) (id : Identity) (limit : Option Nat) :
    s.tree n id limit = s'.tree n id limit
  invertedTree {n : Nat} (hn : deep < n) (id : Identity) :
    s.invertedTree n id = s'.invertedTree n id

/-- Stored graphs that answer as one graph does answer alike. -/
theorem AnswersAs.alike {s s' : StoredGraph} {g : Graph} (h : s.AnswersAs g) (h' : s'.AnswersAs g) :
    AnswersAlike g.topTier s s' where
  size := h.size.trans h'.size.symm
  edgeCount := h.edgeCount.trans h'.edgeCount.symm
  get? id := (h.get? id).trans (h'.get? id).symm
  modules := h.modules.trans h'.modules.symm
  dependenciesOf id := (h.dependenciesOf id).trans (h'.dependenciesOf id).symm
  dependentsOf id := (h.dependentsOf id).trans (h'.dependentsOf id).symm
  closure id := (h.closure id).trans (h'.closure id).symm
  path? hn start target := (h.path? _ hn start target).trans (h'.path? _ hn start target).symm
  tree hn id limit := (h.tree _ hn id limit).trans (h'.tree _ hn id limit).symm
  invertedTree hn id := (h.invertedTree _ hn id).trans (h'.invertedTree _ hn id).symm

variable {ms ms' : List Module}

/-- The edges of a list of modules are its dependencies, wherever the modules stand. -/
theorem Coherent.joins_iff {s : StoredGraph} (h : s.Coherent ms) {a b : Identity} :
    s.Joins a b ↔ ∃ m ∈ ms, ∃ n ∈ ms, m.id = a ∧ n.id = b ∧ n.id ∈ m.dependencies := by
  rw [← h.nodes_eq]
  constructor
  · rintro ⟨i, j, m, n, he, hm, hn, rfl, rfl⟩
    obtain ⟨m', n', hm', hn', hdep⟩ := (h.edges_iff i j).mp he
    cases hm.symm.trans hm'
    cases hn.symm.trans hn'
    exact ⟨m, List.mem_of_getElem? hm, n, List.mem_of_getElem? hn, rfl, rfl, hdep⟩
  · rintro ⟨m, hm, n, hn, rfl, rfl, hdep⟩
    obtain ⟨i, hi⟩ := List.mem_iff_getElem?.mp hm
    obtain ⟨j, hj⟩ := List.mem_iff_getElem?.mp hn
    exact ⟨i, j, m, n, (h.edges_iff i j).mpr ⟨m, n, hi, hj, hdep⟩, hi, hj, rfl, rfl⟩

/-! ## 2. Other arrangements -/

/-- Two ways in which storing ends that are alike: in faults of one kind that may name different
    modules, in the same cycle or the same inversion, or in the same modules and edges under other
    numbers, with the answers of one graph. -/
inductive BuiltAlike : Except Stop StoredGraph → Except Stop StoredGraph → Prop where
  | repeated (id id' : Identity) :
    BuiltAlike (.error (.fault (.duplicateModule id))) (.error (.fault (.duplicateModule id')))
  | unresolved (id d id' d' : Identity) :
    BuiltAlike (.error (.fault (.unresolvedDependency id d)))
      (.error (.fault (.unresolvedDependency id' d')))
  | cyclic (cycle : List Identity) :
    BuiltAlike (.error (.fault (.cyclicDependency cycle)))
      (.error (.fault (.cyclicDependency cycle)))
  | inverted (id : Identity) (t : Nat) (d : Identity) (u : Nat) :
    BuiltAlike (.error (.fault (.tierInversion id t d u)))
      (.error (.fault (.tierInversion id t d u)))
  | graphs {s s' : StoredGraph} {g : Graph} (hnodes : s.nodes.Perm s'.nodes)
    (hedges : ∀ a b, s.Joins a b ↔ s'.Joins a b) (hs : s.AnswersAs g) (hs' : s'.AnswersAs g)
    (h : AnswersAlike g.topTier s s') : BuiltAlike (.ok s) (.ok s')

/-- **The order of a list of modules does not matter**, although it numbers what is stored: all its
    arrangements are stored alike, and give graphs that are alike. -/
theorem stored_alike_of_perm (h : ms.Perm ms') :
    BuiltAlike (build ms) (build ms') ∧ Graph.BuiltAlike (Graph.build ms) (Graph.build ms') := by
  have halike := Graph.build_alike_of_perm h
  refine ⟨?_, halike⟩
  rw [build_eq, build_eq]
  cases hg : Graph.build ms with
  | error f =>
    generalize Graph.build ms' = r at halike ⊢
    rw [hg] at halike
    cases halike with
    | repeated id id' => exact .repeated id id'
    | unresolved id d id' d' => exact .unresolved id d id' d'
    | cyclic cycle => exact .cyclic cycle
    | inverted id t d u => exact .inverted id t d u
  | ok g =>
    have hg' := (Graph.build_eq_ok_iff_of_perm h).mp hg
    rw [hg']
    have hs := answersAs_of_build hg
    have hs' := answersAs_of_build hg'
    refine .graphs h (fun a b => ?_) hs hs' (hs.alike hs')
    rw [(coherent_of_build hg).joins_iff, (coherent_of_build hg').joins_iff]
    simp only [h.mem_iff]

/-- Two modules that depend on one another. -/
def circle : List Module := Declaration.modules
  [("b", { tier := some 1, dependencies := ["a"] }),
    ("a", { tier := some 1, dependencies := ["b"] })]

/-- The repository with two copies of a library, declared from back to front, is stored with other
    numbers and tells the same; two modules that depend on one another are reported as the same
    cycle whichever comes first. -/
theorem stored_alike_of_two_copies_reversed :
    twoCopies.Perm twoCopies.reverse ∧ circle.Perm circle.reverse ∧
      (∃ s s', build twoCopies = .ok s ∧ build twoCopies.reverse = .ok s' ∧
        s.index.get? "api" ≠ s'.index.get? "api" ∧ s.closure "api" = s'.closure "api") ∧
      ∃ cycle, build circle = .error (.fault (.cyclicDependency cycle)) ∧
        build circle.reverse = .error (.fault (.cyclicDependency cycle)) := by
  have hcopies : twoCopies.Perm twoCopies.reverse := (List.reverse_perm _).symm
  have hcircle : circle.Perm circle.reverse := (List.reverse_perm _).symm
  refine ⟨hcopies, hcircle, ?_, ?_⟩
  · obtain ⟨g, hg⟩ := exists_build_twoCopies
    have hs : build twoCopies = .ok (stored twoCopies) := by
      rw [build_eq, hg]
    have hs' : build twoCopies.reverse = .ok (stored twoCopies.reverse) := by
      rw [build_eq, (Graph.build_eq_ok_iff_of_perm hcopies).mp hg]
    have halike := (stored_alike_of_perm hcopies).1
    rw [hs, hs'] at halike
    cases halike with
    | graphs _ _ _ _ h => exact ⟨_, _, hs, hs', by decide, h.closure "api"⟩
  · have hcyclic : Cyclic circle := ⟨"a", .head (b := "b") (by decide) (.single (by decide))⟩
    obtain ⟨cycle, hc⟩ := Graph.build_eq_cyclicDependency_iff.mpr ⟨by decide, by decide, hcyclic⟩
    have hs : build circle = .error (.fault (.cyclicDependency cycle)) := by
      rw [build_eq, hc]
    have halike := (stored_alike_of_perm hcircle).1
    rw [hs] at halike
    generalize build circle.reverse = r at halike ⊢
    cases halike with
    | cyclic => exact ⟨cycle, hs, rfl⟩

end StoredGraph

end Isolation
