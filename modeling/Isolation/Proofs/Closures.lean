import Isolation.Proofs.Growth

/-!
# Closures are exactly what can be reached

A closure is computed by a walk over a graph. This file reads it off the list of modules that the
graph was built from:

* `exists_closure_iff_of_build` -- a root has a closure exactly when it is a module of the list;
* `mem_closure_iff_transGen` -- its closure holds what some chain of one or more dependencies leads
  to, **and so neither the root itself nor anything on its tier or above** (`root_not_mem_closure`,
  `exists_tier_lt_of_mem_closure`);
* `mem_closure_iff_exists_dependency` -- one step at a time: the direct dependencies and their
  closures;
* `closure_eq_ofList` -- whatever other walk visits the modules that can be reached, and in whatever
  order, the closure is what it visits less the root;
* **`closure_is_reachability`** -- all of this for every list that is a graph.
-/

namespace Isolation

namespace Graph

variable {ms : List Module} {g : Graph} {root x : Identity} {s : NameSet} {m : Module}

theorem exists_closure_iff_of_build (hg : build ms = .ok g) :
    (∃ s, g.closure root = .ok s) ↔ root ∈ ms.map Module.id := by
  rw [exists_closure_iff, ← known_iff_of_build hg]
  exact Iff.rfl

theorem closure_of_not_mem (hg : build ms = .ok g) (h : root ∉ ms.map Module.id) :
    g.closure root = .error (.unknownModule root) := by
  cases hc : g.closure root with
  | ok s => exact absurd ((exists_closure_iff_of_build hg).mp ⟨s, hc⟩) h
  | error f => rw [(closure_eq_error_iff.mp hc).2]

/-- **A closure holds what a chain of one or more dependencies leads to.** -/
theorem mem_closure_iff_transGen (hg : build ms = .ok g) (hs : g.closure root = .ok s) :
    x ∈ s ↔ Relation.TransGen (DependsOn ms) root x := by
  rw [mem_closure hs, below_iff_of_build hg]

theorem root_not_mem_closure (hs : g.closure root = .ok s) : root ∉ s := by
  intro h
  have hbelow : g.downward.Below root root := (mem_closure hs).mp h
  exact Branching.Below.irrefl hbelow

/-- What a module pulls in is a module of a smaller tier. -/
theorem exists_tier_lt_of_mem_closure (hg : build ms = .ok g) (hs : g.closure m.id = .ok s)
    (hm : m ∈ ms) (hx : x ∈ s) : ∃ n ∈ ms, n.id = x ∧ n.tier < m.tier := by
  obtain ⟨hd, hr, ht⟩ := build_eq_ok_iff.mp ⟨g, hg⟩
  have hchain : Relation.TransGen (DependsOn ms) m.id x := (mem_closure_iff_transGen hg hs).mp hx
  obtain ⟨m', hm', n, hn, hid, hnx, hlt⟩ := exists_tier_lt_of_transGen hd ht hr hchain
  -- the module that the chain starts from is `m`, since identities are distinct
  have hmm : m' = m := List.inj_on_of_nodup_map hd hm' hm hid
  exact ⟨n, hn, hnx, hmm ▸ hlt⟩

theorem exists_closure_of_dependency (hg : build ms = .ok g) (hm : m ∈ ms) {d : Identity}
    (hd : d ∈ m.dependencies) : ∃ t, g.closure d = .ok t := by
  obtain ⟨_, hresolved, _⟩ := build_eq_ok_iff.mp ⟨g, hg⟩
  exact (exists_closure_iff_of_build hg).mpr (hresolved m hm d hd)

/-- A closure is made of the direct dependencies and their closures. -/
theorem mem_closure_iff_exists_dependency (hg : build ms = .ok g) (hm : m ∈ ms)
    (hs : g.closure m.id = .ok s) :
    x ∈ s ↔ ∃ d ∈ m.dependencies, x = d ∨ ∃ t, g.closure d = .ok t ∧ x ∈ t := by
  have hget : g.get? m.id = some m := (get?_eq_some_iff_of_build hg).mpr ⟨hm, rfl⟩
  have hchildren : ∀ d, d ∈ g.downward.children m.id ↔ d ∈ m.dependencies := by
    intro d
    show d ∈ g.dependencyIds m.id ↔ _
    rw [mem_dependencyIds, hget]
    simp
  rw [mem_closure hs, Branching.below_iff_exists_child]
  refine exists_congr fun d => ?_
  rw [hchildren]
  refine and_congr_right fun hd => or_congr_right ?_
  obtain ⟨t, ht⟩ := exists_closure_of_dependency hg hm hd
  constructor
  · exact fun hx => ⟨t, ht, (mem_closure ht).mpr hx⟩
  · rintro ⟨t', ht', hx⟩
    exact (mem_closure ht').mp hx

/-- What can be reached makes the smallest list that holds the root and all dependencies of what it
    holds. -/
theorem mem_iff_reflTransGen_of_closed {visited : List Identity} (hroot : root ∈ visited)
    (hclosed : ∀ m ∈ ms, m.id ∈ visited → ∀ d ∈ m.dependencies, d ∈ visited)
    (hreached : ∀ x ∈ visited, Relation.ReflTransGen (DependsOn ms) root x) (x : Identity) :
    x ∈ visited ↔ Relation.ReflTransGen (DependsOn ms) root x := by
  refine ⟨hreached x, fun hx => ?_⟩
  induction hx with
  | refl => exact hroot
  | tail _ hstep ih =>
    obtain ⟨m, hm, rfl, hd⟩ := hstep
    exact hclosed m hm ih _ hd

/-- A walk that visits the root and what can be reached from it gives the closure, whatever the
    order of its visits. -/
theorem closure_eq_ofList (hg : build ms = .ok g) (hs : g.closure root = .ok s)
    {visited : List Identity}
    (hv : ∀ x, x ∈ visited ↔ Relation.ReflTransGen (DependsOn ms) root x) :
    s = Register.ofList (visited.filter (· ≠ root)) := by
  refine Register.ext_mem fun x => ?_
  rw [NameSet.mem_ofList, List.mem_filter, decide_eq_true_iff, hv,
    Relation.reflTransGen_iff_eq_or_transGen, mem_closure_iff_transGen hg hs]
  constructor
  · intro hx
    have hne : x ≠ root := by
      rintro rfl
      exact root_not_mem_closure hs ((mem_closure_iff_transGen hg hs).mpr hx)
    exact ⟨Or.inr hx, hne⟩
  · rintro ⟨hx, hne⟩
    exact hx.resolve_left hne

/-- **A closure is exactly what can be reached.** Of a graph that was built from a list of modules:
    an identity without a module is unknown. For a module, its closure holds what some chain of one
    or more declared dependencies leads to; it does not hold the module itself, and all that it
    holds are modules of smaller tiers; it is made of the direct dependencies, each of which has a
    closure, and of their closures; and every walk that visits what can be reached visits it. -/
theorem closure_is_reachability {ms : List Module} {g : Graph} (hg : build ms = .ok g) :
    (∀ root, root ∉ ms.map Module.id → g.closure root = .error (.unknownModule root)) ∧
    ∀ m ∈ ms, ∃ s, g.closure m.id = .ok s ∧
      (∀ x, x ∈ s ↔ Relation.TransGen (DependsOn ms) m.id x) ∧
      m.id ∉ s ∧
      (∀ x ∈ s, ∃ n ∈ ms, n.id = x ∧ n.tier < m.tier) ∧
      (∀ d ∈ m.dependencies, ∃ t, g.closure d = .ok t) ∧
      (∀ x, x ∈ s ↔ ∃ d ∈ m.dependencies, x = d ∨ ∃ t, g.closure d = .ok t ∧ x ∈ t) ∧
      ∀ visited : List Identity,
        (∀ x, x ∈ visited ↔ Relation.ReflTransGen (DependsOn ms) m.id x) →
        s = Register.ofList (visited.filter (· ≠ m.id)) := by
  refine ⟨fun root h => closure_of_not_mem hg h, fun m hm => ?_⟩
  obtain ⟨s, hs⟩ := (exists_closure_iff_of_build hg).mpr (List.mem_map_of_mem hm)
  refine ⟨s, hs, ?_, ?_, ?_, ?_, ?_, ?_⟩
  · exact fun x => mem_closure_iff_transGen hg hs
  · exact root_not_mem_closure hs
  · exact fun x hx => exists_tier_lt_of_mem_closure hg hs hm hx
  · exact fun d hd => exists_closure_of_dependency hg hm hd
  · exact fun x => mem_closure_iff_exists_dependency hg hm hs
  · exact fun visited hv => closure_eq_ofList hg hs hv

/-- In the grown repository with two copies of a library, the module above both services pulls in
    the services and both copies. The name that the copies share is no module. -/
theorem closure_of_grown_copies : ∃ g s, build grownCopies = .ok g ∧ g.closure "ops" = .ok s ∧
    s = Register.ofList ["web", "lib/new", "api", "lib/old"] ∧
    g.closure "lib" = .error (.unknownModule "lib") := by
  obtain ⟨g, hg⟩ := exists_build_grownCopies
  obtain ⟨hunknown, hclosure⟩ := closure_is_reachability hg
  obtain ⟨m, hm, hid⟩ : ∃ m ∈ grownCopies, m.id = "ops" := by decide
  obtain ⟨s, hs, _, _, _, _, _, hvisited⟩ := hclosure m hm
  rw [hid] at hs hvisited
  refine ⟨g, s, hg, hs, hvisited ["ops", "web", "lib/new", "api", "lib/old"] ?_,
    hunknown "lib" (by decide)⟩
  refine mem_iff_reflTransGen_of_closed (by decide) (by decide) fun x hx => ?_
  have hops : DependsOn grownCopies "ops" "api" := by decide
  simp only [List.mem_cons, List.not_mem_nil, or_false] at hx
  rcases hx with rfl | rfl | rfl | rfl | rfl
  · exact .refl
  · exact .single (by decide)
  · exact .tail (.single hops) (by decide)
  · exact .single hops
  · exact .tail (.single hops) (by decide)

end Graph

end Isolation
