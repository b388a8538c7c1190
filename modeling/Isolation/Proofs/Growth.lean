import Isolation.Bound
import Isolation.Proofs.Ambiguity
import Mathlib.Data.List.Perm.Subperm

/-!
# Growing never hides a failure

A repository grows when it gets further modules, or its modules further dependencies, and nothing
is taken away (`Graph.GrowsInto`). Tiers may change, and so may the order of the dependencies. This
file fixes that every question about the smaller graph stands in the larger one:

* `GrowsInto.below`, `GrowsInto.exists_closures` -- whatever a module pulls in it goes on pulling in;
* `GrowsInto.exists_findings` -- so a bound counts no fewer members, and a bound that is exceeded
  stays exceeded;
* `GrowsInto.exists_conflict` -- every conflict stays a conflict under its key, with all its
  candidates and for each of them all its requesters, also when the bundle gets further members;
* **`failures_outlast_growth`** -- the three together, through any faithful memos.
-/

namespace Isolation

namespace Graph

/-! ## 1. Growing -/

/-- Every module of `g` is in `g'` under its identity, with the same version and the same key, and
    with at least the dependencies that it has in `g`. -/
def GrowsInto (g g' : Graph) : Prop :=
  ∀ m ∈ g.modules, ∃ n ∈ g'.modules, n.id = m.id ∧ n.version = m.version ∧ n.key = m.key ∧
    ∀ d ∈ m.dependencies, d ∈ n.dependencies

/-- Growing, in terms of the lists of modules that the graphs were built from. -/
theorem growsInto_iff_of_build {g g' : Graph} {ms ms' : List Module} (hg : build ms = .ok g)
    (hg' : build ms' = .ok g') :
    g.GrowsInto g' ↔ ∀ m ∈ ms, ∃ n ∈ ms', n.id = m.id ∧ n.version = m.version ∧ n.key = m.key ∧
      ∀ d ∈ m.dependencies, d ∈ n.dependencies := by
  simp only [GrowsInto, mem_modules_of_build hg, mem_modules_of_build hg']

namespace GrowsInto

variable {g g' : Graph} {memo memo' : Memo} {a d r x : Identity} {roots roots' : List Identity}

theorem get? (h : g.GrowsInto g') {m : Module} (hm : g.get? a = some m) :
    ∃ n, g'.get? a = some n ∧ n.version = m.version ∧ n.key = m.key ∧
      ∀ d ∈ m.dependencies, d ∈ n.dependencies := by
  obtain ⟨n, hn, hid, hv, hk, hd⟩ := h m (mem_of_get? hm)
  have hid : n.id = a := hid.trans (id_of_get? hm)
  exact ⟨n, Register.find?_eq_some_iff.mpr ⟨hn, hid⟩, hv, hk, hd⟩

theorem known (h : g.GrowsInto g') (ha : g.Known a) : g'.Known a := by
  obtain ⟨m, hm⟩ := ha
  obtain ⟨n, hn, _⟩ := h.get? hm
  exact ⟨n, hn⟩

theorem mem_dependencyIds (h : g.GrowsInto g') (hd : d ∈ g.dependencyIds a) :
    d ∈ g'.dependencyIds a := by
  obtain ⟨m, hm, hdm⟩ := Graph.mem_dependencyIds.mp hd
  obtain ⟨n, hn, _, _, hdep⟩ := h.get? hm
  exact Graph.mem_dependencyIds.mpr ⟨n, hn, hdep d hdm⟩

/-- **What is below a module stays below it**: every chain of dependencies is still one. -/
theorem below (h : g.GrowsInto g') (hb : g.downward.Below a d) : g'.downward.Below a d := by
  induction hb with
  | child hc => exact .child (h.mem_dependencyIds hc)
  | further hc _ ih => exact .further (h.mem_dependencyIds hc) ih

theorem pulls (h : g.GrowsInto g') (hp : g.Pulls r x) : g'.Pulls r x := hp.imp id h.below

theorem brought (h : g.GrowsInto g') (hs : ∀ r ∈ roots, r ∈ roots') {m : Module}
    (hm : g.Brought roots m) :
    ∃ n, g'.Brought roots' n ∧ n.id = m.id ∧ n.version = m.version ∧ n.key = m.key := by
  obtain ⟨hm, r, hr, hp⟩ := hm
  obtain ⟨n, hn, hv, hk, _⟩ := h.get? hm
  have hid : n.id = m.id := id_of_get? hn
  refine ⟨n, ⟨?_, r, hs r hr, ?_⟩, hid, hv, hk⟩
  · rw [hid]
    exact hn
  · rw [hid]
    exact h.pulls hp

/-- An ambiguous key stays ambiguous, also for more roots. -/
theorem ambiguous (h : g.GrowsInto g') (hs : ∀ r ∈ roots, r ∈ roots') {key : String}
    (ha : g.Ambiguous roots key) : g'.Ambiguous roots' key := by
  obtain ⟨m, n, hm, hn, hmk, hnk, hv⟩ := ha
  obtain ⟨m', hm', _, hmv, hmk'⟩ := h.brought hs hm
  obtain ⟨n', hn', _, hnv, hnk'⟩ := h.brought hs hn
  refine ⟨m', n', hm', hn', hmk'.trans hmk, hnk'.trans hnk, ?_⟩
  rw [hmv, hnv]
  exact hv

/-! ## 2. Closures and bounds -/

theorem exists_closures (h : g.GrowsInto g') (ha : g.Known a) :
    ∃ c c', g.closure a = .ok c ∧ g'.closure a = .ok c' ∧ ∀ x ∈ c, x ∈ c' := by
  obtain ⟨c, hc⟩ := exists_closure_iff.mpr ha
  obtain ⟨c', hc'⟩ := exists_closure_iff.mpr (h.known ha)
  refine ⟨c, c', hc, hc', fun x hx => ?_⟩
  exact (mem_closure hc').mpr (h.below ((mem_closure hc).mp hx))

end GrowsInto

end Graph

theorem Register.size_le_of_subset {α : Type} {name : α → String} {r s : Register name}
    (h : ∀ a ∈ r, a ∈ s) : r.size ≤ s.size :=
  (List.subperm_of_subset r.nodup_toList h).length_le

/-- The finding of a bound when more is pulled in: it counts what it counted, so it passes only if
    it passed before. -/
theorem Bound.finding_mono (b : Bound) (root : Identity) {c c' : NameSet} (h : ∀ x ∈ c, x ∈ c') :
    (∀ x ∈ (b.finding root c).members, x ∈ (b.finding root c').members) ∧
      (b.finding root c).actual ≤ (b.finding root c').actual ∧
      ((b.finding root c).passed = false → (b.finding root c').passed = false) := by
  have hmem : ∀ x ∈ (b.finding root c).members, x ∈ (b.finding root c').members := by
    intro x hx
    obtain ⟨hx, hb⟩ := Register.mem_filter.mp hx
    exact Register.mem_filter.mpr ⟨h x hx, hb⟩
  have hle : (b.finding root c).actual ≤ (b.finding root c').actual :=
    Register.size_le_of_subset hmem
  refine ⟨hmem, hle, fun hf => ?_⟩
  have hlt : b.max < (b.finding root c).actual := Nat.not_le.mp (of_decide_eq_false hf)
  exact decide_eq_false (Nat.not_le.mpr (Nat.lt_of_lt_of_le hlt hle))

/-- Through a faithful memo a bound finds what it finds about the closure of its root. -/
theorem Bound.run_check {g : Graph} {memo : Memo} (hm : memo.Faithful g) {b : Bound}
    {root : Identity} {c : NameSet} (hc : g.closure root = .ok c) :
    ((b.check root).run g memo).1 = .ok (b.finding root c) := by
  rw [(Inquiry.run_spec _ hm).1]
  show (g.closure root).map (b.finding root) = _
  rw [hc]
  rfl

namespace Graph.GrowsInto

variable {g g' : Graph} {memo memo' : Memo} {root : Identity} {roots roots' : List Identity}

theorem exists_findings (h : g.GrowsInto g') (hm : memo.Faithful g) (hm' : memo'.Faithful g')
    (hroot : g.Known root) (b : Bound) :
    ∃ f f', ((b.check root).run g memo).1 = .ok f ∧ ((b.check root).run g' memo').1 = .ok f' ∧
      (∀ x ∈ f.members, x ∈ f'.members) ∧ f.actual ≤ f'.actual ∧
      (f.passed = false → f'.passed = false) := by
  obtain ⟨c, c', hc, hc', hsub⟩ := h.exists_closures hroot
  exact ⟨b.finding root c, b.finding root c', Bound.run_check hm hc, Bound.run_check hm' hc',
    b.finding_mono root hsub⟩

/-! ## 3. Conflicts -/

/-- **A conflict outlasts growth**: under its key there is still a conflict, which has all its
    candidates, and each of these has all its requesters. -/
theorem exists_conflict (h : g.GrowsInto g') (hs : ∀ r ∈ roots, r ∈ roots') {c : Conflict}
    (hc : c ∈ conflictsAmong g (g.pulled roots)) :
    ∃ c' ∈ conflictsAmong g' (g'.pulled roots'), c'.key = c.key ∧
      ∀ k ∈ c.candidates, ∃ k' ∈ c'.candidates, k'.module = k.module ∧ k'.version = k.version ∧
        ∀ r ∈ k.requestedBy, r ∈ k'.requestedBy := by
  have hkey : c.key ∈ (conflictsAmong g' (g'.pulled roots')).map Conflict.key :=
    mem_keys_conflictsAmong.mpr (h.ambiguous hs (of_mem_conflictsAmong hc).1)
  obtain ⟨c', hc', hkey⟩ := List.mem_map.mp hkey
  refine ⟨c', hc', hkey, fun k hk => ?_⟩
  obtain ⟨m, hm, hmk, rfl⟩ := (mem_candidates_iff hc).mp hk
  obtain ⟨n, hn, hid, hv, hnk⟩ := h.brought hs hm
  refine ⟨candidate (g'.pulled roots') n,
    (mem_candidates_iff hc').mpr ⟨n, hn, hnk.trans (hmk.trans hkey.symm), rfl⟩, hid, hv,
    fun r hr => ?_⟩
  obtain ⟨hr, hp⟩ := mem_requesters_pulled.mp hr
  refine mem_requesters_pulled.mpr ⟨hs r hr, ?_⟩
  rw [hid]
  exact h.pulls hp

end Graph.GrowsInto

/-- **Growing a repository or a bundle never hides a failure.** When a graph grows into another, each
    module pulls in at least what it pulled in; a bound that its root exceeds in the smaller graph
    is exceeded in the larger one; and every conflict of a bundle is, under the same key, a conflict
    of every bundle with at least its members in the larger graph, with all its candidates and all
    their requesters. -/
theorem failures_outlast_growth {g g' : Graph} (h : g.GrowsInto g') {memo memo' : Memo}
    (hm : memo.Faithful g) (hm' : memo'.Faithful g') {b b' : Bundle}
    (hb : ∀ r ∈ b.members, g.Known r) (hb' : ∀ r ∈ b'.members, g'.Known r)
    (hs : ∀ r ∈ b.members, r ∈ b'.members) :
    (∀ root, g.Known root →
      ∃ c c', g.closure root = .ok c ∧ g'.closure root = .ok c' ∧ ∀ x ∈ c, x ∈ c') ∧
    (∀ root, g.Known root → ∀ bound : Bound, ∃ f f',
      ((bound.check root).run g memo).1 = .ok f ∧ ((bound.check root).run g' memo').1 = .ok f' ∧
        (∀ x ∈ f.members, x ∈ f'.members) ∧ f.actual ≤ f'.actual ∧
        (f.passed = false → f'.passed = false)) ∧
    ∃ cs cs', ((b.conflicts g).run g memo).1 = .ok cs ∧
      ((b'.conflicts g').run g' memo').1 = .ok cs' ∧
      ∀ c ∈ cs, ∃ c' ∈ cs', c'.key = c.key ∧
        ∀ k ∈ c.candidates, ∃ k' ∈ c'.candidates, k'.module = k.module ∧ k'.version = k.version ∧
          ∀ r ∈ k.requestedBy, r ∈ k'.requestedBy := by
  refine ⟨fun root hroot => h.exists_closures hroot,
    fun root hroot bound => h.exists_findings hm hm' hroot bound, _, _, ?_, ?_,
    fun c hc => h.exists_conflict hs hc⟩
  · rw [(Inquiry.run_spec _ hm).1, Bundle.answerIn_conflicts_of_known hb]
  · rw [(Inquiry.run_spec _ hm').1, Bundle.answerIn_conflicts_of_known hb']

/-- The repository with two copies of a library after it has grown: there is a further module above
    the services, and one service imports both copies. -/
def grownCopies : List Module := Declaration.modules
  [("ops", { tier := some 3, dependencies := ["web", "api"] }),
    ("api", { tier := some 2, dependencies := ["lib/new", "lib/old"] }),
    ("web", { tier := some 1, dependencies := ["lib/new"] }),
    ("lib/old", { tier := some 0, version := some "1.0.0", key := some "lib" }),
    ("lib/new", { tier := some 0, version := some "2.0.0", key := some "lib" })]

theorem exists_build_grownCopies : ∃ g, Graph.build grownCopies = .ok g :=
  Graph.build_eq_ok_iff.mpr ⟨by decide, by decide, by decide⟩

theorem ambiguous_services {g : Graph} (hg : Graph.build twoCopies = .ok g) :
    g.Ambiguous ["api", "web"] "lib" := by
  obtain ⟨m, hm, hmid, hmk, n, hn, hnid, hnk, hv⟩ : ∃ m ∈ twoCopies, m.id = "lib/old" ∧
    m.key = "lib" ∧ ∃ n ∈ twoCopies, n.id = "lib/new" ∧ n.key = "lib" ∧
    m.version ≠ n.version := by decide
  refine ⟨m, n, ⟨(Graph.get?_eq_some_iff_of_build hg).mpr ⟨hm, rfl⟩, "api", by decide, ?_⟩,
    ⟨(Graph.get?_eq_some_iff_of_build hg).mpr ⟨hn, rfl⟩, "web", by decide, ?_⟩, hmk, hnk, hv⟩
  · rw [hmid]
    exact Or.inr ((Graph.below_iff_of_build hg).mpr (.single (by decide)))
  · rw [hnid]
    exact Or.inr ((Graph.below_iff_of_build hg).mpr (.single (by decide)))

/-- In that repository both services imported together conflict in the library, and one of them
    exceeds a bound of none; after the growth, importing all three modules conflicts in the library
    as well, and the service still exceeds the bound. -/
theorem failures_outlast_growth_of_two_copies :
    ∃ g g', Graph.build twoCopies = .ok g ∧ Graph.build grownCopies = .ok g' ∧ g.GrowsInto g' ∧
      (∃ f f', ((Bound.check { max := 0 } "api").run g Memo.empty).1 = .ok f ∧
        ((Bound.check { max := 0 } "api").run g' Memo.empty).1 = .ok f' ∧
        f.passed = false ∧ f'.passed = false) ∧
      ∃ cs cs', (((Bundle.ofMembers ["api", "web"]).conflicts g).run g Memo.empty).1 = .ok cs ∧
        (((Bundle.ofMembers ["ops", "web", "api"]).conflicts g').run g' Memo.empty).1 = .ok cs' ∧
        "lib" ∈ cs.map Conflict.key ∧ "lib" ∈ cs'.map Conflict.key := by
  obtain ⟨g, hg⟩ := exists_build_twoCopies
  obtain ⟨g', hg'⟩ := exists_build_grownCopies
  have hgrow : g.GrowsInto g' := (Graph.growsInto_iff_of_build hg hg').mpr (by decide)
  have hknown : ∀ r ∈ (Bundle.ofMembers ["api", "web"]).members, g.Known r :=
    Graph.forall_known_of_build hg (by decide)
  have hknown' : ∀ r ∈ (Bundle.ofMembers ["ops", "web", "api"]).members, g'.Known r :=
    Graph.forall_known_of_build hg' (by decide)
  obtain ⟨_, hbounds, cs, cs', hcs, hcs', hconflicts⟩ := failures_outlast_growth hgrow
    Memo.faithful_empty Memo.faithful_empty hknown hknown' (by decide)
  refine ⟨g, g', hg, hg', hgrow, ?_, cs, cs', hcs, hcs', ?_⟩
  · obtain ⟨f, f', hf, hf', _, _, hfail⟩ := hbounds "api" (hknown "api" (by decide)) { max := 0 }
    have hfails : f.passed = false := by
      obtain ⟨c, hc⟩ := Graph.exists_closure_iff.mpr (hknown "api" (by decide))
      rw [Bound.run_check Memo.faithful_empty hc] at hf
      cases hf
      have hlib : "lib/old" ∈ (Bound.finding { max := 0 } "api" c).members :=
        Register.mem_filter.mpr ⟨(Graph.mem_closure hc).mpr
          ((Graph.below_iff_of_build hg).mpr (.single (by decide))), rfl⟩
      exact decide_eq_false (Nat.not_le.mpr (List.length_pos_of_mem hlib))
    exact ⟨f, f', hf, hf', hfails, hfail hfails⟩
  · obtain ⟨ds, hds, hkeys⟩ := Bundle.exists_conflicts_of_known Memo.faithful_empty hknown
    rw [hcs] at hds
    cases hds
    have hlib : "lib" ∈ cs.map Conflict.key := (hkeys "lib").mpr (ambiguous_services hg)
    obtain ⟨c, hc, hck⟩ := List.mem_map.mp hlib
    obtain ⟨c', hc', hkey, _⟩ := hconflicts c hc
    exact ⟨hlib, List.mem_map.mpr ⟨c', hc', hkey.trans hck⟩⟩

end Isolation
