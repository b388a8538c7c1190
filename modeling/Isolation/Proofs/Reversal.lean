import Isolation.Proofs.Ambiguity
import Isolation.Proofs.Outlines

/-!
# The reversed graph

Turning every dependency of a graph around, and the tiers with them, gives a graph again, and the
inverted tree of a module is its ordinary tree there.

* `mem_dependentIds`, `dependentsOf_of_get?` -- the dependents of an identity are the modules that
  list it;
* `Reverses` -- a list of modules declares the graph the other way round;
* `reverses_reversal` -- there is such a list, and it passes the checks on a single declaration;
* `Reverses.exists_build` -- every such list is a graph: a dependent of a module lies on a higher
  tier, so on a lower one after the turn;
* **`invertedTree_eq_tree_of_reverses`** -- and the tree of a module in it is its inverted tree;
  `sharedLibrary` is a graph where something is met again.

What is below a module upwards in the one graph and downwards in the other is the same, child by
child; that the two trees keep different notes does not show (`Branching.fullDrawing_eq_drawing`).
-/

namespace Isolation

namespace Graph

variable {g : Graph} {a d p : Identity} {m : Module}

/-! ## 1. Dependents -/

theorem known_iff_mem_names : g.Known a ↔ a ∈ g.modules.names := by
  rw [Known, Register.names, List.mem_map]
  simp only [get?, Register.find?_eq_some_iff, Register.mem_def]

theorem dependencyIds_of_get? (h : g.get? a = some m) : g.dependencyIds a = m.dependencies := by
  rw [dependencyIds, dependenciesIn, show g.modules.find? a = some m from h]

theorem get?_of_not_known (h : ¬ g.Known a) : g.get? a = none :=
  Option.eq_none_iff_forall_ne_some.mpr fun m hm => h ⟨m, hm⟩

theorem dependencyIds_of_not_known (h : ¬ g.Known a) : g.dependencyIds a = [] := by
  rw [dependencyIds, dependenciesIn, show g.modules.find? a = none from get?_of_not_known h]

theorem known_of_mem_dependencyIds (h : d ∈ g.dependencyIds a) : g.Known d :=
  exists_get?_of_below (.child h)

/-- **The dependents of an identity are the modules that list it as a dependency.** -/
theorem mem_dependentIds : p ∈ g.dependentIds a ↔ a ∈ g.dependencyIds p := by
  rw [dependentIds, List.mem_map, mem_dependencyIds]
  simp only [List.mem_filter, Module.dependsOn, List.contains_iff_mem, get?,
    Register.find?_eq_some_iff, Register.mem_def]
  constructor
  · rintro ⟨m, ⟨hm, ha⟩, hid⟩
    exact ⟨m, ⟨hm, hid⟩, ha⟩
  · rintro ⟨m, ⟨hm, hid⟩, ha⟩
    exact ⟨m, ⟨hm, ha⟩, hid⟩

theorem known_of_mem_dependentIds (h : p ∈ g.dependentIds a) : g.Known p := by
  obtain ⟨m, hm, _⟩ := mem_dependencyIds.mp (mem_dependentIds.mp h)
  exact ⟨m, hm⟩

theorem dependentIds_of_not_known (h : ¬ g.Known a) : g.dependentIds a = [] :=
  List.eq_nil_iff_forall_not_mem.mpr fun _ hp =>
    h (known_of_mem_dependencyIds (mem_dependentIds.mp hp))

theorem nodup_dependentIds (g : Graph) (a : Identity) : (g.dependentIds a).Nodup :=
  g.modules.nodup_names.sublist (List.filter_sublist.map Module.id)

theorem map_id_modulesOf {ids : List Identity} (h : ∀ x ∈ ids, g.Known x) :
    (g.modulesOf ids).map Module.id = ids := by
  induction ids with
  | nil => rfl
  | cons x ids ih =>
    obtain ⟨m, hm⟩ := h x List.mem_cons_self
    rw [modulesOf, List.filterMap_cons_some hm, List.map_cons, id_of_get? hm]
    exact congrArg (x :: ·) (ih fun y hy => h y (List.mem_cons_of_mem x hy))

theorem dependentsOf_of_get? (h : g.get? a = some m) :
    g.dependentsOf a = .ok (g.modulesOf (g.dependentIds a)) := by
  rw [dependentsOf, lookUp, h, ← id_of_get? h]
  rfl

theorem tier_of_get? (h : g.get? a = some m) : g.tier a = m.tier := by
  rw [tier, h]

theorem topTier_lt (g : Graph) : g.topTier < tierLimit := by
  refine List.foldlRecOn (motive := (· < tierLimit)) _ _ (by decide) fun k hk t ht => ?_
  obtain ⟨m, _, rfl⟩ := List.mem_map.mp ht
  exact Nat.max_lt.mpr ⟨hk, m.tier_lt⟩

/-! ## 2. Turning the modules around -/

/-- `ms` declares the modules of `g` the other way round: one module for each of `g`, in any order,
    with the same identity and version, with its dependents in `g` as dependencies, and with its
    distance from the highest tier as tier. -/
structure Reverses (g : Graph) (ms : List Module) : Prop where
  ids : (ms.map Module.id).Perm g.modules.names
  turned : ∀ n ∈ ms, ∃ m, g.get? n.id = some m ∧ n.version = m.version ∧
    n.tier = g.topTier - m.tier ∧
    ∃ ds, g.dependentsOf n.id = .ok ds ∧ n.dependencies = ds.map Module.id

theorem not_blank_of_mem_none : ∀ k ∈ (none : Option String), Text.isBlankText k = false := by
  simp

/-- A module of a graph the other way round. -/
def turn (g : Graph) (m : Module) : Module where
  id := m.id
  tier := g.topTier - m.tier
  dependencies := g.dependentIds m.id
  version := m.version
  id_named := m.id_named
  tier_lt := Nat.lt_of_le_of_lt (Nat.sub_le _ _) g.topTier_lt
  dependency_named := fun p hp => by
    obtain ⟨n, hn⟩ := known_of_mem_dependentIds hp
    exact id_of_get? hn ▸ n.id_named
  dependencies_nodup := g.nodup_dependentIds m.id
  not_self := fun hself => Nat.lt_irrefl _ (g.rank_lt_of_mem_dependentIds hself)
  key_named := not_blank_of_mem_none

/-- The modules of a graph the other way round, in the order of their identities. -/
def reversal (g : Graph) : List Module := g.modules.toList.map g.turn

theorem map_id_reversal (g : Graph) : g.reversal.map Module.id = g.modules.names :=
  List.map_map

theorem reverses_reversal (g : Graph) : g.Reverses g.reversal where
  ids := .of_eq g.map_id_reversal
  turned n hn := by
    obtain ⟨m, hm, rfl⟩ := List.mem_map.mp hn
    have hget : g.get? m.id = some m := Register.find?_eq_some_iff.mpr ⟨hm, rfl⟩
    refine ⟨m, hget, rfl, rfl, _, dependentsOf_of_get? hget, ?_⟩
    exact (map_id_modulesOf fun _ => known_of_mem_dependentIds).symm

/-! ## 3. The graph of the turned modules -/

namespace Reverses

variable {ms : List Module} {n : Module}

theorem mem_ids_iff (h : g.Reverses ms) : a ∈ ms.map Module.id ↔ g.Known a := by
  rw [h.ids.mem_iff, known_iff_mem_names]

theorem dependencies_eq (h : g.Reverses ms) (hn : n ∈ ms) :
    n.dependencies = g.dependentIds n.id := by
  obtain ⟨m, hm, _, _, ds, hds, hdeps⟩ := h.turned n hn
  rw [dependentsOf_of_get? hm] at hds
  cases hds
  rw [hdeps, map_id_modulesOf fun _ => known_of_mem_dependentIds]

theorem tier_eq (h : g.Reverses ms) (hn : n ∈ ms) : n.tier = g.topTier - g.tier n.id := by
  obtain ⟨m, hm, _, ht, _⟩ := h.turned n hn
  rw [ht, tier_of_get? hm]

theorem label_eq (h : g.Reverses ms) (hn : n ∈ ms) : n.label = g.label n.id := by
  obtain ⟨m, hm, hv, _⟩ := h.turned n hn
  simp only [Graph.label, hm]
  rw [Module.label, Module.label, hv, id_of_get? hm]

/-- **The modules the other way round are a graph.** -/
theorem exists_build (h : g.Reverses ms) : ∃ g', build ms = .ok g' := by
  refine build_eq_ok_iff.mpr ⟨?_, ?_, ?_⟩
  · exact h.ids.nodup_iff.mpr g.modules.nodup_names
  · intro n hn p hp
    rw [h.dependencies_eq hn] at hp
    exact h.mem_ids_iff.mpr (known_of_mem_dependentIds hp)
  · intro n hn k hk hkn
    rw [h.dependencies_eq hn] at hkn
    rw [h.tier_eq hn, h.tier_eq hk]
    exact g.rank_lt_of_mem_dependentIds hkn

variable {g' : Graph}

theorem exists_get? (h : g.Reverses ms) (hg : build ms = .ok g') (ha : g.Known a) :
    ∃ n ∈ ms, n.id = a ∧ g'.get? a = some n := by
  obtain ⟨n, hn, rfl⟩ := List.mem_map.mp (h.mem_ids_iff.mpr ha)
  exact ⟨n, hn, rfl, (get?_eq_some_iff_of_build hg).mpr ⟨hn, rfl⟩⟩

theorem not_known (h : g.Reverses ms) (hg : build ms = .ok g') (ha : ¬ g.Known a) :
    ¬ g'.Known a := by
  rwa [known_iff_of_build hg, h.mem_ids_iff]

/-- What is a dependency in the one graph is a dependent in the other, in the same order. -/
theorem dependencyIds_eq (h : g.Reverses ms) (hg : build ms = .ok g') (a : Identity) :
    g'.dependencyIds a = g.dependentIds a := by
  by_cases ha : g.Known a
  · obtain ⟨n, hn, rfl, hget⟩ := h.exists_get? hg ha
    rw [dependencyIds_of_get? hget, h.dependencies_eq hn]
  · rw [dependencyIds_of_not_known (h.not_known hg ha), dependentIds_of_not_known ha]

theorem label_build_eq (h : g.Reverses ms) (hg : build ms = .ok g') : g'.label = g.label := by
  funext a
  by_cases ha : g.Known a
  · obtain ⟨n, hn, rfl, hget⟩ := h.exists_get? hg ha
    rw [Graph.label, hget, ← h.label_eq hn]
  · rw [Graph.label, Graph.label, get?_of_not_known ha, get?_of_not_known (h.not_known hg ha)]

end Reverses

/-! ## 4. Trees -/

theorem tree_of_get? (h : g.get? a = some m) (depth : Option Nat) :
    g.tree a depth = .ok (g.downward.drawing g.label depth a) := by
  rw [tree, lookUp, h, ← id_of_get? h]
  rfl

theorem invertedTree_of_get? (h : g.get? a = some m) :
    g.invertedTree a = .ok (g.upward.fullDrawing g.label a) := by
  rw [invertedTree, lookUp, h, ← id_of_get? h]
  rfl

/-- **The inverted tree of a module is its tree in the reversed graph.** The modules of a graph can
    be declared the other way round; every such list of modules is a graph; and in each of them the
    whole tree of a module is, character by character, its inverted tree. -/
theorem invertedTree_eq_tree_of_reverses (g : Graph) :
    (∃ ms, g.Reverses ms ∧
      ∀ n ∈ ms, Module.declare n.id n.tier n.dependencies n.version = .ok n) ∧
    ∀ ms, g.Reverses ms → ∃ g', build ms = .ok g' ∧
      ∀ t, g.Known t → ∃ text, g.invertedTree t = .ok text ∧ g'.tree t none = .ok text := by
  refine ⟨⟨g.reversal, g.reverses_reversal, ?_⟩, fun ms h => ?_⟩
  · intro n hn
    obtain ⟨m, _, rfl⟩ := List.mem_map.mp hn
    exact (g.turn m).declare_of_ownKey rfl
  · obtain ⟨g', hg⟩ := h.exists_build
    refine ⟨g', hg, fun t ht => ?_⟩
    have hchildren : ∀ x, g.upward.children x = g'.downward.children x := fun x =>
      (h.dependencyIds_eq hg x).symm
    obtain ⟨m, hm⟩ := ht
    obtain ⟨n, _, rfl, hn⟩ := h.exists_get? hg ⟨m, hm⟩
    refine ⟨_, invertedTree_of_get? hm, ?_⟩
    rw [tree_of_get? hn, h.label_build_eq hg,
      Branching.fullDrawing_eq_drawing fun x _ => hchildren x]

/-- A library that two modules share, with a module above both and one above that. -/
def sharedLibrary : Graph where
  modules :=
    ⟨Declaration.modules
      [("app", { tier := some 3, dependencies := ["top"] }),
        ("left", { tier := some 1, dependencies := ["lib"] }),
        ("lib", { tier := some 0, version := some "1.0.0" }),
        ("right", { tier := some 1, dependencies := ["lib"] }),
        ("top", { tier := some 2, dependencies := ["left", "right"] })],
      by decide⟩
  sound := by decide

/-- What is above the library: the module above both is listed under the first of them, and noted
    as a repetition under the second. -/
theorem fullOutline_upward_sharedLibrary :
    sharedLibrary.upward.fullOutline "lib" =
      [⟨"lib", [], false⟩, ⟨"left", [false], false⟩, ⟨"top", [false, true], false⟩,
        ⟨"app", [false, true, true], false⟩, ⟨"right", [true], false⟩,
        ⟨"top", [true, true], true⟩] := by
  have happ : ∀ e lasts, sharedLibrary.upward.fullEntriesFrom e lasts "app" =
      ([⟨"app", lasts, false⟩], e) := by
    intro e lasts
    rw [Branching.fullEntriesFrom_eq, if_pos (by decide)]
  have htop : ∀ e lasts, "top" ∉ e → sharedLibrary.upward.fullEntriesFrom e lasts "top" =
      ([⟨"top", lasts, false⟩, ⟨"app", lasts ++ [true], false⟩], "top" :: e) := by
    intro e lasts he
    have hchildren : sharedLibrary.upward.children "top" = ["app"] := by decide
    rw [Branching.fullEntriesFrom_eq, hchildren, if_neg (by decide), if_neg he]
    simp only [Branching.siblings, markLast, List.foldl_cons, List.foldl_nil, happ]
    rfl
  have hagain : ∀ e lasts, "top" ∈ e → sharedLibrary.upward.fullEntriesFrom e lasts "top" =
      ([⟨"top", lasts, true⟩], e) := by
    intro e lasts he
    rw [Branching.fullEntriesFrom_eq, if_neg (by decide), if_pos he]
  have hunder : ∀ a e lasts, sharedLibrary.upward.children a = ["top"] → a ∉ e →
      sharedLibrary.upward.fullEntriesFrom e lasts a =
        Branching.siblings sharedLibrary.upward.fullEntriesFrom lasts ["top"]
          ([⟨a, lasts, false⟩], a :: e) := by
    intro a e lasts ha he
    rw [Branching.fullEntriesFrom_eq, ha, if_neg (by decide), if_neg he]
  have hchildren : sharedLibrary.upward.children "lib" = ["left", "right"] := by decide
  rw [Branching.fullOutline_eq_siblings, hchildren]
  simp only [Branching.siblings, markLast, List.foldl_cons, List.foldl_nil]
  rw [hunder "left" _ _ (by decide) (by decide)]
  simp only [Branching.siblings, markLast, List.foldl_cons, List.foldl_nil]
  rw [htop _ _ (by decide), hunder "right" _ _ (by decide) (by decide)]
  simp only [Branching.siblings, markLast, List.foldl_cons, List.foldl_nil]
  rw [hagain _ _ (by decide)]
  rfl

/-- The two trees of a shared library: what is above both modules is listed once, and abbreviated
    where it is met again. -/
theorem invertedTree_eq_tree_of_shared_library :
    ∃ g' text, build sharedLibrary.reversal = .ok g' ∧
      sharedLibrary.invertedTree "lib" = .ok text ∧ g'.tree "lib" none = .ok text ∧
      text = "lib@1.0.0\n├── left\n│   └── top\n│       └── app\n└── right\n    └── top (*)\n" := by
  obtain ⟨_, hall⟩ := invertedTree_eq_tree_of_reverses sharedLibrary
  obtain ⟨g', hg, htrees⟩ := hall _ (reverses_reversal sharedLibrary)
  obtain ⟨text, hinverted, htree⟩ := htrees "lib" ⟨_, rfl⟩
  have hdrawn : sharedLibrary.invertedTree "lib" = .ok
      "lib@1.0.0\n├── left\n│   └── top\n│       └── app\n└── right\n    └── top (*)\n" := by
    obtain ⟨m, hm⟩ : ∃ m, sharedLibrary.get? "lib" = some m := ⟨_, rfl⟩
    rw [invertedTree_of_get? hm, Branching.fullDrawing, fullOutline_upward_sharedLibrary]
    rfl
  refine ⟨g', text, hg, hinverted, htree, ?_⟩
  rw [hinverted] at hdrawn
  exact Except.ok.inj hdrawn

end Graph

end Isolation
