import Isolation.Proofs.Growth
import Isolation.Proofs.Paths
import Isolation.Proofs.Reversal
import Mathlib.Data.List.Forall2

/-!
# Unrelated modules do not matter

What is asked about a module is answered from what the module pulls in. Two graphs that share this
part may otherwise have nothing in common: neither the other modules, nor any tier, nor the number
of modules. This file fixes that every such question is answered alike in both.

* `Module.Alike`, `Module.AlikeUnderKey` -- what two graphs have to share of a module: its identity,
  its dependencies in their order and its version; for conflicts its resolution key as well. **The
  tiers may differ.**
* `Shares` -- they share everything that a module pulls in, the module included;
  `shares_iff_of_build` says so of the lists that the graphs were built from;
* `Shares.agree` -- then their branchings agree from the module on, and what was shown of branchings
  with this property gives closures, trees and paths (`Shares.closure`, `Shares.tree`,
  `Shares.path?`);
* `Shares.conflicts` -- conflicts are found among modules that are shared one by one;
* **`answers_depend_on_pulled_only`** -- all questions together.
-/

namespace Isolation

/-! ## 1. Sharing what a module pulls in -/

/-- The same module as far as walks can tell: the tier and the resolution key may differ. -/
structure Module.Alike (m n : Module) : Prop where
  id : m.id = n.id
  dependencies : m.dependencies = n.dependencies
  version : m.version = n.version

/-- The same module as far as conflicts can tell: the tier may differ. -/
structure Module.AlikeUnderKey (m n : Module) : Prop extends Module.Alike m n where
  key : m.key = n.key

instance (m n : Module) : Decidable (m.Alike n) :=
  decidable_of_iff (m.id = n.id ∧ m.dependencies = n.dependencies ∧ m.version = n.version)
    ⟨fun ⟨hid, hdeps, hv⟩ => ⟨hid, hdeps, hv⟩, fun h => ⟨h.id, h.dependencies, h.version⟩⟩

instance (m n : Module) : Decidable (m.AlikeUnderKey n) :=
  decidable_of_iff (m.Alike n ∧ m.key = n.key) ⟨fun ⟨h, hk⟩ => ⟨h, hk⟩, fun h => ⟨h.toAlike, h.key⟩⟩

theorem Module.Alike.label {m n : Module} (h : m.Alike n) : m.label = n.label := by
  unfold Module.label
  rw [h.id, h.version]

namespace Graph

/-- Everything that `root` pulls in in `g`, `root` included, is in `g'` as well, and `R` relates the
    two modules of each such identity. -/
def Shares (g g' : Graph) (R : Module → Module → Prop) (root : Identity) : Prop :=
  ∀ x, g.Pulls root x → ∃ m n, g.get? x = some m ∧ g'.get? x = some n ∧ R m n

/-- Sharing, in terms of the lists of modules that the graphs were built from. -/
theorem shares_iff_of_build {g g' : Graph} {ms ms' : List Module} (hg : build ms = .ok g)
    (hg' : build ms' = .ok g') {R : Module → Module → Prop} {root : Identity} :
    g.Shares g' R root ↔
      ∀ x, x = root ∨ Relation.TransGen (DependsOn ms) root x →
        ∃ m ∈ ms, ∃ n ∈ ms', m.id = x ∧ n.id = x ∧ R m n := by
  unfold Shares Pulls
  refine forall_congr' fun x => ?_
  rw [below_iff_of_build hg]
  refine imp_congr_right fun _ => ?_
  constructor
  · rintro ⟨m, n, hm, hn, hR⟩
    obtain ⟨hm, hmx⟩ := (get?_eq_some_iff_of_build hg).mp hm
    obtain ⟨hn, hnx⟩ := (get?_eq_some_iff_of_build hg').mp hn
    exact ⟨m, hm, n, hn, hmx, hnx, hR⟩
  · rintro ⟨m, hm, n, hn, hmx, hnx, hR⟩
    exact ⟨m, n, (get?_eq_some_iff_of_build hg).mpr ⟨hm, hmx⟩,
      (get?_eq_some_iff_of_build hg').mpr ⟨hn, hnx⟩, hR⟩

/-- To see that two graphs share what `root` pulls in, it is enough to look at identities that
    include `root` and, with each module, its dependencies. -/
theorem shares_of_closed {g g' : Graph} {ms ms' : List Module} (hg : build ms = .ok g)
    (hg' : build ms' = .ok g') {R : Module → Module → Prop} {root : Identity}
    {ids : List Identity} (hroot : root ∈ ids)
    (h : ∀ x ∈ ids, ∃ m ∈ ms, ∃ n ∈ ms', m.id = x ∧ n.id = x ∧ R m n ∧
      ∀ d ∈ m.dependencies, d ∈ ids) : g.Shares g' R root := by
  rw [shares_iff_of_build hg hg']
  have hdistinct : Distinct ms := (build_eq_ok_iff.mp ⟨g, hg⟩).1
  have hclosed : ∀ x, Relation.ReflTransGen (DependsOn ms) root x → x ∈ ids := by
    intro x hx
    induction hx with
    | refl => exact hroot
    | tail _ hstep ih =>
      obtain ⟨k, hk, hka, hd⟩ := hstep
      obtain ⟨m, hm, n, _, hma, _, _, hdeps⟩ := h _ ih
      have hkm : k = m := List.inj_on_of_nodup_map hdistinct hk hm (hka.trans hma.symm)
      exact hdeps _ (hkm ▸ hd)
  intro x hx
  have hmem : x ∈ ids := by
    rcases hx with rfl | hx
    · exact hroot
    · exact hclosed x hx.to_reflTransGen
  obtain ⟨m, hm, n, hn, hmx, hnx, hR, _⟩ := h x hmem
  exact ⟨m, hm, n, hn, hmx, hnx, hR⟩

namespace Shares

variable {g g' : Graph} {R R' : Module → Module → Prop} {root x : Identity}
variable {roots ids : List Identity}

theorem mono (h : g.Shares g' R root) (hR : ∀ m n, R m n → R' m n) : g.Shares g' R' root := by
  intro x hx
  obtain ⟨m, n, hm, hn, hmn⟩ := h x hx
  exact ⟨m, n, hm, hn, hR m n hmn⟩

/-- The two branchings into dependencies agree from the module on. -/
theorem agree (h : g.Shares g' Module.Alike root) : g.downward.AgreeFrom g'.downward root := by
  intro x hx
  obtain ⟨m, n, hm, hn, hmn⟩ := h x hx
  show g.dependencyIds x = g'.dependencyIds x
  rw [dependencyIds_of_get? hm, dependencyIds_of_get? hn, hmn.dependencies]

theorem label (h : g.Shares g' Module.Alike root) (hx : g.Pulls root x) :
    g.label x = g'.label x := by
  obtain ⟨m, n, hm, hn, hmn⟩ := h x hx
  unfold Graph.label
  rw [hm, hn]
  exact hmn.label

/-! ## 2. Walks and bounds -/

theorem register_below (h : g.Shares g' Module.Alike root) :
    (Register.ofList (g.downward.below root) : NameSet) =
      Register.ofList (g'.downward.below root) := by
  refine Register.ext_mem fun x => ?_
  rw [mem_ofList_below, mem_ofList_below, h.agree.below_iff]

theorem closure (h : g.Shares g' Module.Alike root) :
    ∃ c, g.closure root = .ok c ∧ g'.closure root = .ok c := by
  obtain ⟨m, n, hm, hn, _⟩ := h root (Or.inl rfl)
  refine ⟨_, closure_of_get? hm, ?_⟩
  rw [closure_of_get? hn, h.register_below]

theorem tree (h : g.Shares g' Module.Alike root) (depth : Option Nat) :
    ∃ text, g.tree root depth = .ok text ∧ g'.tree root depth = .ok text := by
  obtain ⟨m, n, hm, hn, _⟩ := h root (Or.inl rfl)
  refine ⟨_, tree_of_get? hm depth, ?_⟩
  have hdrawing : g.downward.drawing g.label depth root =
      g'.downward.drawing g'.label depth root :=
    Branching.drawing_eq_of_agree h.agree (fun x hx => h.label hx) depth
  rw [tree_of_get? hn depth, hdrawing]

/-- Identities that are shared one by one have modules that are related one by one. -/
theorem forall₂_modulesOf
    (h : ∀ x ∈ ids, ∃ m n, g.get? x = some m ∧ g'.get? x = some n ∧ R m n) :
    List.Forall₂ R (g.modulesOf ids) (g'.modulesOf ids) := by
  induction ids with
  | nil => exact .nil
  | cons x ids ih =>
    obtain ⟨m, n, hm, hn, hmn⟩ := h x List.mem_cons_self
    unfold modulesOf
    rw [List.filterMap_cons_some hm, List.filterMap_cons_some hn]
    exact .cons hmn (ih fun y hy => h y (List.mem_cons_of_mem x hy))

/-- The path to a module that `root` pulls in is the same one, module by module. -/
theorem path? (h : g.Shares g' R root) (hR : ∀ m n, R m n → m.Alike n) (hx : g.Pulls root x) :
    ∃ p p', g.path? root x = .ok p ∧ g'.path? root x = .ok p' ∧
      Option.Rel (List.Forall₂ R) p p' := by
  have halike := h.mono hR
  obtain ⟨m, n, hm, hn, _⟩ := h root (Or.inl rfl)
  obtain ⟨k, l, hk, hl, _⟩ := h x hx
  refine ⟨_, _, path?_of_get? hm hk, path?_of_get? hn hl, ?_⟩
  rw [← Branching.path?_eq_of_agree halike.agree]
  cases hp : g.downward.path? root x with
  | none => exact .none
  | some path =>
    exact .some (forall₂_modulesOf fun y hy => h y (Branching.mem_of_path? hp y hy))

/-! ## 3. Conflicts -/

theorem pulled (h : ∀ r ∈ roots, g.Shares g' Module.Alike r) :
    g.pulled roots = g'.pulled roots := by
  unfold Graph.pulled
  refine List.map_congr_left fun r hr => ?_
  rw [(h r hr).register_below]

/-- The modules that a bundle merges are related one by one. -/
theorem forall₂_merged (h : ∀ r ∈ roots, g.Shares g' R r) :
    List.Forall₂ R (g.modulesOf (mergedIds (g.pulled roots)).toList)
      (g'.modulesOf (mergedIds (g.pulled roots)).toList) := by
  refine forall₂_modulesOf fun x hx => ?_
  obtain ⟨r, hr, hp⟩ := mem_mergedIds_pulled.mp (Register.mem_def.mpr hx)
  exact h r hr x hp

theorem map_eq_of_forall₂ {α : Type} {f : Module → α} {ms ns : List Module}
    (h : List.Forall₂ R ms ns) (hf : ∀ m n, R m n → f m = f n) : ms.map f = ns.map f := by
  rw [← List.forall₂_eq_eq_eq, List.forall₂_map_left_iff, List.forall₂_map_right_iff]
  exact h.imp hf

/-- A candidate shows the identity and the version of its module, so it is the same candidate. -/
theorem competing_eq {p : Pulled}
    (h : List.Forall₂ Module.AlikeUnderKey (g.modulesOf (mergedIds p).toList)
      (g'.modulesOf (mergedIds p).toList)) (key : String) :
    g.competing p key = g'.competing p key := by
  have hfilter : List.Forall₂ Module.AlikeUnderKey
      ((g.modulesOf (mergedIds p).toList).filter fun m => m.key == key)
      ((g'.modulesOf (mergedIds p).toList).filter fun m => m.key == key) := by
    refine List.rel_filter (fun m n hmn => ?_) h
    show (m.key == key) = true ↔ (n.key == key) = true
    rw [hmn.key]
  refine map_eq_of_forall₂ hfilter fun m n hmn => ?_
  unfold candidate
  rw [hmn.id, hmn.version]

/-- **Conflicts are found alike** among modules that are alike under their keys. -/
theorem conflictsAmong_eq {p : Pulled}
    (h : List.Forall₂ Module.AlikeUnderKey (g.modulesOf (mergedIds p).toList)
      (g'.modulesOf (mergedIds p).toList)) : conflictsAmong g p = conflictsAmong g' p := by
  have hkeys : (g.modulesOf (mergedIds p).toList).map Module.key =
      (g'.modulesOf (mergedIds p).toList).map Module.key :=
    map_eq_of_forall₂ h fun m n hmn => hmn.key
  have hcompeting : g.competing p = g'.competing p := funext (competing_eq h)
  rw [conflictsAmong_eq_competing, conflictsAmong_eq_competing, hkeys, hcompeting]

theorem conflicts (h : ∀ r ∈ roots, g.Shares g' Module.AlikeUnderKey r) :
    conflictsAmong g (g.pulled roots) = conflictsAmong g' (g'.pulled roots) := by
  have halike : ∀ r ∈ roots, g.Shares g' Module.Alike r := fun r hr =>
    (h r hr).mono fun m n hmn => hmn.toAlike
  rw [← pulled halike]
  exact conflictsAmong_eq (forall₂_merged h)

end Shares

end Graph

/-! ## 4. All questions together -/

/-- **Unrelated modules do not matter.** When two graphs share what a module pulls in, itself
    included -- each with its identity, its dependencies in order and its version -- then its
    closure, its trees of every depth, the path to every module that it pulls in and the finding of
    every bound are the same in both; the memos that bounds ask through may have served anything
    before. A path is the same module by module, and of the modules on it only tiers and keys may
    differ. When that holds for all members of a bundle, and the resolution keys of what they pull
    in are the same as well, the bundle has the same conflicts. -/
theorem answers_depend_on_pulled_only {g g' : Graph} {memo memo' : Memo} (hm : memo.Faithful g)
    (hm' : memo'.Faithful g') :
    (∀ root, g.Shares g' Module.Alike root →
      (∃ c, g.closure root = .ok c ∧ g'.closure root = .ok c) ∧
      (∀ depth, ∃ text, g.tree root depth = .ok text ∧ g'.tree root depth = .ok text) ∧
      (∀ x, g.Pulls root x → ∃ p p', g.path? root x = .ok p ∧ g'.path? root x = .ok p' ∧
        Option.Rel (List.Forall₂ Module.Alike) p p') ∧
      ∀ bound : Bound, ∃ f, ((bound.check root).run g memo).1 = .ok f ∧
        ((bound.check root).run g' memo').1 = .ok f) ∧
    ∀ b : Bundle, (∀ r ∈ b.members, g.Shares g' Module.AlikeUnderKey r) →
      ∃ cs, ((b.conflicts g).run g memo).1 = .ok cs ∧
        ((b.conflicts g').run g' memo').1 = .ok cs := by
  constructor
  · intro root h
    obtain ⟨c, hc, hc'⟩ := h.closure
    refine ⟨⟨c, hc, hc'⟩, h.tree, fun x hx => h.path? (fun _ _ hmn => hmn) hx, fun bound => ?_⟩
    exact ⟨bound.finding root c, Bound.run_check hm hc, Bound.run_check hm' hc'⟩
  · intro b h
    have hknown : ∀ r ∈ b.members, g.Known r ∧ g'.Known r := by
      intro r hr
      obtain ⟨m, n, hget, hget', _⟩ := h r hr r (Or.inl rfl)
      exact ⟨⟨m, hget⟩, ⟨n, hget'⟩⟩
    refine ⟨conflictsAmong g (g.pulled b.members), ?_, ?_⟩
    · rw [(Inquiry.run_spec _ hm).1,
        Bundle.answerIn_conflicts_of_known fun r hr => (hknown r hr).1]
    · rw [(Inquiry.run_spec _ hm').1,
        Bundle.answerIn_conflicts_of_known fun r hr => (hknown r hr).2, Graph.Shares.conflicts h]

/-- The repository with two copies of a library after everything that one service does not pull in
    has changed: all tiers, the other service, the order of the list, and a module is new. -/
def movedCopies : List Module := Declaration.modules
  [("lib/new", { tier := some 4, version := some "2.0.0", key := some "lib" }),
    ("ops", { tier := some 9, dependencies := ["web", "api"] }),
    ("web", { tier := some 7, dependencies := ["lib/old", "api"], version := some "3.1.0" }),
    ("api", { tier := some 6, dependencies := ["lib/old"] }),
    ("lib/old", { tier := some 2, version := some "1.0.0", key := some "lib" })]

/-- The service that was left alone has the same closure and tree as before; imported together with
    the copy that it does not use, it conflicts in the library as before. -/
theorem answers_of_moved_copies :
    ∃ g g', Graph.build twoCopies = .ok g ∧ Graph.build movedCopies = .ok g' ∧
      (∃ c, g.closure "api" = .ok c ∧ g'.closure "api" = .ok c ∧ "lib/old" ∈ c) ∧
      (∃ text, g.tree "api" none = .ok text ∧ g'.tree "api" none = .ok text) ∧
      ∃ cs, (((Bundle.ofMembers ["api", "lib/new"]).conflicts g).run g Memo.empty).1 = .ok cs ∧
        (((Bundle.ofMembers ["api", "lib/new"]).conflicts g').run g' Memo.empty).1 = .ok cs ∧
        "lib" ∈ cs.map Conflict.key := by
  obtain ⟨g, hg⟩ := exists_build_twoCopies
  obtain ⟨g', hg'⟩ : ∃ g', Graph.build movedCopies = .ok g' :=
    Graph.build_eq_ok_iff.mpr ⟨by decide, by decide, by decide⟩
  have hshares : ∀ r ∈ (Bundle.ofMembers ["api", "lib/new"]).members,
      g.Shares g' Module.AlikeUnderKey r := by
    intro r hr
    have hmem : ∀ r ∈ (Bundle.ofMembers ["api", "lib/new"]).members,
        r ∈ ["api", "lib/old", "lib/new"] := by decide
    exact Graph.shares_of_closed hg hg' (hmem r hr) (by decide)
  have hapi : g.Shares g' Module.Alike "api" :=
    (hshares "api" (by decide)).mono fun m n hmn => hmn.toAlike
  obtain ⟨hwalks, hbundles⟩ :=
    answers_depend_on_pulled_only (g := g) Memo.faithful_empty (Memo.faithful_empty (g := g'))
  obtain ⟨⟨c, hc, hc'⟩, htree, _⟩ := hwalks "api" hapi
  obtain ⟨cs, hcs, hcs'⟩ := hbundles _ hshares
  have hlib : g.downward.Below "api" "lib/old" :=
    (Graph.below_iff_of_build hg).mpr (.single (by decide))
  refine ⟨g, g', hg, hg', ⟨c, hc, hc', (Graph.mem_closure hc).mpr hlib⟩, htree none,
    cs, hcs, hcs', ?_⟩
  have hknown : ∀ r ∈ (Bundle.ofMembers ["api", "lib/new"]).members, g.Known r :=
    Graph.forall_known_of_build hg (by decide)
  obtain ⟨ds, hds, hkeys⟩ := Bundle.exists_conflicts_of_known Memo.faithful_empty hknown
  rw [hcs] at hds
  cases hds
  obtain ⟨m, hm, hmid, hmk, n, hn, hnid, hnk, hv⟩ : ∃ m ∈ twoCopies, m.id = "lib/old" ∧
    m.key = "lib" ∧ ∃ n ∈ twoCopies, n.id = "lib/new" ∧ n.key = "lib" ∧
    m.version ≠ n.version := by decide
  have hpulls : g.Pulls "api" m.id := Or.inr (hmid ▸ hlib)
  exact (hkeys "lib").mpr ⟨m, n,
    ⟨(Graph.get?_eq_some_iff_of_build hg).mpr ⟨hm, rfl⟩, "api", by decide, hpulls⟩,
    ⟨(Graph.get?_eq_some_iff_of_build hg).mpr ⟨hn, rfl⟩, "lib/new", by decide, Or.inl hnid⟩,
    hmk, hnk, hv⟩

end Isolation
