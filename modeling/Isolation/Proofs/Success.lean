import Isolation.Proofs.Verdicts
import Mathlib.Data.Set.Card

/-!
# What a successful report means

A report is a success when all its verdicts pass. This file says what that means in terms of the
list of modules from which the graph was built, without graph, walk, memo or grouping:

* `Kept` -- a bound is kept: its root is a module of the list, and of the modules that a chain of
  dependencies leads to no more than the bound allows are counted;
* `Unambiguous` -- a bundle is unambiguous: its members are modules of the list, and of all that
  they import no two modules have the same key and different versions;
* **`report_decides`** -- a report on a graph is a success exactly when every bound is kept and every
  bundle unambiguous, and a report on modules that form no graph is one failing verdict.
-/

namespace Isolation

/-! ## 1. What is asked of a list of modules -/

section Requests

variable (ms : List Module)

/-- The modules that a bound on `root` counts: those other than `root` that a chain of one or more
    dependencies leads to and whose identities begin with the namespace, where one is given. -/
def Counted (root : Identity) (b : Bound) : Set Identity :=
  {x | Relation.TransGen (DependsOn ms) root x ∧ x ≠ root ∧
    ∀ space ∈ b.space, space.toList <+: x.toList}

/-- The root of the bound is a module, and no more are counted than the bound allows. -/
def Kept (root : Identity) (b : Bound) : Prop :=
  root ∈ ms.map Module.id ∧ (Counted ms root b).encard ≤ b.max

/-- Importing the bundle imports the module: as a member, or by a chain of dependencies. -/
def Imports (b : Bundle) (m : Module) : Prop :=
  m ∈ ms ∧ ∃ r ∈ b.members, Relation.ReflTransGen (DependsOn ms) r m.id

/-- The members are modules, and no two imported modules of the same key differ in version. -/
def Unambiguous (b : Bundle) : Prop :=
  (∀ r ∈ b.members, r ∈ ms.map Module.id) ∧
    ∀ m n, Imports ms b m → Imports ms b n → m.key = n.key → m.version = n.version

end Requests

variable {ms : List Module} {g : Graph}

/-! ## 2. The graph of a list -/

namespace Graph

theorem brought_iff_of_build (hg : build ms = .ok g) {b : Bundle} {m : Module} :
    g.Brought b.members m ↔ Imports ms b m := by
  rw [Brought, get?_eq_some_iff_of_build hg, Imports]
  simp only [Pulls, below_iff_of_build hg, Relation.reflTransGen_iff_eq_or_transGen, and_true]

theorem not_ambiguous_iff_of_build (hg : build ms = .ok g) {b : Bundle} :
    (∀ key, ¬ g.Ambiguous b.members key) ↔
      ∀ m n, Imports ms b m → Imports ms b n → m.key = n.key → m.version = n.version := by
  simp only [Ambiguous, brought_iff_of_build hg]
  constructor
  · intro h m n hm hn hk
    by_contra hv
    exact h n.key ⟨m, n, hm, hn, hk, rfl, hv⟩
  · rintro h key ⟨m, n, hm, hn, hmk, hnk, hv⟩
    exact hv (h m n hm hn (hmk.trans hnk.symm))

end Graph

/-! ## 3. Bounds -/

theorem Bound.counts_iff {b : Bound} {id : Identity} :
    b.counts id = true ↔ ∀ space ∈ b.space, space.toList <+: id.toList := by
  rw [counts]
  cases b.space with
  | none => simp
  | some space => simp [Identity.inNamespace, Text.startsWith_iff]

/-- The values of a register are as many as it has. -/
theorem encard_register {α : Type} {name : α → String} (r : Register name) :
    Set.encard {a | a ∈ r} = r.size := by
  classical
  have hset : {a | a ∈ r} = (r.toList.toFinset : Set α) := by
    ext a
    rw [Finset.mem_coe, List.mem_toFinset]
    rfl
  rw [hset, Set.encard_coe_eq_coe_finsetCard, List.toFinset_card_of_nodup r.nodup_toList]
  rfl

theorem counted_eq_of_build (hg : Graph.build ms = .ok g) {root : Identity} {b : Bound}
    {c : NameSet} (hc : g.closure root = .ok c) :
    Counted ms root b = {x | x ∈ c.filter b.counts} := by
  ext x
  show Relation.TransGen (DependsOn ms) root x ∧ x ≠ root ∧ _ ↔ x ∈ c.filter b.counts
  rw [Register.mem_filter, Graph.mem_closure hc, Bound.counts_iff, ← Graph.below_iff_of_build hg]
  constructor
  · exact fun h => ⟨h.1, h.2.2⟩
  · rintro ⟨hx, hs⟩
    exact ⟨hx, fun e => Branching.Below.irrefl (e ▸ hx), hs⟩

theorem kept_iff_of_build (hg : Graph.build ms = .ok g) {root : Identity} {b : Bound} :
    (∃ c, g.closure root = .ok c ∧ (c.filter b.counts).size ≤ b.max) ↔ Kept ms root b := by
  rw [Kept, ← Graph.known_iff_of_build hg]
  constructor
  · rintro ⟨c, hc, hle⟩
    refine ⟨Graph.exists_closure_iff.mp ⟨c, hc⟩, ?_⟩
    rw [counted_eq_of_build hg hc, encard_register]
    exact Nat.cast_le.mpr hle
  · rintro ⟨hk, hle⟩
    obtain ⟨c, hc⟩ := Graph.exists_closure_iff.mpr hk
    rw [counted_eq_of_build hg hc, encard_register] at hle
    exact ⟨c, hc, Nat.cast_le.mp hle⟩

/-! ## 4. The outcome of a run -/

/-- **A report on a graph is a success exactly when every bound is kept and every bundle is
    unambiguous** -- in terms of the list of modules that the graph was built from. And where the
    modules of a repository form no graph, its report is never a success: it is one failing verdict
    that carries the fault. -/
theorem report_decides :
    (∀ (ms : List Module) (g : Graph), Graph.build ms = .ok g →
      ∀ (bounds : List (Identity × Bound)) (bundles : List Bundle),
        ((runChecks g bounds bundles).isSuccess = true ↔
          (∀ p ∈ bounds, Kept ms p.1 p.2) ∧ ∀ b ∈ bundles, Unambiguous ms b) ∧
        ((runChecks g bounds bundles).exitCode = 0 ↔
          (∀ p ∈ bounds, Kept ms p.1 p.2) ∧ ∀ b ∈ bundles, Unambiguous ms b)) ∧
    ∀ (v : Files.Volume) (root : String) (c : Config) (scanned : List ScannedModule) (f : Fault),
      scan v root c = .ok scanned → (manifests c scanned >>= Graph.build) = .error f →
        ∃ report announced, verify v root c = .ok (report, announced) ∧
          report.verdicts = [⟨.structural, f.subjects, false, f.message⟩] ∧
          report.isSuccess = false ∧ report.exitCode = 1 := by
  constructor
  · intro ms g hg bounds bundles
    have hsuccess : (runChecks g bounds bundles).isSuccess = true ↔
        (∀ p ∈ bounds, Kept ms p.1 p.2) ∧ ∀ b ∈ bundles, Unambiguous ms b := by
      rw [isSuccess_runChecks_iff]
      simp only [kept_iff_of_build hg, Graph.known_iff_of_build hg,
        Graph.not_ambiguous_iff_of_build hg, Unambiguous]
    refine ⟨hsuccess, ?_⟩
    rw [Report.exitCode_eq_zero_iff]
    exact hsuccess
  · intro v root c scanned f hscan hfault
    have hverify : verifyScanned c scanned = (Report.ofFault f, "") := by
      rw [verifyScanned, hfault]
    refine ⟨Report.ofFault f, "", ?_, rfl, rfl, rfl⟩
    rw [verify, hscan]
    exact congrArg Except.ok hverify

/-- One declared module, with a dependency that is not declared. -/
def unresolved : Config :=
  { modules := NameMap.put Register.empty "api" { tier := some 1, dependencies := ["lib"] } }

/-- The first service of the repository with two copies of a library imports one of them. -/
theorem eq_of_reflTransGen_api {x : Identity}
    (h : Relation.ReflTransGen (DependsOn twoCopies) "api" x) : x = "api" ∨ x = "lib/old" := by
  have hdeps : ∀ m ∈ twoCopies, m.id = "api" ∨ m.id = "lib/old" →
      ∀ d ∈ m.dependencies, d = "lib/old" := by decide
  induction h with
  | refl => exact Or.inl rfl
  | tail _ h ih =>
    obtain ⟨m, hm, rfl, hd⟩ := h
    exact Or.inr (hdeps m hm ih _ hd)

theorem kept_api : Kept twoCopies "api" { max := 1 } := by
  refine ⟨by decide, Set.encard_le_one_iff.mpr fun x y hx hy => ?_⟩
  have hlib : ∀ z ∈ Counted twoCopies "api" { max := 1 }, z = "lib/old" := fun z hz =>
    (eq_of_reflTransGen_api hz.1.to_reflTransGen).resolve_left hz.2.1
  exact (hlib x hx).trans (hlib y hy).symm

theorem unambiguous_api : Unambiguous twoCopies (Bundle.ofMembers ["api"]) := by
  refine ⟨by decide, fun m n hm hn => ?_⟩
  have hversion : ∀ m ∈ twoCopies, ∀ n ∈ twoCopies, m.id = "api" ∨ m.id = "lib/old" →
      n.id = "api" ∨ n.id = "lib/old" → m.key = n.key → m.version = n.version := by decide
  have hid : ∀ k, Imports twoCopies (Bundle.ofMembers ["api"]) k →
      k.id = "api" ∨ k.id = "lib/old" := by
    rintro k ⟨_, r, hr, h⟩
    rw [List.mem_singleton.mp (mem_distinct.mp hr)] at h
    exact eq_of_reflTransGen_api h
  exact hversion m hm.1 n hn.1 (hid m hm) (hid n hn)

theorem not_unambiguous_services : ¬ Unambiguous twoCopies (Bundle.ofMembers ["api", "web"]) := by
  rintro ⟨_, h⟩
  obtain ⟨m, hm, hmid, n, hn, hnid, hk, hv⟩ : ∃ m ∈ twoCopies, m.id = "lib/old" ∧
    ∃ n ∈ twoCopies, n.id = "lib/new" ∧ m.key = n.key ∧ m.version ≠ n.version := by decide
  refine hv (h m n ⟨hm, "api", by decide, ?_⟩ ⟨hn, "web", by decide, ?_⟩ hk)
  · rw [hmid]
    exact .single (by decide)
  · rw [hnid]
    exact .single (by decide)

/-- In that repository, one service may be imported and pulls in one module; both services may not
    be imported together. And the report on an undeclared dependency is one failing verdict. -/
theorem report_decides_two_copies :
    (∃ g, Graph.build twoCopies = .ok g ∧
      (runChecks g [("api", { max := 1 })] [Bundle.ofMembers ["api"]]).isSuccess = true ∧
      (runChecks g [] [Bundle.ofMembers ["api", "web"]]).isSuccess = false) ∧
    ∃ report announced, verify ⟨.directory [], []⟩ "." unresolved = .ok (report, announced) ∧
      report.verdicts = [⟨.structural, ["api", "lib"], false,
        "Module 'api' depends on 'lib', which is not declared"⟩] := by
  constructor
  · obtain ⟨g, hg⟩ := exists_build_twoCopies
    refine ⟨g, hg, ?_, Bool.eq_false_iff.mpr fun hsuccess => ?_⟩
    · refine (report_decides.1 twoCopies g hg _ _).1.mpr ⟨?_, ?_⟩
      · exact fun p hp => List.mem_singleton.mp hp ▸ kept_api
      · exact fun b hb => List.mem_singleton.mp hb ▸ unambiguous_api
    · have h := (report_decides.1 twoCopies g hg _ _).1.mp hsuccess
      exact not_unambiguous_services (h.2 _ List.mem_cons_self)
  · have hfault : (manifests unresolved [] >>= Graph.build) =
        .error (.unresolvedDependency "api" "lib") := rfl
    obtain ⟨report, announced, hv, hr, _⟩ :=
      report_decides.2 ⟨.directory [], []⟩ "." unresolved [] _ rfl hfault
    exact ⟨report, announced, hv, hr⟩

end Isolation
