import Isolation.Proofs.Ambiguity
import Isolation.Verify

/-!
# What a report says about each check

The checks of a run share a memo, so what a check answers could depend on the checks before it. This
file fixes that it does not, and what the verdicts on one check are:

* `verdicts_runChecks` -- the verdicts of a run, read from the graph alone;
* **`verdicts_runChecks_eq_append`** -- they are those that each check gives alone, bounds first;
* `BoundVerdicts`, `BundleVerdicts` -- the verdicts that a bound and a bundle can give, with what
  holds in the graph in each case; `boundVerdicts_runChecks`, `bundleVerdicts_runChecks` -- they
  give no others;
* `Verdict.ofConflict_of_mem` -- a verdict on a conflict leaves out repeated subjects, and there are
  none;
* `isSuccess_runChecks_iff` -- when all of them pass.

NOT here: other orders of the checks' steps (`Isolation.Proofs.Schedule`).
-/

namespace Isolation

variable {g : Graph}

/-! ## 1. The verdicts of a run -/

theorem verdicts_runChecks (bounds : List (Identity × Bound)) (bundles : List Bundle) :
    (runChecks g bounds bundles).verdicts =
      bounds.map (fun p => Verdict.ofFinding p.1 ((p.2.check p.1).answerIn g)) ++
        bundles.flatMap fun b => Verdict.ofBundle b ((b.conflicts g).answerIn g) := by
  obtain ⟨hf, hm⟩ := Inquiry.runAll_spec (bounds.map fun p => p.2.check p.1)
    (Memo.faithful_empty (g := g))
  obtain ⟨hc, _⟩ := Inquiry.runAll_spec (bundles.map fun b => b.conflicts g) hm
  have hbounds : (bounds.map Prod.fst).zip (bounds.map fun p => (p.2.check p.1).answerIn g) =
      bounds.map fun p => (p.1, (p.2.check p.1).answerIn g) := List.zip_map' ..
  have hbundles : bundles.zip (bundles.map fun b => (b.conflicts g).answerIn g) =
      bundles.map fun b => (b, (b.conflicts g).answerIn g) := by
    rw [← List.map_prod_left_eq_zip]
  rw [List.map_map] at hf hc
  show (Report.ofChecks ((bounds.map Prod.fst).zip _) (bundles.zip _)).verdicts = _
  rw [hf, hc]
  simp only [Function.comp_def, hbounds, hbundles, Report.ofChecks, List.map_map,
    List.flatMap_map]

theorem verdicts_runChecks_bound (p : Identity × Bound) :
    (runChecks g [p] []).verdicts = [Verdict.ofFinding p.1 ((p.2.check p.1).answerIn g)] := by
  rw [verdicts_runChecks]
  rfl

theorem verdicts_runChecks_bundle (b : Bundle) :
    (runChecks g [] [b]).verdicts = Verdict.ofBundle b ((b.conflicts g).answerIn g) := by
  rw [verdicts_runChecks]
  exact List.append_nil _

/-- **A run reports what each of its checks reports alone**, bounds first, in the order given. -/
theorem verdicts_runChecks_eq_append (bounds : List (Identity × Bound)) (bundles : List Bundle) :
    (runChecks g bounds bundles).verdicts =
      bounds.flatMap (fun p => (runChecks g [p] []).verdicts) ++
        bundles.flatMap fun b => (runChecks g [] [b]).verdicts := by
  simp only [verdicts_runChecks_bound, verdicts_runChecks_bundle]
  rw [verdicts_runChecks, List.map_eq_flatMap]

/-! ## 2. The verdicts on one check -/

/-- The verdicts that a bound on a root can give: one on the size of its closure, or one that
    the root is unknown. -/
inductive BoundVerdicts (g : Graph) (root : Identity) (b : Bound) : List Verdict → Prop where
  | counted {c : NameSet} (h : g.closure root = .ok c) :
    BoundVerdicts g root b [⟨.tier, [root], decide ((c.filter b.counts).size ≤ b.max),
      (b.finding root c).message⟩]
  | unknown (h : g.get? root = none) :
    BoundVerdicts g root b [⟨.structural, [root], false, (Fault.unknownModule root).message⟩]

/-- The verdicts that a bundle can give: a passing one, a failing one for each ambiguous key in
    ascending order, or one that its first unknown member is unknown. -/
inductive BundleVerdicts (g : Graph) (b : Bundle) : List Verdict → Prop where
  | clean (hk : ∀ r ∈ b.members, g.Known r) (h : ∀ key, ¬ g.Ambiguous b.members key) :
    BundleVerdicts g b [⟨.ambiguousImport, b.members, true,
      b.label ++ " resolves without ambiguous imports"⟩]
  | conflicted {cs : List Conflict} (hk : ∀ r ∈ b.members, g.Known r) (hne : cs ≠ [])
    (hkeys : ∀ key, key ∈ cs.map Conflict.key ↔ g.Ambiguous b.members key)
    (hasc : (cs.map Conflict.key).Pairwise (· < ·)) :
    BundleVerdicts g b (cs.map fun c => ⟨.ambiguousImport, c.candidates.map Candidate.module, false,
      b.label ++ ": " ++ c.message⟩)
  | unknown {before after : List Identity} {x : Identity} (hb : b.members = before ++ x :: after)
    (hk : ∀ r ∈ before, g.Known r) (h : g.get? x = none) :
    BundleVerdicts g b [⟨.structural, b.members, false, (Fault.unknownModule x).message⟩]

/-- The modules that compete are distinct, so all of them are subjects of the verdict. -/
theorem Verdict.ofConflict_of_mem {b : Bundle} {roots : List Identity} {c : Conflict}
    (h : c ∈ conflictsAmong g (g.pulled roots)) :
    Verdict.ofConflict b c = ⟨.ambiguousImport, c.candidates.map Candidate.module, false,
      b.label ++ ": " ++ c.message⟩ := by
  rw [Verdict.ofConflict, eraseReps_of_nodup (Graph.nodup_map_module_of_mem h)]

theorem boundVerdicts_runChecks (g : Graph) (root : Identity) (b : Bound) :
    BoundVerdicts g root b (runChecks g [(root, b)] []).verdicts := by
  rw [verdicts_runChecks_bound]
  show BoundVerdicts g root b [Verdict.ofFinding root ((g.closure root).map (b.finding root))]
  cases h : g.closure root with
  | ok c => exact .counted h
  | error f =>
    obtain ⟨hr, rfl⟩ := Graph.closure_eq_error_iff.mp h
    exact .unknown hr

theorem bundleVerdicts_runChecks (g : Graph) (b : Bundle) :
    BundleVerdicts g b (runChecks g [] [b]).verdicts := by
  rw [verdicts_runChecks_bundle]
  rcases Graph.known_or_exists_first_unknown b.members with hk | ⟨before, x, after, hb, hk, hx⟩
  · rw [Bundle.answerIn_conflicts_of_known hk]
    have hkeys : ∀ key, key ∈ (conflictsAmong g (g.pulled b.members)).map Conflict.key ↔
        g.Ambiguous b.members key := fun _ => Graph.mem_keys_conflictsAmong
    have hasc := Graph.pairwise_keys_conflictsAmong (g := g) (g.pulled b.members)
    cases hcs : conflictsAmong g (g.pulled b.members) with
    | nil => exact .clean hk (Graph.conflictsAmong_eq_nil_iff.mp hcs)
    | cons c cs =>
      have hverdicts : (c :: cs).map (Verdict.ofConflict b) = (c :: cs).map fun c =>
          ⟨.ambiguousImport, c.candidates.map Candidate.module, false,
            b.label ++ ": " ++ c.message⟩ :=
        List.map_congr_left fun c' hc => Verdict.ofConflict_of_mem (hcs ▸ hc)
      rw [hcs] at hkeys hasc
      rw [Verdict.ofBundle, hverdicts]
      exact .conflicted hk (List.cons_ne_nil c cs) hkeys hasc
  · rw [Bundle.answerIn_conflicts_of_unknown hb hk hx]
    exact .unknown hb hk hx

/-! ## 3. Success -/

theorem BoundVerdicts.all_passed_iff {root : Identity} {b : Bound} {vs : List Verdict}
    (h : BoundVerdicts g root b vs) : vs.all Verdict.passed = true ↔
      ∃ c, g.closure root = .ok c ∧ (c.filter b.counts).size ≤ b.max := by
  cases h with
  | counted h => simp [h]
  | unknown h => simp [Graph.closure_of_get?_eq_none h]

theorem BundleVerdicts.all_passed_iff {b : Bundle} {vs : List Verdict}
    (h : BundleVerdicts g b vs) : vs.all Verdict.passed = true ↔
      (∀ r ∈ b.members, g.Known r) ∧ ∀ key, ¬ g.Ambiguous b.members key := by
  cases h with
  | clean hk h => exact iff_of_true rfl ⟨hk, h⟩
  | @conflicted cs hk hne hkeys hasc =>
    obtain ⟨c, cs, rfl⟩ := List.exists_cons_of_ne_nil hne
    have hc := (hkeys c.key).mp List.mem_cons_self
    exact iff_of_false Bool.false_ne_true fun h => h.2 c.key hc
  | @unknown before after x hb hk h =>
    refine iff_of_false Bool.false_ne_true fun hall => ?_
    obtain ⟨m, hm⟩ := hall.1 x (hb ▸ List.mem_append_right _ List.mem_cons_self)
    rw [h] at hm
    cases hm

/-- **A run succeeds exactly when every bound is kept and every bundle is clean.** -/
theorem isSuccess_runChecks_iff {bounds : List (Identity × Bound)} {bundles : List Bundle} :
    (runChecks g bounds bundles).isSuccess = true ↔
      (∀ p ∈ bounds, ∃ c, g.closure p.1 = .ok c ∧ (c.filter p.2.counts).size ≤ p.2.max) ∧
      ∀ b ∈ bundles, (∀ r ∈ b.members, g.Known r) ∧ ∀ key, ¬ g.Ambiguous b.members key := by
  rw [Report.isSuccess, verdicts_runChecks_eq_append, List.all_append, Bool.and_eq_true,
    List.all_flatMap, List.all_flatMap, List.all_eq_true, List.all_eq_true]
  simp only [(boundVerdicts_runChecks g _ _).all_passed_iff,
    (bundleVerdicts_runChecks g _).all_passed_iff]

end Isolation
