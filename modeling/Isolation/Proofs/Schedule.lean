import Isolation.Proofs.Verdicts
import Isolation.Schedule
import Mathlib.Logic.Relation

/-!
# Checks that run among each other report as if alone

A run of the checks is any sequence of steps: whose turn it is, and which task that has answered is
joined next, is left open. This file finds the invariant of these steps and what follows from it:

* `Pool.Sound` -- each answer is either joined or still to be given by one running task, under its
  number and once; `Pool.Step.spec` -- every step keeps this and the faithfulness of the memo, and
  leaves fewer steps to do;
* `Pool.Sound.inOrder_eq` -- when no task is left, putting the joined answers in the order of
  their numbers gives the answers of the inquiries in their order, whatever the order of joining;
* **`report_independent_of_schedule`** -- so every run ends, none gets stuck, and the report at the
  end is the one that the checks give one after another, which is the one that each gives alone.
-/

namespace Isolation

variable {g : Graph}

namespace Pool

variable {α : Type} {answers : List α} {p p' : Pool α} {memo memo' : Memo}

/-! ## 1. The answers in their order -/

/-- **Putting numbered answers in order undoes every order of joining.** -/
theorem inOrder_eq_of_perm (h : p.joined.Perm answers.zipIdx) : p.inOrder = answers := by
  have hsorted : (sortedBy (compareOn Prod.snd) p.joined).Pairwise fun a b => a.2 ≤ b.2 := by
    refine (pairwise_sortedBy p.joined).imp fun {a b} hab => ?_
    exact Nat.isLE_compare.mp hab
  have hnumbered : answers.zipIdx.Pairwise fun a b => a.2 ≤ b.2 := by
    have hlt : (answers.zipIdx.map Prod.snd).Pairwise (· < ·) := by
      rw [List.zipIdx_map_snd]
      exact List.pairwise_lt_range'
    exact (List.pairwise_map.mp hlt).imp Nat.le_of_lt
  have heq : sortedBy (compareOn Prod.snd) p.joined = answers.zipIdx := by
    refine List.Perm.eq_of_pairwise ?_ hsorted hnumbered ((sortedBy_perm _ _).trans h)
    -- one number stands for one answer
    intro a b ha hb hab hba
    have ha := (((sortedBy_perm _ _).trans h).mem_iff).mp ha
    rw [List.mem_zipIdx_iff_getElem?] at ha hb
    have hn : a.2 = b.2 := Nat.le_antisymm hab hba
    rw [hn, hb] at ha
    exact Prod.ext (Option.some.inj ha).symm hn
  rw [inOrder, heq, List.zipIdx_map_fst]

/-! ## 2. Steps in a pool -/

/-- The running tasks are faithful, and each answer is joined or going to be given, once and
    under its number. -/
structure Sound (g : Graph) (answers : List α) (p : Pool α) : Prop where
  faithful : ∀ t ∈ p.running, t.1.Faithful g
  accounted : (p.joined ++ p.running.map fun t => (t.1.outcome g, t.2)).Perm answers.zipIdx

/-- At most so many steps are left: those of the tasks, and one to join each. -/
def due (g : Graph) (p : Pool α) : Nat := (p.running.map fun t => t.1.due g + 1).sum

theorem sound_start (qs : List (Inquiry α)) :
    (start qs).Sound g (qs.map (Inquiry.answerIn g)) where
  faithful t ht := by
    have ht : t.1 ∈ qs.map Task.ofInquiry := List.fst_mem_of_mem_zipIdx ht
    obtain ⟨q, _, hq⟩ := List.mem_map.mp ht
    rw [← hq]
    exact Task.faithful_ofInquiry q
  accounted := by
    have hout : qs.map (Inquiry.answerIn g) =
        (qs.map Task.ofInquiry).map (Task.outcome g) := by
      rw [List.map_map]
      exact List.map_congr_left fun q _ => (Task.outcome_ofInquiry q).symm
    rw [hout, List.zipIdx_map]
    exact .refl _

/-- **Every step in a pool** keeps memo and pool sound and leaves fewer steps to do. -/
theorem Step.spec (hs : Step g (memo, p) (memo', p')) (hm : memo.Faithful g)
    (hp : p.Sound g answers) :
    memo'.Faithful g ∧ p'.Sound g answers ∧ p'.due g < p.due g := by
  obtain ⟨hf, ha⟩ := hp
  cases hs with
  | advance _ before after joined request next i =>
    obtain ⟨hm', ht, hout, hdue⟩ := Task.step_spec hm
      (hf _ (List.mem_append_right _ List.mem_cons_self))
    refine ⟨hm', ⟨fun t h => ?_, ?_⟩, ?_⟩
    · rcases List.mem_append.mp h with h | h
      · exact hf t (List.mem_append_left _ h)
      · rcases List.mem_cons.mp h with rfl | h
        · exact ht
        · exact hf t (List.mem_append_right _ (List.mem_cons_of_mem _ h))
    · simp only [List.map_append, List.map_cons, hout] at ha ⊢
      exact ha
    · simp only [due, List.map_append, List.map_cons, List.sum_append, List.sum_cons]
      omega
  | join _ before after joined a i =>
    refine ⟨hm, ⟨fun t h => hf t ?_, ?_⟩, ?_⟩
    · exact (List.mem_append.mp h).elim (List.mem_append_left _)
        fun h => List.mem_append_right _ (List.mem_cons_of_mem _ h)
    · -- the answer moves from the running tasks to the joined ones
      refine .trans ?_ ha
      simp only [List.map_append, List.map_cons, List.append_assoc, List.singleton_append]
      exact (List.perm_middle.symm).append_left joined
    · simp only [due, List.map_append, List.map_cons, List.sum_append, List.sum_cons, Task.due]
      omega

/-- While a task is left, some step can be taken. -/
theorem exists_step (memo : Memo) (h : p.running ≠ []) :
    ∃ memo' p', Step g (memo, p) (memo', p') := by
  obtain ⟨running, joined⟩ := p
  obtain ⟨⟨t, i⟩, rest, rfl⟩ := List.exists_cons_of_ne_nil h
  cases t with
  | waiting request next => exact ⟨_, _, .advance memo [] rest joined request next i⟩
  | finished a => exact ⟨_, _, .join memo [] rest joined a i⟩

theorem Sound.inOrder_eq (h : p.Sound g answers) (hr : p.running = []) : p.inOrder = answers := by
  refine inOrder_eq_of_perm ?_
  have ha := h.accounted
  rw [hr, List.map_nil, List.append_nil] at ha
  exact ha

end Pool

/-! ## 3. Steps of a run -/

namespace Checking

variable {bounds : List (Identity × Bound)} {bundles : List Bundle} {c c' : Checking}

/-- The memo is faithful, and both pools are sound for what the graph answers. -/
structure Sound (g : Graph) (bounds : List (Identity × Bound)) (bundles : List Bundle)
    (c : Checking) : Prop where
  memo : c.memo.Faithful g
  bounds : c.bounds.Sound g (bounds.map fun p => (p.1, (p.2.check p.1).answerIn g))
  bundles : c.bundles.Sound g (bundles.map fun b => (b, (b.conflicts g).answerIn g))

/-- At most so many steps are left. -/
def due (g : Graph) (c : Checking) : Nat := c.bounds.due g + c.bundles.due g

theorem sound_start (g : Graph) (bounds : List (Identity × Bound)) (bundles : List Bundle) :
    (start g bounds bundles).Sound g bounds bundles where
  memo := Memo.faithful_empty
  bounds := by
    have h := Pool.sound_start (g := g) (bounds.map fun p => (p.2.check p.1).map fun r => (p.1, r))
    rw [List.map_map] at h
    simp only [Function.comp_def, Inquiry.answerIn_map] at h
    exact h
  bundles := by
    have h := Pool.sound_start (g := g) (bundles.map fun b => (b.conflicts g).map fun r => (b, r))
    rw [List.map_map] at h
    simp only [Function.comp_def, Inquiry.answerIn_map] at h
    exact h

/-- **Every step of a run** keeps it sound and leaves fewer steps to do. -/
theorem Step.spec (hs : Step g c c') (hc : c.Sound g bounds bundles) :
    c'.Sound g bounds bundles ∧ c'.due g < c.due g := by
  cases hs with
  | bound memo pool h =>
    obtain ⟨hm, hp, hlt⟩ := h.spec hc.memo hc.bounds
    exact ⟨⟨hm, hp, hc.bundles⟩, Nat.add_lt_add_right hlt _⟩
  | bundle memo pool h =>
    obtain ⟨hm, hp, hlt⟩ := h.spec hc.memo hc.bundles
    exact ⟨⟨hm, hc.bounds, hp⟩, Nat.add_lt_add_left hlt _⟩

theorem sound_of_reachable (h : Relation.ReflTransGen (Step g) (start g bounds bundles) c) :
    c.Sound g bounds bundles := by
  induction h with
  | refl => exact sound_start g bounds bundles
  | tail _ hs ih => exact (hs.spec ih).1

theorem isOver_or_exists_step (g : Graph) (c : Checking) : c.IsOver ∨ ∃ c', Step g c c' := by
  by_cases hb : c.bounds.running = []
  · by_cases hu : c.bundles.running = []
    · exact Or.inl ⟨hb, hu⟩
    · obtain ⟨memo, pool, h⟩ := Pool.exists_step (g := g) c.memo hu
      exact Or.inr ⟨_, .bundle c memo pool h⟩
  · obtain ⟨memo, pool, h⟩ := Pool.exists_step (g := g) c.memo hb
    exact Or.inr ⟨_, .bound c memo pool h⟩

/-- No sequence of steps goes on for ever. -/
theorem not_forall_step {run : Nat → Checking} (h0 : run 0 = start g bounds bundles) :
    ¬ ∀ n, Step g (run n) (run (n + 1)) :=
  not_forall_step_of_lt (fun _ _ hs hc => hs.spec hc) (h0 ▸ sound_start g bounds bundles)

/-- From every sound state some sequence of steps leads to the end. -/
theorem Sound.exists_isOver (h : c.Sound g bounds bundles) :
    ∃ c', Relation.ReflTransGen (Step g) c c' ∧ c'.IsOver :=
  exists_over_of_lt (fun _ _ hs hc => hs.spec hc) (isOver_or_exists_step g) h

theorem Sound.report_eq (h : c.Sound g bounds bundles) (ho : c.IsOver) :
    c.report = runChecks g bounds bundles := by
  have hv : c.report.verdicts = (runChecks g bounds bundles).verdicts := by
    rw [report, h.bounds.inOrder_eq ho.1, h.bundles.inOrder_eq ho.2, verdicts_runChecks,
      Report.ofChecks, List.map_map, List.flatMap_map]
    rfl
  exact congrArg Report.mk hv

/-- **A report does not depend on the schedule, and no check on another.** However the steps of
    the checks on the shared memo follow one another and in whatever order the checks are joined:
    the run ends, it never gets stuck before, and its report is that of the checks carried out one
    after another. That report has the verdicts that each check gives alone on an empty memo, bounds
    before bundles and each in the order given; and what those are, is decided by the graph. -/
theorem report_independent_of_schedule (g : Graph) (bounds : List (Identity × Bound))
    (bundles : List Bundle) :
    (∀ run : Nat → Checking, run 0 = start g bounds bundles →
      ¬ ∀ n, Step g (run n) (run (n + 1))) ∧
    (∃ c, Relation.ReflTransGen (Step g) (start g bounds bundles) c ∧ c.IsOver) ∧
    (∀ c, Relation.ReflTransGen (Step g) (start g bounds bundles) c →
      (c.IsOver ∨ ∃ c', Step g c c') ∧
      (c.IsOver → c.report = runChecks g bounds bundles ∧
        c.report.verdicts = bounds.flatMap (fun p => (runChecks g [p] []).verdicts) ++
          bundles.flatMap fun b => (runChecks g [] [b]).verdicts)) ∧
    (∀ root b, BoundVerdicts g root b (runChecks g [(root, b)] []).verdicts) ∧
    ∀ b, BundleVerdicts g b (runChecks g [] [b]).verdicts := by
  refine ⟨fun run h0 => not_forall_step h0, (sound_start g bounds bundles).exists_isOver,
    fun c hc => ⟨isOver_or_exists_step g c, fun ho => ?_⟩,
    boundVerdicts_runChecks g, bundleVerdicts_runChecks g⟩
  have hreport := (sound_of_reachable hc).report_eq ho
  refine ⟨hreport, ?_⟩
  rw [hreport]
  exact verdicts_runChecks_eq_append bounds bundles

end Checking

end Isolation
