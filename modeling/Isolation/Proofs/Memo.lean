import Isolation.Closure.Memo
import Isolation.Proofs.Reachability

/-!
# A memo that answers as the graph does

A memo is FAITHFUL when what it stores under a root is the closure of that root. The empty memo is,
and no atomic step of a request leads out of the faithful memos: this file fixes that step
(`Request.step_spec`) and what follows from it.

* `Memo.get_spec`, `Inquiry.run_spec`, `Inquiry.runAll_spec` -- through a faithful memo every
  request, every inquiry and every sequence of inquiries is answered as by the graph itself;
* **`Task.step_spec`** -- so is every task, whatever steps of other tasks lie between its own: a
  step keeps the answer the task is going to give (`Task.outcome`), and it brings the task nearer
  to it (`Task.due`);
* `not_forall_step_of_lt`, `exists_over_of_lt` -- runs whose every step leaves fewer steps to do come
  to an end.
-/

namespace Isolation

variable {g : Graph} {memo : Memo}

/-! ## 1. Requests -/

/-- What a memo stores is the closure of the root under which it is stored. -/
def Memo.Faithful (g : Graph) (memo : Memo) : Prop :=
  ∀ root c, memo.closures.get? root = some c → g.closure root = .ok c

theorem Memo.faithful_empty : Memo.empty.Faithful g := fun _ _ h => nomatch h

theorem Memo.Faithful.putNew {root : Identity} {c : NameSet} (h : memo.Faithful g)
    (hc : g.closure root = .ok c) : Memo.Faithful g ⟨memo.closures.putNew root c⟩ := by
  intro r c' hr
  rw [NameMap.get?_putNew] at hr
  split at hr
  · rename_i e
    subst e
    cases hm : memo.closures.get? root with
    | none =>
      rw [hm] at hr
      cases hr
      exact hc
    | some d =>
      rw [hm] at hr
      cases hr
      exact h root d hm
  · exact h r c' hr

namespace Request

/-- A request that is to store something is to store the closure of its root. -/
def Faithful (g : Graph) : Request → Prop
  | .computed root c => g.closure root = .ok c
  | _ => True

/-- The answer that a request is going to have. -/
def promise (g : Graph) : Request → ClosureAnswer
  | .begun root => g.closure root
  | .missed root => g.closure root
  | .computed root _ => g.closure root
  | .answered a => a

/-- **One atomic step of a request**: memo and request stay faithful, and the answer that the
    request is going to have stays the same. -/
theorem step_spec {r : Request} (hm : memo.Faithful g) (hr : r.Faithful g) :
    (r.step g memo).1.Faithful g ∧ (r.step g memo).2.Faithful g ∧
      (r.step g memo).2.promise g = r.promise g := by
  cases r with
  | begun root =>
    rw [step]
    cases h : memo.closures.get? root with
    | none => exact ⟨hm, trivial, rfl⟩
    | some c => exact ⟨hm, trivial, (hm root c h).symm⟩
  | missed root =>
    rw [step]
    cases h : g.closure root with
    | ok c => exact ⟨hm, h, rfl⟩
    | error f => exact ⟨hm, trivial, h.symm⟩
  | computed root c =>
    have hm' := hm.putNew hr
    refine ⟨hm', trivial, ?_⟩
    -- the answer is read back from the memo, where another request may have stored it before
    have hget : (memo.closures.putNew root c).get? root =
        some ((memo.closures.get? root).getD c) := by
      rw [NameMap.get?_putNew, if_pos rfl]
    show Except.ok (((memo.closures.putNew root c).get? root).getD c) = g.closure root
    rw [hget, Option.getD_some]
    exact (hm' root _ hget).symm
  | answered a => exact ⟨hm, trivial, rfl⟩

end Request

/-! ## 2. Requests and inquiries carried out undisturbed -/

namespace Memo

variable {root : Identity} {c : NameSet}

theorem get_of_hit (h : memo.closures.get? root = some c) : memo.get g root = (.ok c, memo) := by
  simp [get, Request.step, h]

theorem get_of_miss (h : memo.closures.get? root = none) (hc : g.closure root = .ok c) :
    memo.get g root = (.ok c, ⟨memo.closures.putNew root c⟩) := by
  simp [get, Request.step, h, hc, NameMap.get?_putNew]

theorem get_of_error {f : Fault} (h : memo.closures.get? root = none)
    (hf : g.closure root = .error f) : memo.get g root = (.error f, memo) := by
  simp [get, Request.step, h, hf]

/-- A request through a faithful memo is answered as by the graph. -/
theorem get_spec (hm : memo.Faithful g) :
    (memo.get g root).1 = g.closure root ∧ (memo.get g root).2.Faithful g := by
  cases h : memo.closures.get? root with
  | some c =>
    rw [get_of_hit h]
    exact ⟨(hm root c h).symm, hm⟩
  | none =>
    cases hc : g.closure root with
    | ok c =>
      rw [get_of_miss h hc]
      exact ⟨rfl, hm.putNew hc⟩
    | error f =>
      rw [get_of_error h hc]
      exact ⟨rfl, hm⟩

end Memo

namespace Inquiry

variable {α β : Type}

@[simp] theorem answerIn_map (f : α → β) (q : Inquiry α) :
    (q.map f).answerIn g = f (q.answerIn g) := by
  induction q with
  | answer a => rfl
  | ask root next ih => exact ih (g.closure root)

/-- **An inquiry through a faithful memo is answered as by the graph**, and leaves it faithful. -/
theorem run_spec (q : Inquiry α) (hm : memo.Faithful g) :
    (q.run g memo).1 = q.answerIn g ∧ (q.run g memo).2.Faithful g := by
  induction q generalizing memo with
  | answer a => exact ⟨rfl, hm⟩
  | ask root next ih =>
    obtain ⟨ha, hm'⟩ : (memo.get g root).1 = g.closure root ∧ (memo.get g root).2.Faithful g :=
      Memo.get_spec hm
    show ((next (memo.get g root).1).run g (memo.get g root).2).1 =
        (next (g.closure root)).answerIn g ∧
      ((next (memo.get g root).1).run g (memo.get g root).2).2.Faithful g
    rw [ha]
    exact ih (g.closure root) hm'

theorem runAll_spec (qs : List (Inquiry α)) (hm : memo.Faithful g) :
    (runAll g memo qs).1 = qs.map (answerIn g) ∧ (runAll g memo qs).2.Faithful g := by
  induction qs generalizing memo with
  | nil => exact ⟨rfl, hm⟩
  | cons q qs ih =>
    obtain ⟨ha, hm'⟩ := q.run_spec hm
    obtain ⟨hs, hm''⟩ := ih hm'
    refine ⟨?_, hm''⟩
    show (q.run g memo).1 :: (runAll g (q.run g memo).2 qs).1 = _
    rw [ha, hs, List.map_cons]

end Inquiry

/-! ## 3. Tasks among others -/

/-- The steps that an inquiry takes at most, when its closures are those of the graph. -/
def Inquiry.due {α : Type} (g : Graph) : Inquiry α → Nat
  | .answer _ => 0
  | .ask root next => 3 + (next (g.closure root)).due g

/-- The steps that a request takes at most until it is answered. -/
def Request.due : Request → Nat
  | .begun _ => 3
  | .missed _ => 2
  | .computed _ _ => 1
  | .answered _ => 0

namespace Task

variable {α : Type}

/-- A task waits for a request that is not answered yet and is faithful. -/
def Faithful (g : Graph) : Task α → Prop
  | .waiting request _ => request.Faithful g ∧ 0 < request.due
  | .finished _ => True

/-- The answer that a task is going to give. -/
def outcome (g : Graph) : Task α → α
  | .waiting request next => (next (request.promise g)).answerIn g
  | .finished a => a

/-- The steps that a task takes at most until it has answered. -/
def due (g : Graph) : Task α → Nat
  | .waiting request next => request.due + (next (request.promise g)).due g
  | .finished _ => 0

theorem faithful_ofInquiry (q : Inquiry α) : (ofInquiry q).Faithful g := by
  cases q with
  | answer a => trivial
  | ask root next => exact ⟨trivial, Nat.succ_pos 2⟩

theorem outcome_ofInquiry (q : Inquiry α) : (ofInquiry q).outcome g = q.answerIn g := by
  cases q <;> rfl

theorem due_ofInquiry (q : Inquiry α) : (ofInquiry q).due g = q.due g := by
  cases q <;> rfl

end Task

/-- A step of a request that is not answered yet brings it nearer to its answer. -/
theorem Request.due_step_lt {r : Request} (h : 0 < r.due) : (r.step g memo).2.due < r.due := by
  cases r with
  | begun root =>
    rw [step]
    cases memo.closures.get? root with
    | none => exact Nat.lt_succ_self 2
    | some c => exact Nat.succ_pos 2
  | missed root =>
    rw [step]
    cases g.closure root with
    | ok c => exact Nat.lt_succ_self 1
    | error f => exact Nat.succ_pos 1
  | computed root c => exact Nat.succ_pos 0
  | answered a => exact absurd h (Nat.lt_irrefl 0)

namespace Task

variable {α : Type} {request : Request} {next : ClosureAnswer → Inquiry α}

/-- **One step of a waiting task among others**: the memo and the task stay faithful, the answer
    that the task is going to give stays the same, and fewer steps are left. -/
theorem step_spec (hm : memo.Faithful g) (ht : (waiting request next).Faithful g) :
    ((waiting request next).step g memo).1.Faithful g ∧
      ((waiting request next).step g memo).2.Faithful g ∧
      ((waiting request next).step g memo).2.outcome g = (waiting request next).outcome g ∧
      ((waiting request next).step g memo).2.due g < (waiting request next).due g := by
  obtain ⟨hr, hd⟩ := ht
  obtain ⟨hm', hr', hp⟩ := Request.step_spec hm hr
  have hlt : (request.step g memo).2.due < request.due := Request.due_step_lt hd
  rw [outcome, due, ← hp]
  rw [step]
  generalize hs : request.step g memo = s at hm' hr' hlt
  obtain ⟨memo', request'⟩ := s
  cases request' with
  | answered c =>
    refine ⟨hm', faithful_ofInquiry _, outcome_ofInquiry _, ?_⟩
    show (ofInquiry (next c)).due g < request.due + (next c).due g
    rw [due_ofInquiry]
    omega
  | begun root => exact ⟨hm', ⟨hr', Nat.succ_pos 2⟩, rfl, Nat.add_lt_add_right hlt _⟩
  | missed root => exact ⟨hm', ⟨hr', Nat.succ_pos 1⟩, rfl, Nat.add_lt_add_right hlt _⟩
  | computed root c => exact ⟨hm', ⟨hr', Nat.succ_pos 0⟩, rfl, Nat.add_lt_add_right hlt _⟩

end Task

/-! ## 4. Runs -/

section Runs

variable {σ : Type} {Step : σ → σ → Prop} {Inv Over : σ → Prop} {left : σ → Nat}

/-- Steps that keep an invariant and leave ever fewer steps to do do not go on for ever. -/
theorem not_forall_step_of_lt (h : ∀ s s', Step s s' → Inv s → Inv s' ∧ left s' < left s)
    {run : Nat → σ} (h0 : Inv (run 0)) : ¬ ∀ n, Step (run n) (run (n + 1)) := by
  intro hs
  have hrun : ∀ n, Inv (run n) ∧ left (run n) + n ≤ left (run 0) := by
    intro n
    induction n with
    | zero => exact ⟨h0, Nat.le_refl _⟩
    | succ n ih =>
      obtain ⟨hinv, hleft⟩ := ih
      obtain ⟨hinv', hlt⟩ := h _ _ (hs n) hinv
      exact ⟨hinv', by omega⟩
  have h := (hrun (left (run 0) + 1)).2
  omega

/-- Where such steps can be taken until a run is over, some sequence of them leads to the end. -/
theorem exists_over_of_lt (h : ∀ s s', Step s s' → Inv s → Inv s' ∧ left s' < left s)
    (hp : ∀ s, Over s ∨ ∃ s', Step s s') {s : σ} (hs : Inv s) :
    ∃ s', Relation.ReflTransGen Step s s' ∧ Over s' := by
  induction hn : left s using Nat.strongRecOn generalizing s with
  | _ n ih =>
    rcases hp s with ho | ⟨s', hstep⟩
    · exact ⟨s, .refl, ho⟩
    · obtain ⟨hs', hlt⟩ := h s s' hstep hs
      obtain ⟨s'', hr, ho⟩ := ih (left s') (hn ▸ hlt) hs' rfl
      exact ⟨s'', .head hstep hr, ho⟩

end Runs

end Isolation
