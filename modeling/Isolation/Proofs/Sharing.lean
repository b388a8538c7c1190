import Isolation.Closure.Sharing
import Isolation.Distinct
import Isolation.Proofs.Ambiguity
import Mathlib.Data.List.Perm.Basic

/-!
# A memo that serves many threads

Threads share a memo and take turns in any order. This file finds what holds between any two of
their steps (`Sharing.Sound`) and what follows from it:

* `Request.Serves.step` -- one atomic step of a request keeps what is stored (`Memo.Keeps`), stores
  at most the closure of its own root, and nothing for an identity without a module;
* `Client.step_spec` -- so does one step of a thread, which goes on making the same requests and has
  fewer steps left;
* `Sharing.Step.spec`, `Sharing.sound_of_reachable` -- so does every sequence of steps;
* **`memo_serves_any_interleaving`** -- so every run ends with each request answered as by the graph,
  and with the closures of the requested modules stored, each of them once and for good.

NOT here: checks, which ask for a closure that depends on the answers before
(`Isolation.Proofs.Schedule`).
-/

namespace Isolation

variable {g : Graph} {memo memo' : Memo} {root : Identity}

/-! ## 1. What a memo keeps -/

/-- What is stored stays stored, and stays the same. -/
def Memo.Keeps (memo memo' : Memo) : Prop :=
  ∀ root c, memo.closures.get? root = some c → memo'.closures.get? root = some c

theorem Memo.Keeps.refl (memo : Memo) : memo.Keeps memo := fun _ _ h => h

theorem Memo.Keeps.trans {memo'' : Memo} (h : memo.Keeps memo') (h' : memo'.Keeps memo'') :
    memo.Keeps memo'' := fun root c hc => h' root c (h root c hc)

theorem Memo.keeps_putNew (memo : Memo) (root : Identity) (c : NameSet) :
    memo.Keeps ⟨memo.closures.putNew root c⟩ := by
  intro x d hx
  rw [NameMap.get?_putNew]
  split
  · rename_i e
    rw [e, hx, Option.getD_some]
  · exact hx

/-- A memo stores a closure only under an identity that the graph has a module for. -/
theorem Memo.Faithful.exists_get? (h : memo.Faithful g) {c : NameSet}
    (hc : memo.closures.get? root = some c) : ∃ m, g.get? root = some m :=
  Graph.exists_closure_iff.mp ⟨c, h root c hc⟩

/-! ## 2. Requests for a root -/

namespace Request

/-- The request is for `root`, and what it has found out is right: it is to store the closure of
    `root`, it has answered with what is stored under `root`, or it has refused as the graph does. -/
def Serves (g : Graph) (memo : Memo) (root : Identity) : Request → Prop
  | .begun r => r = root
  | .missed r => r = root
  | .computed r c => r = root ∧ g.closure root = .ok c
  | .answered (.ok c) => memo.closures.get? root = some c
  | .answered (.error f) => g.closure root = .error f

variable {r : Request}

theorem Serves.faithful (h : r.Serves g memo root) : r.Faithful g := by
  cases r with
  | begun => trivial
  | missed => trivial
  | computed x c =>
    obtain ⟨rfl, hc⟩ := h
    exact hc
  | answered => trivial

theorem Serves.mono (h : r.Serves g memo root) (hk : memo.Keeps memo') :
    r.Serves g memo' root := by
  cases r with
  | begun => exact h
  | missed => exact h
  | computed => exact h
  | answered a =>
    cases a with
    | ok c => exact hk root c h
    | error f => exact h

/-- An answer is the closure in the graph. -/
theorem Serves.answer_eq {a : ClosureAnswer} (h : (answered a).Serves g memo root)
    (hm : memo.Faithful g) : a = g.closure root := by
  cases a with
  | ok c => exact (hm root c h).symm
  | error f => exact Eq.symm h

/-- **A step of a request for a root** leaves what is stored as it is, stores at most the closure of
    this root, and nothing when the graph has no module for it. -/
theorem Serves.step (h : r.Serves g memo root) :
    memo.Keeps (r.step g memo).1 ∧ (r.step g memo).2.Serves g (r.step g memo).1 root ∧
      (∀ x c, (r.step g memo).1.closures.get? x = some c →
        memo.closures.get? x = some c ∨ x = root) ∧
      (g.get? root = none → (r.step g memo).1 = memo) := by
  cases r with
  | begun x =>
    obtain rfl := h
    rw [Request.step]
    cases hx : memo.closures.get? x with
    | none => exact ⟨.refl memo, rfl, fun _ _ hy => Or.inl hy, fun _ => rfl⟩
    | some c => exact ⟨.refl memo, hx, fun _ _ hy => Or.inl hy, fun _ => rfl⟩
  | missed x =>
    obtain rfl := h
    rw [Request.step]
    cases hx : g.closure x with
    | ok c => exact ⟨.refl memo, ⟨rfl, hx⟩, fun _ _ hy => Or.inl hy, fun _ => rfl⟩
    | error f => exact ⟨.refl memo, hx, fun _ _ hy => Or.inl hy, fun _ => rfl⟩
  | computed x c =>
    obtain ⟨rfl, hc⟩ := h
    have hput : (memo.closures.putNew x c).get? x = some ((memo.closures.get? x).getD c) := by
      rw [NameMap.get?_putNew, if_pos rfl]
    refine ⟨memo.keeps_putNew x c, ?_, fun y d hy => ?_, fun hx => ?_⟩
    · show (memo.closures.putNew x c).get? x =
        some (((memo.closures.putNew x c).get? x).getD c)
      rw [hput, Option.getD_some]
    · have hy : (memo.closures.putNew x c).get? y = some d := hy
      rw [NameMap.get?_putNew] at hy
      split at hy
      · rename_i e
        exact Or.inr e.symm
      · exact Or.inl hy
    · rw [Graph.closure_of_get?_eq_none hx] at hc
      cases hc
  | answered a => exact ⟨.refl memo, h, fun _ _ hy => Or.inl hy, fun _ => rfl⟩

end Request

/-! ## 3. Threads -/

namespace Client

variable {c : Client} {r : Request}

/-- The roots of all requests of a thread: answered, in hand and still to be made. -/
def requests (c : Client) : List Identity :=
  c.answers.map Prod.fst ++ c.current.toList.map Prod.fst ++ c.due

/-- What the thread has found out is right, and the request in hand is not answered yet. -/
structure Sound (g : Graph) (memo : Memo) (c : Client) : Prop where
  current : ∀ p ∈ c.current, p.2.Serves g memo p.1 ∧ 0 < p.2.due
  answers : ∀ p ∈ c.answers, (Request.answered p.2).Serves g memo p.1

/-- At most so many steps are left: four for each request still to be made, and those of the request
    in hand. -/
def left (c : Client) : Nat := 4 * c.due.length + (c.current.map fun p => p.2.due).getD 0

theorem sound_start (roots : List Identity) : (start roots).Sound g memo :=
  ⟨fun _ h => (nomatch h), fun _ h => absurd h List.not_mem_nil⟩

theorem Sound.mono (h : c.Sound g memo) (hk : memo.Keeps memo') : c.Sound g memo' where
  current p hp := ⟨(h.current p hp).1.mono hk, (h.current p hp).2⟩
  answers p hp := (h.answers p hp).mono hk

theorem sound_take (ha : ∀ p ∈ c.answers, (Request.answered p.2).Serves g memo p.1)
    (hr : r.Serves g memo root) : (c.take root r).Sound g memo := by
  cases r with
  | answered a =>
    refine ⟨fun _ h => (nomatch h), fun p hp => ?_⟩
    rcases List.mem_append.mp hp with hp | hp
    · exact ha p hp
    · rw [List.mem_singleton.mp hp]
      exact hr
  | begun x =>
    refine ⟨fun p hp => ?_, ha⟩
    cases hp
    exact ⟨hr, Nat.succ_pos 2⟩
  | missed x =>
    refine ⟨fun p hp => ?_, ha⟩
    cases hp
    exact ⟨hr, Nat.succ_pos 1⟩
  | computed x d =>
    refine ⟨fun p hp => ?_, ha⟩
    cases hp
    exact ⟨hr, Nat.succ_pos 0⟩

theorem requests_take {request : Request} (h : c.current = some (root, request)) :
    (c.take root r).requests = c.requests := by
  cases r <;> simp [take, requests, h]

theorem left_take : (c.take root r).left = 4 * c.due.length + r.due := by
  cases r <;> rfl

/-- **The step of a thread that has something left to do**: it begins a request, or the request in
    hand takes a step. -/
theorem step_cases (g : Graph) (memo : Memo) (h : ¬ c.IsDone) :
    (∃ root due, c.current = none ∧ c.due = root :: due ∧
      c.step g memo = (memo, { c with due, current := some (root, .begun root) })) ∨
    ∃ root request, c.current = some (root, request) ∧
      c.step g memo = ((request.step g memo).1, c.take root (request.step g memo).2) := by
  obtain ⟨due, current, answers⟩ := c
  cases current with
  | some p => exact Or.inr ⟨p.1, p.2, rfl, rfl⟩
  | none =>
    cases due with
    | nil => exact absurd ⟨rfl, rfl⟩ h
    | cons root due => exact Or.inl ⟨root, due, rfl, rfl, rfl⟩

/-- **One step of a thread.** The memo stays faithful and keeps what it has, and gets at most a
    closure that the thread requests; the thread stays sound, goes on making the same requests, and
    has fewer steps left. -/
theorem step_spec (hm : memo.Faithful g) (hc : c.Sound g memo) (h : ¬ c.IsDone) :
    (c.step g memo).1.Faithful g ∧ memo.Keeps (c.step g memo).1 ∧
      (∀ x d, (c.step g memo).1.closures.get? x = some d →
        memo.closures.get? x = some d ∨ x ∈ c.requests) ∧
      (c.step g memo).2.Sound g (c.step g memo).1 ∧
      (c.step g memo).2.requests = c.requests ∧ (c.step g memo).2.left < c.left := by
  rcases step_cases g memo h with ⟨root, due, hcur, hdue, hs⟩ | ⟨root, request, hcur, hs⟩
  · rw [hs]
    refine ⟨hm, .refl memo, fun _ _ hx => Or.inl hx, ⟨fun p hp => ?_, hc.answers⟩, ?_, ?_⟩
    · cases hp
      exact ⟨rfl, Nat.succ_pos 2⟩
    · simp [requests, hcur, hdue]
    · simp only [left, hcur, hdue, List.length_cons, Option.map_some, Option.map_none,
        Option.getD_some, Option.getD_none, Request.due]
      omega
  · rw [hs]
    obtain ⟨hr, hpos⟩ := hc.current (root, request) hcur
    obtain ⟨hk, hr', hnew, _⟩ := hr.step
    refine ⟨(Request.step_spec hm hr.faithful).1, hk, fun x d hx => ?_,
      sound_take (fun p hp => (hc.answers p hp).mono hk) hr', requests_take hcur, ?_⟩
    · refine (hnew x d hx).imp_right fun e => ?_
      simp [requests, hcur, e]
    · have hlt : (request.step g memo).2.due < request.due := Request.due_step_lt hpos
      rw [left_take, left, hcur]
      exact Nat.add_lt_add_left hlt _

/-- A request for an identity without a module leaves the memo as it is, at every step. -/
theorem step_of_unknown {request : Request} (hc : c.Sound g memo)
    (hcur : c.current = some (root, request)) (hroot : g.get? root = none) :
    (c.step g memo).1 = memo := by
  have hs : (c.step g memo).1 = (request.step g memo).1 := by
    rw [step, hcur]
  rw [hs]
  exact (hc.current (root, request) hcur).1.step.2.2.2 hroot

/-- A thread that is done has the answers of the graph to all its requests. -/
theorem Sound.answers_eq (h : c.Sound g memo) (hm : memo.Faithful g) (hd : c.IsDone) :
    c.answers = c.requests.map fun root => (root, g.closure root) := by
  have hreq : c.requests = c.answers.map Prod.fst := by
    rw [requests, hd.1, hd.2]
    simp
  rw [hreq, List.map_map]
  conv_lhs => rw [← List.map_id c.answers]
  refine List.map_congr_left fun p hp => ?_
  exact Prod.ext rfl ((h.answers p hp).answer_eq hm)

end Client

/-! ## 4. Threads that take turns -/

namespace Sharing

variable {requests : List (List Identity)} {s s' : Sharing}

/-- The memo is faithful and every thread sound, the threads make the requests that they were started
    with, and only requested closures are stored. -/
structure Sound (g : Graph) (requests : List (List Identity)) (s : Sharing) : Prop where
  memo : s.memo.Faithful g
  requests_eq : s.clients.map Client.requests = requests
  clients : ∀ c ∈ s.clients, c.Sound g s.memo
  requested : ∀ x d, s.memo.closures.get? x = some d → x ∈ requests.flatten

/-- At most so many steps are left. -/
def left (s : Sharing) : Nat := (s.clients.map Client.left).sum

theorem sound_start (requests : List (List Identity)) : (start requests).Sound g requests where
  memo := Memo.faithful_empty
  requests_eq := by
    rw [start, List.map_map]
    exact List.map_id requests
  clients c hc := by
    obtain ⟨roots, _, rfl⟩ := List.mem_map.mp hc
    exact Client.sound_start roots
  requested _ _ h := nomatch h

/-- **Every step** keeps memo and threads sound, keeps what is stored, and leaves fewer steps. -/
theorem Step.spec (hs : Step g s s') (h : s.Sound g requests) :
    s'.Sound g requests ∧ s.memo.Keeps s'.memo ∧ s'.left < s.left := by
  obtain ⟨hm, hreq, hclients, hstored⟩ := h
  cases hs with
  | turn memo before after c hd =>
    have hm : memo.Faithful g := hm
    have hc : c ∈ before ++ c :: after := List.mem_append_right _ List.mem_cons_self
    obtain ⟨hm', hk, hnew, hc', hreq', hlt⟩ := Client.step_spec hm (hclients c hc) hd
    refine ⟨⟨hm', ?_, fun c' h' => ?_, fun x d hx => ?_⟩, hk, ?_⟩
    · rw [← hreq]
      simp only [List.map_append, List.map_cons, hreq']
    · rcases List.mem_append.mp h' with h' | h'
      · exact (hclients c' (List.mem_append_left _ h')).mono hk
      · rcases List.mem_cons.mp h' with rfl | h'
        · exact hc'
        · exact (hclients c' (List.mem_append_right _ (List.mem_cons_of_mem _ h'))).mono hk
    · rcases hnew x d hx with hx | hx
      · exact hstored x d hx
      · rw [← hreq]
        exact List.mem_flatten.mpr ⟨c.requests, List.mem_map_of_mem hc, hx⟩
    · simp only [left, List.map_append, List.map_cons, List.sum_append, List.sum_cons]
      omega

theorem sound_of_reachable (h : s.Sound g requests) (hs : Relation.ReflTransGen (Step g) s s') :
    s'.Sound g requests ∧ s.memo.Keeps s'.memo := by
  induction hs with
  | refl => exact ⟨h, .refl _⟩
  | tail _ hs ih =>
    obtain ⟨h', hk, _⟩ := hs.spec ih.1
    exact ⟨h', ih.2.trans hk⟩

/-- While a request is not answered, some step can be taken. -/
theorem isOver_or_exists_step (g : Graph) (s : Sharing) : s.IsOver ∨ ∃ s', Step g s s' := by
  by_cases h : s.IsOver
  · exact Or.inl h
  · obtain ⟨c, hc⟩ := Classical.not_forall.mp h
    obtain ⟨hc, hd⟩ := Classical.not_imp.mp hc
    obtain ⟨before, after, he⟩ := List.append_of_mem hc
    obtain ⟨memo, clients⟩ := s
    obtain rfl : clients = before ++ c :: after := he
    exact Or.inr ⟨_, .turn memo before after c hd⟩

theorem step_left_lt (requests : List (List Identity)) (s s' : Sharing) (hs : Step g s s')
    (h : s.Sound g requests) : s'.Sound g requests ∧ s'.left < s.left :=
  ⟨(hs.spec h).1, (hs.spec h).2.2⟩

theorem Sound.answers_eq (h : s.Sound g requests) (ho : s.IsOver) :
    s.clients.map Client.answers =
      requests.map fun roots => roots.map fun root => (root, g.closure root) := by
  rw [← h.requests_eq, List.map_map]
  exact List.map_congr_left fun c hc => (h.clients c hc).answers_eq h.memo (ho c hc)

/-- When every request is answered, exactly the requested modules have their closures stored. -/
theorem Sound.exists_stored_iff (h : s.Sound g requests) (ho : s.IsOver) {x : Identity} :
    (∃ d, s.memo.closures.get? x = some d) ↔ x ∈ requests.flatten ∧ ∃ m, g.get? x = some m := by
  constructor
  · rintro ⟨d, hd⟩
    exact ⟨h.requested x d hd, h.memo.exists_get? hd⟩
  · rintro ⟨hx, hm⟩
    obtain ⟨d, hd⟩ := Graph.exists_closure_iff.mpr hm
    obtain ⟨roots, hroots, hx⟩ := List.mem_flatten.mp hx
    rw [← h.requests_eq] at hroots
    obtain ⟨c, hc, rfl⟩ := List.mem_map.mp hroots
    have ha : (x, g.closure x) ∈ c.answers := by
      rw [(h.clients c hc).answers_eq h.memo (ho c hc)]
      exact List.mem_map_of_mem hx
    rw [hd] at ha
    exact ⟨d, (h.clients c hc).answers _ ha⟩

theorem Sound.size_eq (h : s.Sound g requests) (ho : s.IsOver) : s.memo.size =
    ((distinct requests.flatten).filter fun root => (g.get? root).isSome).length := by
  have hperm : s.memo.closures.names.Perm
      ((distinct requests.flatten).filter fun root => (g.get? root).isSome) := by
    refine (List.perm_ext_iff_of_nodup (Register.nodup_names _)
      ((nodup_distinct _).filter _)).mpr fun x => ?_
    rw [NameMap.mem_names_iff, h.exists_stored_iff ho, List.mem_filter, mem_distinct,
      Option.isSome_iff_exists]
  rw [← hperm.length_eq]
  exact (List.length_map _).symm

/-- **A memo serves any number of threads as the graph would, however their steps interleave.** Every
    run of the threads ends, and never gets stuck before. At every moment of it: what was answered
    is the closure in the graph, and what was refused is an identity without a module; a request
    for such an identity leaves the memo as it is at each of its steps; the memo stores closures of
    modules of the graph and nothing else; and what it stores it will store for ever. At the end
    every request is answered, and as many closures are stored as different modules were requested. -/
theorem memo_serves_any_interleaving (g : Graph) (requests : List (List Identity)) :
    (∀ run : Nat → Sharing, run 0 = start requests → ¬ ∀ n, Step g (run n) (run (n + 1))) ∧
    (∃ s, Relation.ReflTransGen (Step g) (start requests) s ∧ s.IsOver) ∧
    ∀ s, Relation.ReflTransGen (Step g) (start requests) s →
      (s.IsOver ∨ ∃ s', Step g s s') ∧
      (∀ c ∈ s.clients, ∀ root closure, (root, .ok closure) ∈ c.answers →
        g.closure root = .ok closure) ∧
      (∀ c ∈ s.clients, ∀ root f, (root, .error f) ∈ c.answers →
        g.get? root = none ∧ f = .unknownModule root) ∧
      (∀ c ∈ s.clients, ∀ root request, c.current = some (root, request) → g.get? root = none →
        (c.step g s.memo).1 = s.memo) ∧
      (∀ root closure, s.memo.closures.get? root = some closure →
        (∃ m, g.get? root = some m) ∧ g.closure root = .ok closure) ∧
      (∀ s', Relation.ReflTransGen (Step g) s s' → ∀ root closure,
        s.memo.closures.get? root = some closure → s'.memo.closures.get? root = some closure) ∧
      (s.IsOver →
        s.clients.map Client.answers =
          requests.map (fun roots => roots.map fun root => (root, g.closure root)) ∧
        s.memo.size =
          ((distinct requests.flatten).filter fun root => (g.get? root).isSome).length) := by
  have hstart : (start requests).Sound g requests := sound_start requests
  refine ⟨fun run h0 => not_forall_step_of_lt (step_left_lt requests) (h0 ▸ hstart),
    exists_over_of_lt (step_left_lt requests) (isOver_or_exists_step g) hstart, fun s hs => ?_⟩
  obtain ⟨h, _⟩ := sound_of_reachable hstart hs
  have hanswer : ∀ c ∈ s.clients, ∀ root a, (root, a) ∈ c.answers → a = g.closure root :=
    fun c hc root a ha => ((h.clients c hc).answers _ ha).answer_eq h.memo
  refine ⟨isOver_or_exists_step g s, fun c hc root closure ha => (hanswer c hc _ _ ha).symm,
    fun c hc root f ha => Graph.closure_eq_error_iff.mp (hanswer c hc _ _ ha).symm,
    fun c hc root request hcur hroot => Client.step_of_unknown (h.clients c hc) hcur hroot,
    fun root closure hroot => ⟨h.memo.exists_get? hroot, h.memo root closure hroot⟩,
    fun s' hs' => (sound_of_reachable h hs').2, fun ho => ⟨h.answers_eq ho, h.size_eq ho⟩⟩

/-- In the repository with two copies of a library, two threads request the closure of a service, and
    one of them that of an identity without a module as well: at the end one closure is stored, and
    each request has its answer. -/
theorem memo_serves_two_threads :
    ∃ g s, Graph.build twoCopies = .ok g ∧
      Relation.ReflTransGen (Step g) (start [["api", "ghost"], ["api"]]) s ∧ s.IsOver ∧
      s.memo.size = 1 ∧ s.clients.map Client.answers =
        [[("api", g.closure "api"), ("ghost", .error (.unknownModule "ghost"))],
          [("api", g.closure "api")]] := by
  obtain ⟨g, hg⟩ := exists_build_twoCopies
  obtain ⟨_, ⟨s, hs, ho⟩, hall⟩ := memo_serves_any_interleaving g [["api", "ghost"], ["api"]]
  obtain ⟨_, _, _, _, _, _, hend⟩ := hall s hs
  obtain ⟨hanswers, hsize⟩ := hend ho
  have hapi : g.Known "api" := (Graph.known_iff_of_build hg).mpr (by decide)
  have hghost : g.get? "ghost" = none := Option.eq_none_iff_forall_ne_some.mpr fun m hm =>
    absurd ((Graph.known_iff_of_build hg).mp ⟨m, hm⟩) (by decide)
  refine ⟨g, s, hg, hs, ho, ?_, ?_⟩
  · have hroots : distinct [["api", "ghost"], ["api"]].flatten = ["api", "ghost"] := by decide
    obtain ⟨m, hm⟩ := hapi
    rw [hsize, hroots]
    simp [hm, hghost]
  · rw [hanswers]
    simp [Graph.closure_of_get?_eq_none hghost]

end Sharing

end Isolation
