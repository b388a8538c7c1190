import Isolation.Graph.Cycle
import Mathlib.Algebra.GroupWithZero.Nat
import Mathlib.Logic.Function.Basic
import Mathlib.Logic.Relation

/-!
# What the search for a cycle finds

The walk of `CycleSearch` ends within its budget and misses no cycle. This file fixes why, for any
dependency lists that stay within the identities the walk is started from:

* `Move` -- the five things a step can do when it goes on, each with its guard; every fact below is
  proved once for each of them (`step_spec`);
* `Invariant` -- what holds before every step: the modules in progress are those on the path
  (`Marked`), each frame has examined what lies before its position (`Examined`), and a module that
  is done has only done dependencies, **so that no infinite chain of dependencies starts at it**;
* `left_lt_of_move` -- the measure that every step lowers;
* **`find?_eq_none_iff`** -- so the walk reports no cycle exactly when there is none.
-/

namespace Isolation

namespace CycleSearch

variable {dependencies : Identity → List Identity} {ids : List Identity}

/-! ## 1. Moves -/

/-- What a step does when the walk goes on. -/
inductive Move (dependencies : Identity → List Identity) : State → State → Prop where
  /-- Begin at the next start. -/
  | start {s : State} {id : Identity} {rest : List Identity} (hp : s.path = [])
      (hs : s.starts = id :: rest) (hm : s.mark id = .unvisited) :
      Move dependencies s ({ s with starts := rest }.enter id)
  /-- Pass over a start that was reached before. -/
  | skip {s : State} {id : Identity} {rest : List Identity} (hp : s.path = [])
      (hs : s.starts = id :: rest) (hm : s.mark id ≠ .unvisited) :
      Move dependencies s { s with starts := rest }
  /-- Leave a module whose dependencies are all examined. -/
  | leave {s : State} {f : Frame} {above : List Frame} (hp : s.path = f :: above)
      (hd : (dependencies f.node)[f.next]? = none) :
      Move dependencies s { s with marks := s.marks.put f.node .done, path := above }
  /-- Go down into a dependency that was not reached before. -/
  | descend {s : State} {f : Frame} {above : List Frame} {d : Identity} (hp : s.path = f :: above)
      (hd : (dependencies f.node)[f.next]? = some d) (hm : s.mark d = .unvisited) :
      Move dependencies s ({ s with path := { f with next := f.next + 1 } :: above }.enter d)
  /-- Pass over a dependency that is done. -/
  | pass {s : State} {f : Frame} {above : List Frame} {d : Identity} (hp : s.path = f :: above)
      (hd : (dependencies f.node)[f.next]? = some d) (hm : s.mark d = .done) :
      Move dependencies s { s with path := { f with next := f.next + 1 } :: above }

/-- **What a step leads to.** It goes on with a move; it reports a cycle for a dependency of the
    innermost module that is in progress; and it ends when no module and no start is left. -/
theorem step_spec (dependencies : Identity → List Identity) (s : State) :
    match step dependencies s with
    | .running s' => Move dependencies s s'
    | .cycle _ => ∃ f above d, s.path = f :: above ∧
        (dependencies f.node)[f.next]? = some d ∧ s.mark d = .inProgress
    | .finished => s.path = [] ∧ s.starts = [] := by
  obtain ⟨marks, path, starts⟩ := s
  unfold step
  cases path with
  | nil =>
    cases starts with
    | nil => exact ⟨rfl, rfl⟩
    | cons id rest =>
      dsimp only
      split <;> rename_i h
      · split at h <;> cases h
        · rename_i hm
          exact .start (s := ⟨marks, [], id :: rest⟩) rfl rfl hm
        · rename_i hm
          exact .skip (s := ⟨marks, [], id :: rest⟩) rfl rfl hm
      · split at h <;> cases h
      · split at h <;> cases h
  | cons f above =>
    dsimp only
    cases hd : (dependencies f.node)[f.next]? with
    | none => exact .leave (s := ⟨marks, f :: above, starts⟩) rfl hd
    | some d =>
      dsimp only
      cases hm : State.mark ⟨marks, { f with next := f.next + 1 } :: above, starts⟩ d with
      | inProgress => exact ⟨f, above, d, rfl, hd, hm⟩
      | unvisited => exact .descend (s := ⟨marks, f :: above, starts⟩) rfl hd hm
      | done => exact .pass (s := ⟨marks, f :: above, starts⟩) rfl hd hm

/-! ## 2. Marks -/

theorem mark_put (s : State) (id : Identity) (m : Mark) (path : List Frame)
    (starts : List Identity) : State.mark ⟨s.marks.put id m, path, starts⟩ =
      Function.update s.mark id m := by
  funext x
  rw [State.mark, NameMap.get?_put]
  by_cases h : id = x
  · subst h
    rw [if_pos rfl, Function.update_self, Option.getD_some]
  · rw [if_neg h, Function.update_of_ne (Ne.symm h), State.mark]

/-- Marks that fit the modules on a path. -/
structure Marked (dependencies : Identity → List Identity) (mark : Identity → Mark)
    (nodes : List Identity) : Prop where
  inProgress_iff : ∀ x, mark x = .inProgress ↔ x ∈ nodes
  nodup : nodes.Nodup
  settled : ∀ x, mark x = .done → ∀ d ∈ dependencies x, mark d = .done
  /-- No infinite chain of dependencies starts at a module that is done. -/
  acc : ∀ x, mark x = .done → Acc (fun d a => d ∈ dependencies a) x

namespace Marked

variable {mark : Identity → Mark} {nodes : List Identity} {id : Identity}

theorem not_mem (h : Marked dependencies mark nodes) (hu : mark id = .unvisited) : id ∉ nodes := by
  intro hm
  rw [← h.inProgress_iff, hu] at hm
  cases hm

/-- A module that was not reached before may be put on the path. -/
theorem enter (h : Marked dependencies mark nodes) (hu : mark id = .unvisited) :
    Marked dependencies (Function.update mark id .inProgress) (id :: nodes) := by
  have done : ∀ {x}, Function.update mark id .inProgress x = .done → mark x = .done := by
    intro x hx
    by_cases e : x = id
    · subst e
      rw [Function.update_self] at hx
      cases hx
    · rwa [Function.update_of_ne e] at hx
  refine ⟨fun x => ?_, List.nodup_cons.mpr ⟨h.not_mem hu, h.nodup⟩, fun x hx d hd => ?_,
    fun x hx => h.acc x (done hx)⟩
  · by_cases e : x = id
    · subst e
      simp
    · rw [Function.update_of_ne e, h.inProgress_iff, List.mem_cons, or_iff_right e]
  · have hdd := h.settled x (done hx) d hd
    have e : d ≠ id := fun e => by
      rw [e, hu] at hdd
      cases hdd
    rw [Function.update_of_ne e, hdd]

/-- The innermost module may be left once its dependencies are done. -/
theorem leave (h : Marked dependencies mark (id :: nodes))
    (hd : ∀ d ∈ dependencies id, mark d = .done) :
    Marked dependencies (Function.update mark id .done) nodes := by
  have keep : ∀ {x}, mark x = .done → Function.update mark id .done x = .done := by
    intro x hx
    by_cases e : x = id
    · rw [e, Function.update_self]
    · rw [Function.update_of_ne e, hx]
  obtain ⟨hni, hnd⟩ := List.nodup_cons.mp h.nodup
  refine ⟨fun x => ?_, hnd, fun x hx d hdx => ?_, fun x hx => ?_⟩
  · by_cases e : x = id
    · subst e
      rw [Function.update_self]
      exact ⟨fun h => (nomatch h), fun h => absurd h hni⟩
    · rw [Function.update_of_ne e, h.inProgress_iff, List.mem_cons, or_iff_right e]
  · by_cases e : x = id
    · subst e
      exact keep (hd d hdx)
    · rw [Function.update_of_ne e] at hx
      exact keep (h.settled x hx d hdx)
  · by_cases e : x = id
    · subst e
      exact .intro x fun d hdx => h.acc d (hd d hdx)
    · rw [Function.update_of_ne e] at hx
      exact h.acc x hx

end Marked

/-! ## 3. Positions -/

/-- Each frame of a path has examined the dependencies before its position: they are done, except
    that the last one examined is the module of the next inner frame. Below the innermost frame of
    the list are the modules `inner`, at most one. -/
def Examined (dependencies : Identity → List Identity) (mark : Identity → Mark) :
    List Identity → List Frame → Prop
  | _, [] => True
  | inner, f :: above =>
    f.next ≤ (dependencies f.node).length ∧
    (∃ before, (dependencies f.node).take f.next = before ++ inner ∧
      ∀ d ∈ before, mark d = .done) ∧
    Examined dependencies mark [f.node] above

namespace Examined

variable {mark mark' : Identity → Mark} {inner : List Identity} {path above : List Frame}
  {f : Frame} {d : Identity}

theorem mono (h : Examined dependencies mark inner path)
    (hm : ∀ x, mark x = .done → mark' x = .done) : Examined dependencies mark' inner path := by
  induction path generalizing inner with
  | nil => trivial
  | cons f above ih =>
    obtain ⟨hle, ⟨before, ht, hb⟩, ha⟩ := h
    exact ⟨hle, ⟨before, ht, fun d hd => hm d (hb d hd)⟩, ih ha⟩

/-- An inner module that is done counts as examined. -/
theorem of_done (h : Examined dependencies mark [d] path) (hd : mark d = .done) :
    Examined dependencies mark [] path := by
  cases path with
  | nil => trivial
  | cons f above =>
    obtain ⟨hle, ⟨before, ht, hb⟩, ha⟩ := h
    refine ⟨hle, ⟨before ++ [d], by rw [ht, List.append_nil], fun x hx => ?_⟩, ha⟩
    rcases List.mem_append.mp hx with hx | hx
    · exact hb x hx
    · exact List.mem_singleton.mp hx ▸ hd

theorem done_of_getElem?_eq_none (h : Examined dependencies mark [] (f :: above))
    (hd : (dependencies f.node)[f.next]? = none) : ∀ d ∈ dependencies f.node, mark d = .done := by
  obtain ⟨_, ⟨before, ht, hb⟩, _⟩ := h
  rw [List.take_of_length_le (List.getElem?_eq_none_iff.mp hd), List.append_nil] at ht
  exact ht ▸ hb

/-- The innermost frame moves on to its next dependency. -/
theorem advance (h : Examined dependencies mark [] (f :: above))
    (hd : (dependencies f.node)[f.next]? = some d) :
    Examined dependencies mark [d] ({ f with next := f.next + 1 } :: above) := by
  obtain ⟨_, ⟨before, ht, hb⟩, ha⟩ := h
  refine ⟨(List.getElem?_eq_some_iff.mp hd).1, ⟨before, ?_, hb⟩, ha⟩
  rw [List.take_add_one, ht, hd, List.append_nil, Option.toList_some]

theorem enter (h : Examined dependencies mark [d] path) :
    Examined dependencies mark [] (⟨d, 0⟩ :: path) :=
  ⟨Nat.zero_le _, ⟨[], rfl, fun _ h => absurd h List.not_mem_nil⟩, h⟩

/-- A chain of dependencies leads from every module further out on the path to an inner one. -/
theorem transGen (h : Examined dependencies mark [d] path) :
    ∀ f ∈ path, Relation.TransGen (fun a d => d ∈ dependencies a) f.node d := by
  induction path generalizing d with
  | nil => exact fun f hf => absurd hf List.not_mem_nil
  | cons f above ih =>
    obtain ⟨_, ⟨before, ht, _⟩, ha⟩ := h
    have hd : d ∈ dependencies f.node :=
      List.mem_of_mem_take (ht ▸ List.mem_append_right _ List.mem_cons_self)
    intro f' hf'
    rcases List.mem_cons.mp hf' with rfl | hf'
    · exact .single hd
    · exact (ih ha f' hf').tail hd

end Examined

/-! ## 4. The invariant -/

/-- What holds before every step of a walk over `ids`. -/
structure Invariant (dependencies : Identity → List Identity) (ids : List Identity) (s : State) :
    Prop where
  marked : Marked dependencies s.mark (s.path.map Frame.node)
  examined : Examined dependencies s.mark [] s.path
  nodes_mem : ∀ f ∈ s.path, f.node ∈ ids
  starts_mem : ∀ id ∈ s.starts, id ∈ ids
  /-- What is no start any more was reached. -/
  covered : ∀ id ∈ ids, id ∈ s.starts ∨ s.mark id ≠ .unvisited

theorem invariant_initial : Invariant dependencies ids (initial ids) where
  marked := ⟨fun _ => ⟨fun h => (nomatch h), fun h => absurd h List.not_mem_nil⟩, .nil,
    fun _ h => (nomatch h), fun _ h => (nomatch h)⟩
  examined := trivial
  nodes_mem _ h := absurd h List.not_mem_nil
  starts_mem _ h := h
  covered _ h := Or.inl h

theorem update_ne_unvisited {mark : Identity → Mark} {id x : Identity} {m : Mark}
    (hm : m ≠ .unvisited) (hx : mark x ≠ .unvisited) :
    Function.update mark id m x ≠ .unvisited := by
  by_cases e : x = id
  · rwa [e, Function.update_self]
  · rwa [Function.update_of_ne e]

theorem update_eq_done {mark : Identity → Mark} {id x : Identity} {m : Mark}
    (hid : mark id ≠ .done) (hx : mark x = .done) : Function.update mark id m x = .done := by
  have e : x ≠ id := fun e => hid (e ▸ hx)
  rw [Function.update_of_ne e, hx]

/-- A module that was not reached before is put on a path whose innermost frame has just examined
    it; until then it may be neither a start nor reached. -/
theorem invariant_enter {s : State} {id : Identity}
    (marked : Marked dependencies s.mark (s.path.map Frame.node))
    (examined : Examined dependencies s.mark [id] s.path)
    (nodes_mem : ∀ f ∈ s.path, f.node ∈ ids) (starts_mem : ∀ x ∈ s.starts, x ∈ ids)
    (covered : ∀ x ∈ ids, x = id ∨ x ∈ s.starts ∨ s.mark x ≠ .unvisited)
    (hid : id ∈ ids) (hm : s.mark id = .unvisited) : Invariant dependencies ids (s.enter id) := by
  have hmark : (s.enter id).mark = Function.update s.mark id .inProgress := mark_put ..
  refine ⟨?_, ?_, List.forall_mem_cons.mpr ⟨hid, nodes_mem⟩, starts_mem, fun x hx => ?_⟩
  · rw [hmark]
    exact marked.enter hm
  · rw [hmark]
    exact (examined.mono fun x => update_eq_done (hm ▸ Mark.noConfusion)).enter
  · rw [hmark]
    rcases covered x hx with rfl | hx | hx
    · rw [Function.update_self]
      exact Or.inr Mark.noConfusion
    · exact Or.inl hx
    · exact Or.inr (update_ne_unvisited Mark.noConfusion hx)

/-- **Every move keeps the invariant**, as long as dependencies stay within the identities. -/
theorem Invariant.move {s s' : State} (hc : ∀ id ∈ ids, ∀ d ∈ dependencies id, d ∈ ids)
    (h : Invariant dependencies ids s) (hs : Move dependencies s s') :
    Invariant dependencies ids s' := by
  obtain ⟨marked, examined, nodes_mem, starts_mem, covered⟩ := h
  cases hs with
  | @start id rest hp hst hm =>
    rw [hst] at starts_mem covered
    obtain ⟨hid, hrest⟩ := List.forall_mem_cons.mp starts_mem
    refine invariant_enter marked ?_ nodes_mem hrest (fun x hx => ?_) hid hm
    · show Examined dependencies s.mark [id] s.path
      rw [hp]
      trivial
    · rw [← or_assoc, ← List.mem_cons]
      exact covered x hx
  | @skip id rest hp hst hm =>
    rw [hst] at starts_mem covered
    refine ⟨marked, examined, nodes_mem, (List.forall_mem_cons.mp starts_mem).2, fun x hx => ?_⟩
    rcases covered x hx with hx | hx
    · rcases List.mem_cons.mp hx with rfl | hx
      · exact Or.inr hm
      · exact Or.inl hx
    · exact Or.inr hx
  | @leave f above hp hd =>
    rw [hp] at marked examined nodes_mem
    have hdone := examined.done_of_getElem?_eq_none hd
    have hnode : s.mark f.node ≠ .done := fun e => by
      rw [(marked.inProgress_iff f.node).mpr List.mem_cons_self] at e
      cases e
    refine ⟨?_, ?_, (List.forall_mem_cons.mp nodes_mem).2, starts_mem, fun x hx => ?_⟩
    · rw [mark_put]
      exact marked.leave hdone
    · rw [mark_put]
      exact (examined.2.2.mono fun x => update_eq_done hnode).of_done
        (Function.update_self ..)
    · rw [mark_put]
      exact (covered x hx).imp id (update_ne_unvisited Mark.noConfusion)
  | @descend f above d hp hd hm =>
    rw [hp] at marked examined nodes_mem
    have hd' : d ∈ ids :=
      hc f.node (nodes_mem f List.mem_cons_self) d (List.mem_of_getElem? hd)
    -- the frame that moves on keeps its module
    exact invariant_enter marked (examined.advance hd)
      (List.forall_mem_cons.mpr (List.forall_mem_cons.mp nodes_mem)) starts_mem
      (fun x hx => Or.inr (covered x hx)) hd' hm
  | @pass f above d hp hd hm =>
    rw [hp] at marked examined nodes_mem
    exact ⟨marked, (examined.advance hd).of_done hm,
      List.forall_mem_cons.mpr (List.forall_mem_cons.mp nodes_mem), starts_mem, covered⟩

/-! ## 5. The measure -/

/-- What the modules that were not reached yet may still cost: leaving each, and examining each of
    their dependency entries. -/
def ahead (dependencies : Identity → List Identity) (mark : Identity → Mark)
    (ids : List Identity) : Nat :=
  (ids.map fun id => if mark id = .unvisited then 1 + (dependencies id).length else 0).sum

/-- What the modules on a path still cost. -/
def onPath (dependencies : Identity → List Identity) (path : List Frame) : Nat :=
  (path.map fun f => 1 + ((dependencies f.node).length - f.next)).sum

/-- At most so many moves are left. -/
def left (dependencies : Identity → List Identity) (ids : List Identity) (s : State) : Nat :=
  s.starts.length + ahead dependencies s.mark ids + onPath dependencies s.path

theorem ahead_update_le {mark : Identity → Mark} {id : Identity} {m : Mark}
    (hm : m ≠ .unvisited) :
    ahead dependencies (Function.update mark id m) ids ≤ ahead dependencies mark ids := by
  induction ids with
  | nil => exact Nat.le_refl _
  | cons a ids ih =>
    simp only [ahead, List.map_cons, List.sum_cons] at ih ⊢
    refine Nat.add_le_add ?_ ih
    by_cases e : a = id
    · subst e
      rw [Function.update_self, if_neg hm]
      exact Nat.zero_le _
    · refine Nat.le_of_eq ?_
      rw [Function.update_of_ne e]

/-- Reaching a module takes its cost off what lies ahead. -/
theorem ahead_update_add_le {mark : Identity → Mark} {id : Identity} {m : Mark}
    (hm : m ≠ .unvisited) (hid : id ∈ ids) (hu : mark id = .unvisited) :
    ahead dependencies (Function.update mark id m) ids + (1 + (dependencies id).length) ≤
      ahead dependencies mark ids := by
  induction ids with
  | nil => exact absurd hid List.not_mem_nil
  | cons a ids ih =>
    have hle : ahead dependencies (Function.update mark id m) ids ≤ ahead dependencies mark ids :=
      ahead_update_le hm
    simp only [ahead, List.map_cons, List.sum_cons] at ih hle ⊢
    by_cases e : a = id
    · subst e
      rw [Function.update_self, if_neg hm, if_pos hu]
      omega
    · have := ih ((List.mem_cons.mp hid).resolve_left (Ne.symm e))
      rw [Function.update_of_ne e]
      omega

/-- **Every move lowers what is left.** -/
theorem left_lt_of_move {s s' : State} (hc : ∀ id ∈ ids, ∀ d ∈ dependencies id, d ∈ ids)
    (h : Invariant dependencies ids s) (hs : Move dependencies s s') :
    left dependencies ids s' < left dependencies ids s := by
  have hput : ∀ id (m : Mark) path starts, State.mark ⟨s.marks.put id m, path, starts⟩ =
    Function.update s.mark id m := fun id m path starts => mark_put s id m path starts
  cases hs with
  | @start id rest hp hst hm =>
    have hid : id ∈ ids := h.starts_mem id (hst ▸ List.mem_cons_self)
    have ha : ahead dependencies (Function.update s.mark id .inProgress) ids +
        (1 + (dependencies id).length) ≤ ahead dependencies s.mark ids :=
      ahead_update_add_le Mark.noConfusion hid hm
    simp only [left, State.enter, hput, hp, hst, onPath, List.length_cons, List.map_cons,
      List.map_nil, List.sum_cons, List.sum_nil]
    omega
  | @skip id rest hp hst hm =>
    show rest.length + ahead dependencies s.mark ids + onPath dependencies s.path < _
    rw [left, hst, List.length_cons]
    omega
  | @leave f above hp hd =>
    have ha : ahead dependencies (Function.update s.mark f.node .done) ids ≤
        ahead dependencies s.mark ids := ahead_update_le Mark.noConfusion
    simp only [left, hput, hp, onPath, List.map_cons, List.sum_cons]
    omega
  | @descend f above d hp hd hm =>
    have hf : f.node ∈ ids := h.nodes_mem f (hp ▸ List.mem_cons_self)
    have hlt := (List.getElem?_eq_some_iff.mp hd).1
    have ha : ahead dependencies (Function.update s.mark d .inProgress) ids +
        (1 + (dependencies d).length) ≤ ahead dependencies s.mark ids :=
      ahead_update_add_le Mark.noConfusion (hc f.node hf d (List.mem_of_getElem? hd)) hm
    simp only [left, State.enter, hput, hp, onPath, List.map_cons, List.sum_cons]
    omega
  | @pass f above d hp hd hm =>
    have hlt := (List.getElem?_eq_some_iff.mp hd).1
    show s.starts.length + ahead dependencies s.mark ids + _ < _
    simp only [left, hp, onPath, List.map_cons, List.sum_cons]
    omega

theorem left_initial : left dependencies ids (initial ids) + 1 = budget dependencies ids := by
  have hsum : ∀ l : List Identity, l.length + ahead dependencies (fun _ => Mark.unvisited) l =
      (l.map fun id => 2 + (dependencies id).length).sum := by
    intro l
    induction l with
    | nil => rfl
    | cons a l ih =>
      simp only [ahead, List.length_cons, List.map_cons, List.sum_cons, if_true] at ih ⊢
      omega
  exact congrArg (· + 1) (hsum ids)

/-! ## 6. The answer -/

/-- A dependency of the innermost module that is in progress lies on a cycle. -/
theorem Invariant.transGen_self {s : State} (h : Invariant dependencies ids s) {f : Frame}
    {above : List Frame} {d : Identity} (hp : s.path = f :: above) (hd : d ∈ dependencies f.node)
    (hm : s.mark d = .inProgress) : Relation.TransGen (fun a d => d ∈ dependencies a) d d := by
  have hmem : d ∈ s.path.map Frame.node := (h.marked.inProgress_iff d).mp hm
  have hex := h.examined
  rw [hp] at hmem hex
  -- the chain comes down the path from `d` to the innermost module, and from there to `d`
  rcases List.mem_cons.mp hmem with hdn | hdn
  · exact .single (hdn ▸ hd)
  · obtain ⟨f', hf', rfl⟩ := List.mem_map.mp hdn
    exact (hex.2.2.transGen f' hf').tail hd

/-- When neither path nor starts are left, every module is done. -/
theorem Invariant.done_of_finished {s : State} (h : Invariant dependencies ids s)
    (hp : s.path = []) (hs : s.starts = []) : ∀ x ∈ ids, s.mark x = .done := by
  intro x hx
  have hreached : s.mark x ≠ .unvisited := by
    refine (h.covered x hx).resolve_left fun hx => ?_
    rw [hs] at hx
    exact absurd hx List.not_mem_nil
  cases hm : s.mark x with
  | unvisited => exact absurd hm hreached
  | inProgress =>
    have hx := (h.marked.inProgress_iff x).mp hm
    rw [hp] at hx
    exact absurd hx List.not_mem_nil
  | done => rfl

/-- **A whole walk.** With enough steps it either reports a cycle, and then some chain of
    dependencies returns to where it started; or it leaves every module done. -/
theorem run_spec (hc : ∀ id ∈ ids, ∀ d ∈ dependencies id, d ∈ ids) {n : Nat} {s : State}
    (h : Invariant dependencies ids s) (hn : left dependencies ids s < n) :
    match run dependencies n s with
    | some _ => ∃ x ∈ ids, Relation.TransGen (fun a d => d ∈ dependencies a) x x
    | none => ∀ x ∈ ids, Acc (fun d a => d ∈ dependencies a) x := by
  induction n generalizing s with
  | zero => exact absurd hn (Nat.not_lt_zero _)
  | succ n ih =>
    have hstep := step_spec dependencies s
    rw [run]
    cases hs : step dependencies s with
    | running s' =>
      rw [hs] at hstep
      have hlt := left_lt_of_move hc h hstep
      exact ih (h.move hc hstep) (by omega)
    | cycle c =>
      rw [hs] at hstep
      obtain ⟨f, above, d, hp, hd, hm⟩ := hstep
      have hdf : d ∈ dependencies f.node := List.mem_of_getElem? hd
      have hf : f.node ∈ ids := h.nodes_mem f (hp ▸ List.mem_cons_self)
      exact ⟨d, hc f.node hf d hdf, h.transGen_self hp hdf hm⟩
    | finished =>
      rw [hs] at hstep
      exact fun x hx => h.marked.acc x (h.done_of_finished hstep.1 hstep.2 x hx)

/-- No chain of dependencies returns to a module at which no infinite chain starts. -/
theorem not_transGen_self_of_acc {x : Identity} (h : Acc (fun d a => d ∈ dependencies a) x) :
    ¬ Relation.TransGen (fun a d => d ∈ dependencies a) x x := by
  induction h with
  | intro x _ ih =>
    intro hx
    obtain ⟨d, hd, hdx⟩ := Relation.TransGen.head'_iff.mp hx
    exact ih d hd (.tail' hdx hd)

/-- **The walk reports no cycle exactly when there is none.** -/
theorem find?_eq_none_iff (hc : ∀ id ∈ ids, ∀ d ∈ dependencies id, d ∈ ids) :
    find? dependencies ids = none ↔
      ∀ x ∈ ids, ¬ Relation.TransGen (fun a d => d ∈ dependencies a) x x := by
  have hleft : left dependencies ids (initial ids) < budget dependencies ids :=
    Nat.lt_of_lt_of_eq (Nat.lt_succ_self _) left_initial
  have hrun := run_spec hc invariant_initial hleft
  rw [find?]
  cases h : run dependencies (budget dependencies ids) (initial ids) with
  | none =>
    rw [h] at hrun
    exact ⟨fun _ x hx => not_transGen_self_of_acc (hrun x hx), fun _ => rfl⟩
  | some c =>
    rw [h] at hrun
    obtain ⟨x, hx, hxx⟩ := hrun
    exact ⟨fun e => (nomatch e), fun hno => absurd hxx (hno x hx)⟩

end CycleSearch

end Isolation
