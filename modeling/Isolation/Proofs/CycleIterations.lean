import Isolation.Proofs.CycleSearch
import Mathlib.Data.List.Chain
import Mathlib.Data.List.Nodup

/-!
# How the search for a cycle proceeds

`find?_eq_none_iff` says what the search for a cycle finds. This file says how it comes to that:
what is true wherever it stands, and how often it does a thing.

* `View`, `Standing` -- what is seen of a search at one moment, and the rules for it, whatever the
  nodes are;
* `Course` -- the states of a whole search, and its result: **a search that has a course ends**;
* `Thorough` -- what holds of the views along a course: marks are never taken back, no node is put
  on the path twice, no dependency entry is examined twice, and there are at most as many iterations
  as there are nodes and entries;
* `Past`, `cost` -- why: an entry that was examined stays so, and an iteration lowers what the
  modules still cost;
* **`exists_thorough_course`** -- so every search has a course and is thorough along it, whether it
  finds a cycle or not.
-/

namespace Isolation

namespace CycleSearch

/-! ## 1. Views -/

/-- The marks in the order in which a node is given them. -/
def Mark.stage : Mark → Nat
  | .unvisited => 0
  | .inProgress => 1
  | .done => 2

/-- What is seen of a search at one moment: the mark of each node; and its path, the innermost node
    first, each with the position of the dependency that it examines next. -/
structure View (ν : Type) where
  mark : ν → Mark
  path : List (ν × Nat)

section Views

variable {ν : Type}

/-- The dependency entry that is examined next: a node, and a position in its list. -/
def View.examines? (dependencies : ν → List ν) (v : View ν) : Option (ν × Nat) :=
  v.path.head?.filter fun e => e.2 < (dependencies e.1).length

/-- The node that is put on the path between two views. -/
def View.entered? (v w : View ν) : Option ν :=
  if v.path.length < w.path.length then w.path.head?.map Prod.fst else none

/-- An iteration begins: there is a node whose dependencies are being examined. -/
def View.iterates (v : View ν) : Bool := !v.path.isEmpty

/-- The nodes that are put on the path along a list of views. -/
def entered (vs : List (View ν)) : List ν :=
  (vs.zip vs.tail).filterMap fun p => p.1.entered? p.2

/-- The rules for what is seen of a search at one moment. -/
structure Standing (nodes : List ν) (dependencies : ν → List ν) (v : View ν) : Prop where
  /-- The nodes in progress are those on the path, -/
  inProgress_iff : ∀ x ∈ nodes, v.mark x = .inProgress ↔ x ∈ v.path.map Prod.fst
  path_mem : ∀ x ∈ v.path.map Prod.fst, x ∈ nodes
  /-- each of them once. -/
  path_nodup : (v.path.map Prod.fst).Nodup
  /-- The dependency that a node examined last is the next inner node of the path. -/
  path_leads : v.path.IsChain fun inner outer =>
    0 < outer.2 ∧ (dependencies outer.1)[outer.2 - 1]? = some inner.1
  settled : ∀ x ∈ nodes, v.mark x = .done → ∀ d ∈ dependencies x, v.mark d = .done

/-- The rules for the views of a whole search, of which `passed` says that it found nothing. -/
structure Thorough (nodes : List ν) (dependencies : ν → List ν) (vs : List (View ν))
    (passed : Prop) : Prop where
  standing : ∀ v ∈ vs, Standing nodes dependencies v
  /-- No node returns to an earlier mark. -/
  onward : vs.Pairwise fun v w => ∀ x ∈ nodes, (v.mark x).stage ≤ (w.mark x).stage
  entered_nodup : (entered vs).Nodup
  examined_nodup : (vs.filterMap (View.examines? dependencies)).Nodup
  iterations_le : vs.countP View.iterates ≤
    nodes.length + (nodes.map fun x => (dependencies x).length).sum
  done_of_passed : passed → ∀ v, vs.getLast? = some v → ∀ x ∈ nodes, v.mark x = .done

end Views

/-! ## 2. Courses -/

section Courses

variable {σ ρ : Type}

/-- The states that a system goes through from a given one until it ends, and the result. -/
inductive Course (Goes : σ → σ → Prop) (Ends : σ → ρ → Prop) : σ → List σ → ρ → Prop where
  | last {s : σ} {r : ρ} (h : Ends s r) : Course Goes Ends s [s] r
  | next {s s' : σ} {rest : List σ} {r : ρ} (h : Goes s s') (hrest : Course Goes Ends s' rest r) :
    Course Goes Ends s (s :: rest) r

namespace Course

variable {Goes : σ → σ → Prop} {Ends : σ → ρ → Prop} {s : σ} {states : List σ} {r : ρ}
  {P : σ → Prop}

theorem exists_tail (h : Course Goes Ends s states r) : ∃ rest, states = s :: rest := by
  cases h with
  | last => exact ⟨[], rfl⟩
  | next => exact ⟨_, rfl⟩

theorem exists_last (h : Course Goes Ends s states r) :
    ∃ t, states.getLast? = some t ∧ Ends t r := by
  induction h with
  | last h => exact ⟨_, rfl, h⟩
  | next _ hrest ih =>
    obtain ⟨t, ht, hend⟩ := ih
    obtain ⟨rest, rfl⟩ := hrest.exists_tail
    exact ⟨t, List.getLast?_cons_cons.trans ht, hend⟩

/-- What every step keeps holds of every state. -/
theorem forall_mem (hkeep : ∀ s s', P s → Goes s s' → P s') (h : Course Goes Ends s states r)
    (hs : P s) : ∀ t ∈ states, P t := by
  induction h with
  | last => exact List.forall_mem_singleton.mpr hs
  | next hgoes _ ih => exact List.forall_mem_cons.mpr ⟨hs, ih (hkeep _ _ hs hgoes)⟩

/-- What holds from each state to the next holds from each state to every later one. -/
theorem pairwise {R : σ → σ → Prop} (hR : ∀ s s', Goes s s' → R s s') (hrefl : ∀ s, R s s)
    (htrans : ∀ s t u, R s t → R t u → R s u) (h : Course Goes Ends s states r) :
    states.Pairwise R := by
  induction h with
  | last => exact List.pairwise_singleton _ _
  | @next s s' rest r hgoes hrest ih =>
    have hlater : ∀ t ∈ rest, R s' t :=
      hrest.forall_mem (fun t u ht hgoes => htrans _ _ _ ht (hR t u hgoes)) (hrefl s')
    exact List.pairwise_cons.mpr ⟨fun t ht => htrans _ _ _ (hR s s' hgoes) (hlater t ht), ih⟩

/-- A function that takes each step to a step, and each end to an end, takes a course to a course,
    as long as what it relies on is kept. -/
theorem map {τ π : Type} {Goes' : τ → τ → Prop} {Ends' : τ → π → Prop} {f : σ → τ} {g : ρ → π}
    (hkeep : ∀ s s', P s → Goes s s' → P s')
    (hgoes : ∀ s s', P s → Goes s s' → Goes' (f s) (f s'))
    (hends : ∀ s r, P s → Ends s r → Ends' (f s) (g r))
    (h : Course Goes Ends s states r) (hs : P s) :
    Course Goes' Ends' (f s) (states.map f) (g r) := by
  induction h with
  | last hend => exact .last (hends _ _ hs hend)
  | next hgo _ ih => exact .next (hgoes _ _ hs hgo) (ih (hkeep _ _ hs hgo))

end Course

end Courses

variable {dependencies : Identity → List Identity} {ids : List Identity} {s s' : State}

/-- A step leads on to a state. -/
def Goes (dependencies : Identity → List Identity) (s s' : State) : Prop :=
  step dependencies s = .running s'

/-- A step ends the search: with a cycle, or with nothing found. -/
def Ends (dependencies : Identity → List Identity) (s : State) : Option (List Identity) → Prop
  | some cycle => step dependencies s = .cycle cycle
  | none => step dependencies s = .finished

theorem Goes.move (h : Goes dependencies s s') : Move dependencies s s' := by
  have hspec := step_spec dependencies s
  rw [show step dependencies s = .running s' from h] at hspec
  exact hspec

/-- **A search has a course**, which ends with what it reports when it may take as many steps as are
    left. -/
theorem exists_course (hc : ∀ id ∈ ids, ∀ d ∈ dependencies id, d ∈ ids) {n : Nat}
    (h : Invariant dependencies ids s) (hn : left dependencies ids s < n) :
    ∃ states, Course (Goes dependencies) (Ends dependencies) s states (run dependencies n s) := by
  induction n generalizing s with
  | zero => exact absurd hn (Nat.not_lt_zero _)
  | succ n ih =>
    rw [run]
    cases hs : step dependencies s with
    | running s' =>
      have hgoes : Goes dependencies s s' := hs
      have hlt := left_lt_of_move hc h hgoes.move
      obtain ⟨rest, hrest⟩ := ih (h.move hc hgoes.move) (by omega)
      exact ⟨s :: rest, .next hgoes hrest⟩
    | cycle c => exact ⟨[s], .last hs⟩
    | finished => exact ⟨[s], .last hs⟩

/-! ## 3. Where the search stands -/

/-- What is seen of a search over identities. -/
def State.view (s : State) : View Identity := ⟨s.mark, s.path.map fun f => (f.node, f.next)⟩

theorem map_fst_view (s : State) : s.view.path.map Prod.fst = s.path.map Frame.node :=
  List.map_map

/-- The last of the first `n` elements is the one before position `n`. -/
theorem getElem?_of_take_concat {α : Type} {l before : List α} {n : Nat} {x : α}
    (h : l.take n = before ++ [x]) (hn : n ≤ l.length) : 0 < n ∧ l[n - 1]? = some x := by
  have hlength : n = before.length + 1 := by
    have := congrArg List.length h
    rw [List.length_take_of_le hn, List.length_append, List.length_singleton] at this
    exact this
  have hlast : (l.take n)[before.length]? = some x := by
    rw [h]
    exact List.getElem?_concat_length
  subst hlength
  rw [List.getElem?_take_of_lt (Nat.lt_succ_self _)] at hlast
  exact ⟨Nat.succ_pos _, hlast⟩

/-- Along a path each frame examined the module of the next inner one last. -/
theorem Examined.leads {mark : Identity → Mark} {inner : List Identity} {path : List Frame}
    (h : Examined dependencies mark inner path) : path.IsChain fun f g =>
      0 < g.next ∧ (dependencies g.node)[g.next - 1]? = some f.node := by
  induction path generalizing inner with
  | nil => exact .nil
  | cons f above ih =>
    obtain ⟨_, _, habove⟩ := h
    cases above with
    | nil => exact .singleton f
    | cons g above =>
      obtain ⟨hle, ⟨before, htake, _⟩, _⟩ := id habove
      exact .cons_cons (getElem?_of_take_concat htake hle) (ih habove)

theorem Invariant.standing (h : Invariant dependencies ids s) :
    Standing ids dependencies s.view where
  inProgress_iff x _ := by
    rw [map_fst_view]
    exact h.marked.inProgress_iff x
  path_mem x hx := by
    rw [map_fst_view] at hx
    obtain ⟨f, hf, rfl⟩ := List.mem_map.mp hx
    exact h.nodes_mem f hf
  path_nodup := by
    rw [map_fst_view]
    exact h.marked.nodup
  path_leads := (List.isChain_map _).mpr h.examined.leads
  settled x _ := h.marked.settled x

/-! ## 4. What is never taken back -/

theorem stage_update_le {mark : Identity → Mark} {id : Identity} {m : Mark}
    (hm : (mark id).stage ≤ m.stage) (x : Identity) :
    (mark x).stage ≤ (Function.update mark id m x).stage := by
  by_cases e : x = id
  · rwa [e, Function.update_self]
  · rw [Function.update_of_ne e]

theorem stage_le_done (m : Mark) : m.stage ≤ Mark.done.stage := by
  cases m <;> decide

theorem mark_enter (s : State) (id : Identity) :
    (s.enter id).mark = Function.update s.mark id .inProgress :=
  mark_put ..

/-- **A move takes no mark back.** -/
theorem Move.stage_le (h : Move dependencies s s') (x : Identity) :
    (s.mark x).stage ≤ (s'.mark x).stage := by
  cases h with
  | @start id rest _ _ hm =>
    have hle : (s.mark id).stage ≤ Mark.inProgress.stage := hm ▸ Nat.zero_le _
    rw [mark_enter]
    exact stage_update_le hle x
  | skip => exact Nat.le_refl _
  | leave =>
    rw [mark_put]
    exact stage_update_le (stage_le_done _) x
  | @descend f above d _ _ hm =>
    have hle : (s.mark d).stage ≤ Mark.inProgress.stage := hm ▸ Nat.zero_le _
    rw [mark_enter]
    exact stage_update_le hle x
  | pass => exact Nat.le_refl _

theorem Move.done (h : Move dependencies s s') {x : Identity} (hx : s.mark x = .done) :
    s'.mark x = .done := by
  have hle := h.stage_le x
  rw [hx] at hle
  cases hx' : s'.mark x with
  | done => rfl
  | unvisited | inProgress =>
    rw [hx'] at hle
    exact absurd hle (by decide)

/-- A module was put on the path. -/
def Begun (s : State) (x : Identity) : Prop := s.mark x ≠ .unvisited

theorem Begun.move {x : Identity} (hx : Begun s x) (h : Move dependencies s s') : Begun s' x := by
  intro hx'
  have hle := h.stage_le x
  rw [hx'] at hle
  cases hm : s.mark x with
  | unvisited => exact hx hm
  | inProgress | done =>
    rw [hm] at hle
    exact absurd hle (by decide)

/-- **Only a module that was not on the path before is put there.** -/
theorem Move.entered? (h : Move dependencies s s') {x : Identity}
    (hx : s.view.entered? s'.view = some x) : ¬ Begun s x ∧ Begun s' x := by
  obtain ⟨hlt, hhead⟩ := Option.ite_none_right_eq_some.mp hx
  simp only [State.view, List.length_map] at hlt
  cases h with
  | start _ _ hm | descend _ _ hm =>
    cases hhead
    refine ⟨fun hbegun => hbegun hm, ?_⟩
    rw [Begun, mark_enter, Function.update_self]
    exact Mark.noConfusion
  | skip => exact absurd hlt (Nat.lt_irrefl _)
  | leave hp _ =>
    rw [hp, List.length_cons] at hlt
    exact absurd hlt (Nat.not_lt.mpr (Nat.le_succ _))
  | pass hp _ _ =>
    rw [hp] at hlt
    exact absurd hlt (Nat.lt_irrefl _)

/-- A dependency entry was examined: its module is done, or is on the path with a position behind
    the entry. -/
def Past (dependencies : Identity → List Identity) (s : State) (e : Identity × Nat) : Prop :=
  s.mark e.1 = .done ∧ e.2 < (dependencies e.1).length ∨
    ∃ f ∈ s.path, f.node = e.1 ∧ e.2 < f.next

variable {e : Identity × Nat}

/-- The entry to be examined next is the one at the position of the innermost module. -/
theorem examines?_view_eq_some_iff : s.view.examines? dependencies = some e ↔
    ∃ f above, s.path = f :: above ∧ (f.node, f.next) = e ∧
      f.next < (dependencies f.node).length := by
  rw [View.examines?, State.view, List.head?_map]
  cases hp : s.path with
  | nil => simp
  | cons f above =>
    simp only [List.head?_cons, Option.map_some, Option.filter_eq_some_iff, Option.some.injEq,
      decide_eq_true_eq]
    constructor
    · rintro ⟨rfl, hlt⟩
      exact ⟨f, above, rfl, rfl, hlt⟩
    · rintro ⟨g, _, hg, rfl, hlt⟩
      obtain ⟨rfl, _⟩ := List.cons.inj hg
      exact ⟨rfl, hlt⟩

/-- Where the innermost module moves on, nothing on the path moves back. -/
theorem exists_advanced {f : Frame} {above : List Frame}
    (h : ∃ g ∈ f :: above, g.node = e.1 ∧ e.2 < g.next) :
    ∃ g ∈ { f with next := f.next + 1 } :: above, g.node = e.1 ∧ e.2 < g.next := by
  obtain ⟨g, hg, hnode, hlt⟩ := h
  rcases List.mem_cons.mp hg with rfl | hg
  · exact ⟨_, List.mem_cons_self, hnode, Nat.lt_succ_of_lt hlt⟩
  · exact ⟨g, List.mem_cons_of_mem _ hg, hnode, hlt⟩

/-- **An entry that was examined stays so.** -/
theorem Past.move (hinv : Invariant dependencies ids s) (h : Move dependencies s s')
    (he : Past dependencies s e) : Past dependencies s' e := by
  rcases he with ⟨hdone, hlt⟩ | hpath
  · exact Or.inl ⟨h.done hdone, hlt⟩
  · cases h with
    | start hp _ _ =>
      obtain ⟨g, hg, _⟩ := hpath
      rw [hp] at hg
      exact absurd hg List.not_mem_nil
    | skip => exact Or.inr hpath
    | @leave f above hp _ =>
      obtain ⟨g, hg, hnode, hlt⟩ := hpath
      have hexamined := hinv.examined
      rw [hp] at hg hexamined
      rcases List.mem_cons.mp hg with rfl | hg
      · refine Or.inl ⟨?_, hnode ▸ Nat.lt_of_lt_of_le hlt hexamined.1⟩
        rw [mark_put, hnode, Function.update_self]
      · exact Or.inr ⟨g, hg, hnode, hlt⟩
    | @descend f above d hp _ _ =>
      rw [hp] at hpath
      obtain ⟨g, hg, hnode, hlt⟩ := exists_advanced hpath
      exact Or.inr ⟨g, List.mem_cons_of_mem _ hg, hnode, hlt⟩
    | @pass f above d hp _ _ =>
      rw [hp] at hpath
      exact Or.inr (exists_advanced hpath)

/-- What is examined next was not examined before, -/
theorem not_past_of_examines? (hinv : Invariant dependencies ids s)
    (he : s.view.examines? dependencies = some e) : ¬ Past dependencies s e := by
  obtain ⟨f, above, hp, rfl, _⟩ := examines?_view_eq_some_iff.mp he
  have hf : f ∈ s.path := hp ▸ List.mem_cons_self
  rintro (⟨hdone, _⟩ | ⟨g, hg, hnode, hlt⟩)
  · have hprogress := (hinv.marked.inProgress_iff f.node).mpr (List.mem_map_of_mem hf)
    rw [hdone] at hprogress
    cases hprogress
  · -- no other frame has the same module
    have hgf : g = f := List.inj_on_of_nodup_map hinv.marked.nodup hg hf hnode
    rw [hgf] at hlt
    exact Nat.lt_irrefl _ hlt

/-- and has been examined afterwards. -/
theorem Move.past (h : Move dependencies s s') (he : s.view.examines? dependencies = some e) :
    Past dependencies s' e := by
  obtain ⟨f, above, hp, rfl, hlt⟩ := examines?_view_eq_some_iff.mp he
  have hbehind : ∃ g ∈ { f with next := f.next + 1 } :: above, g.node = f.node ∧ f.next < g.next :=
    ⟨_, List.mem_cons_self, rfl, Nat.lt_succ_self _⟩
  cases h with
  | start hp' _ _ | skip hp' _ _ => cases hp.symm.trans hp'
  | leave hp' hd =>
    cases hp.symm.trans hp'
    exact absurd (List.getElem?_eq_none_iff.mp hd) (Nat.not_le.mpr hlt)
  | descend hp' _ _ =>
    cases hp.symm.trans hp'
    obtain ⟨g, hg, hbehind⟩ := hbehind
    exact Or.inr ⟨g, List.mem_cons_of_mem _ hg, hbehind⟩
  | pass hp' _ _ =>
    cases hp.symm.trans hp'
    exact Or.inr hbehind

/-! ## 5. The number of iterations -/

/-- What the modules still cost: an iteration for each of them, and one for each of their entries
    that was not examined. -/
def cost (dependencies : Identity → List Identity) (ids : List Identity) (s : State) : Nat :=
  ahead dependencies s.mark ids + onPath dependencies s.path

theorem left_eq (s : State) : left dependencies ids s = s.starts.length + cost dependencies ids s :=
  Nat.add_assoc ..

theorem cost_pos_of_iterates (h : s.view.iterates = true) : 1 ≤ cost dependencies ids s := by
  cases hp : s.path with
  | nil =>
    rw [View.iterates, State.view, hp] at h
    cases h
  | cons f above =>
    rw [cost, hp, onPath, List.map_cons, List.sum_cons]
    omega

/-- **An iteration lowers the cost**, and nothing else raises it. -/
theorem Move.cost_le (hc : ∀ id ∈ ids, ∀ d ∈ dependencies id, d ∈ ids)
    (hinv : Invariant dependencies ids s) (h : Move dependencies s s') :
    cost dependencies ids s' + (if s.view.iterates then 1 else 0) ≤ cost dependencies ids s := by
  have hlt := left_lt_of_move hc hinv h
  rw [left_eq, left_eq] at hlt
  cases h with
  | @start id rest hp hs _ | @skip id rest hp hs _ =>
    have hidle : ¬ s.view.iterates = true := by
      rw [View.iterates, State.view, hp]
      exact Bool.false_ne_true
    change rest.length + cost dependencies ids _ < _ at hlt
    rw [hs, List.length_cons] at hlt
    rw [if_neg hidle]
    omega
  | leave hp _ | descend hp _ _ | pass hp _ _ =>
    have hiterates : s.view.iterates = true := by rw [View.iterates, State.view, hp]; rfl
    change s.starts.length + cost dependencies ids _ < _ at hlt
    rw [if_pos hiterates]
    omega

theorem cost_initial : cost dependencies ids (initial ids) =
    ids.length + (ids.map fun id => (dependencies id).length).sum := by
  have hsum : ∀ l : List Identity, ahead dependencies (fun _ => Mark.unvisited) l =
      l.length + (l.map fun id => (dependencies id).length).sum := by
    intro l
    induction l with
    | nil => rfl
    | cons a l ih =>
      simp only [ahead, List.length_cons, List.map_cons, List.sum_cons, if_true] at ih ⊢
      omega
  exact hsum ids

/-! ## 6. Whole searches -/

section Lists

variable {α β : Type}

theorem filterMap_cons_eq (f : α → Option β) (a : α) (l : List α) :
    (a :: l).filterMap f = (f a).toList ++ l.filterMap f := by
  cases h : f a with
  | none => rw [List.filterMap_cons_none h, Option.toList_none, List.nil_append]
  | some b => rw [List.filterMap_cons_some h, Option.toList_some, List.singleton_append]

theorem entered_cons_cons (v w : View α) (vs : List (View α)) :
    entered (v :: w :: vs) = (v.entered? w).toList ++ entered (w :: vs) :=
  filterMap_cons_eq ..

/-- What is noted once it is true is not noted again: `P` holds of what was true before a step, and
    `P'` of what is true after it; `o` is noted at the step, and `l` is noted later. -/
theorem nodup_toList_append {P P' : β → Prop} {o : Option β} {l : List β}
    (ho : ∀ b, o = some b → ¬ P b ∧ P' b) (hkeep : ∀ b, P b → P' b)
    (hl : l.Nodup ∧ ∀ b ∈ l, ¬ P' b) : (o.toList ++ l).Nodup ∧ ∀ b ∈ o.toList ++ l, ¬ P b := by
  obtain ⟨hnodup, hlater⟩ := hl
  cases o with
  | none => exact ⟨hnodup, fun b hb hP => hlater b hb (hkeep b hP)⟩
  | some b =>
    obtain ⟨hbefore, hafter⟩ := ho b rfl
    exact ⟨List.nodup_cons.mpr ⟨fun hb => hlater b hb hafter, hnodup⟩,
      List.forall_mem_cons.mpr ⟨hbefore, fun c hc hP => hlater c hc (hkeep c hP)⟩⟩

end Lists

section Search

variable {states : List State} {r : Option (List Identity)}

/-- No module is put on the path that was there before, hence none is twice. -/
theorem nodup_entered (hcourse : Course (Goes dependencies) (Ends dependencies) s states r) :
    (entered (states.map State.view)).Nodup ∧
      ∀ x ∈ entered (states.map State.view), ¬ Begun s x := by
  induction hcourse with
  | last => exact ⟨.nil, nofun⟩
  | next hgoes hrest ih =>
    obtain ⟨rest, rfl⟩ := hrest.exists_tail
    rw [List.map_cons, List.map_cons, entered_cons_cons]
    exact nodup_toList_append (fun x hx => hgoes.move.entered? hx)
      (fun x hx => hx.move hgoes.move) ih

variable (hc : ∀ id ∈ ids, ∀ d ∈ dependencies id, d ∈ ids)
variable (hcourse : Course (Goes dependencies) (Ends dependencies) s states r)
variable (hinv : Invariant dependencies ids s)
include hc hcourse hinv

/-- **Every state has the invariant**, from the first one on. -/
theorem invariant_of_mem : ∀ t ∈ states, Invariant dependencies ids t :=
  hcourse.forall_mem (fun _ _ ht hgoes => ht.move hc hgoes.move) hinv

/-- No entry is examined that was examined before, hence none is twice. -/
theorem nodup_examined :
    ((states.map State.view).filterMap (View.examines? dependencies)).Nodup ∧
      ∀ e ∈ (states.map State.view).filterMap (View.examines? dependencies),
        ¬ Past dependencies s e := by
  induction hcourse with
  | @last s r hend =>
    -- nothing follows, so it does not matter what has been examined afterwards
    have hnone : ([] : List (Identity × Nat)).Nodup ∧ ∀ e ∈ ([] : List (Identity × Nat)), ¬ True :=
      ⟨.nil, nofun⟩
    rw [List.map_singleton, filterMap_cons_eq]
    exact nodup_toList_append (fun e he => ⟨not_past_of_examines? hinv he, trivial⟩)
      (fun _ _ => trivial) hnone
  | @next s s' rest r hgoes hrest ih =>
    rw [List.map_cons, filterMap_cons_eq]
    exact nodup_toList_append
      (fun e he => ⟨not_past_of_examines? hinv he, hgoes.move.past he⟩)
      (fun e he => he.move hinv hgoes.move) (ih (hinv.move hc hgoes.move))

/-- There are no more iterations than the modules cost. -/
theorem iterations_le_cost :
    (states.map State.view).countP View.iterates ≤ cost dependencies ids s := by
  induction hcourse with
  | @last s r hend =>
    rw [List.map_singleton, List.countP_singleton]
    split
    · rename_i hiterates
      exact cost_pos_of_iterates hiterates
    · exact Nat.zero_le _
  | @next s s' rest r hgoes hrest ih =>
    -- the step pays for the iteration that begins here, what is left pays for the later ones
    have hstep := hgoes.move.cost_le hc hinv
    have hrest := ih (hinv.move hc hgoes.move)
    rw [List.map_cons, List.countP_cons]
    omega

end Search

/-- **A search is thorough**, whether it finds a cycle or not. -/
theorem thorough_of_course (hc : ∀ id ∈ ids, ∀ d ∈ dependencies id, d ∈ ids)
    {states : List State} {r : Option (List Identity)}
    (hcourse : Course (Goes dependencies) (Ends dependencies) (initial ids) states r) :
    Thorough ids dependencies (states.map State.view) (r = none) where
  standing v hv := by
    obtain ⟨t, ht, rfl⟩ := List.mem_map.mp hv
    exact (invariant_of_mem hc hcourse invariant_initial t ht).standing
  onward := by
    have hle := hcourse.pairwise (fun _ _ hgoes => hgoes.move.stage_le) (fun _ _ => Nat.le_refl _)
      (fun _ _ _ htu huv x => Nat.le_trans (htu x) (huv x))
    exact List.pairwise_map.mpr (hle.imp fun hle x _ => hle x)
  entered_nodup := (nodup_entered hcourse).1
  examined_nodup := (nodup_examined hc hcourse invariant_initial).1
  iterations_le := by
    rw [← cost_initial]
    exact iterations_le_cost hc hcourse invariant_initial
  done_of_passed := by
    rintro rfl v hv x hx
    obtain ⟨t, ht, hend⟩ := hcourse.exists_last
    rw [List.getLast?_map, ht] at hv
    cases hv
    have hinv := invariant_of_mem hc hcourse invariant_initial t (List.mem_of_getLast? ht)
    have hfinished := step_spec dependencies t
    rw [show step dependencies t = .finished from hend] at hfinished
    exact hinv.done_of_finished hfinished.1 hfinished.2 x hx

/-- **The search for a cycle has a course, along which it is thorough.** -/
theorem exists_thorough_course (hc : ∀ id ∈ ids, ∀ d ∈ dependencies id, d ∈ ids) :
    ∃ states,
      Course (Goes dependencies) (Ends dependencies) (initial ids) states
        (find? dependencies ids) ∧
      Thorough ids dependencies (states.map State.view) (find? dependencies ids = none) := by
  have hbudget : left dependencies ids (initial ids) < budget dependencies ids :=
    Nat.lt_of_lt_of_eq (Nat.lt_succ_self _) left_initial
  obtain ⟨states, hcourse⟩ := exists_course hc invariant_initial hbudget
  exact ⟨states, hcourse, thorough_of_course hc hcourse⟩

end CycleSearch

end Isolation
