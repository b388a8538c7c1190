import Isolation.Proofs.CycleIterations
import Isolation.Proofs.FirstPaths
import Isolation.Proofs.StoredChecks

/-!
# How the check for cycles proceeds over positions

The check for cycles goes over the positions of what is stored. Each of its steps is a step of the
search over identities (`cycleStep_walkOf`), so it is as thorough as that search.

* `Renaming`, `Renames` -- two graphs that differ in the names of their nodes, and what is seen of
  the same search in both;
* **`Thorough.rename`** -- what is thorough under one set of names is so under the other: every rule
  is about nodes that are told apart, and no two nodes get one name;
* `targets`, `CycleWalk.view` -- the graph of positions, and what is seen of the search over it;
* `renames_walkOf`, `course_walkOf` -- it is the search over identities under other names, along the
  same course;
* **`cycle_check_is_thorough`** -- the search and the check that building makes, for every list
  without repeated identities in which all dependencies resolve, whether there is a cycle or not.
-/

namespace Isolation

namespace CycleSearch

/-! ## 1. Other names -/

/-- A graph whose nodes have other names, in some order. -/
structure Renaming {ν μ : Type} (f : ν → μ) (nodes : List ν) (dependencies : ν → List ν)
    (nodes' : List μ) (dependencies' : μ → List μ) : Prop where
  inj : ∀ x ∈ nodes, ∀ y ∈ nodes, f x = f y → x = y
  closed : ∀ x ∈ nodes, ∀ d ∈ dependencies x, d ∈ nodes
  nodes_perm : nodes'.Perm (nodes.map f)
  dependencies_eq : ∀ x ∈ nodes, dependencies' (f x) = (dependencies x).map f

/-- What is seen under the other names. -/
structure Renames {ν μ : Type} (f : ν → μ) (nodes : List ν) (v : View ν) (w : View μ) : Prop where
  mark_eq : ∀ x ∈ nodes, w.mark (f x) = v.mark x
  path_eq : w.path = v.path.map fun e => (f e.1, e.2)

section Rename

variable {ν μ : Type} {f : ν → μ} {nodes : List ν} {dependencies : ν → List ν}
  {nodes' : List μ} {dependencies' : μ → List μ} {v v' : View ν} {w w' : View μ}

theorem Renames.map_fst (h : Renames f nodes v w) :
    w.path.map Prod.fst = (v.path.map Prod.fst).map f := by
  rw [h.path_eq, List.map_map, List.map_map]
  rfl

theorem Renames.iterates (h : Renames f nodes v w) : w.iterates = v.iterates := by
  rw [View.iterates, View.iterates, h.path_eq, List.isEmpty_map]

theorem Renames.entered? (h : Renames f nodes v w) (h' : Renames f nodes v' w') :
    w.entered? w' = (v.entered? v').map f := by
  rw [View.entered?, View.entered?, h.path_eq, h'.path_eq, List.length_map, List.length_map,
    List.head?_map]
  split
  · rw [Option.map_map, Option.map_map]
    rfl
  · rfl

/-- A node that is put on the path is on it then. -/
theorem View.mem_of_entered? {x : ν} (h : v.entered? v' = some x) :
    x ∈ v'.path.map Prod.fst := by
  obtain ⟨_, hhead⟩ := Option.ite_none_right_eq_some.mp h
  rw [← List.head?_map] at hhead
  exact List.mem_of_head? hhead

/-- An entry that is examined is one of a node on the path. -/
theorem View.mem_of_examines? {e : ν × Nat} (h : v.examines? dependencies = some e) :
    e.1 ∈ v.path.map Prod.fst :=
  List.mem_map_of_mem (List.mem_of_head? (Option.filter_eq_some_iff.mp h).1)

theorem mem_nodes_of_entered {vs : List (View ν)}
    (hpath : ∀ v ∈ vs, ∀ x ∈ v.path.map Prod.fst, x ∈ nodes) : ∀ x ∈ entered vs, x ∈ nodes := by
  intro x hx
  obtain ⟨p, hp, hentered⟩ := List.mem_filterMap.mp hx
  exact hpath p.2 (List.mem_of_mem_tail (List.of_mem_zip hp).2) x (View.mem_of_entered? hentered)

section Along

variable {σ : Type} {states : List σ} {old : σ → View ν} {new : σ → View μ}
  (hnames : ∀ t ∈ states, Renames f nodes (old t) (new t))
include hnames

theorem entered_rename : entered (states.map new) = (entered (states.map old)).map f := by
  have hzip : ∀ {α : Type} (g : σ → α), (states.map g).zip (states.map g).tail =
      (states.zip states.tail).map (Prod.map g g) := fun g => by rw [← List.map_tail, List.zip_map]
  rw [entered, entered, hzip, hzip, List.filterMap_map, List.filterMap_map, List.map_filterMap]
  refine List.filterMap_congr fun p hp => ?_
  obtain ⟨h₁, h₂⟩ := List.of_mem_zip hp
  exact (hnames p.1 h₁).entered? (hnames p.2 (List.mem_of_mem_tail h₂))

theorem countP_iterates_rename :
    (states.map new).countP View.iterates = (states.map old).countP View.iterates := by
  rw [List.countP_map, List.countP_map]
  exact List.countP_congr fun t ht => by
    rw [Function.comp_apply, Function.comp_apply, (hnames t ht).iterates]

end Along

variable (hf : Renaming f nodes dependencies nodes' dependencies')
include hf

theorem Renaming.mem_iff {x : ν} {l : List ν} (hx : x ∈ nodes) (hl : ∀ y ∈ l, y ∈ nodes) :
    f x ∈ l.map f ↔ x ∈ l := by
  refine ⟨fun h => ?_, List.mem_map_of_mem⟩
  obtain ⟨y, hy, hxy⟩ := List.mem_map.mp h
  exact hf.inj y (hl y hy) x hx hxy ▸ hy

theorem Renaming.exists_of_mem {y : μ} (hy : y ∈ nodes') : ∃ x ∈ nodes, f x = y :=
  List.mem_map.mp (hf.nodes_perm.mem_iff.mp hy)

theorem Renaming.sum_eq : (nodes'.map fun y => (dependencies' y).length).sum =
    (nodes.map fun x => (dependencies x).length).sum := by
  rw [(hf.nodes_perm.map _).sum_nat, List.map_map]
  refine congrArg List.sum (List.map_congr_left fun x hx => ?_)
  rw [Function.comp_apply, hf.dependencies_eq x hx, List.length_map]

theorem Renames.examines? (h : Renames f nodes v w)
    (hpath : ∀ x ∈ v.path.map Prod.fst, x ∈ nodes) :
    w.examines? dependencies' = (v.examines? dependencies).map fun e => (f e.1, e.2) := by
  rw [View.examines?, View.examines?, h.path_eq, List.head?_map]
  cases hp : v.path with
  | nil => rfl
  | cons e above =>
    have he : e.1 ∈ nodes := hpath e.1 (hp ▸ List.mem_cons_self)
    rw [List.head?_cons, Option.map_some, Option.filter_some, Option.filter_some,
      hf.dependencies_eq e.1 he, List.length_map]
    split <;> rfl

/-- **The rules hold under the other names.** -/
theorem Standing.rename (h : Standing nodes dependencies v) (hv : Renames f nodes v w) :
    Standing nodes' dependencies' w where
  inProgress_iff y hy := by
    obtain ⟨x, hx, rfl⟩ := hf.exists_of_mem hy
    rw [hv.mark_eq x hx, hv.map_fst, hf.mem_iff hx h.path_mem]
    exact h.inProgress_iff x hx
  path_mem y hy := by
    rw [hv.map_fst] at hy
    obtain ⟨x, hx, rfl⟩ := List.mem_map.mp hy
    exact hf.nodes_perm.mem_iff.mpr (List.mem_map_of_mem (h.path_mem x hx))
  path_nodup := by
    rw [hv.map_fst]
    exact h.path_nodup.map_on fun x hx y hy =>
      hf.inj x (h.path_mem x hx) y (h.path_mem y hy)
  path_leads := by
    rw [hv.path_eq, List.isChain_map]
    -- only nodes of the graph have their dependencies renamed, and the outer one is on the path
    refine h.path_leads.imp_of_mem_imp fun inner outer _ houter hleads => ⟨hleads.1, ?_⟩
    rw [hf.dependencies_eq outer.1 (h.path_mem _ (List.mem_map_of_mem houter)),
      List.getElem?_map, hleads.2, Option.map_some]
  settled y hy hdone d hd := by
    obtain ⟨x, hx, rfl⟩ := hf.exists_of_mem hy
    rw [hf.dependencies_eq x hx] at hd
    obtain ⟨c, hc, rfl⟩ := List.mem_map.mp hd
    rw [hv.mark_eq x hx] at hdone
    rw [hv.mark_eq c (hf.closed x hx c hc)]
    exact h.settled x hx hdone c hc

/-- **What is thorough under one set of names is so under the other.** -/
theorem Thorough.rename {σ : Type} {states : List σ} {old : σ → View ν} {new : σ → View μ}
    {passed : Prop} (h : Thorough nodes dependencies (states.map old) passed)
    (hnames : ∀ t ∈ states, Renames f nodes (old t) (new t)) :
    Thorough nodes' dependencies' (states.map new) passed := by
  have hstanding : ∀ t ∈ states, Standing nodes dependencies (old t) := fun t ht =>
    h.standing _ (List.mem_map_of_mem ht)
  have hexamined : (states.map new).filterMap (View.examines? dependencies') =
      ((states.map old).filterMap (View.examines? dependencies)).map fun e => (f e.1, e.2) := by
    rw [List.filterMap_map, List.filterMap_map, List.map_filterMap]
    exact List.filterMap_congr fun t ht => (hnames t ht).examines? hf (hstanding t ht).path_mem
  have hentry : ∀ e ∈ (states.map old).filterMap (View.examines? dependencies), e.1 ∈ nodes := by
    intro e he
    obtain ⟨v, hv, hentry⟩ := List.mem_filterMap.mp he
    exact (h.standing v hv).path_mem _ (View.mem_of_examines? hentry)
  refine ⟨?standing, ?onward, ?entered, ?examined, ?iterations, ?passed⟩
  case standing =>
    intro w hw
    obtain ⟨t, ht, rfl⟩ := List.mem_map.mp hw
    exact (hstanding t ht).rename hf (hnames t ht)
  case onward =>
    refine List.pairwise_map.mpr ((List.pairwise_map.mp h.onward).imp_of_mem ?_)
    intro t u ht hu hle y hy
    obtain ⟨x, hx, rfl⟩ := hf.exists_of_mem hy
    rw [(hnames t ht).mark_eq x hx, (hnames u hu).mark_eq x hx]
    exact hle x hx
  case entered =>
    have hmem := mem_nodes_of_entered fun v hv => (h.standing v hv).path_mem
    rw [entered_rename hnames]
    exact h.entered_nodup.map_on fun x hx y hy => hf.inj x (hmem x hx) y (hmem y hy)
  case examined =>
    rw [hexamined]
    refine h.examined_nodup.map_on fun e he e' he' heq => ?_
    obtain ⟨hfst, hsnd⟩ := Prod.mk.inj heq
    exact Prod.ext (hf.inj e.1 (hentry e he) e'.1 (hentry e' he') hfst) hsnd
  case iterations =>
    rw [countP_iterates_rename hnames, hf.sum_eq, hf.nodes_perm.length_eq, List.length_map]
    exact h.iterations_le
  case passed =>
    intro hpassed w hw y hy
    rw [List.getLast?_map] at hw
    obtain ⟨t, ht, rfl⟩ := Option.map_eq_some_iff.mp hw
    obtain ⟨x, hx, rfl⟩ := hf.exists_of_mem hy
    rw [(hnames t (List.mem_of_getLast? ht)).mark_eq x hx]
    exact h.done_of_passed hpassed _ (by rw [List.getLast?_map, ht, Option.map_some]) x hx

end Rename

end CycleSearch

namespace StoredGraph

open Isolation.Graph (blindAlley circleBelow)
open CycleSearch (State View Course Thorough Renames Renaming Invariant)

/-! ## 2. The search over positions -/

/-- What is seen of a search over positions. -/
def CycleWalk.view (w : CycleWalk) : View Nat := ⟨fun i => w.marks[i]?.getD .unvisited, w.path⟩

/-- The positions that the dependencies of the node at a position lead to, in the order of
    declaration; a position behind all nodes where an identity is not in the index. -/
def targets (s : StoredGraph) (i : Nat) : List Nat :=
  (s.nodes[i]?.elim [] Module.dependencies).map fun d => (s.index.get? d).getD s.size

/-- A step leads on to a walk. -/
def Goes (s : StoredGraph) (w w' : CycleWalk) : Prop := s.cycleStep w = .ok (some w')

/-- A step ends the search: with nothing found, or stopped. -/
def Ends (s : StoredGraph) (w : CycleWalk) : Except Stop Unit → Prop
  | .ok () => s.cycleStep w = .ok none
  | .error e => s.cycleStep w = .error e

/-- What the check says of a cycle that was found, or of none. -/
def refusal (found : Option (List Identity)) : Except Stop Unit :=
  verdict (found.map fun c => .fault (.cyclicDependency c))

/-- The search over positions begins where that over identities does. -/
theorem walkOf_initial (ms : List Module) (ids : List Identity) :
    walkOf ms (CycleSearch.initial ids) =
      ⟨List.replicate ms.length .unvisited, [], ids.map (placeOf ms)⟩ :=
  congrArg (CycleWalk.mk · [] _) List.map_const'

theorem eq_none_of_refusal {found : Option (List Identity)} (h : refusal found = .ok ()) :
    found = none := by
  cases found with
  | none => rfl
  | some c => cases h

section Stored

variable {ms : List Module} (hd : Distinct ms)
include hd

theorem targets_placeOf (hr : Resolved ms) {m : Module} (hm : m ∈ ms) :
    (stored ms).targets (placeOf ms m.id) = m.dependencies.map (placeOf ms) := by
  have hget : (stored ms).nodes[placeOf ms m.id]? = some m := getElem?_placeOf hd hm
  rw [targets, hget]
  refine List.map_congr_left fun d hdep => ?_
  obtain ⟨n, hn, rfl⟩ := List.mem_map.mp (hr m hm d hdep)
  have hplace : (stored ms).index.get? n.id = some (placeOf ms n.id) := get?_indexOf hd hn
  rw [hplace, Option.getD_some]

/-- Each dependency of a node was stored as an edge. -/
theorem sum_targets_stored (hr : Resolved ms) :
    ((List.range ms.length).map fun i => ((stored ms).targets i).length).sum =
      (stored ms).edgeCount := by
  rw [← map_placeOf_ids hd, List.map_map, List.map_map, edgeCount, length_edges_stored]
  refine congrArg List.sum (List.map_congr_left fun m hm => ?_)
  rw [Function.comp_apply, Function.comp_apply, targets_placeOf hd hr hm, List.length_map]

/-- Positions are other names for identities. -/
theorem renaming_placeOf (hr : Resolved ms) :
    Renaming (placeOf ms) (Register.ofList ms : Register Module.id).names
      (Graph.dependenciesIn (Register.ofList ms)) (List.range ms.length) (stored ms).targets where
  inj a ha b hb := (placeOf_inj hd ((Graph.mem_names_ofList hd).mp ha)
    ((Graph.mem_names_ofList hd).mp hb)).mp
  closed := Graph.mem_names_of_dependenciesIn hd hr
  nodes_perm := by
    rw [← map_placeOf_ids hd]
    exact (((toList_ofList_perm hd).map Module.id).map (placeOf ms)).symm
  dependencies_eq a ha := by
    obtain ⟨m, hm, rfl⟩ := List.mem_map.mp ((Graph.mem_names_ofList hd).mp ha)
    rw [targets_placeOf hd hr hm, dependenciesIn_of_mem hd hm]

theorem renames_walkOf (t : State) :
    Renames (placeOf ms) (Register.ofList ms : Register Module.id).names t.view
      (walkOf ms t).view where
  mark_eq a ha := by
    obtain ⟨m, hm, rfl⟩ := List.mem_map.mp ((Graph.mem_names_ofList hd).mp ha)
    have hmark := getElem?_marks hd hm t
    show (walkOf ms t).marks[placeOf ms m.id]?.getD .unvisited = t.mark m.id
    rw [hmark, Option.getD_some]
  path_eq := by
    rw [State.view, List.map_map]
    rfl

/-- **The search over positions takes the same course.** -/
theorem course_walkOf (hr : Resolved ms) {t : State} {states : List State}
    {r : Option (List Identity)}
    (ht : Invariant (Graph.dependenciesIn (Register.ofList ms))
      (Register.ofList ms : Register Module.id).names t)
    (h : Course (CycleSearch.Goes (Graph.dependenciesIn (Register.ofList ms)))
      (CycleSearch.Ends (Graph.dependenciesIn (Register.ofList ms))) t states r) :
    Course (stored ms).Goes (stored ms).Ends (walkOf ms t) (states.map (walkOf ms))
      (refusal r) := by
  have hc := Graph.mem_names_of_dependenciesIn hd hr
  refine h.map (fun s s' hs hgoes => hs.move hc hgoes.move) (fun s s' hs hgoes => ?_)
    (fun s r hs hends => ?_) ht
  · rw [Goes, cycleStep_walkOf hd hr hs,
      show CycleSearch.step _ s = .running s' from hgoes]
  · cases r with
    | none =>
      show (stored ms).cycleStep (walkOf ms s) = .ok none
      rw [cycleStep_walkOf hd hr hs, show CycleSearch.step _ s = .finished from hends]
    | some c =>
      show (stored ms).cycleStep (walkOf ms s) = .error (.fault (.cyclicDependency c))
      rw [cycleStep_walkOf hd hr hs, show CycleSearch.step _ s = .cycle c from hends]

/-! ## 3. The check -/

/-- Building examines what it stored for the list. -/
theorem build_eq_checks_of_resolved (hr : Resolved ms) : build ms = (do
    (stored ms).checkAcyclic
    (stored ms).checkTiers
    return stored ms) := by
  rw [build_eq_checks, Graph.firstDuplicate?_eq_none_iff_distinct.mpr hd,
    (Graph.firstUnresolved?_eq_none_iff hd).mpr hr]

end Stored

/-- **The check for cycles is thorough**, over identities and over positions, for every list without
    repeated identities in which all dependencies resolve. The course of a search ends, and with it
    the search: with what it reports. Wherever it stands, the nodes in progress are those on its
    path, and what a node on the path examined last is the next inner one; what a node that is done
    depends on is done. No mark is taken back, no node is put on the path twice and no dependency
    examined twice, so that there are at most as many iterations as nodes and dependencies; and all
    nodes are done at the end when nothing was found. -/
theorem cycle_check_is_thorough {ms : List Module} (hd : Distinct ms) (hr : Resolved ms) :
    (∃ states,
      Course (CycleSearch.Goes (Graph.dependenciesIn (Register.ofList ms)))
        (CycleSearch.Ends (Graph.dependenciesIn (Register.ofList ms)))
        (CycleSearch.initial (Register.ofList ms : Register Module.id).names) states
        (CycleSearch.find? (Graph.dependenciesIn (Register.ofList ms))
          (Register.ofList ms : Register Module.id).names) ∧
      Thorough (Register.ofList ms : Register Module.id).names
        (Graph.dependenciesIn (Register.ofList ms)) (states.map State.view)
        (CycleSearch.find? (Graph.dependenciesIn (Register.ofList ms))
          (Register.ofList ms : Register Module.id).names = none)) ∧
    build ms = (do
      (stored ms).checkAcyclic
      (stored ms).checkTiers
      return stored ms) ∧
    (stored ms).checkAcyclic = refusal (CycleSearch.find?
      (Graph.dependenciesIn (Register.ofList ms))
      (Register.ofList ms : Register Module.id).names) ∧
    ∃ starts walks, (stored ms).positions = .ok starts ∧
      Course (stored ms).Goes (stored ms).Ends
        ⟨List.replicate (stored ms).size .unvisited, [], starts⟩ walks (stored ms).checkAcyclic ∧
      (∀ w ∈ walks, w.marks.length = (stored ms).size) ∧
      Thorough (List.range (stored ms).size) (stored ms).targets (walks.map CycleWalk.view)
        ((stored ms).checkAcyclic = .ok ()) ∧
      (walks.map CycleWalk.view).countP View.iterates ≤
        (stored ms).size + (stored ms).edgeCount := by
  obtain ⟨states, hcourse, hthorough⟩ :=
    CycleSearch.exists_thorough_course (Graph.mem_names_of_dependenciesIn hd hr)
  have hcheck : (stored ms).checkAcyclic = refusal (CycleSearch.find? _ _) :=
    checkAcyclic_stored hd hr
  have hwalks := course_walkOf hd hr CycleSearch.invariant_initial hcourse
  have hthorough' := hthorough.rename (renaming_placeOf hd hr) fun t _ => renames_walkOf hd t
  rw [walkOf_initial, ← hcheck] at hwalks
  refine ⟨⟨states, hcourse, hthorough⟩, build_eq_checks_of_resolved hd hr, hcheck, _,
    states.map (walkOf ms), positions_stored hd, hwalks, ?_, ?_, ?_⟩
  · intro w hw
    obtain ⟨t, _, rfl⟩ := List.mem_map.mp hw
    exact List.length_map _
  · rw [List.map_map, hcheck]
    exact { hthorough' with
      done_of_passed := fun hok => hthorough'.done_of_passed (eq_none_of_refusal hok) }
  · have hle := hthorough'.iterations_le
    rw [List.length_range, sum_targets_stored hd hr] at hle
    rw [List.map_map]
    exact hle

/-- Two searches. In the repository with a blind alley there are six modules and six dependencies:
    the search ends after at most twelve iterations, with every node done. Where five modules with
    six dependencies contain a circle, it ends with the cycle after at most eleven. -/
theorem cycle_check_of_blind_alley_and_circle :
    (∃ starts walks w, (stored blindAlley).positions = .ok starts ∧
      Course (stored blindAlley).Goes (stored blindAlley).Ends
        ⟨List.replicate 6 .unvisited, [], starts⟩ walks (.ok ()) ∧
      (walks.map CycleWalk.view).countP View.iterates ≤ 12 ∧
      walks.getLast? = some w ∧ ∀ i < 6, w.view.mark i = .done) ∧
    ∃ starts walks, (stored circleBelow).positions = .ok starts ∧
      Course (stored circleBelow).Goes (stored circleBelow).Ends
        ⟨List.replicate 5 .unvisited, [], starts⟩ walks
        (.error (.fault (.cyclicDependency ["y", "x", "z", "y"]))) ∧
      (walks.map CycleWalk.view).countP View.iterates ≤ 11 := by
  constructor
  · obtain ⟨_, _, _, starts, walks, hstarts, hcourse, _, hthorough, hle⟩ :=
      cycle_check_is_thorough (show Distinct blindAlley by decide) (by decide)
    have hok : (stored blindAlley).checkAcyclic = .ok () := by rfl
    obtain ⟨w, hw, _⟩ := hcourse.exists_last
    have hlast : (walks.map CycleWalk.view).getLast? = some w.view := by
      rw [List.getLast?_map, hw, Option.map_some]
    exact ⟨starts, walks, w, hstarts, hok ▸ hcourse, hle, hw,
      fun i hi => hthorough.done_of_passed hok w.view hlast i (List.mem_range.mpr hi)⟩
  · obtain ⟨_, _, _, starts, walks, hstarts, hcourse, _, _, hle⟩ :=
      cycle_check_is_thorough (show Distinct circleBelow by decide) (by decide)
    have hcycle : (stored circleBelow).checkAcyclic =
        .error (.fault (.cyclicDependency ["y", "x", "z", "y"])) := by rfl
    exact ⟨starts, walks, hstarts, hcycle ▸ hcourse, hle⟩

end StoredGraph

end Isolation
