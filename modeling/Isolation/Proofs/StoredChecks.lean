import Isolation.Proofs.ReportedCycles
import Isolation.Proofs.StoredGraphs

/-!
# The checks of what is stored

What was stored is examined twice: for a cycle of dependencies, and for tiers that do not fall. Both
checks go over positions and look identities up as they come to them. This file shows that neither
look-up nor limit ever stops them, and that they find what the checks over identities find:

* `walkOf` -- where the search over positions stands, for each state of the search over identities;
* **`cycleStep_walkOf`** -- one step of the one is one step of the other, and
  `cycleRun_walkOf` -- a whole search reports the same, by induction on the steps that are allowed;
* `checkAcyclic_stored`, `checkTiers_stored` -- each check refuses what the search over identities
  reports, and nothing else;
* **`build_eq`** -- storing a list of modules ends as building its graph does.
-/

namespace Isolation

theorem toList_ofList_perm {ms : List Module} (hd : Distinct ms) :
    (Register.ofList ms : Register Module.id).toList.Perm ms := by
  have hnodup := (Register.ofList ms : Register Module.id).nodup_toList
  exact (List.perm_ext_iff_of_nodup hnodup hd.of_map).mpr fun _ => Register.mem_ofList_of_nodup hd

theorem foldr_add_eq_of_perm {l l' : List Nat} (h : l.Perm l') :
    l.foldr (· + ·) 0 = l'.foldr (· + ·) 0 := by
  rw [← List.sum_eq_foldr, ← List.sum_eq_foldr]
  exact h.sum_nat

/-- What a check says that found something wrong, or nothing. -/
def verdict {ε : Type} (found : Option ε) : Except ε Unit :=
  match found with
  | some e => .error e
  | none => .ok ()

namespace StoredGraph

open CycleSearch (State Frame Invariant)

variable {ms : List Module}

/-! ## 1. The search for a cycle, over positions -/

/-- Where the search over positions stands when the search over identities stands at `t`. -/
def walkOf (ms : List Module) (t : State) : CycleWalk :=
  ⟨ms.map fun m => t.mark m.id, t.path.map fun f => (placeOf ms f.node, f.next),
    t.starts.map (placeOf ms)⟩

section Walk

variable (hd : Distinct ms) {t : State} {id : Identity}
include hd

theorem getElem?_marks {m : Module} (hm : m ∈ ms) (t : State) :
    (walkOf ms t).marks[placeOf ms m.id]? = some (t.mark m.id) := by
  have hget := getElem?_placeOf hd hm
  rw [walkOf, List.getElem?_map, hget, Option.map_some]

theorem markAt_walkOf (hid : id ∈ ms.map Module.id) (t : State) :
    (walkOf ms t).markAt (placeOf ms id) = .ok (t.mark id) := by
  obtain ⟨m, hm, rfl⟩ := List.mem_map.mp hid
  rw [CycleWalk.markAt, getElem?_marks hd hm]

theorem setMark_walkOf (hid : id ∈ ms.map Module.id) (t : State) (mark : CycleSearch.Mark) :
    (walkOf ms t).setMark (placeOf ms id) mark =
      .ok (walkOf ms { t with marks := t.marks.put id mark }) := by
  obtain ⟨m, hm, rfl⟩ := List.mem_map.mp hid
  have hlt := (List.getElem?_eq_some_iff.mp (getElem?_marks hd hm t)).1
  have hmarks : (walkOf ms t).marks.set (placeOf ms m.id) mark =
      (walkOf ms { t with marks := t.marks.put m.id mark }).marks := by
    refine List.ext_getElem? fun j => ?_
    rw [List.getElem?_set, if_pos hlt]
    cases hj : ms[j]? with
    | none =>
      have hne : placeOf ms m.id ≠ j := fun e => by
        have hget := getElem?_placeOf hd hm
        rw [e, hj] at hget
        cases hget
      rw [if_neg hne]
      simp only [walkOf, List.getElem?_map, hj, Option.map_none]
    | some n =>
      have hn : n ∈ ms := List.mem_of_getElem? hj
      have hids := placeOf_inj hd (List.mem_map_of_mem hm) (List.mem_map_of_mem hn)
      rw [← placeOf_of_getElem? hd hj, getElem?_marks hd hn, getElem?_marks hd hn, State.mark,
        State.mark, NameMap.get?_put]
      by_cases he : m.id = n.id
      · rw [if_pos (hids.mpr he), if_pos he]
        rfl
      · rw [if_neg fun h => he (hids.mp h), if_neg he]
  rw [CycleWalk.setMark, if_pos hlt, hmarks]
  rfl

theorem enter_walkOf (hid : id ∈ ms.map Module.id) (t : State) :
    (walkOf ms t).enter (placeOf ms id) = .ok (walkOf ms (t.enter id)) := by
  rw [CycleWalk.enter, setMark_walkOf hd hid]
  rfl

theorem begin_walkOf (hid : id ∈ ms.map Module.id) (t : State) :
    (walkOf ms t).begin (placeOf ms id) =
      .ok (walkOf ms (if t.mark id = .unvisited then t.enter id else t)) := by
  rw [CycleWalk.begin, markAt_walkOf hd hid]
  show (if t.mark id = .unvisited then (walkOf ms t).enter (placeOf ms id)
    else .ok (walkOf ms t)) = _
  rw [enter_walkOf hd hid]
  split <;> rfl

theorem leave_walkOf (hid : id ∈ ms.map Module.id) (t : State) (above : List Frame) :
    (walkOf ms t).leave (placeOf ms id) (above.map fun f => (placeOf ms f.node, f.next)) =
      .ok (walkOf ms { t with marks := t.marks.put id .done, path := above }) := by
  rw [CycleWalk.leave, setMark_walkOf hd hid]
  rfl

/-- The part of the path that lies behind the outer part. -/
theorem pathFrom_walkOf {inner outer : List Frame} {f : Frame} (hp : t.path = inner ++ f :: outer)
    (hout : ∀ x ∈ outer, x.node ≠ f.node) (hids : ∀ x ∈ t.path, x.node ∈ ms.map Module.id) :
    (walkOf ms t).pathFrom (placeOf ms f.node) =
      (f.node :: (inner.map Frame.node).reverse).map (placeOf ms) := by
  have hnodes : ((walkOf ms t).path.map Prod.fst).reverse =
      ((outer.map Frame.node).reverse.map (placeOf ms)) ++
        (f.node :: (inner.map Frame.node).reverse).map (placeOf ms) := by
    rw [walkOf, hp]
    simp only [List.map_append, List.map_cons, List.map_map, List.reverse_append,
      List.reverse_cons, List.map_reverse, List.append_assoc, List.singleton_append]
    rfl
  have hf : f.node ∈ ms.map Module.id := hids f (hp ▸ List.mem_append_right _ List.mem_cons_self)
  have hnone : ((outer.map Frame.node).reverse.map (placeOf ms)).findIdx?
      (· == placeOf ms f.node) = none := by
    rw [List.findIdx?_eq_none_iff]
    intro i hi
    obtain ⟨id, hid, rfl⟩ := List.mem_map.mp hi
    obtain ⟨x, hx, rfl⟩ := List.mem_map.mp (List.mem_reverse.mp hid)
    have hxids : x.node ∈ ms.map Module.id :=
      hids x (hp ▸ List.mem_append_right _ (List.mem_cons_of_mem _ hx))
    exact beq_eq_false_iff_ne.mpr fun e => hout x hx ((placeOf_inj hd hxids hf).mp e)
  rw [CycleWalk.pathFrom, hnodes, List.findIdx?_append, hnone, List.map_cons, List.findIdx?_cons,
    beq_self_eq_true]
  simp only [if_true, Option.none_or, Option.map_some, Nat.zero_add, Option.getD_some]
  exact List.drop_left' rfl

/-- **A dependency that is in progress closes the cycle** that the search over identities
    reports. -/
theorem examineDependency_of_inProgress
    (hids : ∀ x ∈ t.path, x.node ∈ ms.map Module.id)
    (hnodup : (t.path.map Frame.node).Nodup) (hmem : id ∈ t.path.map Frame.node)
    (hm : t.mark id = .inProgress) :
    (stored ms).examineDependency (walkOf ms t) id =
      .error (.fault (.cyclicDependency (CycleSearch.closedBy t.path id))) := by
  obtain ⟨inner, f, outer, hp, rfl, hin, hout⟩ := CycleSearch.exists_split_of_nodup hnodup hmem
  have hid : f.node ∈ ms.map Module.id :=
    hids f (hp ▸ List.mem_append_right _ List.mem_cons_self)
  have hcycle : ((f.node :: (inner.map Frame.node).reverse).map (placeOf ms)).mapM
      (fun k => do return (← (stored ms).nodeAt k).id) =
        .ok (f.node :: (inner.map Frame.node).reverse) := by
    refine (mapM_map_eq_ok fun a ha => ?_).trans (congrArg Except.ok (List.map_id _))
    have ha : a ∈ ms.map Module.id := by
      rcases List.mem_cons.mp ha with rfl | ha
      · exact hid
      · obtain ⟨x, hx, rfl⟩ := List.mem_map.mp (List.mem_reverse.mp ha)
        exact hids x (hp ▸ List.mem_append_left _ hx)
    obtain ⟨m, hm, rfl⟩ := List.mem_map.mp ha
    rw [nodeAt_placeOf hd hm]
    rfl
  rw [examineDependency, positionOf_of_mem hd hid, ok_bind, markAt_walkOf hd hid, ok_bind, hm]
  dsimp only
  rw [pathFrom_walkOf hd hp hout hids, hcycle, ok_bind, hp, CycleSearch.closedBy_split hin]

/-- Any other dependency is gone down into, or passed over. -/
theorem examineDependency_of_ne_inProgress (hid : id ∈ ms.map Module.id)
    (hm : t.mark id ≠ .inProgress) :
    (stored ms).examineDependency (walkOf ms t) id =
      .ok (walkOf ms (if t.mark id = .unvisited then t.enter id else t)) := by
  rw [examineDependency, positionOf_of_mem hd hid, ok_bind, markAt_walkOf hd hid, ok_bind]
  cases hmark : t.mark id with
  | unvisited => exact enter_walkOf hd hid t
  | inProgress => exact absurd hmark hm
  | done => rfl

theorem dependenciesIn_of_mem {m : Module} (hm : m ∈ ms) :
    Graph.dependenciesIn (Register.ofList ms) m.id = m.dependencies := by
  rw [Graph.dependenciesIn, (Graph.find?_ofList_iff hd).mpr ⟨hm, rfl⟩]

/-- **One step over positions is the step over identities.** -/
theorem cycleStep_walkOf (hr : Resolved ms)
    (ht : Invariant (Graph.dependenciesIn (Register.ofList ms))
      (Register.ofList ms : Register Module.id).names t) :
    (stored ms).cycleStep (walkOf ms t) =
      match CycleSearch.step (Graph.dependenciesIn (Register.ofList ms)) t with
      | .running t' => .ok (some (walkOf ms t'))
      | .cycle c => .error (.fault (.cyclicDependency c))
      | .finished => .ok none := by
  have hstarts : ∀ id ∈ t.starts, id ∈ ms.map Module.id := fun id h =>
    (Graph.mem_names_ofList hd).mp (ht.starts_mem id h)
  have hnodes : ∀ f ∈ t.path, f.node ∈ ms.map Module.id := fun f h =>
    (Graph.mem_names_ofList hd).mp (ht.nodes_mem f h)
  obtain ⟨marks, path, starts⟩ := t
  cases path with
  | nil =>
    cases starts with
    | nil => rfl
    | cons id rest =>
      have hbegin := begin_walkOf hd (hstarts id List.mem_cons_self) ⟨marks, [], rest⟩
      show some <$> (walkOf ms ⟨marks, [], rest⟩).begin (placeOf ms id) = _
      rw [hbegin, CycleSearch.step]
      dsimp only
      split <;> rfl
  | cons f above =>
    obtain ⟨m, hm, hid⟩ := List.mem_map.mp (hnodes f List.mem_cons_self)
    have hnode := nodeAt_placeOf hd hm
    have hdeps := dependenciesIn_of_mem hd hm
    rw [hid] at hnode hdeps
    show ((stored ms).nodeAt (placeOf ms f.node) >>= _) = _
    rw [hnode, ok_bind, CycleSearch.step]
    dsimp only
    rw [hdeps]
    cases hnext : m.dependencies[f.next]? with
    | none =>
      have hleave := leave_walkOf hd (hnodes f List.mem_cons_self)
        ⟨marks, f :: above, starts⟩ above
      exact congrArg (some <$> ·) hleave
    | some d =>
      have hdep : d ∈ ms.map Module.id := hr m hm d (List.mem_of_getElem? hnext)
      have hadvanced : ∀ x ∈ { f with next := f.next + 1 } :: above, x.node ∈ ms.map Module.id :=
        List.forall_mem_cons.mpr (List.forall_mem_cons.mp hnodes)
      have hnodup : (({ f with next := f.next + 1 } :: above).map Frame.node).Nodup :=
        ht.marked.nodup
      show some <$> (stored ms).examineDependency
        (walkOf ms ⟨marks, { f with next := f.next + 1 } :: above, starts⟩) d = _
      dsimp only
      cases hmark : State.mark ⟨marks, { f with next := f.next + 1 } :: above, starts⟩ d with
      | inProgress =>
        have hmem : d ∈ ({ f with next := f.next + 1 } :: above).map Frame.node :=
          (ht.marked.inProgress_iff d).mp hmark
        rw [examineDependency_of_inProgress hd hadvanced hnodup hmem hmark]
        rfl
      | unvisited =>
        rw [examineDependency_of_ne_inProgress hd hdep (by rw [hmark]; decide), if_pos hmark]
        rfl
      | done =>
        rw [examineDependency_of_ne_inProgress hd hdep (by rw [hmark]; decide),
          if_neg (by rw [hmark]; decide)]
        rfl

/-- **A whole search over positions reports what that over identities does**, when it may take as
    many steps as are left. -/
theorem cycleRun_walkOf (hr : Resolved ms) {n : Nat}
    (ht : Invariant (Graph.dependenciesIn (Register.ofList ms))
      (Register.ofList ms : Register Module.id).names t)
    (hn : CycleSearch.left (Graph.dependenciesIn (Register.ofList ms))
      (Register.ofList ms : Register Module.id).names t < n) :
    (stored ms).cycleRun n (walkOf ms t) =
      verdict ((CycleSearch.run (Graph.dependenciesIn (Register.ofList ms)) n t).map fun c =>
        .fault (.cyclicDependency c)) := by
  have hc := Graph.mem_names_of_dependenciesIn hd hr
  induction n generalizing t with
  | zero => exact absurd hn (Nat.not_lt_zero _)
  | succ n ih =>
    have hspec := CycleSearch.step_spec (Graph.dependenciesIn (Register.ofList ms)) t
    rw [cycleRun, cycleStep_walkOf hd hr ht, CycleSearch.run]
    cases hstep : CycleSearch.step (Graph.dependenciesIn (Register.ofList ms)) t with
    | running t' =>
      rw [hstep] at hspec
      have hlt := CycleSearch.left_lt_of_move hc ht hspec
      exact ih (ht.move hc hspec) (by omega)
    | cycle c => rfl
    | finished => rfl

theorem cycleBudget_stored : (stored ms).cycleBudget =
    CycleSearch.budget (Graph.dependenciesIn (Register.ofList ms))
      (Register.ofList ms : Register Module.id).names := by
  have hcost : (Register.ofList ms : Register Module.id).names.map
      (fun id => 2 + (Graph.dependenciesIn (Register.ofList ms) id).length) =
        (Register.ofList ms : Register Module.id).toList.map
          fun m => 2 + m.dependencies.length := by
    rw [Register.names, List.map_map]
    refine List.map_congr_left fun m hm => ?_
    rw [Function.comp_apply, dependenciesIn_of_mem hd ((Register.mem_ofList_of_nodup hd).mp hm)]
  have hperm := (toList_ofList_perm hd).map fun m => 2 + m.dependencies.length
  rw [cycleBudget, CycleSearch.budget, hcost, foldr_add_eq_of_perm hperm]
  rfl

/-- **The check for cycles decides as the search over identities.** -/
theorem checkAcyclic_stored (hr : Resolved ms) : (stored ms).checkAcyclic =
    verdict ((CycleSearch.find? (Graph.dependenciesIn (Register.ofList ms))
      (Register.ofList ms : Register Module.id).names).map fun c =>
        .fault (.cyclicDependency c)) := by
  have hmarks : List.replicate ms.length CycleSearch.Mark.unvisited = ms.map fun m =>
      (CycleSearch.initial (Register.ofList ms : Register Module.id).names).mark m.id :=
    List.map_const'.symm
  have hleft : CycleSearch.left (Graph.dependenciesIn (Register.ofList ms))
      (Register.ofList ms : Register Module.id).names
      (CycleSearch.initial (Register.ofList ms : Register Module.id).names) <
        CycleSearch.budget (Graph.dependenciesIn (Register.ofList ms))
          (Register.ofList ms : Register Module.id).names :=
    Nat.lt_of_lt_of_eq (Nat.lt_succ_self _) CycleSearch.left_initial
  have hrun := cycleRun_walkOf hd hr CycleSearch.invariant_initial hleft
  rw [checkAcyclic, positions_stored hd, ok_bind, cycleBudget_stored hd,
    show (stored ms).nodes.length = ms.length from rfl, hmarks]
  exact hrun

/-! ## 2. Tiers -/

omit hd in
/-- Checks one after another refuse what the first of them does that refuses anything. -/
theorem forM_eq_verdict {ε α : Type} {f : α → Except ε Unit} {c : α → Option ε} {l : List α}
    (h : ∀ a ∈ l, f a = verdict (c a)) : forM l f = verdict (l.findSome? c) := by
  induction l with
  | nil => rfl
  | cons a l ih =>
    obtain ⟨ha, hl⟩ := List.forall_mem_cons.mp h
    rw [List.forM_cons, ha, List.findSome?_cons, ih hl]
    cases c a <;> rfl

/-- One module is refused for its first dependency that is not on a lower tier. -/
theorem checkTiersOf_stored (hr : Resolved ms) {m : Module} (hm : m ∈ ms) :
    (stored ms).checkTiersOf m = verdict ((Graph.inversion? (Register.ofList ms) m).map fun n =>
      .fault (.tierInversion m.id m.tier n.id n.tier)) := by
  rw [checkTiersOf, Graph.inversion?, List.map_findSome?]
  refine forM_eq_verdict fun d hdep => ?_
  obtain ⟨n, hn, rfl⟩ := List.mem_map.mp (hr m hm d hdep)
  rw [target_of_mem hd hn, ok_bind, Function.comp_apply,
    (Graph.find?_ofList_iff hd).mpr ⟨hn, rfl⟩, Option.filter_some]
  by_cases hle : m.tier ≤ n.tier
  · rw [if_pos hle, if_pos (decide_eq_true hle)]
    rfl
  · rw [if_neg hle, if_neg (by rwa [decide_eq_true_iff])]
    rfl

/-- **The check of tiers decides as the search for an inversion.** -/
theorem checkTiers_stored (hr : Resolved ms) : (stored ms).checkTiers =
    verdict ((Graph.firstInversion? (Register.ofList ms)
      (Register.ofList ms : Register Module.id).toList).map fun p =>
        .fault (.tierInversion p.1.id p.1.tier p.2.id p.2.tier)) := by
  rw [checkTiers, positions_stored hd, ok_bind, Register.names, List.map_map,
    Graph.firstInversion?_eq_findSome?, List.map_findSome?]
  refine List.forM_map.trans (forM_eq_verdict fun m hm => ?_)
  have hm : m ∈ ms := (Register.mem_ofList_of_nodup hd).mp hm
  rw [Function.comp_apply, nodeAt_placeOf hd hm, ok_bind, checkTiersOf_stored hd hr hm,
    Function.comp_apply, Option.map_map]
  rfl

theorem checkAcyclic_of_not_cyclic (hr : Resolved ms) (hc : ¬ Cyclic ms) :
    (stored ms).checkAcyclic = .ok () := by
  rw [checkAcyclic_stored hd hr, (Graph.find?_eq_none_iff_not_cyclic hd hr).mpr hc]
  rfl

theorem checkTiers_of_descending (hr : Resolved ms) (hs : Descending ms) :
    (stored ms).checkTiers = .ok () := by
  rw [checkTiers_stored hd hr, (Graph.firstInversion?_eq_none_iff hd).mpr hs]
  rfl

end Walk

/-! ## 3. Building -/

/-- **Storing a list of modules ends as building its graph does**: with what is stored for the list,
    or with the same fault. It is never stuck. -/
theorem build_eq (ms : List Module) : build ms =
    match Graph.build ms with
    | .ok _ => .ok (stored ms)
    | .error f => .error (.fault f) := by
  have hb := Graph.built_build ms
  rw [build_eq_checks]
  generalize hg : Graph.build ms = r at hb
  cases hb with
  | repeated h => rw [Graph.firstDuplicate?_eq_some_iff_firstRepeated.mpr h]
  | unresolved hd h =>
    obtain ⟨m, hu, rfl⟩ := (Graph.firstUnresolved?_eq_some_iff hd).mpr h
    rw [Graph.firstDuplicate?_eq_none_iff_distinct.mpr hd, hu]
  | cyclic hd hr h =>
    rw [Graph.firstDuplicate?_eq_none_iff_distinct.mpr hd,
      (Graph.firstUnresolved?_eq_none_iff hd).mpr hr]
    dsimp only
    rw [checkAcyclic_stored hd hr, Graph.find?_of_build_eq_cyclicDependency hg]
    rfl
  | inverted hd hr hc h =>
    obtain ⟨m, n, hi, rfl, rfl, rfl, rfl⟩ := (Graph.firstInversion?_eq_some_iff hd).mpr h
    rw [Graph.firstDuplicate?_eq_none_iff_distinct.mpr hd,
      (Graph.firstUnresolved?_eq_none_iff hd).mpr hr]
    dsimp only
    rw [checkAcyclic_of_not_cyclic hd hr hc, checkTiers_stored hd hr, hi]
    rfl
  | graph hd hr hs =>
    have hc := not_cyclic_of_descending hd hs hr
    rw [Graph.firstDuplicate?_eq_none_iff_distinct.mpr hd,
      (Graph.firstUnresolved?_eq_none_iff hd).mpr hr]
    dsimp only
    rw [checkAcyclic_of_not_cyclic hd hr hc, checkTiers_of_descending hd hr hs]
    rfl

end StoredGraph

end Isolation
