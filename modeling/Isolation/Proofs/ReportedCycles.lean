import Isolation.Proofs.Arrangement
import Mathlib.Data.List.Chain

/-!
# What a reported cycle looks like

`find?_eq_none_iff` says when the walk reports a cycle, not which. This file says what is reported.

* `Reached` -- the states that a walk comes to; `Reached.invariant` gives each of them the
  invariant of the walk, and `exists_reached_of_find?` says that a report comes from one of them;
* `Meets` -- the next step examines a dependency that is in progress. Only then is something
  reported (`exists_meets_of_step`), and then **the dependency lies on the path**
  (`Invariant.exists_split`): looking it up never fails, and the cycle is the path from there on
  (`Invariant.step_of_meets`);
* `Examined.isChain` -- down the path each module depends on the next one. So the part that is cut
  out, closed by the dependency that was met, is a `SimpleCycle` (`Invariant.simpleCycle_closedBy`);
* **`reported_cycle_is_simple`** -- the same of every list of modules that is refused for a cycle.
-/

namespace Isolation

/-- A chain that returns to where it started, that takes more than one step, and that passes
    nothing twice on the way. -/
structure SimpleCycle (R : Identity → Identity → Prop) (cycle : List Identity) : Prop where
  three_le_length : 3 ≤ cycle.length
  returns : cycle.head? = cycle.getLast?
  nodup : cycle.dropLast.Nodup
  isChain : cycle.IsChain R

theorem SimpleCycle.imp {R S : Identity → Identity → Prop} {cycle : List Identity}
    (h : SimpleCycle R cycle) (hRS : ∀ a d, R a d → S a d) : SimpleCycle S cycle where
  three_le_length := h.three_le_length
  returns := h.returns
  nodup := h.nodup
  isChain := h.isChain.imp fun a d had => hRS a d had

namespace CycleSearch

variable {dependencies : Identity → List Identity} {ids : List Identity} {s : State}
  {cycle : List Identity} {d : Identity}

/-! ## 1. States of a walk -/

/-- The states that a walk over `ids` comes to. -/
def Reached (dependencies : Identity → List Identity) (ids : List Identity) : State → Prop :=
  Relation.ReflTransGen (fun s s' => step dependencies s = .running s') (initial ids)

/-- **Every state of a walk has the invariant**, by induction on the steps taken. -/
theorem Reached.invariant (hc : ∀ id ∈ ids, ∀ d ∈ dependencies id, d ∈ ids)
    (h : Reached dependencies ids s) : Invariant dependencies ids s := by
  induction h with
  | refl => exact invariant_initial
  | @tail s s' _ hstep ih =>
    have hmove : Move dependencies s s' := by
      have hspec := step_spec dependencies s
      rw [hstep] at hspec
      exact hspec
    exact ih.move hc hmove

/-- A walk that reports a cycle has come to a state at which a step does. -/
theorem exists_reached_of_run {n : Nat} (hs : Reached dependencies ids s)
    (h : run dependencies n s = some cycle) :
    ∃ s', Reached dependencies ids s' ∧ step dependencies s' = .cycle cycle := by
  induction n generalizing s with
  | zero => cases h
  | succ n ih =>
    rw [run] at h
    cases hstep : step dependencies s with
    | running s' =>
      rw [hstep] at h
      exact ih (hs.tail hstep) h
    | cycle c =>
      rw [hstep] at h
      cases h
      exact ⟨s, hs, hstep⟩
    | finished =>
      rw [hstep] at h
      cases h

theorem exists_reached_of_find? (h : find? dependencies ids = some cycle) :
    ∃ s, Reached dependencies ids s ∧ step dependencies s = .cycle cycle :=
  exists_reached_of_run .refl h

/-! ## 2. Where a cycle is met -/

/-- At `s` the innermost module examines its dependency `d`, which is in progress. -/
def Meets (dependencies : Identity → List Identity) (s : State) (d : Identity) : Prop :=
  ∃ f above, s.path = f :: above ∧ (dependencies f.node)[f.next]? = some d ∧
    s.mark d = .inProgress

/-- The cycle that a dependency closes does not depend on the positions along the path. -/
theorem closedBy_advance (f : Frame) (n : Nat) (above : List Frame) (d : Identity) :
    closedBy ({ f with next := n } :: above) d = closedBy (f :: above) d := by
  unfold closedBy
  rw [List.takeWhile_cons, List.takeWhile_cons]
  by_cases hd : f.node = d <;> simp [hd]

theorem step_eq_of_meets (h : Meets dependencies s d) :
    step dependencies s = .cycle (closedBy s.path d) := by
  obtain ⟨f, above, hp, hd, hm⟩ := h
  have hm' : State.mark ⟨s.marks, { f with next := f.next + 1 } :: above, s.starts⟩ d =
      .inProgress := hm
  unfold step
  simp only [hp, hd, hm']
  rw [closedBy_advance]

/-- Nothing but such a dependency makes the walk report something. -/
theorem exists_meets_of_step (h : step dependencies s = .cycle cycle) :
    ∃ d, Meets dependencies s d ∧ cycle = closedBy s.path d := by
  have hspec := step_spec dependencies s
  rw [h] at hspec
  obtain ⟨f, above, d, hp, hd, hm⟩ := hspec
  have hmeets : Meets dependencies s d := ⟨f, above, hp, hd, hm⟩
  rw [step_eq_of_meets hmeets] at h
  cases h
  exact ⟨d, hmeets, rfl⟩

/-! ## 3. The path below a module in progress -/

/-- A path without repeats is divided by each of its modules, which stands in neither part. -/
theorem exists_split_of_nodup {path : List Frame} (hnodup : (path.map Frame.node).Nodup)
    (hmem : d ∈ path.map Frame.node) : ∃ inner f outer, path = inner ++ f :: outer ∧ f.node = d ∧
      (∀ x ∈ inner, x.node ≠ d) ∧ ∀ x ∈ outer, x.node ≠ d := by
  obtain ⟨f, hf, rfl⟩ := List.mem_map.mp hmem
  obtain ⟨inner, outer, hp⟩ := List.append_of_mem hf
  rw [hp, List.map_append, List.map_cons, List.nodup_append, List.nodup_cons] at hnodup
  obtain ⟨_, ⟨hout, _⟩, hin⟩ := hnodup
  refine ⟨inner, f, outer, hp, rfl, fun x hx => ?_, fun x hx e => ?_⟩
  · exact hin x.node (List.mem_map_of_mem hx) f.node List.mem_cons_self
  · exact hout (e ▸ List.mem_map_of_mem hx)

/-- **A module in progress divides the path**, and stands in neither part. -/
theorem Invariant.exists_split (h : Invariant dependencies ids s) (hm : s.mark d = .inProgress) :
    ∃ inner f outer, s.path = inner ++ f :: outer ∧ f.node = d ∧
      (∀ x ∈ inner, x.node ≠ d) ∧ ∀ x ∈ outer, x.node ≠ d :=
  exists_split_of_nodup h.marked.nodup ((h.marked.inProgress_iff d).mp hm)

section Split

variable {inner outer : List Frame} {f : Frame}

/-- The cycle is the part of the path from the module on, closed by the module. -/
theorem closedBy_split (hin : ∀ x ∈ inner, x.node ≠ f.node) :
    closedBy (inner ++ f :: outer) f.node =
      f.node :: (inner.map Frame.node).reverse ++ [f.node] := by
  have htake : (inner ++ f :: outer).takeWhile (fun x => x.node != f.node) = inner := by
    rw [List.takeWhile_append_of_pos (by simpa using hin), List.takeWhile_cons_of_neg (by simp),
      List.append_nil]
  rw [closedBy, htake]

/-- Looked for from the start of the walk on, the module is found behind the outer part. -/
theorem findIdx?_split (hout : ∀ x ∈ outer, x.node ≠ f.node) :
    (inner ++ f :: outer).reverse.findIdx? (fun x => x.node = f.node) = some outer.length := by
  have hnone : outer.reverse.findIdx? (fun x => x.node = f.node) = none := by
    rw [List.findIdx?_eq_none_iff]
    intro x hx
    exact decide_eq_false (hout x (List.mem_reverse.mp hx))
  rw [List.reverse_append, List.reverse_cons, List.append_assoc, List.findIdx?_append, hnone,
    List.singleton_append, List.findIdx?_cons]
  simp

theorem drop_split : (inner ++ f :: outer).reverse.drop outer.length = f :: inner.reverse := by
  rw [List.reverse_append, List.reverse_cons, List.append_assoc,
    List.drop_left' List.length_reverse]
  rfl

end Split

/-- **The module that closes a cycle is always found on the path**, and what is reported is the
    path from its position on, with the module itself once more. -/
theorem Invariant.step_of_meets (h : Invariant dependencies ids s) (hd : Meets dependencies s d) :
    ∃ position, s.path.reverse.findIdx? (fun f => f.node = d) = some position ∧
      step dependencies s =
        .cycle ((s.path.reverse.drop position).map Frame.node ++ [d]) := by
  obtain ⟨_, _, _, _, hm⟩ := id hd
  obtain ⟨inner, f, outer, hp, rfl, hin, hout⟩ := h.exists_split hm
  refine ⟨outer.length, ?_, ?_⟩
  · rw [hp]
    exact findIdx?_split hout
  · rw [step_eq_of_meets hd, hp, closedBy_split hin, drop_split, List.map_cons, List.map_reverse]

/-! ## 4. The cycle -/

/-- Down the path, and on to the module that is examined, each module depends on the next one. -/
theorem Examined.isChain {mark : Identity → Mark} {path : List Frame}
    (h : Examined dependencies mark [d] path) :
    ((path.map Frame.node).reverse ++ [d]).IsChain fun a d => d ∈ dependencies a := by
  induction path generalizing d with
  | nil => exact List.isChain_singleton d
  | cons f above ih =>
    obtain ⟨_, ⟨before, ht, _⟩, habove⟩ := h
    have hd : d ∈ dependencies f.node :=
      List.mem_of_mem_take (ht ▸ List.mem_append_right _ List.mem_cons_self)
    rw [List.map_cons, List.reverse_cons]
    refine (ih habove).append (List.isChain_singleton d) fun x hx y hy => ?_
    rw [List.getLast?_concat, Option.mem_some_iff] at hx
    rw [List.head?_cons, Option.mem_some_iff] at hy
    exact hx ▸ hy ▸ hd

/-- **What a walk reports is a simple cycle**, as long as nothing depends on itself. -/
theorem Invariant.simpleCycle_closedBy (h : Invariant dependencies ids s)
    (hself : ∀ a, a ∉ dependencies a) (hd : Meets dependencies s d) :
    SimpleCycle (fun a d => d ∈ dependencies a) (closedBy s.path d) ∧
      ∀ x ∈ closedBy s.path d, x ∈ ids := by
  obtain ⟨innermost, above, hpath, hget, hm⟩ := hd
  have hex : Examined dependencies s.mark [] (innermost :: above) := hpath ▸ h.examined
  have hchain : ((s.path.map Frame.node).reverse ++ [d]).IsChain fun a d => d ∈ dependencies a := by
    rw [hpath]
    exact (hex.advance hget).isChain
  have hnodup : (s.path.map Frame.node).Nodup := h.marked.nodup
  have hmem : ∀ x ∈ s.path.map Frame.node, x ∈ ids := by
    intro x hx
    obtain ⟨f, hf, rfl⟩ := List.mem_map.mp hx
    exact h.nodes_mem f hf
  obtain ⟨inner, f, outer, hp, rfl, hin, _⟩ := h.exists_split hm
  rw [hp, List.map_append, List.map_cons] at hchain hnodup hmem
  rw [hp, closedBy_split hin]
  -- were the module itself innermost, it would depend on itself
  have hne : inner ≠ [] := by
    rintro rfl
    have hsame : innermost = f := (List.cons.inj (hpath.symm.trans hp)).1
    subst hsame
    exact hself _ (List.mem_of_getElem? hget)
  have hnodes : ∀ x ∈ f.node :: (inner.map Frame.node).reverse, x ∈ ids := by
    intro x hx
    refine hmem x ?_
    rcases List.mem_cons.mp hx with rfl | hx
    · exact List.mem_append_right _ List.mem_cons_self
    · exact List.mem_append_left _ (List.mem_reverse.mp hx)
  refine ⟨⟨?_, ?_, ?_, ?_⟩, fun x hx => ?_⟩
  · have hpos : 0 < inner.length := List.length_pos_of_ne_nil hne
    simp only [List.cons_append, List.length_cons, List.length_append, List.length_reverse,
      List.length_map, List.length_nil]
    omega
  · rw [List.getLast?_concat]
    rfl
  · rw [List.dropLast_concat, List.nodup_cons, List.mem_reverse, List.nodup_reverse]
    obtain ⟨hinner, _, hdisjoint⟩ := List.nodup_append.mp hnodup
    exact ⟨fun hx => hdisjoint _ hx _ List.mem_cons_self rfl, hinner⟩
  · -- the chain down the whole path, from the module on
    rw [List.reverse_append, List.reverse_cons, List.append_assoc, List.append_assoc] at hchain
    exact hchain.right_of_append
  · rcases List.mem_append.mp hx with hx | hx
    · exact hnodes x hx
    · exact hnodes x (List.mem_singleton.mp hx ▸ List.mem_cons_self)

end CycleSearch

/-! ## 5. Lists of modules -/

namespace Graph

variable {ms : List Module} {cycle : List Identity}

theorem not_dependsOn_self (hd : Distinct ms) (a : Identity) :
    a ∉ dependenciesIn (Register.ofList ms) a := by
  rw [mem_dependenciesIn_ofList hd]
  rintro ⟨m, _, rfl, h⟩
  exact m.not_self h

/-- On a list without repeats and with all dependencies resolved, a walk stays within the list. -/
theorem mem_names_of_dependenciesIn (hd : Distinct ms) (hr : Resolved ms) :
    ∀ id ∈ (Register.ofList ms : Register Module.id).names,
      ∀ d ∈ dependenciesIn (Register.ofList ms) id,
        d ∈ (Register.ofList ms : Register Module.id).names := by
  intro id _ d h
  obtain ⟨m, hm, _, hdm⟩ := (mem_dependenciesIn_ofList hd).mp h
  exact (mem_names_ofList hd).mpr (hr m hm d hdm)

/-- **A list of modules that is refused for a cycle has that cycle**: it has at least three
    elements, of which the last repeats the first; the others are distinct identities of the list;
    and each of them declares the next one as a direct dependency. Whenever the search meets a
    module that is in progress, it finds its position on the path, and reports the path from
    there on. -/
theorem reported_cycle_is_simple {ms : List Module} {cycle : List Identity}
    (h : build ms = .error (.cyclicDependency cycle)) :
    SimpleCycle (DependsOn ms) cycle ∧ (∀ x ∈ cycle, x ∈ ms.map Module.id) ∧
    ∀ s d, CycleSearch.Reached (dependenciesIn (Register.ofList ms))
        (Register.ofList ms : Register Module.id).names s →
      CycleSearch.Meets (dependenciesIn (Register.ofList ms)) s d →
      ∃ position, s.path.reverse.findIdx? (fun f => f.node = d) = some position ∧
        CycleSearch.step (dependenciesIn (Register.ofList ms)) s =
          .cycle ((s.path.reverse.drop position).map CycleSearch.Frame.node ++ [d]) := by
  obtain ⟨hd, hr, _⟩ := build_eq_cyclicDependency_iff.mp ⟨cycle, h⟩
  have hc := mem_names_of_dependenciesIn hd hr
  obtain ⟨s, hs, hstep⟩ :=
    CycleSearch.exists_reached_of_find? (find?_of_build_eq_cyclicDependency h)
  obtain ⟨d, hmeets, rfl⟩ := CycleSearch.exists_meets_of_step hstep
  obtain ⟨hsimple, hmem⟩ :=
    (hs.invariant hc).simpleCycle_closedBy (not_dependsOn_self hd) hmeets
  refine ⟨hsimple.imp fun a d => (mem_dependenciesIn_ofList hd).mp,
    fun x hx => (mem_names_ofList hd).mp (hmem x hx), fun s d hs hmeets => ?_⟩
  exact (hs.invariant hc).step_of_meets hmeets

/-- Three modules in a circle, which the search comes to from a module above them. -/
def circleBelow : List Module := Declaration.modules
  [("app", { tier := some 4, dependencies := ["lib", "y"] }),
    ("lib", { tier := some 0 }),
    ("x", { tier := some 1, dependencies := ["lib", "z"] }),
    ("y", { tier := some 2, dependencies := ["x"] }),
    ("z", { tier := some 3, dependencies := ["y"] })]

/-- The module above the circle is on the path when the circle is met, and not in the report. -/
theorem reported_cycle_of_circle_below :
    build circleBelow = .error (.cyclicDependency ["y", "x", "z", "y"]) ∧
      SimpleCycle (DependsOn circleBelow) ["y", "x", "z", "y"] := by
  have h : build circleBelow = .error (.cyclicDependency ["y", "x", "z", "y"]) := by rfl
  exact ⟨h, (reported_cycle_is_simple h).1⟩

end Graph

end Isolation
