import Isolation.Bound
import Isolation.Proofs.Ambiguity

/-!
# The order of a list of modules does not matter

Two arrangements of the same modules may be told apart by a fault that names the FIRST module with
a defect, and by nothing else. This file fixes that:

* `distinct_iff_of_perm` … `firstInverted_iff_of_perm` -- the rules for a list of modules, and the
  tier inversion that is reported, are the same for every arrangement;
* `find?_of_build_eq_cyclicDependency` -- the cycle that is reported is the one that the walk over
  the register meets, and `Register.ofList_eq_of_perm` says that all arrangements give one register;
* `build_eq_ok_iff_modules` -- so they give one graph;
* **`build_alike_of_perm`** -- all arrangements end alike (`BuiltAlike`): in faults of one kind, in
  the same cycle, in the same inversion, or in graphs that answer every question alike.
-/

namespace Isolation

/-- Arrangements of values with different names give one register. -/
theorem Register.ofList_eq_of_perm {α : Type} {name : α → String} {l l' : List α} (h : l.Perm l')
    (hn : (l.map name).Nodup) : (ofList l : Register name) = ofList l' := by
  refine ext_mem fun a => ?_
  rw [mem_ofList_of_nodup hn, mem_ofList_of_nodup ((h.map name).nodup_iff.mp hn), h.mem_iff]

/-! ## 1. The rules, arranged otherwise -/

section Rules

variable {ms ms' : List Module}

theorem distinct_iff_of_perm (h : ms.Perm ms') : Distinct ms ↔ Distinct ms' :=
  (h.map Module.id).nodup_iff

theorem resolved_iff_of_perm (h : ms.Perm ms') : Resolved ms ↔ Resolved ms' := by
  simp only [Resolved, h.mem_iff, (h.map Module.id).mem_iff]

theorem dependsOn_eq_of_perm (h : ms.Perm ms') : DependsOn ms = DependsOn ms' := by
  funext a d
  simp only [DependsOn, h.mem_iff]

theorem cyclic_iff_of_perm (h : ms.Perm ms') : Cyclic ms ↔ Cyclic ms' := by
  rw [Cyclic, Cyclic, dependsOn_eq_of_perm h]

theorem descending_iff_of_perm (h : ms.Perm ms') : Descending ms ↔ Descending ms' := by
  simp only [Descending, h.mem_iff]

theorem firstInverted_iff_of_perm (h : ms.Perm ms') {id d : Identity} {t u : Nat} :
    FirstInverted ms id t d u ↔ FirstInverted ms' id t d u := by
  simp only [FirstInverted, h.mem_iff]

end Rules

namespace Graph

variable {ms ms' : List Module} {g g' : Graph}

/-! ## 2. What building ends in -/

/-- A graph is its modules. -/
theorem eq_of_modules_eq (h : g.modules = g'.modules) : g = g' := by
  cases g
  cases g'
  cases h
  rfl

theorem exists_build_eq_duplicateModule_iff :
    (∃ id, build ms = .error (.duplicateModule id)) ↔ ¬ Distinct ms := by
  simp only [build_eq_duplicateModule_iff, ← firstDuplicate?_eq_some_iff_firstRepeated,
    ← firstDuplicate?_eq_none_iff_distinct, ← Option.isSome_iff_exists, ← Option.isSome_iff_ne_none]

theorem exists_build_eq_unresolvedDependency_iff :
    (∃ id d, build ms = .error (.unresolvedDependency id d)) ↔ Distinct ms ∧ ¬ Resolved ms := by
  simp only [build_eq_unresolvedDependency_iff]
  constructor
  · rintro ⟨id, d, hd, h⟩
    exact ⟨hd, not_resolved_of_firstUnresolved hd h⟩
  · rintro ⟨hd, hr⟩
    rw [← firstUnresolved?_eq_none_iff hd] at hr
    obtain ⟨⟨m, d⟩, hf⟩ := Option.ne_none_iff_exists'.mp hr
    exact ⟨m.id, d, hd, (firstUnresolved?_eq_some_iff hd).mp ⟨m, hf, rfl⟩⟩

/-- The cycle that is reported is the first one that the walk over the register meets. -/
theorem find?_of_build_eq_cyclicDependency {cycle : List Identity}
    (h : build ms = .error (.cyclicDependency cycle)) :
    CycleSearch.find? (dependenciesIn (Register.ofList ms))
      (Register.ofList ms : Register Module.id).names = some cycle := by
  unfold build at h
  split at h
  · cases h
  · dsimp only at h
    split at h
    · cases h
    · split at h
      · rename_i hf
        cases h
        exact hf
      · split at h <;> cases h

/-- **Building gives the graph of the register of the list**, when the list keeps the rules. -/
theorem build_eq_ok_iff_modules : build ms = .ok g ↔
    Distinct ms ∧ Resolved ms ∧ Descending ms ∧ g.modules = Register.ofList ms := by
  constructor
  · intro h
    have hb := built_build ms
    rw [h] at hb
    cases hb with
    | graph hd hr hs hg => exact ⟨hd, hr, hs, hg⟩
  · rintro ⟨hd, hr, hs, hg⟩
    obtain ⟨g', h⟩ := build_eq_ok_iff.mpr ⟨hd, hr, hs⟩
    have hb := built_build ms
    rw [h] at hb
    cases hb with
    | graph _ _ _ hg' => rw [h, eq_of_modules_eq (hg.trans hg'.symm)]

theorem build_eq_ok_iff_of_perm (h : ms.Perm ms') : build ms = .ok g ↔ build ms' = .ok g := by
  rw [build_eq_ok_iff_modules, build_eq_ok_iff_modules, distinct_iff_of_perm h,
    resolved_iff_of_perm h, descending_iff_of_perm h]
  refine and_congr_right fun hd => ?_
  rw [Register.ofList_eq_of_perm h ((distinct_iff_of_perm h).mpr hd)]

/-! ## 3. Alike -/

/-- Nothing that can be asked of a graph tells `g` and `g'` apart. Bounds and bundles ask through
    memos, which may have served different requests before. -/
structure AnswersAlike (g g' : Graph) : Prop where
  size : g.size = g'.size
  edgeCount : g.edgeCount = g'.edgeCount
  modules : g.modules.toList = g'.modules.toList
  get? (id : Identity) : g.get? id = g'.get? id
  dependenciesOf (id : Identity) : g.dependenciesOf id = g'.dependenciesOf id
  dependentsOf (id : Identity) : g.dependentsOf id = g'.dependentsOf id
  closure (id : Identity) : g.closure id = g'.closure id
  path? (start target : Identity) : g.path? start target = g'.path? start target
  tree (id : Identity) (depth : Option Nat) : g.tree id depth = g'.tree id depth
  invertedTree (id : Identity) : g.invertedTree id = g'.invertedTree id
  check {memo memo' : Memo} (hm : memo.Faithful g) (hm' : memo'.Faithful g') (b : Bound)
    (root : Identity) : ((b.check root).run g memo).1 = ((b.check root).run g' memo').1
  conflicts {memo memo' : Memo} (hm : memo.Faithful g) (hm' : memo'.Faithful g') (b : Bundle) :
    ((b.conflicts g).run g memo).1 = ((b.conflicts g').run g' memo').1

/-- Whatever a memo has served before, it does not change an answer. -/
theorem run_eq_of_faithful {α : Type} {memo memo' : Memo} (hm : memo.Faithful g)
    (hm' : memo'.Faithful g) (q : Inquiry α) : (q.run g memo).1 = (q.run g memo').1 := by
  rw [(q.run_spec hm).1, (q.run_spec hm').1]

theorem AnswersAlike.refl (g : Graph) : AnswersAlike g g where
  size := rfl
  edgeCount := rfl
  modules := rfl
  get? _ := rfl
  dependenciesOf _ := rfl
  dependentsOf _ := rfl
  closure _ := rfl
  path? _ _ := rfl
  tree _ _ := rfl
  invertedTree _ := rfl
  check hm hm' b root := run_eq_of_faithful hm hm' (b.check root)
  conflicts hm hm' b := run_eq_of_faithful hm hm' (b.conflicts g)

/-- Two ways in which building ends that are alike: in graphs that answer alike, in faults of one
    kind that may name different modules, or in the same cycle or the same inversion. -/
inductive BuiltAlike : Except Fault Graph → Except Fault Graph → Prop where
  | repeated (id id' : Identity) :
    BuiltAlike (.error (.duplicateModule id)) (.error (.duplicateModule id'))
  | unresolved (id d id' d' : Identity) :
    BuiltAlike (.error (.unresolvedDependency id d)) (.error (.unresolvedDependency id' d'))
  | cyclic (cycle : List Identity) :
    BuiltAlike (.error (.cyclicDependency cycle)) (.error (.cyclicDependency cycle))
  | inverted (id : Identity) (t : Nat) (d : Identity) (u : Nat) :
    BuiltAlike (.error (.tierInversion id t d u)) (.error (.tierInversion id t d u))
  | graphs {g g' : Graph} (h : AnswersAlike g g') : BuiltAlike (.ok g) (.ok g')

/-- **The order of a list of modules does not matter**: all its arrangements are built alike. -/
theorem build_alike_of_perm (h : ms.Perm ms') : BuiltAlike (build ms) (build ms') := by
  have hb := built_build ms
  generalize hr : build ms = r at hb
  cases hb with
  | repeated hf =>
    have hd : ¬ Distinct ms' := by
      rw [← distinct_iff_of_perm h]
      exact not_distinct_of_firstRepeated hf
    obtain ⟨id', h'⟩ := exists_build_eq_duplicateModule_iff.mpr hd
    rw [h']
    exact .repeated _ id'
  | unresolved hd hf =>
    have hn : Distinct ms' ∧ ¬ Resolved ms' := by
      rw [← distinct_iff_of_perm h, ← resolved_iff_of_perm h]
      exact ⟨hd, not_resolved_of_firstUnresolved hd hf⟩
    obtain ⟨id', d', h'⟩ := exists_build_eq_unresolvedDependency_iff.mpr hn
    rw [h']
    exact .unresolved _ _ id' d'
  | @cyclic cycle hd hr' hc =>
    have hn : Distinct ms' ∧ Resolved ms' ∧ Cyclic ms' := by
      rw [← distinct_iff_of_perm h, ← resolved_iff_of_perm h, ← cyclic_iff_of_perm h]
      exact ⟨hd, hr', hc⟩
    obtain ⟨cycle', h'⟩ := build_eq_cyclicDependency_iff.mpr hn
    -- both cycles are the one that the walk over the common register meets
    have hf := find?_of_build_eq_cyclicDependency hr
    rw [Register.ofList_eq_of_perm h hd, find?_of_build_eq_cyclicDependency h'] at hf
    cases hf
    rw [h']
    exact .cyclic cycle
  | @inverted id d t u hd hr' hc hf =>
    have h' : build ms' = .error (.tierInversion id t d u) := by
      rw [build_eq_tierInversion_iff, ← distinct_iff_of_perm h, ← resolved_iff_of_perm h,
        ← cyclic_iff_of_perm h, ← firstInverted_iff_of_perm h]
      exact ⟨hd, hr', hc, hf⟩
    rw [h']
    exact .inverted id t d u
  | @graph g =>
    rw [(build_eq_ok_iff_of_perm h).mp hr]
    exact .graphs (.refl g)

end Graph

end Isolation
