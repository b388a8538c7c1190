import Isolation.Config
import Isolation.Proofs.CycleSearch
import Isolation.Proofs.Reachability
import Mathlib.Data.List.Nodup

/-!
# Which lists of modules are graphs

`Graph.build` runs four checks over two orders: duplicates and unresolved dependencies in the order
of the list, cycles and tiers in the order of the identities. This file says in terms of the list
alone what each check decides (`Distinct`, `Resolved`, `Cyclic`, `Descending`) and which module it
names (`FirstRepeated`, `FirstUnresolved`, `FirstInverted`), and fixes:

* `firstDuplicate?_eq_some_iff` … `firstInversion?_eq_some_iff` -- one pair of lemmas for each check:
  when it finds nothing, and what it finds otherwise;
* `built_build` -- the five ways in which building can end (`Built`);
* **`build_decides`** -- so building succeeds exactly on the well-formed lists, and each fault stands
  for exactly one violated rule, all earlier rules being kept;
* `mem_modules_of_build`, `below_iff_of_build` -- a graph holds the modules of its list, and what is
  below a module is what its dependencies in the list lead to.

NOT here: which cycle is named.
-/

namespace Isolation

/-! ## 1. Rules for a list of modules -/

section Rules

variable (ms : List Module)

/-- No identity is declared twice. -/
def Distinct : Prop := (ms.map Module.id).Nodup

/-- Every dependency names a module of the list. -/
def Resolved : Prop := ∀ m ∈ ms, ∀ d ∈ m.dependencies, d ∈ ms.map Module.id

/-- Some module of identity `a` declares `d` as a direct dependency. -/
def DependsOn (a d : Identity) : Prop := ∃ m ∈ ms, m.id = a ∧ d ∈ m.dependencies

/-- Some chain of one or more dependencies returns to where it started. -/
def Cyclic : Prop := ∃ id, Relation.TransGen (DependsOn ms) id id

/-- The tier of every module is greater than that of each of its direct dependencies. -/
def Descending : Prop := ∀ m ∈ ms, ∀ n ∈ ms, n.id ∈ m.dependencies → n.tier < m.tier

/-- `id` is the first identity of the list that occurs earlier in it. -/
def FirstRepeated (id : Identity) : Prop :=
  ∃ before after, ms.map Module.id = before ++ id :: after ∧ before.Nodup ∧ id ∈ before

/-- The first module with an unresolved dependency has the identity `id`, and `d` is its first
    such dependency. -/
def FirstUnresolved (id d : Identity) : Prop :=
  ∃ before m after, ms = before ++ m :: after ∧ m.id = id ∧
    (∀ k ∈ before, ∀ e ∈ k.dependencies, e ∈ ms.map Module.id) ∧
    ∃ earlier later, m.dependencies = earlier ++ d :: later ∧
      (∀ e ∈ earlier, e ∈ ms.map Module.id) ∧ d ∉ ms.map Module.id

/-- Of the modules with a dependency on the same tier or a higher one, the one with the smallest
    identity has the identity `id` and the tier `t`; `d` is its first such dependency, and `u` the
    tier of that. -/
def FirstInverted (id : Identity) (t : Nat) (d : Identity) (u : Nat) : Prop :=
  ∃ m ∈ ms, ∃ n ∈ ms, m.id = id ∧ m.tier = t ∧ n.id = d ∧ n.tier = u ∧
    (∀ k ∈ ms, k.id < id → ∀ e ∈ ms, e.id ∈ k.dependencies → e.tier < k.tier) ∧
    ∃ earlier later, m.dependencies = earlier ++ d :: later ∧
      (∀ e ∈ ms, e.id ∈ earlier → e.tier < t) ∧ t ≤ u

instance : Decidable (Distinct ms) := inferInstanceAs (Decidable (ms.map Module.id).Nodup)

instance : Decidable (Resolved ms) :=
  inferInstanceAs (Decidable (∀ m ∈ ms, ∀ d ∈ m.dependencies, d ∈ ms.map Module.id))

instance (a d : Identity) : Decidable (DependsOn ms a d) :=
  inferInstanceAs (Decidable (∃ m ∈ ms, m.id = a ∧ d ∈ m.dependencies))

instance : Decidable (Descending ms) :=
  inferInstanceAs (Decidable (∀ m ∈ ms, ∀ n ∈ ms, n.id ∈ m.dependencies → n.tier < m.tier))

end Rules

variable {ms : List Module}

/-- Along the dependencies of a list without repeats, falling tiers go on falling. -/
theorem exists_tier_lt_of_transGen (hd : Distinct ms) (hs : Descending ms) (hr : Resolved ms)
    {a d : Identity} (h : Relation.TransGen (DependsOn ms) a d) :
    ∃ m ∈ ms, ∃ n ∈ ms, m.id = a ∧ n.id = d ∧ n.tier < m.tier := by
  have edge : ∀ {m : Module} {d : Identity}, m ∈ ms → d ∈ m.dependencies →
      ∃ n ∈ ms, n.id = d ∧ n.tier < m.tier := by
    intro m d hm hdm
    obtain ⟨n, hn, rfl⟩ := List.mem_map.mp (hr m hm d hdm)
    exact ⟨n, hn, rfl, hs m hm n hn hdm⟩
  induction h with
  | single h =>
    obtain ⟨m, hm, rfl, hdm⟩ := h
    obtain ⟨n, hn, rfl, hlt⟩ := edge hm hdm
    exact ⟨m, hm, n, hn, rfl, rfl, hlt⟩
  | tail _ h ih =>
    obtain ⟨m, hm, n, hn, rfl, rfl, hlt⟩ := ih
    obtain ⟨k, hk, hid, hdk⟩ := h
    have hkn : k = n := List.inj_on_of_nodup_map hd hk hn hid
    subst hkn
    obtain ⟨l, hl, rfl, hlt'⟩ := edge hk hdk
    exact ⟨m, hm, l, hl, rfl, rfl, Nat.lt_trans hlt' hlt⟩

theorem not_cyclic_of_descending (hd : Distinct ms) (hs : Descending ms) (hr : Resolved ms) :
    ¬ Cyclic ms := by
  rintro ⟨id, h⟩
  obtain ⟨m, hm, n, hn, hid, hid', hlt⟩ := exists_tier_lt_of_transGen hd hs hr h
  have hmn : m = n := List.inj_on_of_nodup_map hd hm hn (hid.trans hid'.symm)
  exact absurd (hmn ▸ hlt) (Nat.lt_irrefl _)

namespace Graph

/-! ## 2. Duplicates -/

section Duplicates

variable {before ids : List Identity} {a id : Identity}

theorem firstDuplicate?_cons_of_mem (h : a ∈ before) :
    firstDuplicate? before (a :: ids) = some a := if_pos h

theorem firstDuplicate?_cons_of_not_mem (h : a ∉ before) :
    firstDuplicate? before (a :: ids) = firstDuplicate? (a :: before) ids := if_neg h

theorem firstDuplicate?_eq_none_iff :
    firstDuplicate? before ids = none ↔ ids.Nodup ∧ ∀ x ∈ ids, x ∉ before := by
  induction ids generalizing before with
  | nil => simp [firstDuplicate?]
  | cons a ids ih =>
    by_cases ha : a ∈ before
    · simp [firstDuplicate?_cons_of_mem ha, ha]
    · rw [firstDuplicate?_cons_of_not_mem ha, ih, List.nodup_cons, List.forall_mem_cons]
      constructor
      · rintro ⟨hn, hb⟩
        exact ⟨⟨fun h => hb a h List.mem_cons_self, hn⟩, ha,
          fun x hx h => hb x hx (List.mem_cons_of_mem _ h)⟩
      · rintro ⟨⟨hai, hn⟩, _, hb⟩
        refine ⟨hn, fun x hx h => ?_⟩
        rcases List.mem_cons.mp h with rfl | h
        · exact hai hx
        · exact hb x hx h

/-- A duplicate is found behind identities of which none is one. -/
theorem firstDuplicate?_eq_some_iff :
    firstDuplicate? before ids = some id ↔ ∃ earlier later, ids = earlier ++ id :: later ∧
      firstDuplicate? before earlier = none ∧ (id ∈ before ∨ id ∈ earlier) := by
  induction ids generalizing before with
  | nil => simp [firstDuplicate?]
  | cons a ids ih =>
    by_cases ha : a ∈ before
    · rw [firstDuplicate?_cons_of_mem ha]
      constructor
      · rintro ⟨⟩
        exact ⟨[], ids, rfl, rfl, Or.inl ha⟩
      · rintro ⟨earlier, later, he, hn, _⟩
        cases earlier with
        | nil => exact congrArg some (List.cons.inj he).1
        | cons b earlier =>
          obtain ⟨rfl, _⟩ := List.cons.inj he
          rw [firstDuplicate?_cons_of_mem ha] at hn
          cases hn
    · rw [firstDuplicate?_cons_of_not_mem ha, ih]
      have hid : ∀ earlier : List Identity,
          id ∈ a :: before ∨ id ∈ earlier ↔ id ∈ before ∨ id ∈ a :: earlier := by
        intro earlier
        rw [List.mem_cons, List.mem_cons, or_assoc, or_left_comm]
      constructor
      · rintro ⟨earlier, later, rfl, hn, h⟩
        rw [← firstDuplicate?_cons_of_not_mem ha] at hn
        exact ⟨a :: earlier, later, rfl, hn, (hid earlier).mp h⟩
      · rintro ⟨earlier, later, he, hn, h⟩
        cases earlier with
        | nil =>
          obtain ⟨rfl, _⟩ := List.cons.inj he
          exact absurd (h.resolve_right List.not_mem_nil) ha
        | cons b earlier =>
          obtain ⟨rfl, rfl⟩ := List.cons.inj he
          rw [firstDuplicate?_cons_of_not_mem ha] at hn
          exact ⟨earlier, later, rfl, hn, (hid earlier).mpr h⟩

end Duplicates

theorem firstDuplicate?_eq_none_iff_distinct :
    firstDuplicate? [] (ms.map Module.id) = none ↔ Distinct ms := by
  rw [firstDuplicate?_eq_none_iff, Distinct]
  exact and_iff_left fun _ _ => List.not_mem_nil

theorem firstDuplicate?_eq_some_iff_firstRepeated {id : Identity} :
    firstDuplicate? [] (ms.map Module.id) = some id ↔ FirstRepeated ms id := by
  rw [firstDuplicate?_eq_some_iff]
  simp only [firstDuplicate?_eq_none_iff, List.not_mem_nil, not_false_eq_true, implies_true,
    and_true, false_or, FirstRepeated]

theorem not_distinct_of_firstRepeated {id : Identity} (h : FirstRepeated ms id) :
    ¬ Distinct ms := by
  intro hd
  have hs := firstDuplicate?_eq_some_iff_firstRepeated.mpr h
  rw [firstDuplicate?_eq_none_iff_distinct.mpr hd] at hs
  cases hs

theorem firstRepeated_unique {id id' : Identity} (h : FirstRepeated ms id)
    (h' : FirstRepeated ms id') : id = id' := by
  have hs := firstDuplicate?_eq_some_iff_firstRepeated.mpr h
  rw [firstDuplicate?_eq_some_iff_firstRepeated.mpr h'] at hs
  exact (Option.some.inj hs).symm

/-! ## 3. Unresolved dependencies -/

/-- Searching the modules for an unresolved dependency is a search for the first hit. -/
theorem firstUnresolved?_eq_findSome? (modules : Register Module.id) (ms : List Module) :
    firstUnresolved? modules ms = ms.findSome? fun m =>
      (m.dependencies.find? fun d => !modules.has d).map fun d => (m, d) := by
  induction ms with
  | nil => rfl
  | cons m ms ih =>
    rw [firstUnresolved?, List.findSome?_cons]
    cases m.dependencies.find? fun d => !modules.has d with
    | none => exact ih
    | some d => rfl

theorem has_ofList_iff (hd : Distinct ms) {d : Identity} :
    (Register.ofList ms : Register Module.id).has d = true ↔ d ∈ ms.map Module.id := by
  rw [Register.has_iff, List.mem_map]
  simp only [Register.mem_ofList_of_nodup hd]

theorem firstUnresolved?_eq_none_iff (hd : Distinct ms) :
    firstUnresolved? (Register.ofList ms) ms = none ↔ Resolved ms := by
  simp only [firstUnresolved?_eq_findSome?, List.findSome?_eq_none_iff, Option.map_eq_none_iff,
    List.find?_eq_none, Bool.not_eq_true', Bool.not_eq_false, has_ofList_iff hd, Resolved]

theorem firstUnresolved?_eq_some_iff (hd : Distinct ms) {id d : Identity} :
    (∃ m, firstUnresolved? (Register.ofList ms) ms = some (m, d) ∧ m.id = id) ↔
      FirstUnresolved ms id d := by
  simp only [firstUnresolved?_eq_findSome?, List.findSome?_eq_some_iff, Option.map_eq_some_iff,
    Option.map_eq_none_iff, List.find?_eq_some_iff_append, List.find?_eq_none, Bool.not_eq_true',
    Bool.not_not, ← Bool.not_eq_true, not_not, has_ofList_iff hd]
  constructor
  · rintro ⟨m, ⟨before, k, after, rfl, ⟨e, ⟨hn, earlier, later, he, hb⟩, hp⟩, hk⟩, rfl⟩
    cases hp
    exact ⟨before, m, after, rfl, rfl, hk, earlier, later, he, hb, hn⟩
  · rintro ⟨before, m, after, hms, rfl, hk, earlier, later, he, hb, hn⟩
    exact ⟨m, ⟨before, m, after, hms, ⟨d, ⟨hn, earlier, later, he, hb⟩, rfl⟩, hk⟩, rfl⟩

theorem not_resolved_of_firstUnresolved (hd : Distinct ms) {id d : Identity}
    (h : FirstUnresolved ms id d) : ¬ Resolved ms := by
  intro hr
  obtain ⟨m, hs, _⟩ := (firstUnresolved?_eq_some_iff hd).mpr h
  rw [(firstUnresolved?_eq_none_iff hd).mpr hr] at hs
  cases hs

theorem firstUnresolved_unique (hd : Distinct ms) {id d id' d' : Identity}
    (h : FirstUnresolved ms id d) (h' : FirstUnresolved ms id' d') : id = id' ∧ d = d' := by
  obtain ⟨m, hs, rfl⟩ := (firstUnresolved?_eq_some_iff hd).mpr h
  obtain ⟨m', hs', rfl⟩ := (firstUnresolved?_eq_some_iff hd).mpr h'
  rw [hs'] at hs
  cases hs
  exact ⟨rfl, rfl⟩

/-! ## 4. Tiers -/

theorem find?_ofList_iff (hd : Distinct ms) {d : Identity} {n : Module} :
    (Register.ofList ms : Register Module.id).find? d = some n ↔ n ∈ ms ∧ n.id = d := by
  rw [Register.find?_eq_some_iff, Register.mem_ofList_of_nodup hd]

theorem inversion?_eq_none_iff (hd : Distinct ms) {m : Module} :
    inversion? (Register.ofList ms) m = none ↔
      ∀ n ∈ ms, n.id ∈ m.dependencies → n.tier < m.tier := by
  rw [inversion?, List.findSome?_eq_none_iff]
  simp only [Option.filter_eq_none_iff, find?_ofList_iff hd, decide_eq_true_iff, Nat.not_le]
  constructor
  · exact fun h n hn hdn => h n.id hdn n ⟨hn, rfl⟩
  · rintro h _ hdn n ⟨hn, rfl⟩
    exact h n hn hdn

theorem inversion?_eq_some_iff (hd : Distinct ms) {m n : Module} :
    inversion? (Register.ofList ms) m = some n ↔ n ∈ ms ∧ m.tier ≤ n.tier ∧
      ∃ earlier later, m.dependencies = earlier ++ n.id :: later ∧
        ∀ e ∈ ms, e.id ∈ earlier → e.tier < m.tier := by
  rw [inversion?, List.findSome?_eq_some_iff]
  simp only [Option.filter_eq_none_iff, Option.filter_eq_some_iff, find?_ofList_iff hd,
    decide_eq_true_iff, Nat.not_le]
  constructor
  · rintro ⟨earlier, _, later, hm, ⟨⟨hn, rfl⟩, hle⟩, he⟩
    exact ⟨hn, hle, earlier, later, hm, fun e hes hee => he e.id hee e ⟨hes, rfl⟩⟩
  · rintro ⟨hn, hle, earlier, later, hm, he⟩
    refine ⟨earlier, n.id, later, hm, ⟨⟨hn, rfl⟩, hle⟩, ?_⟩
    rintro _ hee e ⟨hes, rfl⟩
    exact he e hes hee

/-- Searching the modules for an inversion is a search for the first hit. -/
theorem firstInversion?_eq_findSome? (modules : Register Module.id) (ms : List Module) :
    firstInversion? modules ms = ms.findSome? fun m =>
      (inversion? modules m).map fun n => (m, n) := by
  induction ms with
  | nil => rfl
  | cons m ms ih =>
    rw [firstInversion?, List.findSome?_cons]
    cases inversion? modules m with
    | none => exact ih
    | some n => rfl

theorem firstInversion?_eq_none_iff (hd : Distinct ms) :
    firstInversion? (Register.ofList ms) (Register.ofList ms : Register Module.id).toList = none ↔
      Descending ms := by
  simp only [firstInversion?_eq_findSome?, List.findSome?_eq_none_iff, Option.map_eq_none_iff,
    inversion?_eq_none_iff hd, ← Register.mem_def, Register.mem_ofList_of_nodup hd, Descending]

theorem firstInversion?_eq_some_iff (hd : Distinct ms) {id d : Identity} {t u : Nat} :
    (∃ m n, firstInversion? (Register.ofList ms) (Register.ofList ms : Register Module.id).toList =
        some (m, n) ∧ m.id = id ∧ m.tier = t ∧ n.id = d ∧ n.tier = u) ↔
      FirstInverted ms id t d u := by
  simp only [firstInversion?_eq_findSome?, List.findSome?_eq_some_iff, Option.map_eq_some_iff,
    Option.map_eq_none_iff, inversion?_eq_none_iff hd, inversion?_eq_some_iff hd]
  constructor
  · rintro ⟨m, n, ⟨before, k, after, hms, ⟨l, ⟨hl, hle, hdeps⟩, hp⟩, hb⟩, rfl, rfl, rfl, rfl⟩
    cases hp
    have hm : m ∈ ms := by
      rw [← Register.mem_ofList_of_nodup hd, Register.mem_def, hms]
      exact List.mem_append_right _ List.mem_cons_self
    obtain ⟨earlier, later, he, hlow⟩ := hdeps
    refine ⟨m, hm, n, hl, rfl, rfl, rfl, rfl, fun k hk hlt => hb k ?_, earlier, later, he, hlow, hle⟩
    exact (Register.mem_before_iff hms).mpr ⟨(Register.mem_ofList_of_nodup hd).mpr hk, hlt⟩
  · rintro ⟨m, hm, n, hn, rfl, rfl, rfl, rfl, hb, earlier, later, he, hlow, hle⟩
    have hmem : m ∈ (Register.ofList ms : Register Module.id).toList :=
      (Register.mem_ofList_of_nodup hd).mpr hm
    obtain ⟨before, after, hms⟩ := List.append_of_mem hmem
    refine ⟨m, n, ⟨before, m, after, hms, ⟨n, ⟨hn, hle, earlier, later, he, hlow⟩, rfl⟩, ?_⟩,
      rfl, rfl, rfl, rfl⟩
    intro k hk
    obtain ⟨hk, hlt⟩ := (Register.mem_before_iff hms).mp hk
    exact hb k ((Register.mem_ofList_of_nodup hd).mp hk) hlt

theorem not_descending_of_firstInverted (hd : Distinct ms) {id d : Identity} {t u : Nat}
    (h : FirstInverted ms id t d u) : ¬ Descending ms := by
  intro hs
  obtain ⟨m, n, hf, _⟩ := (firstInversion?_eq_some_iff hd).mpr h
  rw [(firstInversion?_eq_none_iff hd).mpr hs] at hf
  cases hf

theorem firstInverted_unique (hd : Distinct ms) {id d id' d' : Identity} {t u t' u' : Nat}
    (h : FirstInverted ms id t d u) (h' : FirstInverted ms id' t' d' u') :
    id = id' ∧ t = t' ∧ d = d' ∧ u = u' := by
  obtain ⟨m, n, hf, rfl, rfl, rfl, rfl⟩ := (firstInversion?_eq_some_iff hd).mpr h
  obtain ⟨m', n', hf', rfl, rfl, rfl, rfl⟩ := (firstInversion?_eq_some_iff hd).mpr h'
  rw [hf'] at hf
  cases hf
  exact ⟨rfl, rfl, rfl, rfl⟩

/-! ## 5. Cycles -/

theorem mem_dependenciesIn_ofList (hd : Distinct ms) {a d : Identity} :
    d ∈ dependenciesIn (Register.ofList ms) a ↔ DependsOn ms a d := by
  rw [mem_dependenciesIn]
  simp only [find?_ofList_iff hd, and_assoc, DependsOn]

theorem mem_names_ofList (hd : Distinct ms) {id : Identity} :
    id ∈ (Register.ofList ms : Register Module.id).names ↔ id ∈ ms.map Module.id := by
  rw [Register.names, List.mem_map, List.mem_map]
  simp only [← Register.mem_def, Register.mem_ofList_of_nodup hd]

/-- On a list without repeats and with all dependencies resolved, the walk meets a cycle exactly
    when there is one. -/
theorem find?_eq_none_iff_not_cyclic (hd : Distinct ms) (hr : Resolved ms) :
    CycleSearch.find? (dependenciesIn (Register.ofList ms))
      (Register.ofList ms : Register Module.id).names = none ↔ ¬ Cyclic ms := by
  have hrel : (fun a d => d ∈ dependenciesIn (Register.ofList ms) a) = DependsOn ms := by
    funext a d
    exact propext (mem_dependenciesIn_ofList hd)
  rw [CycleSearch.find?_eq_none_iff, hrel]
  · constructor
    · rintro h ⟨id, hid⟩
      refine h id ?_ hid
      -- whatever has a dependency is a module of the list
      obtain ⟨d, ⟨m, hm, rfl, _⟩, _⟩ := Relation.TransGen.head'_iff.mp hid
      exact (mem_names_ofList hd).mpr (List.mem_map_of_mem hm)
    · exact fun h id _ hid => h ⟨id, hid⟩
  · intro a _ d had
    obtain ⟨m, hm, _, hdm⟩ := (mem_dependenciesIn_ofList hd).mp had
    exact (mem_names_ofList hd).mpr (hr m hm d hdm)

/-! ## 6. Building -/

/-- The five ways in which building can end, each with the rules that are kept and the one that
    is violated. -/
inductive Built (ms : List Module) : Except Fault Graph → Prop where
  | repeated {id : Identity} (h : FirstRepeated ms id) : Built ms (.error (.duplicateModule id))
  | unresolved {id d : Identity} (hd : Distinct ms) (h : FirstUnresolved ms id d) :
    Built ms (.error (.unresolvedDependency id d))
  | cyclic {cycle : List Identity} (hd : Distinct ms) (hr : Resolved ms) (h : Cyclic ms) :
    Built ms (.error (.cyclicDependency cycle))
  | inverted {id d : Identity} {t u : Nat} (hd : Distinct ms) (hr : Resolved ms)
    (hc : ¬ Cyclic ms) (h : FirstInverted ms id t d u) :
    Built ms (.error (.tierInversion id t d u))
  | graph {g : Graph} (hd : Distinct ms) (hr : Resolved ms) (hs : Descending ms)
    (hg : g.modules = Register.ofList ms) : Built ms (.ok g)

/-- **Building ends in one of these ways.** -/
theorem built_build (ms : List Module) : Built ms (build ms) := by
  unfold build
  cases hdup : firstDuplicate? [] (ms.map Module.id) with
  | some id => exact .repeated (firstDuplicate?_eq_some_iff_firstRepeated.mp hdup)
  | none =>
    have hd := firstDuplicate?_eq_none_iff_distinct.mp hdup
    dsimp only
    split
    · rename_i m d hu
      exact .unresolved hd ((firstUnresolved?_eq_some_iff hd).mp ⟨m, hu, rfl⟩)
    · rename_i hu
      have hr := (firstUnresolved?_eq_none_iff hd).mp hu
      split
      · rename_i cycle hf
        refine .cyclic hd hr (Classical.not_not.mp fun hc => ?_)
        rw [(find?_eq_none_iff_not_cyclic hd hr).mpr hc] at hf
        cases hf
      · rename_i hf
        have hc := (find?_eq_none_iff_not_cyclic hd hr).mp hf
        split
        · rename_i m n hi
          exact .inverted hd hr hc
            ((firstInversion?_eq_some_iff hd).mp ⟨m, n, hi, rfl, rfl, rfl, rfl⟩)
        · rename_i hi
          exact .graph hd hr ((firstInversion?_eq_none_iff hd).mp hi) rfl

theorem build_eq_ok_iff :
    (∃ g, build ms = .ok g) ↔ Distinct ms ∧ Resolved ms ∧ Descending ms := by
  have hb := built_build ms
  generalize build ms = r at hb
  constructor
  · rintro ⟨g, rfl⟩
    cases hb with
    | graph hd hr hs hg => exact ⟨hd, hr, hs⟩
  · rintro ⟨hd, hr, hs⟩
    cases hb with
    | repeated h => exact absurd hd (not_distinct_of_firstRepeated h)
    | unresolved _ h => exact absurd hr (not_resolved_of_firstUnresolved hd h)
    | cyclic _ _ h => exact absurd h (not_cyclic_of_descending hd hs hr)
    | inverted _ _ _ h => exact absurd hs (not_descending_of_firstInverted hd h)
    | graph => exact ⟨_, rfl⟩

theorem build_eq_duplicateModule_iff {id : Identity} :
    build ms = .error (.duplicateModule id) ↔ FirstRepeated ms id := by
  have hb := built_build ms
  generalize build ms = r at hb
  constructor
  · rintro rfl
    cases hb with
    | repeated h => exact h
  · intro h
    have hnd := not_distinct_of_firstRepeated h
    cases hb with
    | repeated h' => rw [firstRepeated_unique h h']
    | unresolved hd => exact absurd hd hnd
    | cyclic hd => exact absurd hd hnd
    | inverted hd => exact absurd hd hnd
    | graph hd => exact absurd hd hnd

theorem build_eq_unresolvedDependency_iff {id d : Identity} :
    build ms = .error (.unresolvedDependency id d) ↔ Distinct ms ∧ FirstUnresolved ms id d := by
  have hb := built_build ms
  generalize build ms = r at hb
  constructor
  · rintro rfl
    cases hb with
    | unresolved hd h => exact ⟨hd, h⟩
  · rintro ⟨hd, h⟩
    have hnr := not_resolved_of_firstUnresolved hd h
    cases hb with
    | repeated h' => exact absurd hd (not_distinct_of_firstRepeated h')
    | unresolved _ h' =>
      obtain ⟨rfl, rfl⟩ := firstUnresolved_unique hd h h'
      rfl
    | cyclic _ hr => exact absurd hr hnr
    | inverted _ hr => exact absurd hr hnr
    | graph _ hr => exact absurd hr hnr

theorem build_eq_cyclicDependency_iff :
    (∃ cycle, build ms = .error (.cyclicDependency cycle)) ↔
      Distinct ms ∧ Resolved ms ∧ Cyclic ms := by
  have hb := built_build ms
  generalize build ms = r at hb
  constructor
  · rintro ⟨cycle, rfl⟩
    cases hb with
    | cyclic hd hr h => exact ⟨hd, hr, h⟩
  · rintro ⟨hd, hr, h⟩
    cases hb with
    | repeated h' => exact absurd hd (not_distinct_of_firstRepeated h')
    | unresolved _ h' => exact absurd hr (not_resolved_of_firstUnresolved hd h')
    | cyclic => exact ⟨_, rfl⟩
    | inverted _ _ hc => exact absurd h hc
    | graph _ _ hs => exact absurd h (not_cyclic_of_descending hd hs hr)

theorem build_eq_tierInversion_iff {id d : Identity} {t u : Nat} :
    build ms = .error (.tierInversion id t d u) ↔
      Distinct ms ∧ Resolved ms ∧ ¬ Cyclic ms ∧ FirstInverted ms id t d u := by
  have hb := built_build ms
  generalize build ms = r at hb
  constructor
  · rintro rfl
    cases hb with
    | inverted hd hr hc h => exact ⟨hd, hr, hc, h⟩
  · rintro ⟨hd, hr, hc, h⟩
    cases hb with
    | repeated h' => exact absurd hd (not_distinct_of_firstRepeated h')
    | unresolved _ h' => exact absurd hr (not_resolved_of_firstUnresolved hd h')
    | cyclic _ _ h' => exact absurd h' hc
    | inverted _ _ _ h' =>
      obtain ⟨rfl, rfl, rfl, rfl⟩ := firstInverted_unique hd h h'
      rfl
    | graph _ _ hs => exact absurd hs (not_descending_of_firstInverted hd h)

/-- **A list of modules is a graph exactly if it keeps the three rules**: identities are distinct,
    dependencies resolve, tiers descend. Otherwise the rules are examined in the order duplicates,
    unresolved dependencies, cycles, tiers; the fault is that of the first violated one, and it
    names the first module that violates it -- in the order of the list, or for tiers in the order
    of the identities -- with the first dependency by which it does so. -/
theorem build_decides (ms : List Module) :
    ((∃ g, build ms = .ok g) ↔ Distinct ms ∧ Resolved ms ∧ Descending ms) ∧
    (∀ id, build ms = .error (.duplicateModule id) ↔ FirstRepeated ms id) ∧
    (∀ id d, build ms = .error (.unresolvedDependency id d) ↔
      Distinct ms ∧ FirstUnresolved ms id d) ∧
    ((∃ cycle, build ms = .error (.cyclicDependency cycle)) ↔
      Distinct ms ∧ Resolved ms ∧ Cyclic ms) ∧
    (∀ id t d u, build ms = .error (.tierInversion id t d u) ↔
      Distinct ms ∧ Resolved ms ∧ ¬ Cyclic ms ∧ FirstInverted ms id t d u) ∧
    ((∃ g, build ms = .ok g) ∨ (∃ id, build ms = .error (.duplicateModule id)) ∨
      (∃ id d, build ms = .error (.unresolvedDependency id d)) ∨
      (∃ cycle, build ms = .error (.cyclicDependency cycle)) ∨
      ∃ id t d u, build ms = .error (.tierInversion id t d u)) := by
  refine ⟨build_eq_ok_iff, fun _ => build_eq_duplicateModule_iff,
    fun _ _ => build_eq_unresolvedDependency_iff, build_eq_cyclicDependency_iff,
    fun _ _ _ _ => build_eq_tierInversion_iff, ?_⟩
  have hb := built_build ms
  generalize build ms = r at hb
  cases hb with
  | graph => exact Or.inl ⟨_, rfl⟩
  | repeated => exact Or.inr (Or.inl ⟨_, rfl⟩)
  | unresolved => exact Or.inr (Or.inr (Or.inl ⟨_, _, rfl⟩))
  | cyclic => exact Or.inr (Or.inr (Or.inr (Or.inl ⟨_, rfl⟩)))
  | inverted => exact Or.inr (Or.inr (Or.inr (Or.inr ⟨_, _, _, _, rfl⟩)))

/-! ## 7. The modules of a graph -/

variable {g : Graph}

/-- **A graph holds exactly the modules of the list it was built from.** -/
theorem mem_modules_of_build (h : build ms = .ok g) {m : Module} : m ∈ g.modules ↔ m ∈ ms := by
  have hb := built_build ms
  rw [h] at hb
  cases hb with
  | graph hd hr hs hg => rw [hg, Register.mem_ofList_of_nodup hd]

theorem get?_eq_some_iff_of_build (h : build ms = .ok g) {id : Identity} {m : Module} :
    g.get? id = some m ↔ m ∈ ms ∧ m.id = id := by
  rw [get?, Register.find?_eq_some_iff, mem_modules_of_build h]

theorem mem_dependencyIds_of_build (h : build ms = .ok g) {a d : Identity} :
    d ∈ g.dependencyIds a ↔ DependsOn ms a d := by
  rw [mem_dependencyIds]
  simp only [get?_eq_some_iff_of_build h, and_assoc, DependsOn]

theorem below_iff_of_build (h : build ms = .ok g) {a d : Identity} :
    g.downward.Below a d ↔ Relation.TransGen (DependsOn ms) a d := by
  have hrel : (fun a c => c ∈ g.downward.children a) = DependsOn ms := by
    funext a c
    exact propext (mem_dependencyIds_of_build h)
  rw [Branching.below_iff_transGen, hrel]

end Graph

/-! ## 8. Modules that are written down -/

/-- The modules that some declarations make, each under its identity and on its tier or, where it
    declares none, on the lowest. A declaration that breaks a rule makes none. -/
def Declaration.modules (ds : List (Identity × Declaration)) : List Module :=
  ds.filterMap fun p => (p.2.toModule p.1 (p.2.tier.getD 0)).toOption

end Isolation
