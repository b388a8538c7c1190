import Isolation.Proofs.TierOverflow

/-!
# The tier equations have one solution

Where the requirements among scanned modules without a pin run in no circle, the walk that derives
tiers draws on nothing but the equations, and the equations leave no choice. So the tiers depend on
what was scanned and what is pinned, and not on the order in which modules or requirements come. That
holds of tiers of any type; the equations on the integers have the same solution as those in 64 bits
where no tier overflows.

* `TierSolution` -- the equations, stated of a map of tiers without the walk;
* `RequiresUnpinned`, `not_transGen_derives_of_unpinned` -- a circle of derivations is one of
  requirements among scanned modules without a pin;
* `Settled.eq_of_get?` -- two settled maps agree wherever both have a tier;
* `TierSolution.settled`, `Settled.tierSolution` -- a map is a solution if it is settled and has the
  right domain;
* `Reorders` -- the scanned modules, or the requirements of one of them, in another order;
* **`derived_tiers_are_the_solution`** -- the derived tiers are the one solution, in any order.
-/

namespace Isolation

/-! ## 1. The equations of a scan -/

section Equations

variable {τ : Type} {scanned : List ScannedModule} {pinned : NameMap τ}

/-- One scanned module without a pin requires another. -/
def RequiresUnpinned (scanned : List ScannedModule) (pinned : NameMap τ) (a d : Identity) :
    Prop :=
  Requires scanned a d ∧ d ∈ scanned.map ScannedModule.id ∧ pinned.get? a = none ∧
    pinned.get? d = none

theorem Requires.mem_left {a d : Identity} (h : Requires scanned a d) :
    a ∈ scanned.map ScannedModule.id := by
  obtain ⟨s, hs, rfl, _⟩ := h
  exact List.mem_map_of_mem hs

/-- **A circle of derivations runs through scanned modules without a pin only.** -/
theorem not_transGen_derives_of_unpinned
    (h : ∀ a, ¬ Relation.TransGen (RequiresUnpinned scanned pinned) a a) (a : Identity) :
    ¬ Relation.TransGen (Derives (requirementMap scanned) pinned) a a := by
  -- what derivations lead to is scanned and has no pin if something is derived for it as well
  have hlift : ∀ b, Relation.TransGen (Derives (requirementMap scanned) pinned) a b →
      (∃ d, Derives (requirementMap scanned) pinned b d) →
      Relation.TransGen (RequiresUnpinned scanned pinned) a b := by
    intro b hb
    induction hb with
    | single hab =>
      rintro ⟨d, hd⟩
      exact .single ⟨hab.requires, hd.requires.mem_left, hab.1, hd.1⟩
    | tail _ hcb ih =>
      rintro ⟨d, hd⟩
      exact (ih ⟨_, hcb⟩).tail ⟨hcb.requires, hd.requires.mem_left, hcb.1, hd.1⟩
  intro ha
  obtain ⟨d, hd, _⟩ := Relation.TransGen.head'_iff.mp ha
  exact h a (hlift a ha ⟨d, hd⟩)

theorem requires_iff_of_get? (hid : (scanned.map ScannedModule.id).Nodup) {a : Identity}
    {required : List Identity} (hr : (requirementMap scanned).get? a = some required) {d : Identity} :
    Requires scanned a d ↔ d ∈ required := by
  constructor
  · rintro ⟨s, hs, hsa, hd⟩
    have hs' := (get?_requirementMap_iff hid).mpr ⟨s, hs, hsa, rfl⟩
    rw [← Option.some.inj (hs'.symm.trans hr)]
    exact hd
  · intro hd
    obtain ⟨s, hs, hsa, rfl⟩ := (get?_requirementMap_iff hid).mp hr
    exact ⟨s, hs, hsa, hd⟩

theorem get?_requirementMap_eq_none_iff (hid : (scanned.map ScannedModule.id).Nodup)
    {a : Identity} : (requirementMap scanned).get? a = none ↔ a ∉ scanned.map ScannedModule.id := by
  rw [← not_iff_not, not_not, ← ne_eq, Option.ne_none_iff_exists']
  simp only [get?_requirementMap_iff hid, List.mem_map]
  constructor
  · rintro ⟨_, s, hs, hsa, _⟩
    exact ⟨s, hs, hsa⟩
  · rintro ⟨s, hs, hsa⟩
    exact ⟨_, s, hs, hsa, rfl⟩

/-- Derivations lead downwards in a map of integers. -/
def Ranks (requirements : NameMap (List Identity)) (pinned : NameMap τ) (rank : NameMap Int) :
    Prop :=
  ∀ a d, Derives requirements pinned a d → ∀ r, rank.get? a = some r →
    ∃ q, rank.get? d = some q ∧ q < r

/-- **Where derivations run in no circle, they lead downwards** in some map that ranks all that was
    scanned: that of the tiers on the integers, with every pin at 0. -/
theorem exists_ranks
    (hacyclic : ∀ a, ¬ Relation.TransGen (Derives (requirementMap scanned) pinned) a a) :
    ∃ rank, Ranks (requirementMap scanned) pinned rank ∧
      ∀ s ∈ scanned, ∃ r, rank.get? s.id = some r := by
  let lowest : NameMap Int := pinned.mapValues fun _ => 0
  have hderives : Derives (requirementMap scanned) lowest =
      Derives (requirementMap scanned) pinned := derives_mapValues fun _ => 0
  rw [← hderives] at hacyclic
  refine ⟨deriveTiers scanned lowest, fun a d hd r hr => ?_, fun s hs => exists_derived_tier hs⟩
  rw [← hderives] at hd
  exact (settled_deriveTiers hacyclic a r hr).exists_succ_le hd

variable [OfNat τ 1] [Add τ] {tiers tiers' : NameMap τ}

/-- What is derived for a module is derived from all that it requires. -/
theorem setOf_requires_eq (hid : (scanned.map ScannedModule.id).Nodup) {a : Identity}
    {required : List Identity}
    (hr : (requirementMap scanned).get? a = some required) :
    {u | ∃ d, Requires scanned a d ∧ ∃ v, tiers.get? d = some v ∧ u = v + 1} =
      {u | ∃ d ∈ required, ∃ v, tiers.get? d = some v ∧ u = v + 1} := by
  simp only [requires_iff_of_get? hid hr]

variable [LE τ]

/-- The best candidate among identities with tiers is the greatest number one above one of them. -/
theorem oneAbove_some_iff {ids : List Identity} {b : τ}
    (hdef : ∀ d ∈ ids, ∃ t, tiers.get? d = some t) : OneAbove tiers ids (some b) ↔
      IsGreatest {u | ∃ d ∈ ids, ∃ v, tiers.get? d = some v ∧ u = v + 1} b := by
  constructor
  · rintro ⟨hle, d, hd, t, ht, rfl⟩
    refine ⟨⟨d, hd, t, ht, rfl⟩, ?_⟩
    rintro u ⟨e, he, v, hv, rfl⟩
    obtain ⟨w, hw, hwb⟩ := hle e he
    rw [Option.some.inj (hv.symm.trans hw)]
    exact hwb
  · rintro ⟨⟨d, hd, t, ht, rfl⟩, hle⟩
    refine ⟨fun e he => ?_, d, hd, t, ht, rfl⟩
    obtain ⟨v, hv⟩ := hdef e he
    exact ⟨v, hv, hle ⟨e, he, v, hv, rfl⟩⟩

variable [OfNat τ 0]

/-- The tiers solve the equations of a scan. -/
structure TierSolution (scanned : List ScannedModule) (pinned tiers : NameMap τ) : Prop where
  /-- What was scanned has a tier, and what a scanned module without a pin requires, and nothing
      else. -/
  defined : ∀ id, (∃ t, tiers.get? id = some t) ↔
    id ∈ scanned.map ScannedModule.id ∨ ∃ a, pinned.get? a = none ∧ Requires scanned a id
  pin : ∀ id p, pinned.get? id = some p → ∀ t, tiers.get? id = some t → t = p
  lowest : ∀ id, pinned.get? id = none →
    (id ∉ scanned.map ScannedModule.id ∨ ∀ d, ¬ Requires scanned id d) →
    ∀ t, tiers.get? id = some t → t = 0
  oneAbove : ∀ id, pinned.get? id = none → (∃ d, Requires scanned id d) →
    ∀ t, tiers.get? id = some t →
      IsGreatest {u | ∃ d, Requires scanned id d ∧ ∃ v, tiers.get? d = some v ∧ u = v + 1} t

/-! ## 2. Settled tiers -/

/-- **Two settled maps agree wherever both have a tier**, if derivations lead downwards. -/
theorem Settled.eq_of_get? [Std.IsLinearOrder τ] {requirements : NameMap (List Identity)}
    {rank : NameMap Int} (hrank : Ranks requirements pinned rank)
    (hs : Settled requirements pinned tiers) (hs' : Settled requirements pinned tiers') :
    ∀ id r, rank.get? id = some r →
      ∀ t t', tiers.get? id = some t → tiers'.get? id = some t' → t = t' := by
  refine NameMap.induction_below fun id r hr ih t t' ht ht' => ?_
  have he := hs id t ht
  suffices TierEquation requirements pinned tiers id t' from he.unique this
  cases hs' id t' ht' with
  | pinned hp => exact .pinned hp
  | unscanned hp hreq => exact .unscanned hp hreq
  | derived hp hreq hb =>
    refine .derived hp hreq (hb.mono_on fun d hd v hv => ?_)
    have hedge : Derives requirements pinned id d := ⟨hp, _, hreq, hd⟩
    obtain ⟨u, hu, _⟩ := he.exists_succ_le hedge
    obtain ⟨q, hq, hlt⟩ := hrank id d hedge r hr
    rw [hu, ih d q hq hlt u v hu hv]

section Distinct

variable (hid : (scanned.map ScannedModule.id).Nodup)
include hid

/-- Every tier of a solution solves its equation. -/
theorem TierSolution.settled (h : TierSolution scanned pinned tiers) :
    Settled (requirementMap scanned) pinned tiers := by
  intro id t ht
  cases hp : pinned.get? id with
  | some p => exact .pinned (hp.trans (congrArg some (h.pin id p hp t ht).symm))
  | none =>
    cases hr : (requirementMap scanned).get? id with
    | none =>
      have hnew := (get?_requirementMap_eq_none_iff hid).mp hr
      rw [h.lowest id hp (Or.inl hnew) t ht]
      exact .unscanned hp hr
    | some required =>
      cases required with
      | nil =>
        have hnone : ∀ d, ¬ Requires scanned id d := fun d hd =>
          List.not_mem_nil ((requires_iff_of_get? hid hr).mp hd)
        have hnothing : OneAbove tiers [] none := rfl
        rw [h.lowest id hp (Or.inr hnone) t ht]
        exact .derived hp hr hnothing
      | cons d ds =>
        have hreq := (requires_iff_of_get? hid hr).mpr (List.mem_cons_self (a := d))
        have hgreatest := h.oneAbove id hp ⟨d, hreq⟩ t ht
        rw [setOf_requires_eq hid hr] at hgreatest
        have hbest : OneAbove tiers (d :: ds) (some t) :=
          (oneAbove_some_iff fun e he => (h.defined e).mpr
            (Or.inr ⟨id, hp, (requires_iff_of_get? hid hr).mpr he⟩)).mpr hgreatest
        exact .derived hp hr hbest

/-- Whatever has a tier in a solution is ranked where all that was scanned is. -/
theorem TierSolution.exists_rank (h : TierSolution scanned pinned tiers) {rank : NameMap Int}
    (hrank : Ranks (requirementMap scanned) pinned rank)
    (hscanned : ∀ s ∈ scanned, ∃ r, rank.get? s.id = some r) {id : Identity} {t : τ}
    (ht : tiers.get? id = some t) : ∃ r, rank.get? id = some r := by
  rcases (h.defined id).mp ⟨t, ht⟩ with hmem | ⟨a, hp, hreq⟩
  · obtain ⟨s, hs, rfl⟩ := List.mem_map.mp hmem
    exact hscanned s hs
  · obtain ⟨s, hs, rfl⟩ := List.mem_map.mp hreq.mem_left
    obtain ⟨r, hr⟩ := hscanned s hs
    obtain ⟨q, hq, _⟩ := hrank s.id id ((derives_iff hid).mpr ⟨hp, hreq⟩) r hr
    exact ⟨q, hq⟩

variable [Std.IsLinearOrder τ]

/-- Settled tiers are a solution if the right identities have one. -/
theorem Settled.tierSolution (hs : Settled (requirementMap scanned) pinned tiers)
    (hdefined : ∀ id, (∃ t, tiers.get? id = some t) ↔
      id ∈ scanned.map ScannedModule.id ∨ ∃ a, pinned.get? a = none ∧ Requires scanned a id) :
    TierSolution scanned pinned tiers where
  defined := hdefined
  pin id p hp t ht := (hs id t ht).unique (.pinned hp)
  lowest id hp hlow t ht := by
    have hnone : ∀ d, ¬ Requires scanned id d := by
      rcases hlow with hnew | hnone
      · exact fun d hd => hnew hd.mem_left
      · exact hnone
    cases hs id t ht with
    | pinned hp' => exact nomatch hp.symm.trans hp'
    | unscanned => rfl
    | @derived required best _ hr hb =>
      cases best with
      | none => rfl
      | some b =>
        obtain ⟨_, d, hd, _⟩ := hb
        exact absurd ((requires_iff_of_get? hid hr).mpr hd) (hnone d)
  oneAbove id hp hsome t ht := by
    obtain ⟨d, hd⟩ := hsome
    cases hs id t ht with
    | pinned hp' => exact nomatch hp.symm.trans hp'
    | unscanned _ hr => exact absurd hd.mem_left ((get?_requirementMap_eq_none_iff hid).mp hr)
    | @derived required best _ hr hb =>
      cases best with
      | none =>
        have hd' := (requires_iff_of_get? hid hr).mp hd
        rw [show required = [] from hb] at hd'
        exact absurd hd' List.not_mem_nil
      | some b =>
        rw [setOf_requires_eq hid hr]
        refine (oneAbove_some_iff fun e he => ?_).mp hb
        exact (hdefined e).mpr (Or.inr ⟨id, hp, (requires_iff_of_get? hid hr).mpr he⟩)

/-- **There are no two solutions.** -/
theorem TierSolution.eq (hacyclic : ∀ a, ¬ Relation.TransGen (RequiresUnpinned scanned pinned) a a)
    (h : TierSolution scanned pinned tiers) (h' : TierSolution scanned pinned tiers') :
    tiers = tiers' := by
  obtain ⟨rank, hrank, hscanned⟩ := exists_ranks (not_transGen_derives_of_unpinned hacyclic)
  refine NameMap.ext_get? fun id => ?_
  cases ht : tiers.get? id with
  | some t =>
    obtain ⟨t', ht'⟩ := (h'.defined id).mpr ((h.defined id).mp ⟨t, ht⟩)
    obtain ⟨r, hr⟩ := h.exists_rank hid hrank hscanned ht
    rw [ht', (h.settled hid).eq_of_get? hrank (h'.settled hid) id r hr t t' ht ht']
  | none =>
    cases ht' : tiers'.get? id with
    | none => rfl
    | some t' =>
      obtain ⟨t, ht''⟩ := (h.defined id).mpr ((h'.defined id).mp ⟨t', ht'⟩)
      exact nomatch ht.symm.trans ht''

variable [Max τ] [Std.LawfulOrderMax τ]

/-- **The derived tiers are a solution.** -/
theorem tierSolution_deriveTiers
    (hacyclic : ∀ a, ¬ Relation.TransGen (RequiresUnpinned scanned pinned) a a) :
    TierSolution scanned pinned (deriveTiers scanned pinned) := by
  have hs : Settled (requirementMap scanned) pinned (deriveTiers scanned pinned) :=
    settled_deriveTiers (not_transGen_derives_of_unpinned hacyclic)
  refine hs.tierSolution hid fun id => ⟨?_, ?_⟩
  · rintro ⟨t, ht⟩
    refine (asked_of_tier ht).imp_right ?_
    rintro ⟨a, ha⟩
    exact ⟨a, ha.1, ha.requires⟩
  · rintro (hmem | ⟨a, hp, hreq⟩)
    · obtain ⟨s, hs', rfl⟩ := List.mem_map.mp hmem
      exact exists_derived_tier hs'
    · obtain ⟨s, hs', rfl⟩ := List.mem_map.mp hreq.mem_left
      obtain ⟨t, ht⟩ : ∃ t, (deriveTiers scanned pinned).get? s.id = some t :=
        exists_derived_tier hs'
      obtain ⟨u, hu, _⟩ := (hs _ _ ht).exists_succ_le ((derives_iff hid).mpr ⟨hp, hreq⟩)
      exact ⟨u, hu⟩

end Distinct

end Equations

/-! ## 3. Other orders -/

section Orders

variable {τ : Type} {scanned scanned' : List ScannedModule} {pinned tiers : NameMap τ}

/-- The scanned modules come in another order, or the requirements of one of them do. -/
inductive Reorders : List ScannedModule → List ScannedModule → Prop where
  | modules {scanned scanned' : List ScannedModule} (h : scanned.Perm scanned') :
    Reorders scanned scanned'
  | requirements {before after : List ScannedModule} {s : ScannedModule}
    {rs : List ScannedRequirement} (h : s.requires.Perm rs) :
    Reorders (before ++ s :: after) (before ++ { s with requires := rs } :: after)

theorem Reorders.perm_ids (h : Reorders scanned scanned') :
    (scanned.map ScannedModule.id).Perm (scanned'.map ScannedModule.id) := by
  cases h with
  | modules h => exact h.map _
  | requirements => rw [List.map_append, List.map_append, List.map_cons, List.map_cons]

/-- In another order the same modules have the same requirements. -/
theorem Reorders.exists_requirement_iff (h : Reorders scanned scanned') {a : Identity}
    {r : ScannedRequirement} : (∃ s ∈ scanned, s.id = a ∧ r ∈ s.requires) ↔
      ∃ s ∈ scanned', s.id = a ∧ r ∈ s.requires := by
  cases h with
  | modules h => simp only [h.mem_iff]
  | requirements h =>
    simp only [List.mem_append, List.mem_cons, or_and_right, exists_or, exists_eq_left, h.mem_iff]

theorem requires_iff_exists_requirement {a d : Identity} : Requires scanned a d ↔
    ∃ r : ScannedRequirement, r.id = d ∧ ∃ s ∈ scanned, s.id = a ∧ r ∈ s.requires := by
  simp only [Requires, ScannedModule.dependencyIds, List.mem_map]
  constructor
  · rintro ⟨s, hs, hsa, r, hr, hrd⟩
    exact ⟨r, hrd, s, hs, hsa, hr⟩
  · rintro ⟨r, hrd, s, hs, hsa, hr⟩
    exact ⟨s, hs, hsa, r, hr, hrd⟩

section Reordered

variable (h : Relation.ReflTransGen Reorders scanned scanned')
include h

theorem perm_ids_of_reordered :
    (scanned.map ScannedModule.id).Perm (scanned'.map ScannedModule.id) := by
  induction h with
  | refl => exact .refl _
  | tail _ hlast ih => exact ih.trans hlast.perm_ids

theorem requires_eq_of_reordered : Requires scanned' = Requires scanned := by
  induction h with
  | refl => rfl
  | tail _ hlast ih =>
    rw [← ih]
    funext a d
    simp only [requires_iff_exists_requirement, hlast.exists_requirement_iff]

theorem requiresUnpinned_eq_of_reordered :
    RequiresUnpinned scanned' pinned = RequiresUnpinned scanned pinned := by
  funext a d
  rw [RequiresUnpinned, RequiresUnpinned, requires_eq_of_reordered h,
    (perm_ids_of_reordered h).mem_iff]

/-- A solution of a scan is one of the scan in any other order. -/
theorem TierSolution.of_reordered [OfNat τ 0] [OfNat τ 1] [Add τ] [LE τ]
    (hs : TierSolution scanned' pinned tiers) :
    TierSolution scanned pinned tiers := by
  have hids : ∀ id, id ∈ scanned'.map ScannedModule.id ↔ id ∈ scanned.map ScannedModule.id :=
    fun id => (perm_ids_of_reordered h).mem_iff.symm
  obtain ⟨hdefined, hpin, hlowest, honeAbove⟩ := hs
  rw [requires_eq_of_reordered h] at hdefined hlowest honeAbove
  simp only [hids] at hdefined hlowest
  exact ⟨hdefined, hpin, hlowest, honeAbove⟩

end Reordered

/-- **The tier equations have one solution, in whatever order things come**, if the requirements
    among scanned modules without a pin run in no circle. -/
theorem tierSolution_iff [OfNat τ 0] [OfNat τ 1] [Add τ] [LE τ] [Max τ] [Std.IsLinearOrder τ]
    [Std.LawfulOrderMax τ] (hid : (scanned.map ScannedModule.id).Nodup)
    (hacyclic : ∀ a, ¬ Relation.TransGen (RequiresUnpinned scanned pinned) a a) :
    TierSolution scanned pinned tiers ↔ tiers = deriveTiers scanned pinned := by
  have hsolution := tierSolution_deriveTiers hid hacyclic
  exact ⟨fun h => h.eq hid hacyclic hsolution, fun h => h ▸ hsolution⟩

theorem deriveTiers_of_reordered [OfNat τ 0] [OfNat τ 1] [Add τ] [LE τ] [Max τ]
    [Std.IsLinearOrder τ] [Std.LawfulOrderMax τ] (hid : (scanned.map ScannedModule.id).Nodup)
    (hacyclic : ∀ a, ¬ Relation.TransGen (RequiresUnpinned scanned pinned) a a)
    (h : Relation.ReflTransGen Reorders scanned scanned') :
    deriveTiers scanned' pinned = deriveTiers scanned pinned := by
  have hid' : (scanned'.map ScannedModule.id).Nodup := (perm_ids_of_reordered h).nodup hid
  have hacyclic' : ∀ a, ¬ Relation.TransGen (RequiresUnpinned scanned' pinned) a a := by
    rw [requiresUnpinned_eq_of_reordered h]
    exact hacyclic
  exact (tierSolution_iff hid hacyclic).mp
    ((tierSolution_deriveTiers hid' hacyclic').of_reordered h)

end Orders

/-- **The derived tiers are the one solution of the tier equations**, provided that the requirements
    among scanned modules without a pin run in no circle: of those in 64 bits, where one above the
    highest tier is the lowest, and of those on the integers where nothing overflows. In whatever
    order the modules come, and the requirements of each, the tiers are the same. -/
theorem derived_tiers_are_the_solution (scanned : List ScannedModule) (pinned : NameMap Int64)
    (hid : (scanned.map ScannedModule.id).Nodup)
    (hacyclic : ∀ a, ¬ Relation.TransGen (RequiresUnpinned scanned pinned) a a) :
    (∀ tiers, TierSolution scanned pinned tiers ↔ tiers = deriveTiers scanned pinned) ∧
    (Fits scanned pinned → ∀ tiers : NameMap Int,
      TierSolution scanned pinned.ints tiers ↔ tiers = (deriveTiers scanned pinned).ints) ∧
    ∀ scanned', Relation.ReflTransGen Reorders scanned scanned' →
      deriveTiers scanned' pinned = deriveTiers scanned pinned := by
  refine ⟨fun tiers => tierSolution_iff hid hacyclic, fun hfits tiers => ?_,
    fun scanned' h => deriveTiers_of_reordered hid hacyclic h⟩
  have hunpinned : RequiresUnpinned scanned pinned.ints = RequiresUnpinned scanned pinned := by
    funext a d
    simp only [RequiresUnpinned, NameMap.get?_ints, Option.map_eq_none_iff]
  rw [fits_iff.mp hfits]
  exact tierSolution_iff hid (hunpinned ▸ hacyclic)

/-- A scan of two modules that require each other; the first requires one more that is not there. -/
def circledPair : List ScannedModule :=
  [⟨"app", "app", [⟨"lib", ⟨"v1.0.0"⟩, false⟩, ⟨"far", ⟨"v1.0.0"⟩, true⟩]⟩,
    ⟨"lib", "lib", [⟨"app", ⟨"v1.0.0"⟩, false⟩]⟩]

/-- A pin for the second of them, which opens the circle. -/
def libraryPin : NameMap Int64 := NameMap.put Register.empty "lib" 3

theorem not_requiresUnpinned_circledPair (a d : Identity) :
    ¬ RequiresUnpinned circledPair libraryPin a d := by
  rintro ⟨⟨s, hs, rfl, hd⟩, hscanned, hp, hp'⟩
  have hnone : ∀ s ∈ circledPair, ∀ d ∈ s.dependencyIds,
      ¬ (d ∈ circledPair.map ScannedModule.id ∧ libraryPin.get? s.id = none ∧
        libraryPin.get? d = none) := by decide
  exact hnone s hs d hd ⟨hscanned, hp, hp'⟩

/-- The pin leaves room for the two modules. -/
theorem fits_circledPair : Fits circledPair libraryPin := by
  refine fits_of_room (by decide) fun b p hp => ?_
  rw [libraryPin, NameMap.get?_put] at hp
  split at hp
  · cases hp
    decide
  · cases hp

/-- The module without a pin lies one above the pin, in either order. -/
theorem derived_tiers_of_circled_pair :
    (circledPair.map ScannedModule.id).Nodup ∧
      (∀ a, ¬ Relation.TransGen (RequiresUnpinned circledPair libraryPin) a a) ∧
      Fits circledPair libraryPin ∧
      (deriveTiers circledPair libraryPin).ints.get? "app" = some 4 ∧
      deriveTiers circledPair.reverse libraryPin = deriveTiers circledPair libraryPin := by
  have hid : (circledPair.map ScannedModule.id).Nodup := by decide
  have hacyclic : ∀ a, ¬ Relation.TransGen (RequiresUnpinned circledPair libraryPin) a a := by
    intro a ha
    obtain ⟨d, hd, _⟩ := Relation.TransGen.head'_iff.mp ha
    exact not_requiresUnpinned_circledPair a d hd
  obtain ⟨_, hunique, hreordered⟩ :=
    derived_tiers_are_the_solution circledPair libraryPin hid hacyclic
  have hsolution := (hunique fits_circledPair _).mpr rfl
  refine ⟨hid, hacyclic, fits_circledPair, ?_,
    hreordered _ (.single (.modules (List.reverse_perm _).symm))⟩
  have hrequires : ∀ s ∈ circledPair, s.id = "app" →
      ∀ d ∈ s.dependencyIds, d = "lib" ∨ d = "far" := by decide
  have happ : Requires circledPair "app" "lib" := ⟨_, List.mem_cons_self, rfl, List.mem_cons_self⟩
  obtain ⟨u, hu⟩ := (hsolution.defined "lib").mpr (Or.inl (by decide))
  obtain ⟨t, ht⟩ := (hsolution.defined "app").mpr (Or.inl happ.mem_left)
  have hlib : u = 3 := hsolution.pin "lib" 3 rfl u hu
  obtain ⟨⟨d, ⟨s, hs, hsa, hd⟩, v, hv, htv⟩, hle⟩ := hsolution.oneAbove "app" rfl ⟨_, happ⟩ t ht
  have hge : u + 1 ≤ t := hle ⟨"lib", happ, u, hu, rfl⟩
  rcases hrequires s hs hsa d hd with rfl | rfl
  · have huv := Option.some.inj (hu.symm.trans hv)
    rw [ht, htv, ← huv, hlib]
    rfl
  · have hfar : v = 0 := hsolution.lowest "far" rfl (Or.inl (by decide)) v hv
    omega

end Isolation
