import Isolation.Tiers
import Mathlib.Data.List.Perm.Subperm
import Mathlib.Logic.Relation
import Mathlib.Order.Bounds.Defs

/-!
# Derived tiers solve the tier equations

The walk that derives tiers (`tierFrom`) mixes three sources: pins, tiers it has filed before, and
the 0 that stands in for a tier that is still open. Where no chain of derivations returns to its
start, the third source is never drawn from, and every tier that is filed SOLVES its equation
(`TierEquation`): it is the pin, or 0 for a module that was not scanned, or one above the highest
requirement. The equations have at most one solution, so it makes no difference in which order the
modules are walked and what was filed before. Most of this asks nothing of the tiers themselves, and
is said of tiers of any type; the chains of requirements are counted on the integers.

* `tierFrom_forall`, `deriveTiers_forall` -- what is true of 0 and of every pin, and of `t + 1` when
  it is of `t`, is true of every tier, whatever the requirements are, cycles included;
* `deriveTiers_of_pinned` -- where every scanned module is pinned, the tiers are the pins;
* `TierEquation.unique`, `TierEquation.mono` -- solutions are unique and survive later ones;
* `walked_tierFrom` -- one call files solutions only, loses none, and files its own answer;
* **`settled_deriveTiers`**, `exists_tier_of_scanned` -- the derived tiers are solutions, and there
  is one for every scanned module;
* **`isGreatest_requireChain`** -- without pins a tier is the number of requirements on the longest
  chain that starts at the module.

NOT here: what is filed where a chain of derivations does return to its start.
-/

namespace Isolation

/-! ## 1. Maps that grow -/

namespace NameMap

variable {β : Type} {m m' : NameMap β}

/-- `m'` answers as `m` does wherever `m` has an answer. -/
def Extends (m m' : NameMap β) : Prop := ∀ n b, m.get? n = some b → m'.get? n = some b

theorem Extends.refl (m : NameMap β) : Extends m m := fun _ _ h => h

theorem Extends.trans {m'' : NameMap β} (h : Extends m m') (h' : Extends m' m'') : Extends m m'' :=
  fun n b hb => h' n b (h n b hb)

/-- What is true of all values of a map stays so when one more value of that kind is filed. -/
theorem forall_get?_put {P : β → Prop} (h : ∀ n b, m.get? n = some b → P b) {k : String} {b : β}
    (hb : P b) : ∀ n c, (m.put k b).get? n = some c → P c := by
  intro n c hc
  rw [get?_put] at hc
  split at hc
  · cases hc
    exact hb
  · exact h n c hc

theorem forall_get?_putNew {P : β → Prop} (h : ∀ n b, m.get? n = some b → P b) {k : String} {b : β}
    (hb : P b) : ∀ n c, (m.putNew k b).get? n = some c → P c := by
  unfold putNew
  split
  · exact h
  · exact forall_get?_put h hb

end NameMap

/-! ## 2. The walk, step by step -/

/-- The higher of a candidate and the best so far is one of them. -/
theorem higher_cases {τ : Type} [Max τ] [Std.MaxEqOr τ] (best : Option τ) (t : τ) :
    higher best t = some t ∨ ∃ b, best = some b ∧ higher best t = some b := by
  cases best with
  | none => exact Or.inl rfl
  | some b =>
    rcases Std.MaxEqOr.max_eq_or b t with h | h
    · exact Or.inr ⟨b, rfl, congrArg some h⟩
    · exact Or.inl (congrArg some h)

section Walk

variable {τ : Type} [OfNat τ 0] [OfNat τ 1] [Add τ] [Max τ]
variable (requirements : NameMap (List Identity)) (pinned : NameMap τ)

/-- One requirement looked at: the best candidate so far, and the tiers derived so far. -/
def examine (visiting : List Identity) (acc : Option τ × NameMap τ) (d : Identity) :
    Option τ × NameMap τ :=
  let t := tierFrom requirements pinned visiting acc.2 d
  (higher acc.1 (t.1 + 1), t.2)

variable {requirements pinned} {visiting : List Identity} {tiers : NameMap τ} {id : Identity}

theorem tierFrom_of_known {t : τ} (h : (pinned.get? id).or (tiers.get? id) = some t) :
    tierFrom requirements pinned visiting tiers id = (t, tiers.putNew id t) := by
  rw [tierFrom, h]

theorem tierFrom_of_open (h : (pinned.get? id).or (tiers.get? id) = none) (hv : id ∈ visiting) :
    tierFrom requirements pinned visiting tiers id = (0, tiers) := by
  rw [tierFrom, h]
  exact dif_pos hv

theorem tierFrom_of_unscanned (h : (pinned.get? id).or (tiers.get? id) = none)
    (hv : id ∉ visiting) (hr : requirements.get? id = none) :
    tierFrom requirements pinned visiting tiers id = (0, tiers.put id 0) := by
  rw [tierFrom, h]
  dsimp only
  rw [dif_neg hv]
  split
  · rfl
  · rename_i hs
    rw [hr] at hs
    cases hs

theorem tierFrom_of_scanned {required : List Identity}
    (h : (pinned.get? id).or (tiers.get? id) = none) (hv : id ∉ visiting)
    (hr : requirements.get? id = some required) :
    tierFrom requirements pinned visiting tiers id =
      let walked := required.foldl (examine requirements pinned (id :: visiting)) (none, tiers)
      (walked.1.getD 0, walked.2.put id (walked.1.getD 0)) := by
  rw [tierFrom, h]
  dsimp only
  rw [dif_neg hv]
  split
  · rename_i hn
    rw [hr] at hn
    cases hn
  · rename_i hs
    rw [hr] at hs
    cases hs
    rfl

/-! ## 3. What every tier satisfies -/

/-- `P` is true of 0 and of every pin, and of `t + 1` when it is of `t`. -/
structure TierClosed (pinned : NameMap τ) (P : τ → Prop) : Prop where
  zero : P 0
  pin : ∀ id t, pinned.get? id = some t → P t
  succ : ∀ t, P t → P (t + 1)

variable {P : τ → Prop}

/-- **Whatever is true of 0 and of the pins, and survives a step up, is true of every tier** that a
    call answers or files. -/
theorem tierFrom_forall [Std.MaxEqOr τ] (hP : TierClosed pinned P) (visiting : List Identity) (tiers : NameMap τ)
    (id : Identity) (h : ∀ n t, tiers.get? n = some t → P t) :
    P (tierFrom requirements pinned visiting tiers id).1 ∧
      ∀ n t, (tierFrom requirements pinned visiting tiers id).2.get? n = some t → P t := by
  -- induction on the calls, with one case for each way in which a call can go
  induction visiting, tiers, id using tierFrom.induct requirements pinned with
  | case1 visiting tiers id t hk =>
    have ht : P t := by
      rcases Option.or_eq_some_iff.mp hk with hp | ⟨_, ht⟩
      · exact hP.pin id t hp
      · exact h id t ht
    rw [tierFrom_of_known hk]
    exact ⟨ht, NameMap.forall_get?_putNew h ht⟩
  | case2 visiting tiers id hk hv =>
    rw [tierFrom_of_open hk hv]
    exact ⟨hP.zero, h⟩
  | case3 visiting tiers id hk hv hr =>
    rw [tierFrom_of_unscanned hk hv hr]
    exact ⟨hP.zero, NameMap.forall_get?_put h hP.zero⟩
  | case4 visiting tiers id hk hv required hr ih =>
    rw [tierFrom_of_scanned hk hv hr]
    have key : ∀ (ds : List Identity) (acc : Option τ × NameMap τ), (∀ b ∈ acc.1, P b) →
        (∀ n t, acc.2.get? n = some t → P t) →
        (∀ b ∈ (ds.foldl (examine requirements pinned (id :: visiting)) acc).1, P b) ∧
        ∀ n t, (ds.foldl (examine requirements pinned (id :: visiting)) acc).2.get? n = some t →
          P t := by
      intro ds
      induction ds with
      | nil => exact fun _ hb ht => ⟨hb, ht⟩
      | cons d ds ihd =>
        intro acc hb ht
        obtain ⟨hv, hf⟩ := ih acc d ht
        refine ihd _ (fun b hmem => ?_) hf
        rcases higher_cases acc.1 ((tierFrom requirements pinned (id :: visiting) acc.2 d).1 + 1)
          with e | ⟨b', hb', e⟩
        · cases e.symm.trans hmem
          exact hP.succ _ hv
        · cases e.symm.trans hmem
          exact hb b hb'
    obtain ⟨hb, ht⟩ := key required (none, tiers) (fun _ hb => nomatch hb) h
    have htier : P ((required.foldl (examine requirements pinned (id :: visiting))
        (none, tiers)).1.getD 0) := by
      cases hw : (required.foldl (examine requirements pinned (id :: visiting))
        (none, tiers)).1 with
      | none => exact hP.zero
      | some b => exact hb b hw
    exact ⟨htier, NameMap.forall_get?_put ht htier⟩

end Walk

/-! ## 4. The tier equations -/

section Equations

variable {τ : Type} [OfNat τ 1] [Add τ] [LE τ] {tiers : NameMap τ}

/-- A best candidate among the tiers of some identities: one above the highest of them. -/
def OneAbove (tiers : NameMap τ) (ids : List Identity) : Option τ → Prop
  | none => ids = []
  | some b => (∀ d ∈ ids, ∃ t, tiers.get? d = some t ∧ t + 1 ≤ b) ∧
      ∃ d ∈ ids, ∃ t, tiers.get? d = some t ∧ t + 1 = b

/-- The best candidate is the same where the tiers of the identities are. -/
theorem OneAbove.mono_on {tiers' : NameMap τ} {ids : List Identity} {best : Option τ}
    (hb : OneAbove tiers ids best)
    (h : ∀ d ∈ ids, ∀ t, tiers.get? d = some t → tiers'.get? d = some t) :
    OneAbove tiers' ids best := by
  cases best with
  | none => exact hb
  | some b =>
    obtain ⟨hle, d, hd, t, ht, he⟩ := hb
    refine ⟨fun e hmem => ?_, d, hd, t, h d hd t ht, he⟩
    obtain ⟨u, hu, hub⟩ := hle e hmem
    exact ⟨u, h e hmem u hu, hub⟩

theorem OneAbove.mono {tiers' : NameMap τ} (h : NameMap.Extends tiers tiers')
    {ids : List Identity} {best : Option τ} (hb : OneAbove tiers ids best) :
    OneAbove tiers' ids best := hb.mono_on fun d _ => h d

theorem OneAbove.unique [Std.IsLinearOrder τ] {ids : List Identity} {best best' : Option τ}
    (h : OneAbove tiers ids best) (h' : OneAbove tiers ids best') : best = best' := by
  have le : ∀ {b b' : τ}, OneAbove tiers ids (some b) → OneAbove tiers ids (some b') →
      b ≤ b' := by
    rintro b b' ⟨_, d, hd, t, ht, he⟩ ⟨hle, _⟩
    obtain ⟨u, hu, hub⟩ := hle d hd
    rw [ht] at hu
    cases hu
    exact he ▸ hub
  cases best with
  | none =>
    cases best' with
    | none => rfl
    | some b' =>
      obtain ⟨_, d, hd, _⟩ := h'
      rw [show ids = [] from h] at hd
      cases hd
  | some b =>
    cases best' with
    | none =>
      obtain ⟨_, d, hd, _⟩ := h
      rw [show ids = [] from h'] at hd
      cases hd
    | some b' =>
      rw [Std.le_antisymm (le h h') (le h' h)]

/-- With one more identity the better of the two candidates is the best. -/
theorem OneAbove.concat [Max τ] [Std.IsLinearOrder τ] [Std.LawfulOrderMax τ]
    {ids : List Identity} {best : Option τ} (h : OneAbove tiers ids best)
    {d : Identity} {t : τ} (ht : tiers.get? d = some t) :
    OneAbove tiers (ids ++ [d]) (higher best (t + 1)) := by
  cases best with
  | none =>
    rw [show ids = [] from h]
    refine ⟨fun e he => ?_, d, List.mem_singleton_self d, t, ht, rfl⟩
    rw [List.nil_append, List.mem_singleton] at he
    exact ⟨t, he ▸ ht, Std.le_refl _⟩
  | some b =>
    obtain ⟨hle, e, he, u, hu, hub⟩ := h
    constructor
    · intro x hx
      rcases List.mem_append.mp hx with hx | hx
      · obtain ⟨v, hv, hvb⟩ := hle x hx
        exact ⟨v, hv, Std.le_trans hvb Std.left_le_max⟩
      · rw [List.mem_singleton.mp hx]
        exact ⟨t, ht, Std.right_le_max⟩
    · rcases Std.MaxEqOr.max_eq_or b (t + 1) with hm | hm
      · rw [hm]
        exact ⟨e, List.mem_append_left _ he, u, hu, hub⟩
      · rw [hm]
        exact ⟨d, List.mem_append_right _ (List.mem_singleton_self d), t, ht, rfl⟩

variable [OfNat τ 0] (requirements : NameMap (List Identity)) (pinned : NameMap τ)

/-- What the tier of an identity has to be, given the tiers of what it requires. -/
inductive TierEquation (tiers : NameMap τ) (id : Identity) : τ → Prop where
  | pinned {t : τ} (h : pinned.get? id = some t) : TierEquation tiers id t
  | unscanned (h : pinned.get? id = none) (hr : requirements.get? id = none) :
    TierEquation tiers id 0
  | derived {required : List Identity} {best : Option τ} (h : pinned.get? id = none)
    (hr : requirements.get? id = some required) (hb : OneAbove tiers required best) :
    TierEquation tiers id (best.getD 0)

/-- Every tier of a map solves its equation in that map. -/
def Settled (tiers : NameMap τ) : Prop :=
  ∀ id t, tiers.get? id = some t → TierEquation requirements pinned tiers id t

/-- The tier of `a` is derived from that of `d`: `a` was scanned, is not pinned and requires `d`. -/
def Derives (a d : Identity) : Prop :=
  pinned.get? a = none ∧ ∃ required, requirements.get? a = some required ∧ d ∈ required

/-- What one call leaves behind: solutions only, all that was filed before, and its own answer. -/
structure Walked (tiers : NameMap τ) (id : Identity) (r : τ × NameMap τ) : Prop where
  settled : Settled requirements pinned r.2
  kept : NameMap.Extends tiers r.2
  filed : r.2.get? id = some r.1

variable {requirements pinned} {id : Identity}

theorem TierEquation.mono {tiers' : NameMap τ} (h : NameMap.Extends tiers tiers') {t : τ}
    (he : TierEquation requirements pinned tiers id t) :
    TierEquation requirements pinned tiers' id t := by
  cases he with
  | pinned hp => exact .pinned hp
  | unscanned hp hr => exact .unscanned hp hr
  | derived hp hr hb => exact .derived hp hr (hb.mono h)

/-- **The equation of an identity has one solution.** -/
theorem TierEquation.unique [Std.IsLinearOrder τ] {t t' : τ}
    (h : TierEquation requirements pinned tiers id t)
    (h' : TierEquation requirements pinned tiers id t') : t = t' := by
  cases h with
  | pinned hp =>
    cases h' with
    | pinned hp' => exact Option.some.inj (hp.symm.trans hp')
    | unscanned hp' => exact nomatch hp.symm.trans hp'
    | derived hp' => exact nomatch hp.symm.trans hp'
  | unscanned hp hr =>
    cases h' with
    | pinned hp' => exact nomatch hp.symm.trans hp'
    | unscanned => rfl
    | derived _ hr' => exact nomatch hr.symm.trans hr'
  | derived hp hr hb =>
    cases h' with
    | pinned hp' => exact nomatch hp.symm.trans hp'
    | unscanned _ hr' => exact nomatch hr.symm.trans hr'
    | derived _ hr' hb' =>
      cases hr.symm.trans hr'
      rw [hb.unique hb']

/-- A derived tier is at least one above each of those it is derived from. -/
theorem TierEquation.exists_succ_le {a d : Identity} {t : τ}
    (he : TierEquation requirements pinned tiers a t) (hd : Derives requirements pinned a d) :
    ∃ u, tiers.get? d = some u ∧ u + 1 ≤ t := by
  obtain ⟨hp, required, hr, hmem⟩ := hd
  cases he with
  | pinned hp' => exact nomatch hp.symm.trans hp'
  | unscanned _ hr' => exact nomatch hr.symm.trans hr'
  | @derived _ best _ hr' hb =>
    cases hr.symm.trans hr'
    cases best with
    | none =>
      rw [show required = [] from hb] at hmem
      cases hmem
    | some b =>
      obtain ⟨u, hu, hle⟩ := hb.1 d hmem
      exact ⟨u, hu, hle⟩

theorem settled_empty : Settled requirements pinned Register.empty := by
  intro id t h
  rw [NameMap.get?_empty] at h
  cases h

end Equations

/-! ## 5. One call -/

section Call

variable {τ : Type} [OfNat τ 0] [OfNat τ 1] [Add τ] [LE τ] [Std.IsLinearOrder τ]
variable {requirements : NameMap (List Identity)} {pinned tiers : NameMap τ} {id : Identity}

/-- To file the solution of an equation is to lose nothing and to stay settled. -/
theorem Settled.walked (hs : Settled requirements pinned tiers) {t : τ}
    (he : TierEquation requirements pinned tiers id t) {filed : NameMap τ}
    (hf : ∀ n, filed.get? n = if id = n then some t else tiers.get? n) :
    Walked requirements pinned tiers id (t, filed) := by
  have hkept : NameMap.Extends tiers filed := by
    intro n b hb
    rw [hf]
    split
    · rename_i hn
      subst hn
      rw [he.unique (hs id b hb)]
    · exact hb
  refine ⟨fun n u hu => ?_, hkept, ?_⟩
  · rw [hf] at hu
    split at hu
    · rename_i hn
      subst hn
      cases hu
      exact he.mono hkept
    · exact (hs n u hu).mono hkept
  · show filed.get? id = some t
    rw [hf, if_pos rfl]

theorem Settled.walked_put (hs : Settled requirements pinned tiers) {t : τ}
    (he : TierEquation requirements pinned tiers id t) :
    Walked requirements pinned tiers id (t, tiers.put id t) :=
  hs.walked he fun n => NameMap.get?_put tiers id n t

theorem Settled.walked_putNew (hs : Settled requirements pinned tiers) {t : τ}
    (he : TierEquation requirements pinned tiers id t) :
    Walked requirements pinned tiers id (t, tiers.putNew id t) := by
  refine hs.walked he fun n => ?_
  rw [NameMap.get?_putNew]
  cases h : tiers.get? id with
  | none => rfl
  | some c => rw [Option.getD_some, (hs id c h).unique he]

variable [Max τ] [Std.LawfulOrderMax τ]

/-- Along a list of requirements the best candidate is one above those looked at so far. -/
theorem foldl_examine {open' rest seen : List Identity} {best : Option τ}
    (hwalk : ∀ d ∈ rest, ∀ tiers, Settled requirements pinned tiers →
      Walked requirements pinned tiers d (tierFrom requirements pinned open' tiers d))
    (hs : Settled requirements pinned tiers) (hb : OneAbove tiers seen best) :
    Settled requirements pinned
        (rest.foldl (examine requirements pinned open') (best, tiers)).2 ∧
      NameMap.Extends tiers (rest.foldl (examine requirements pinned open') (best, tiers)).2 ∧
      OneAbove (rest.foldl (examine requirements pinned open') (best, tiers)).2 (seen ++ rest)
        (rest.foldl (examine requirements pinned open') (best, tiers)).1 := by
  induction rest generalizing tiers seen best with
  | nil =>
    rw [List.append_nil]
    exact ⟨hs, .refl tiers, hb⟩
  | cons d rest ih =>
    have hd := hwalk d List.mem_cons_self tiers hs
    obtain ⟨hs', hkept, hb'⟩ := ih (fun e he => hwalk e (List.mem_cons_of_mem _ he)) hd.settled
      ((hb.mono hd.kept).concat hd.filed)
    rw [List.append_assoc, List.singleton_append] at hb'
    exact ⟨hs', hd.kept.trans hkept, hb'⟩

/-- **One call files solutions only**, provided that every open tier waits for the tier that is
    asked for, and no tier waits for itself. -/
theorem walked_tierFrom
    (hacyclic : ∀ a, ¬ Relation.TransGen (Derives requirements pinned) a a)
    (visiting : List Identity) (tiers : NameMap τ) (id : Identity)
    (hv : ∀ v ∈ visiting, Relation.TransGen (Derives requirements pinned) v id)
    (hs : Settled requirements pinned tiers) :
    Walked requirements pinned tiers id (tierFrom requirements pinned visiting tiers id) := by
  induction visiting, tiers, id using tierFrom.induct requirements pinned with
  | case1 visiting tiers id t hk =>
    have he : TierEquation requirements pinned tiers id t := by
      rcases Option.or_eq_some_iff.mp hk with hp | ⟨_, ht⟩
      · exact .pinned hp
      · exact hs id t ht
    rw [tierFrom_of_known hk]
    exact hs.walked_putNew he
  | case2 visiting tiers id hk hmem =>
    -- an open tier that is met again would wait for itself
    exact absurd (hv id hmem) (hacyclic id)
  | case3 visiting tiers id hk hmem hr =>
    rw [tierFrom_of_unscanned hk hmem hr]
    exact hs.walked_put (.unscanned (Option.or_eq_none_iff.mp hk).1 hr)
  | case4 visiting tiers id hk hmem required hr ih =>
    have hp : pinned.get? id = none := (Option.or_eq_none_iff.mp hk).1
    have hwalk : ∀ d ∈ required, ∀ tiers, Settled requirements pinned tiers →
        Walked requirements pinned tiers d
          (tierFrom requirements pinned (id :: visiting) tiers d) := by
      intro d hd tiers' hs'
      have hedge : Derives requirements pinned id d := ⟨hp, required, hr, hd⟩
      refine ih (none, tiers') d (fun v hmem' => ?_) hs'
      rcases List.mem_cons.mp hmem' with rfl | hmem'
      · exact .single hedge
      · exact (hv v hmem').tail hedge
    have hnone : OneAbove tiers [] none := rfl
    obtain ⟨hs', hkept, hb⟩ := foldl_examine hwalk hs hnone
    rw [tierFrom_of_scanned hk hmem hr]
    have hfiled := hs'.walked_put (.derived hp hr hb)
    exact ⟨hfiled.settled, hkept.trans hfiled.kept, hfiled.filed⟩

end Call

/-! ## 6. A whole scan -/

section Scan

variable {τ : Type} {scanned : List ScannedModule} {pinned : NameMap τ}

/-- Some scanned module of identity `a` requires `d`. -/
def Requires (scanned : List ScannedModule) (a d : Identity) : Prop :=
  ∃ s ∈ scanned, s.id = a ∧ d ∈ s.dependencyIds

/-- A chain of `n` requirements starts at an identity. -/
inductive RequireChain (scanned : List ScannedModule) : Identity → Nat → Prop where
  | nil (id : Identity) : RequireChain scanned id 0
  | cons {a d : Identity} {n : Nat} (h : Requires scanned a d) (hc : RequireChain scanned d n) :
    RequireChain scanned a (n + 1)

theorem requirementMap_eq (scanned : List ScannedModule) :
    requirementMap scanned =
      Register.ofList (scanned.map fun s => (s.id, s.dependencyIds)) := by
  rw [requirementMap, Register.ofList, List.foldl_map]
  rfl

/-- Where no identity was scanned twice, each scanned module counts. -/
theorem get?_requirementMap_iff (hid : (scanned.map ScannedModule.id).Nodup) {a : Identity}
    {required : List Identity} : (requirementMap scanned).get? a = some required ↔
      ∃ s ∈ scanned, s.id = a ∧ s.dependencyIds = required := by
  have hnodup : ((scanned.map fun s => (s.id, s.dependencyIds)).map Prod.fst).Nodup := by
    rw [List.map_map]
    exact hid
  rw [requirementMap_eq, NameMap.get?_ofList_eq_some_iff hnodup]
  simp only [List.mem_map, Prod.mk.injEq]

theorem derives_iff (hid : (scanned.map ScannedModule.id).Nodup) {a d : Identity} :
    Derives (requirementMap scanned) pinned a d ↔
      pinned.get? a = none ∧ Requires scanned a d := by
  refine and_congr_right fun _ => ?_
  constructor
  · rintro ⟨required, hr, hd⟩
    obtain ⟨s, hs, hsa, rfl⟩ := (get?_requirementMap_iff hid).mp hr
    exact ⟨s, hs, hsa, hd⟩
  · rintro ⟨s, hs, hsa, hd⟩
    exact ⟨s.dependencyIds, (get?_requirementMap_iff hid).mpr ⟨s, hs, hsa, rfl⟩, hd⟩

theorem not_transGen_derives (hid : (scanned.map ScannedModule.id).Nodup)
    (hacyclic : ∀ a, ¬ Relation.TransGen (Requires scanned) a a) (a : Identity) :
    ¬ Relation.TransGen (Derives (requirementMap scanned) pinned) a a := by
  intro h
  have hle : Derives (requirementMap scanned) pinned ≤ Requires scanned :=
    fun _ _ hd => ((derives_iff hid).mp hd).2
  exact hacyclic a (Relation.TransGen.mono hle a a h)

variable [OfNat τ 0] [OfNat τ 1] [Add τ] [Max τ]

theorem deriveTiers_forall [Std.MaxEqOr τ] {P : τ → Prop} (hP : TierClosed pinned P) :
    ∀ id t, (deriveTiers scanned pinned).get? id = some t → P t := by
  have key : ∀ (ss : List ScannedModule) (tiers : NameMap τ),
      (∀ n t, tiers.get? n = some t → P t) →
      ∀ n t, (ss.foldl (fun tiers s => (tierFrom (requirementMap scanned) pinned [] tiers s.id).2)
        tiers).get? n = some t → P t := by
    intro ss
    induction ss with
    | nil => exact fun _ h => h
    | cons s ss ih => exact fun tiers h => ih _ (tierFrom_forall hP [] tiers s.id h).2
  refine key scanned Register.empty fun n t h => ?_
  rw [NameMap.get?_empty] at h
  cases h

/-- Where every scanned module is pinned, no requirement is followed: the tiers are the pins. -/
theorem deriveTiers_of_pinned (h : ∀ s ∈ scanned, (pinned.get? s.id).isSome = true) :
    deriveTiers scanned pinned =
      scanned.foldl (fun tiers s => NameMap.putNew tiers s.id ((pinned.get? s.id).getD 0))
        Register.empty := by
  rw [deriveTiers]
  refine List.foldl_ext _ _ _ fun tiers s hs => ?_
  obtain ⟨t, ht⟩ := Option.isSome_iff_exists.mp (h s hs)
  have hknown : (pinned.get? s.id).or (tiers.get? s.id) = some t := by
    rw [ht]
    rfl
  rw [tierFrom_of_known hknown, ht]
  rfl

variable [LE τ] [Std.IsLinearOrder τ] [Std.LawfulOrderMax τ]

/-- What is left behind after some of the scanned modules were walked. -/
theorem foldl_tierFrom {requirements : NameMap (List Identity)}
    (hacyclic : ∀ a, ¬ Relation.TransGen (Derives requirements pinned) a a)
    (ss : List ScannedModule) {tiers : NameMap τ} (hs : Settled requirements pinned tiers) :
    let derived := ss.foldl (fun tiers s => (tierFrom requirements pinned [] tiers s.id).2) tiers
    Settled requirements pinned derived ∧ NameMap.Extends tiers derived ∧
      ∀ s ∈ ss, ∃ t, derived.get? s.id = some t := by
  induction ss generalizing tiers with
  | nil => exact ⟨hs, .refl tiers, fun s hmem => nomatch hmem⟩
  | cons s ss ih =>
    have hw := walked_tierFrom hacyclic [] tiers s.id (fun v hv => nomatch hv) hs
    obtain ⟨hs', hkept, hfiled⟩ := ih hw.settled
    refine ⟨hs', hw.kept.trans hkept, fun s' hmem => ?_⟩
    rcases List.mem_cons.mp hmem with rfl | hmem
    · exact ⟨_, hkept _ _ hw.filed⟩
    · exact hfiled s' hmem

/-- **Derived tiers solve the tier equations.** -/
theorem settled_deriveTiers
    (hacyclic : ∀ a, ¬ Relation.TransGen (Derives (requirementMap scanned) pinned) a a) :
    Settled (requirementMap scanned) pinned (deriveTiers scanned pinned) :=
  (foldl_tierFrom hacyclic scanned settled_empty).1

theorem exists_tier_of_scanned
    (hacyclic : ∀ a, ¬ Relation.TransGen (Derives (requirementMap scanned) pinned) a a)
    {s : ScannedModule} (hs : s ∈ scanned) :
    ∃ t, (deriveTiers scanned pinned).get? s.id = some t :=
  (foldl_tierFrom hacyclic scanned settled_empty).2.2 s hs

end Scan

/-! ## 7. Without pins -/

variable {scanned : List ScannedModule} {pinned : NameMap Int}

/-- Where no pin is negative, no tier is. -/
theorem nonneg_of_get?_deriveTiers (hpin : ∀ id t, pinned.get? id = some t → 0 ≤ t)
    {id : Identity} {t : Int} (h : (deriveTiers scanned pinned).get? id = some t) : 0 ≤ t :=
  deriveTiers_forall ⟨Int.le_refl 0, hpin, fun _ ht => by omega⟩ id t h

/-- Numbers from 0 upwards that are told apart by members of a list are no more than the list has
    members. -/
theorem le_length_of_forall_lt {α : Type} {l : List α} {f : α → Nat} {n : Nat}
    (h : ∀ k < n, ∃ a ∈ l, f a = k) : n ≤ l.length := by
  have hsubset : List.range n ⊆ l.map f := by
    intro k hk
    obtain ⟨a, ha, hak⟩ := h k (List.mem_range.mp hk)
    exact List.mem_map.mpr ⟨a, ha, hak⟩
  have hle := (List.subperm_of_subset List.nodup_range hsubset).length_le
  rwa [List.length_range, List.length_map] at hle

section Unpinned

variable (hid : (scanned.map ScannedModule.id).Nodup) (hpin : ∀ id, pinned.get? id = none)
  (hacyclic : ∀ a, ¬ Relation.TransGen (Requires scanned) a a)
include hid hpin hacyclic

/-- Below a tier other than 0 there is a requirement with the next lower tier. -/
theorem exists_requires_of_tier {id : Identity} {n : Nat}
    (h : (deriveTiers scanned pinned).get? id = some ((n + 1 : Nat) : Int)) :
    ∃ d, Requires scanned id d ∧ (deriveTiers scanned pinned).get? d = some (n : Int) := by
  have he := settled_deriveTiers (not_transGen_derives hid hacyclic) id _ h
  generalize ht : ((n + 1 : Nat) : Int) = t at he
  cases he with
  | pinned hp =>
    rw [hpin] at hp
    cases hp
  | unscanned => omega
  | @derived required best hp hr hb =>
    cases best with
    | none =>
      rw [Option.getD_none] at ht
      omega
    | some b =>
      obtain ⟨_, d, hd, u, hu, hub⟩ := hb
      have hreq := (derives_iff hid).mp ⟨hp, required, hr, hd⟩
      have hun : u = (n : Int) := by
        rw [Option.getD_some] at ht
        omega
      exact ⟨d, hreq.2, hun ▸ hu⟩

theorem exists_lt_of_requires {a d : Identity} (h : Requires scanned a d) {t : Int}
    (ht : (deriveTiers scanned pinned).get? a = some t) :
    ∃ u, (deriveTiers scanned pinned).get? d = some u ∧ u < t :=
  (settled_deriveTiers (not_transGen_derives hid hacyclic) a t ht).exists_succ_le
    ((derives_iff hid).mpr ⟨hpin a, h⟩)

theorem le_of_requireChain {a : Identity} {n : Nat} (hc : RequireChain scanned a n) {t : Int}
    (ht : (deriveTiers scanned pinned).get? a = some t) : (n : Int) ≤ t := by
  induction hc generalizing t with
  | nil id =>
    refine nonneg_of_get?_deriveTiers (fun id u hu => ?_) ht
    rw [hpin] at hu
    cases hu
  | cons h _ ih =>
    obtain ⟨u, hu, hlt⟩ := exists_lt_of_requires hid hpin hacyclic h ht
    have hn := ih hu
    omega

theorem requireChain_of_tier {a : Identity} {n : Nat}
    (ht : (deriveTiers scanned pinned).get? a = some (n : Int)) : RequireChain scanned a n := by
  induction n generalizing a with
  | zero => exact .nil a
  | succ n ih =>
    obtain ⟨d, hreq, hd⟩ := exists_requires_of_tier hid hpin hacyclic ht
    exact .cons hreq (ih hd)

/-- **Without pins a tier is the number of requirements on the longest chain.** -/
theorem isGreatest_requireChain {a : Identity} {n : Nat}
    (ht : (deriveTiers scanned pinned).get? a = some (n : Int)) :
    IsGreatest {k | RequireChain scanned a k} n :=
  ⟨requireChain_of_tier hid hpin hacyclic ht, fun _ hk =>
    Int.ofNat_le.mp (le_of_requireChain hid hpin hacyclic hk ht)⟩

/-- From a tier down to 0, every tier is that of some scanned module. -/
theorem exists_mem_of_le
    (hresolved : ∀ a d, Requires scanned a d → d ∈ scanned.map ScannedModule.id) {a : Identity}
    {n k : Nat} (ha : a ∈ scanned.map ScannedModule.id)
    (ht : (deriveTiers scanned pinned).get? a = some (n : Int)) (hk : k ≤ n) :
    ∃ d ∈ scanned.map ScannedModule.id, (deriveTiers scanned pinned).get? d = some (k : Int) := by
  induction n generalizing a with
  | zero =>
    rw [Nat.le_zero.mp hk]
    exact ⟨a, ha, ht⟩
  | succ n ih =>
    rcases Nat.le_succ_iff.mp hk with hk | rfl
    · obtain ⟨d, hreq, hd⟩ := exists_requires_of_tier hid hpin hacyclic ht
      exact ih (hresolved a d hreq) hd hk
    · exact ⟨a, ha, ht⟩

/-- Tiers do not reach the number of scanned modules. -/
theorem lt_length_of_tier
    (hresolved : ∀ a d, Requires scanned a d → d ∈ scanned.map ScannedModule.id) {a : Identity}
    {n : Nat} (ha : a ∈ scanned.map ScannedModule.id)
    (ht : (deriveTiers scanned pinned).get? a = some (n : Int)) : n < scanned.length := by
  have hle : n + 1 ≤ (scanned.map ScannedModule.id).length :=
    le_length_of_forall_lt (f := fun d => (((deriveTiers scanned pinned).get? d).getD 0).toNat)
      fun k hk => by
        obtain ⟨d, hd, hdk⟩ := exists_mem_of_le hid hpin hacyclic hresolved ha ht
          (Nat.le_of_lt_succ hk)
        exact ⟨d, hd, by rw [hdk]; rfl⟩
  rwa [List.length_map] at hle

end Unpinned

end Isolation
