import Isolation.Proofs.DerivedTiers
import Mathlib.Data.Set.Finite.Lattice
import Mathlib.Data.Set.Finite.List

/-!
# Derived tiers of any scan

A scan may be malformed: requirements may run in circles, and an identity may be scanned twice. The
walk that derives tiers comes to its end all the same, and this file fixes what it leaves behind.
The tiers need not solve the tier equations then, since the 0 of a tier that was still open may be
among what they were derived from. But every one of them RESTS ON something: on a pin, on nothing,
on such an open tier, or on a tier that was filed one lower.

* `RestsOn`, `Standing` -- what a tier rests on, and what holds of the tiers between two calls;
* `Examined`, `Examined.foldl` -- what holds while the requirements of one identity are looked at;
* **`explored_tierFrom`** -- one call files tiers that rest on something, loses none, leaves open
  what was open, and files its own answer unless that was open;
* `restsOn_of_tier`, `exists_derived_tier`, `asked_of_tier`, `tier_eq_of_pinned` -- so every scanned
  module has a tier, a pinned one its pin, and nothing has a tier that was not asked for;
* `NameMap.induction_below` -- a finite map has a lowest tier, so tiers admit an induction upwards;
* **`exists_derivationChain`** -- every tier is a pin, or 0, raised by one in each step of a chain
  of derivations, which is no longer than there are scanned modules.

NOT here: that the tiers are solutions where no chain of derivations returns to its start.
-/

namespace Isolation

/-! ## 1. What a tier rests on -/

section Walk

variable {τ : Type} [OfNat τ 0] [OfNat τ 1] [Add τ]
variable (requirements : NameMap (List Identity)) (pinned : NameMap τ)

/-- What the tier of an identity has been derived from. -/
inductive RestsOn (tiers : NameMap τ) (id : Identity) : τ → Prop where
  | pin {t : τ} (h : pinned.get? id = some t) : RestsOn tiers id t
  /-- It was not scanned, or it requires nothing. -/
  | nothing (h : pinned.get? id = none) : RestsOn tiers id 0
  /-- The tier of `d` was open, and counted as 0. -/
  | openTier {d : Identity} (h : Derives requirements pinned id d) (hd : pinned.get? d = none) :
    RestsOn tiers id (0 + 1)
  | tier {d : Identity} {t : τ} (h : Derives requirements pinned id d)
    (hd : tiers.get? d = some t) : RestsOn tiers id (t + 1)

/-- What holds of the tiers before a call and after it: each rests on something and was ASKED for,
    and those that are open are neither pinned nor filed. -/
structure Standing (Asked : Identity → Prop) (visiting : List Identity) (tiers : NameMap τ) :
    Prop where
  rests : ∀ n t, tiers.get? n = some t → RestsOn requirements pinned tiers n t
  asked : ∀ n t, tiers.get? n = some t → Asked n
  opened : ∀ v ∈ visiting, (pinned.get? v).or (tiers.get? v) = none

/-- What one call leaves behind: the tiers stand, none is lost, and the answer is filed, unless the
    tier that was asked for was open. -/
structure Explored (Asked : Identity → Prop) (visiting : List Identity) (tiers : NameMap τ)
    (id : Identity) (r : τ × NameMap τ) : Prop where
  standing : Standing requirements pinned Asked visiting r.2
  kept : NameMap.Extends tiers r.2
  answer : r.2.get? id = some r.1 ∨ id ∈ visiting ∧ pinned.get? id = none ∧ r.1 = 0

/-- What holds while the requirements of `id` are looked at: the tiers stand with `id` open, none is
    lost, and the best candidate rests on something. -/
structure Examined (Asked : Identity → Prop) (visiting : List Identity) (tiers : NameMap τ)
    (id : Identity) (acc : Option τ × NameMap τ) : Prop where
  standing : Standing requirements pinned Asked (id :: visiting) acc.2
  kept : NameMap.Extends tiers acc.2
  best : ∀ b ∈ acc.1, RestsOn requirements pinned acc.2 id b

variable {requirements pinned} {Asked : Identity → Prop} {visiting : List Identity}
  {tiers : NameMap τ} {id : Identity}

theorem RestsOn.mono {tiers' : NameMap τ} (h : NameMap.Extends tiers tiers') {t : τ}
    (hr : RestsOn requirements pinned tiers id t) : RestsOn requirements pinned tiers' id t := by
  cases hr with
  | pin hp => exact .pin hp
  | nothing hp => exact .nothing hp
  | openTier hd hp => exact .openTier hd hp
  | tier hd ht => exact .tier hd (h _ _ ht)

/-- A tier that is pinned rests on its pin. -/
theorem RestsOn.eq_of_pinned {t p : τ} (hr : RestsOn requirements pinned tiers id t)
    (hp : pinned.get? id = some p) : t = p := by
  cases hr with
  | pin hp' => exact Option.some.inj (hp'.symm.trans hp)
  | nothing hp' => exact nomatch hp.symm.trans hp'
  | openTier hd => exact nomatch hp.symm.trans hd.1
  | tier hd => exact nomatch hp.symm.trans hd.1

/-- What was answered to a requirement lies one below a tier that rests on it. -/
theorem Explored.restsOn {a d : Identity} {r : τ × NameMap τ}
    (h : Explored requirements pinned Asked visiting tiers d r)
    (hd : Derives requirements pinned a d) : RestsOn requirements pinned r.2 a (r.1 + 1) := by
  rcases h.answer with hfiled | ⟨_, hp, hzero⟩
  · exact .tier hd hfiled
  · rw [hzero]
    exact .openTier hd hp

theorem standing_empty : Standing requirements pinned Asked [] Register.empty where
  rests _ _ h := nomatch h
  asked _ _ h := nomatch h
  opened _ h := nomatch h

/-- To file a tier that rests on something is to lose nothing and to stay standing. -/
theorem Standing.explored (hs : Standing requirements pinned Asked visiting tiers) (hid : Asked id)
    (hv : id ∉ visiting) {t : τ} (hr : RestsOn requirements pinned tiers id t)
    (hsame : ∀ u, tiers.get? id = some u → u = t) {filed : NameMap τ}
    (hf : ∀ n, filed.get? n = if id = n then some t else tiers.get? n) :
    Explored requirements pinned Asked visiting tiers id (t, filed) := by
  have hkept : NameMap.Extends tiers filed := by
    intro n u hu
    rw [hf]
    split
    · rename_i hn
      rw [hsame u (hn ▸ hu)]
    · exact hu
  refine ⟨⟨fun n u hu => ?_, fun n u hu => ?_, fun v hmem => ?_⟩, hkept, Or.inl ?_⟩
  · rw [hf] at hu
    split at hu
    · rename_i hn
      cases hu
      exact hn ▸ hr.mono hkept
    · exact (hs.rests n u hu).mono hkept
  · rw [hf] at hu
    split at hu
    · rename_i hn
      exact hn ▸ hid
    · exact hs.asked n u hu
  · rw [hf, if_neg fun e : id = v => hv (e ▸ hmem)]
    exact hs.opened v hmem
  · rw [hf, if_pos rfl]

/-- So it is with an identity that has no tier yet. -/
theorem Standing.explored_of_new (hs : Standing requirements pinned Asked visiting tiers)
    (hid : Asked id) (hv : id ∉ visiting) {t : τ} (hr : RestsOn requirements pinned tiers id t)
    (hnew : tiers.get? id = none) :
    Explored requirements pinned Asked visiting tiers id (t, tiers.put id t) :=
  hs.explored hid hv hr (fun u hu => absurd (hu.symm.trans hnew) (Option.some_ne_none u))
    fun n => NameMap.get?_put tiers id n t

/-! ## 2. One call -/

/-- Before the requirements are looked at, nothing is lost and there is no candidate. -/
theorem Standing.examined (hs : Standing requirements pinned Asked visiting tiers)
    (hk : (pinned.get? id).or (tiers.get? id) = none) :
    Examined requirements pinned Asked visiting tiers id (none, tiers) := by
  refine ⟨⟨hs.rests, hs.asked, fun v hv => ?_⟩, .refl tiers,
    fun b hb => absurd hb (Option.not_mem_none b)⟩
  rcases List.mem_cons.mp hv with rfl | hv
  · exact hk
  · exact hs.opened v hv

/-- With all requirements looked at, the best candidate is filed. -/
theorem Examined.explored {acc : Option τ × NameMap τ}
    (h : Examined requirements pinned Asked visiting tiers id acc) (hid : Asked id)
    (hv : id ∉ visiting) (hp : pinned.get? id = none) :
    Explored requirements pinned Asked visiting tiers id
      (acc.1.getD 0, acc.2.put id (acc.1.getD 0)) := by
  have hnew := (Option.or_eq_none_iff.mp (h.standing.opened id List.mem_cons_self)).2
  have hrests : RestsOn requirements pinned acc.2 id (acc.1.getD 0) := by
    cases hbest : acc.1 with
    | none => exact .nothing hp
    | some b => exact h.best b hbest
  have hclosed : Standing requirements pinned Asked visiting acc.2 :=
    ⟨h.standing.rests, h.standing.asked, fun v hmem =>
      h.standing.opened v (List.mem_cons_of_mem _ hmem)⟩
  have hcall := hclosed.explored_of_new hid hv hrests hnew
  exact ⟨hcall.standing, h.kept.trans hcall.kept, hcall.answer⟩

variable [Max τ] [Std.MaxEqOr τ]

/-- One more requirement is looked at. -/
theorem Examined.examine {acc : Option τ × NameMap τ} {d : Identity}
    (h : Examined requirements pinned Asked visiting tiers id acc)
    (hd : Derives requirements pinned id d)
    (hcall : Explored requirements pinned Asked (id :: visiting) acc.2 d
      (tierFrom requirements pinned (id :: visiting) acc.2 d)) :
    Examined requirements pinned Asked visiting tiers id
      (examine requirements pinned (id :: visiting) acc d) := by
  refine ⟨hcall.standing, h.kept.trans hcall.kept, fun b hb => ?_⟩
  rcases higher_cases acc.1
    ((tierFrom requirements pinned (id :: visiting) acc.2 d).1 + 1) with e | ⟨b', hb', e⟩
  · cases e.symm.trans hb
    exact hcall.restsOn hd
  · cases e.symm.trans hb
    exact (h.best b hb').mono hcall.kept

/-- So it is with all of them, if every call does what it should. -/
theorem Examined.foldl {ds : List Identity} (hd : ∀ d ∈ ds, Derives requirements pinned id d)
    (hcall : ∀ tiers, ∀ d ∈ ds, Standing requirements pinned Asked (id :: visiting) tiers →
      Explored requirements pinned Asked (id :: visiting) tiers d
        (tierFrom requirements pinned (id :: visiting) tiers d))
    {acc : Option τ × NameMap τ} (h : Examined requirements pinned Asked visiting tiers id acc) :
    Examined requirements pinned Asked visiting tiers id
      (ds.foldl (Isolation.examine requirements pinned (id :: visiting)) acc) :=
  List.foldlRecOn ds _ h fun acc hacc d hmem =>
    hacc.examine (hd d hmem) (hcall acc.2 d hmem hacc.standing)

/-- **One call leaves tiers that rest on something**, whatever the requirements are. -/
theorem explored_tierFrom (hasked : ∀ a d, Derives requirements pinned a d → Asked d)
    (visiting : List Identity) (tiers : NameMap τ) (id : Identity) (hid : Asked id)
    (hs : Standing requirements pinned Asked visiting tiers) :
    Explored requirements pinned Asked visiting tiers id
      (tierFrom requirements pinned visiting tiers id) := by
  induction visiting, tiers, id using tierFrom.induct requirements pinned with
  | case1 visiting tiers id t hk =>
    have hv : id ∉ visiting := fun hmem =>
      Option.some_ne_none t (hk.symm.trans (hs.opened id hmem))
    have hrests : RestsOn requirements pinned tiers id t := by
      rcases Option.or_eq_some_iff.mp hk with hp | ⟨_, ht⟩
      · exact .pin hp
      · exact hs.rests id t ht
    have hsame : ∀ u, tiers.get? id = some u → u = t := by
      intro u hu
      rcases Option.or_eq_some_iff.mp hk with hp | ⟨_, ht⟩
      · exact (hs.rests id u hu).eq_of_pinned hp
      · exact Option.some.inj (hu.symm.trans ht)
    rw [tierFrom_of_known hk]
    refine hs.explored hid hv hrests hsame fun n => ?_
    rw [NameMap.get?_putNew]
    cases hu : tiers.get? id with
    | none => rfl
    | some u => rw [Option.getD_some, hsame u hu]
  | case2 visiting tiers id hk hmem =>
    rw [tierFrom_of_open hk hmem]
    exact ⟨hs, .refl tiers, Or.inr ⟨hmem, (Option.or_eq_none_iff.mp hk).1, rfl⟩⟩
  | case3 visiting tiers id hk hmem hr =>
    obtain ⟨hp, hnew⟩ := Option.or_eq_none_iff.mp hk
    rw [tierFrom_of_unscanned hk hmem hr]
    exact hs.explored_of_new hid hmem (.nothing hp) hnew
  | case4 visiting tiers id hk hmem required hr ih =>
    have hp : pinned.get? id = none := (Option.or_eq_none_iff.mp hk).1
    have hedge : ∀ d ∈ required, Derives requirements pinned id d :=
      fun d hd => ⟨hp, required, hr, hd⟩
    have hexamined : Examined requirements pinned Asked visiting tiers id
        (required.foldl (examine requirements pinned (id :: visiting)) (none, tiers)) :=
      (hs.examined hk).foldl hedge fun tiers' d hd hs' =>
        ih (none, tiers') d (hasked id d (hedge d hd)) hs'
    rw [tierFrom_of_scanned hk hmem hr]
    exact hexamined.explored hid hmem hp

end Walk

/-! ## 3. A whole scan -/

section Scan

variable {τ : Type} {scanned : List ScannedModule} {pinned : NameMap τ}

/-- What is derived from a requirement is derived from one that was scanned. -/
theorem Derives.requires {a d : Identity} (h : Derives (requirementMap scanned) pinned a d) :
    Requires scanned a d := by
  obtain ⟨_, required, hr, hd⟩ := h
  rw [requirementMap_eq, NameMap.get?_eq_some_iff] at hr
  obtain ⟨s, hs, hsa⟩ := List.mem_map.mp (Register.mem_of_mem_ofList hr)
  cases hsa
  exact ⟨s, hs, rfl, hd⟩

variable [OfNat τ 0] [OfNat τ 1] [Add τ] [Max τ] [Std.MaxEqOr τ]

/-- The tiers after some of the scanned modules were walked stand, and each of these has one. -/
theorem standing_foldl_tierFrom {requirements : NameMap (List Identity)}
    {Asked : Identity → Prop} (hasked : ∀ a d, Derives requirements pinned a d → Asked d)
    (ss : List ScannedModule) (hss : ∀ s ∈ ss, Asked s.id) {tiers : NameMap τ}
    (hs : Standing requirements pinned Asked [] tiers) :
    let derived := ss.foldl (fun tiers s => (tierFrom requirements pinned [] tiers s.id).2) tiers
    Standing requirements pinned Asked [] derived ∧ NameMap.Extends tiers derived ∧
      ∀ s ∈ ss, ∃ t, derived.get? s.id = some t := by
  induction ss generalizing tiers with
  | nil => exact ⟨hs, .refl tiers, fun s hmem => nomatch hmem⟩
  | cons s ss ih =>
    have hcall := explored_tierFrom hasked [] tiers s.id (hss s List.mem_cons_self) hs
    obtain ⟨hs', hkept, hfiled⟩ := ih (fun s' hs' => hss s' (List.mem_cons_of_mem _ hs'))
      hcall.standing
    refine ⟨hs', hcall.kept.trans hkept, fun s' hmem => ?_⟩
    rcases List.mem_cons.mp hmem with rfl | hmem
    · rcases hcall.answer with hanswer | ⟨hopen, _⟩
      · exact ⟨_, hkept _ _ hanswer⟩
      · exact nomatch hopen
    · exact hfiled s' hmem

/-- What a scan asks the tier of: its modules, and what a tier is derived from. -/
def AskedIn (scanned : List ScannedModule) (pinned : NameMap τ) (id : Identity) : Prop :=
  id ∈ scanned.map ScannedModule.id ∨ ∃ a, Derives (requirementMap scanned) pinned a id

theorem standing_deriveTiers :
    Standing (requirementMap scanned) pinned (AskedIn scanned pinned) []
      (deriveTiers scanned pinned) ∧
    ∀ s ∈ scanned, ∃ t, (deriveTiers scanned pinned).get? s.id = some t := by
  have hasked : ∀ a d, Derives (requirementMap scanned) pinned a d → AskedIn scanned pinned d :=
    fun a _ h => Or.inr ⟨a, h⟩
  have hscanned : ∀ s ∈ scanned, AskedIn scanned pinned s.id :=
    fun _ hs => Or.inl (List.mem_map_of_mem hs)
  obtain ⟨hs, _, hfiled⟩ := standing_foldl_tierFrom hasked scanned hscanned standing_empty
  exact ⟨hs, hfiled⟩

section Derived

variable {id : Identity} {t : τ}

/-- **Every derived tier rests on something.** -/
theorem restsOn_of_tier (h : (deriveTiers scanned pinned).get? id = some t) :
    RestsOn (requirementMap scanned) pinned (deriveTiers scanned pinned) id t :=
  standing_deriveTiers.1.rests id t h

/-- **Every scanned module has a tier.** -/
theorem exists_derived_tier {s : ScannedModule} (hs : s ∈ scanned) :
    ∃ t, (deriveTiers scanned pinned).get? s.id = some t := standing_deriveTiers.2 s hs

/-- **Nothing has a tier but what was asked for.** -/
theorem asked_of_tier (h : (deriveTiers scanned pinned).get? id = some t) :
    AskedIn scanned pinned id := standing_deriveTiers.1.asked id t h

/-- **What is pinned has its pin for a tier.** -/
theorem tier_eq_of_pinned {p : τ} (h : (deriveTiers scanned pinned).get? id = some t)
    (hp : pinned.get? id = some p) : t = p := (restsOn_of_tier h).eq_of_pinned hp

end Derived

end Scan

/-! ## 4. Chains of derivations -/

variable {scanned : List ScannedModule} {pinned : NameMap Int}

/-- The tiers of a map can be gone through from the lowest one upwards. -/
theorem NameMap.induction_below {m : NameMap Int} {P : Identity → Int → Prop}
    (h : ∀ n t, m.get? n = some t → (∀ d u, m.get? d = some u → u < t → P d u) → P n t) :
    ∀ n t, m.get? n = some t → P n t := by
  obtain ⟨low, hlow⟩ := (m.toList.map Prod.snd).finite_toSet.bddBelow
  have hle : ∀ n t, m.get? n = some t → low ≤ t := fun n t ht =>
    hlow (List.mem_map.mpr ⟨(n, t), NameMap.get?_eq_some_iff.mp ht, rfl⟩)
  intro n t
  induction hk : (t - low).toNat using Nat.strong_induction_on generalizing n t with
  | _ k ih =>
    intro ht
    refine h n t ht fun d u hu hlt => ih (u - low).toNat ?_ d u rfl hu
    have hd := hle d u hu
    omega

/-- A chain of `n` derivations leads from one identity to another. -/
inductive DerivationChain {τ : Type} (requirements : NameMap (List Identity))
    (pinned : NameMap τ) : Identity → Nat → Identity → Prop where
  | nil (id : Identity) : DerivationChain requirements pinned id 0 id
  | cons {a d b : Identity} {n : Nat} (h : Derives requirements pinned a d)
    (hc : DerivationChain requirements pinned d n b) :
    DerivationChain requirements pinned a (n + 1) b

/-- A tier is where a chain of derivations ends, raised by one in each of its steps, and all that
    lies between are tiers of scanned modules. -/
theorem exists_derivationChain_of_tier : ∀ id t, (deriveTiers scanned pinned).get? id = some t →
    ∃ n b, DerivationChain (requirementMap scanned) pinned id n b ∧
      t = (pinned.get? b).getD 0 + n ∧
      ∀ k < n, ∃ s ∈ scanned, (deriveTiers scanned pinned).get? s.id = some (t - k) := by
  refine NameMap.induction_below fun id t ht ih => ?_
  have hsource : ∀ {d}, Derives (requirementMap scanned) pinned id d →
      ∃ s ∈ scanned, (deriveTiers scanned pinned).get? s.id = some t := by
    intro d hd
    obtain ⟨s, hs, hid, _⟩ := hd.requires
    exact ⟨s, hs, hid ▸ ht⟩
  cases restsOn_of_tier ht with
  | pin hp =>
    refine ⟨0, id, .nil id, ?_, fun k hk => absurd hk (Nat.not_lt_zero k)⟩
    rw [hp, Option.getD_some, Int.natCast_zero, Int.add_zero]
  | nothing hp =>
    refine ⟨0, id, .nil id, ?_, fun k hk => absurd hk (Nat.not_lt_zero k)⟩
    rw [hp]
    rfl
  | @openTier d hd hp =>
    refine ⟨1, d, .cons hd (.nil d), ?_, fun k hk => ?_⟩
    · rw [hp]
      rfl
    · obtain ⟨s, hs, hst⟩ := hsource hd
      refine ⟨s, hs, ?_⟩
      rw [hst, Nat.lt_one_iff.mp hk, Int.natCast_zero, Int.sub_zero]
  | @tier d u hd hu =>
    obtain ⟨n, b, hc, hub, hbetween⟩ := ih d u hu (Int.lt_succ u)
    refine ⟨n + 1, b, .cons hd hc, by omega, fun k hk => ?_⟩
    cases k with
    | zero =>
      obtain ⟨s, hs, hst⟩ := hsource hd
      refine ⟨s, hs, ?_⟩
      rw [hst, Int.natCast_zero, Int.sub_zero]
    | succ k =>
      obtain ⟨s, hs, hst⟩ := hbetween k (Nat.lt_of_succ_lt_succ hk)
      refine ⟨s, hs, hst.trans (congrArg some ?_)⟩
      omega

/-- **Every derived tier is a pin, or 0, raised by one in each step of a chain of derivations** that
    is no longer than there are scanned modules. -/
theorem exists_derivationChain {id : Identity} {t : Int}
    (h : (deriveTiers scanned pinned).get? id = some t) :
    ∃ n b, n ≤ scanned.length ∧ DerivationChain (requirementMap scanned) pinned id n b ∧
      t = (pinned.get? b).getD 0 + n := by
  obtain ⟨n, b, hc, htb, hbetween⟩ := exists_derivationChain_of_tier id t h
  refine ⟨n, b, ?_, hc, htb⟩
  refine le_length_of_forall_lt (f := fun s : ScannedModule =>
    (t - ((deriveTiers scanned pinned).get? s.id).getD 0).toNat) fun k hk => ?_
  obtain ⟨s, hs, hst⟩ := hbetween k hk
  refine ⟨s, hs, ?_⟩
  rw [hst, Option.getD_some]
  omega

end Isolation
