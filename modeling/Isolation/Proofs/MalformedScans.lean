import Isolation.Proofs.GroundedTiers
import Isolation.Proofs.Growth
import Isolation.Proofs.Manifests

/-!
# Tiers of malformed scans

A scan may be malformed in every way at once: requirements that run in circles, a module that
requires itself, an identity that is scanned twice, requirements of modules that are not there. What
stops the walk then is the set of OPEN identities alone, and identities leave that set again. So it
is not the set that the walk can be measured by; it is what the set holds during one call.

* `tierWithin`, `deriveWithin` -- the walk with its set of open identities as a part of its state,
  and with a limit to how deep calls may lie inside one another;
* **`tierWithin_eq`** -- as many calls as there are scanned identities that are not open, and one
  more, are deep enough, and each call leaves the set as it found it;
* `deriveWithin_eq` -- hence the walk over a whole scan comes to its end, with nothing left open;
* `le_size_occurring_of_tier` -- without pins, tiers do not exceed the number of identities;
* **`derived_tiers_of_any_scan`** -- all that is promised of a scan of which nothing is assumed.

NOT here: what the tiers are where requirements run in no circle. That negative tiers need negative
pins, or an overflow, is said with `Fits` of `Isolation.Proofs.TierOverflow`.
-/

namespace Isolation

/-! ## 1. The walk with its set of open identities -/

/-- Where the walk stands: the tiers filed so far, and the identities whose tiers are open. -/
structure Underway (τ : Type) where
  tiers : NameMap τ
  visiting : List Identity

section Calls

variable {τ : Type} [OfNat τ 0] [OfNat τ 1] [Add τ] [Max τ]

/-- One requirement looked at, when `call` derives tiers. -/
def examineWith (call : Underway τ → Identity → Option (τ × Underway τ))
    (acc : Option τ × Underway τ) (d : Identity) : Option (Option τ × Underway τ) :=
  (call acc.2 d).map fun t => (higher acc.1 (t.1 + 1), t.2)

/-- The tier of an identity, derived with calls that lie at most so deep inside one another; `none`
    where that is not deep enough. An identity is open while its requirements are looked at. -/
def tierWithin (requirements : NameMap (List Identity)) (pinned : NameMap τ) :
    Nat → Underway τ → Identity → Option (τ × Underway τ)
  | 0, _, _ => none
  | n + 1, s, id =>
    match (pinned.get? id).or (s.tiers.get? id) with
    | some tier => some (tier, { s with tiers := s.tiers.putNew id tier })
    | none =>
      if id ∈ s.visiting then some (0, s)
      else
        (((requirements.get? id).getD []).foldlM
          (examineWith (tierWithin requirements pinned n))
          (none, { s with visiting := id :: s.visiting })).map fun walked =>
            let tier := walked.1.getD 0
            (tier, ⟨walked.2.tiers.put id tier, walked.2.visiting.erase id⟩)

/-- The walk over a whole scan, with calls at most so deep. -/
def deriveWithin (n : Nat) (scanned : List ScannedModule) (pinned : NameMap τ) :
    Option (Underway τ) :=
  scanned.foldlM (fun s m => (tierWithin (requirementMap scanned) pinned n s m.id).map Prod.snd)
    ⟨Register.empty, []⟩

end Calls

/-! ## 2. The walk comes to its end -/

section Walk

variable {τ : Type} [OfNat τ 0] [OfNat τ 1] [Add τ] [Max τ]
variable {requirements : NameMap (List Identity)} {pinned : NameMap τ}

/-- Where every call ends and leaves open what it found open, requirements are looked at to the
    last. -/
theorem foldlM_examineWith {n : Nat} {visiting : List Identity}
    (hcall : ∀ tiers d, tierWithin requirements pinned n ⟨tiers, visiting⟩ d =
      some ((tierFrom requirements pinned visiting tiers d).1,
        ⟨(tierFrom requirements pinned visiting tiers d).2, visiting⟩))
    (required : List Identity) (best : Option τ) (tiers : NameMap τ) :
    required.foldlM (examineWith (tierWithin requirements pinned n)) (best, ⟨tiers, visiting⟩) =
      some ((required.foldl (examine requirements pinned visiting) (best, tiers)).1,
        ⟨(required.foldl (examine requirements pinned visiting) (best, tiers)).2, visiting⟩) := by
  induction required generalizing best tiers with
  | nil => rfl
  | cons d required ih =>
    have hfirst : examineWith (tierWithin requirements pinned n) (best, ⟨tiers, visiting⟩) d =
        some ((examine requirements pinned visiting (best, tiers) d).1,
          ⟨(examine requirements pinned visiting (best, tiers) d).2, visiting⟩) := by
      rw [examineWith, hcall]
      rfl
    rw [List.foldlM_cons, hfirst, List.foldl_cons]
    exact ih _ _

/-- **A call comes to its end** if it may go deeper than there are identities left to open, and then
    it leaves open what was open. -/
theorem tierWithin_eq (visiting : List Identity) (tiers : NameMap τ) (id : Identity) (n : Nat)
    (hn : remaining requirements.names visiting < n) :
    tierWithin requirements pinned n ⟨tiers, visiting⟩ id =
      some ((tierFrom requirements pinned visiting tiers id).1,
        ⟨(tierFrom requirements pinned visiting tiers id).2, visiting⟩) := by
  obtain ⟨n, rfl⟩ := Nat.exists_eq_add_one_of_ne_zero (Nat.ne_zero_of_lt hn)
  induction visiting, tiers, id using tierFrom.induct requirements pinned generalizing n with
  | case1 visiting tiers id t hk =>
    rw [tierWithin, hk, tierFrom_of_known hk]
  | case2 visiting tiers id hk hmem =>
    rw [tierWithin, hk, tierFrom_of_open hk hmem]
    exact if_pos hmem
  | case3 visiting tiers id hk hmem hr =>
    rw [tierWithin, hk, tierFrom_of_unscanned hk hmem hr, hr]
    refine (if_neg hmem).trans ?_
    show some ((0 : τ), (⟨tiers.put id 0, (id :: visiting).erase id⟩ : Underway τ)) = _
    rw [List.erase_cons_head]
  | case4 visiting tiers id hk hmem required hr ih =>
    -- to open `id` leaves one identity fewer to open
    have hscanned : id ∈ requirements.names := NameMap.mem_names_iff.mpr ⟨required, hr⟩
    have hfewer := remaining_cons_lt hscanned hmem
    have hdeep : remaining requirements.names (id :: visiting) < n := by omega
    obtain ⟨k, rfl⟩ := Nat.exists_eq_add_one_of_ne_zero (Nat.ne_zero_of_lt hdeep)
    have hwalked := foldlM_examineWith (fun tiers' d => ih (none, tiers') d k hdeep)
      required none tiers
    rw [tierWithin, hk, tierFrom_of_scanned hk hmem hr, hr, Option.getD_some]
    refine (if_neg hmem).trans ?_
    rw [hwalked, Option.map_some, List.erase_cons_head]

/-- At the start no identity is open. -/
theorem remaining_nil (ids : List Identity) : remaining ids [] = ids.length := by
  simp [remaining]

variable {scanned : List ScannedModule}

/-- **The walk over a scan comes to its end**, whatever was scanned, and leaves nothing open: calls
    do not lie deeper inside one another than there are scanned identities, and one more. -/
theorem deriveWithin_eq {n : Nat} (hn : (requirementMap scanned).size < n) :
    deriveWithin n scanned pinned = some ⟨deriveTiers scanned pinned, []⟩ := by
  have hdeep : remaining (requirementMap scanned).names [] < n := by
    rw [remaining_nil, Register.names, List.length_map]
    exact hn
  have key : ∀ (ss : List ScannedModule) (tiers : NameMap τ),
      ss.foldlM (fun s m =>
        (tierWithin (requirementMap scanned) pinned n s m.id).map Prod.snd) ⟨tiers, []⟩ =
      some ⟨ss.foldl (fun tiers s =>
        (tierFrom (requirementMap scanned) pinned [] tiers s.id).2) tiers, []⟩ := by
    intro ss
    induction ss with
    | nil => exact fun _ => rfl
    | cons s ss ih =>
      intro tiers
      rw [List.foldlM_cons, tierWithin_eq [] tiers s.id n hdeep, List.foldl_cons]
      exact ih _
  exact key scanned Register.empty

end Walk

/-! ## 3. How high tiers rise without pins -/

variable {scanned : List ScannedModule}

/-- The identities that occur in a scan, as those of modules or in requirements. -/
def occurring (scanned : List ScannedModule) : NameSet :=
  Register.ofList (scanned.flatMap fun s => s.id :: s.dependencyIds)

theorem mem_occurring_of_mem {s : ScannedModule} (hs : s ∈ scanned) : s.id ∈ occurring scanned :=
  NameSet.mem_ofList.mpr (List.mem_flatMap.mpr ⟨s, hs, List.mem_cons_self⟩)

/-- **Without pins no tier exceeds the number of identities**: the chain of derivations that leads
    to it meets a scanned module on every tier below it, down to 1. -/
theorem le_size_occurring_of_tier {pinned : NameMap Int} (hpin : ∀ id, pinned.get? id = none)
    {id : Identity} {t : Int} (h : (deriveTiers scanned pinned).get? id = some t) :
    t ≤ (occurring scanned).size := by
  obtain ⟨n, b, _, htb, hbetween⟩ := exists_derivationChain_of_tier id t h
  have htn : t = n := by
    rw [htb, hpin b, Option.getD_none, Int.zero_add]
  have hle : n ≤ (occurring scanned).toList.length :=
    le_length_of_forall_lt (f := fun d =>
      (t - ((deriveTiers scanned pinned).get? d).getD 0).toNat) fun k hk => by
        obtain ⟨s, hs, hst⟩ := hbetween k hk
        refine ⟨s.id, mem_occurring_of_mem hs, ?_⟩
        rw [hst, Option.getD_some]
        omega
  rw [htn]
  exact Int.ofNat_le.mpr hle

/-! ## 4. Any scan -/

section Pins

variable {pinned : NameMap Int64} {id : Identity} {t : Int64}

/-- Where nothing overflows and no pin is negative, no tier is. -/
theorem nonneg_of_fits (hfits : Fits scanned pinned)
    (hpin : ∀ id p, pinned.get? id = some p → 0 ≤ p.toInt)
    (ht : (deriveTiers scanned pinned).get? id = some t) : 0 ≤ t.toInt := by
  refine nonneg_of_get?_deriveTiers (fun id p hp => ?_) (hfits.get?_ints ht)
  obtain ⟨q, hq, rfl⟩ := NameMap.get?_ints_eq_some_iff.mp hp
  exact hpin id q hq

/-- Without pins the number of identities bounds the tiers in 64 bits as well: either nothing
    overflows, or there are more identities than tiers. -/
theorem toInt_le_size_occurring (hpin : ∀ id, pinned.get? id = none)
    (ht : (deriveTiers scanned pinned).get? id = some t) : t.toInt ≤ (occurring scanned).size := by
  have hnone : ∀ id, pinned.ints.get? id = none := fun id => by
    rw [NameMap.get?_ints, hpin, Option.map_none]
  have hlimit := t.toInt_lt
  by_cases hsize : (occurring scanned).size < 2 ^ 63
  · have hfits : Fits scanned pinned := fun id u hu => by
      have hle := le_size_occurring_of_tier hnone hu
      omega
    exact le_size_occurring_of_tier hnone (hfits.get?_ints ht)
  · omega

end Pins

/-- **Deriving tiers copes with every scan.** Nothing is assumed of the scanned modules, nor of the
    pins. The walk comes to its end, with no tier left open; every scanned module has a tier, and it
    is on this that its manifest lies; a pinned identity that has a tier has its pin; without
    negative pins no tier is negative, unless one overflows; and without pins none exceeds the
    number of identities that occur in the scan. -/
theorem derived_tiers_of_any_scan (scanned : List ScannedModule) (pinned : NameMap Int64) :
    (∀ n, (requirementMap scanned).size < n →
      deriveWithin n scanned pinned = some ⟨deriveTiers scanned pinned, []⟩) ∧
    (∀ s ∈ scanned, ∃ t, (deriveTiers scanned pinned).get? s.id = some t ∧
      ∀ c selected m, scannedManifest c (deriveTiers scanned pinned) selected s = .ok m →
        (m.tier : Int) = t.toInt) ∧
    (∀ id p t, pinned.get? id = some p → (deriveTiers scanned pinned).get? id = some t → t = p) ∧
    (Fits scanned pinned → (∀ id p, pinned.get? id = some p → 0 ≤ p.toInt) →
      ∀ id t, (deriveTiers scanned pinned).get? id = some t → 0 ≤ t.toInt) ∧
    ((∀ id, pinned.get? id = none) →
      ∀ id t, (deriveTiers scanned pinned).get? id = some t →
        t.toInt ≤ (occurring scanned).size) := by
  refine ⟨fun n hn => deriveWithin_eq hn, fun s hs => ?_,
    fun id p t hp ht => tier_eq_of_pinned ht hp,
    fun hfits hpin id t ht => nonneg_of_fits hfits hpin ht,
    fun hpin id t ht => toInt_le_size_occurring hpin ht⟩
  obtain ⟨t, ht⟩ : ∃ t, (deriveTiers scanned pinned).get? s.id = some t := exists_derived_tier hs
  refine ⟨t, ht, fun c selected m hm => ?_⟩
  rw [scannedManifest, ht, Option.getD_some] at hm
  exact (Declaration.makes_of_toModule hm).tier_eq

/-- A scan with everything amiss: a circle of three, one that requires itself, one scanned twice,
    and a requirement of a module that is not there. -/
def tangledScan : List ScannedModule :=
  let required := fun ids : List Identity =>
    ids.map fun id => (⟨id, ⟨"v1.0.0"⟩, false⟩ : ScannedRequirement)
  [⟨"a", "a", required ["b"]⟩, ⟨"b", "b", required ["c", "b"]⟩, ⟨"c", "c", required ["a", "far"]⟩,
    ⟨"a", "again", required ["c"]⟩]

/-- A pin for one module of the circle. -/
def circlePin : NameMap Int64 := NameMap.put Register.empty "b" 5

/-- The pin leaves room for the four modules. -/
theorem fits_tangledScan : Fits tangledScan circlePin := by
  refine fits_of_room (by decide) fun b p hp => ?_
  rw [circlePin, NameMap.get?_put] at hp
  split at hp
  · cases hp
    decide
  · cases hp

/-- Four identities occur in it, so tiers do not exceed 4 without pins; a pinned module lies on its
    pin, and no tier is negative then. -/
theorem derived_tiers_of_tangled_scan :
    deriveWithin 4 tangledScan circlePin = some ⟨deriveTiers tangledScan circlePin, []⟩ ∧
      (∃ t : Int64, (deriveTiers tangledScan Register.empty).get? "a" = some t ∧ t.toInt ≤ 4) ∧
      (deriveTiers tangledScan circlePin).get? "b" = some 5 ∧
      Fits tangledScan circlePin ∧
      ∀ id t, (deriveTiers tangledScan circlePin).get? id = some t → 0 ≤ t.toInt := by
  have hnopin : ∀ id, NameMap.get? (Register.empty : NameMap Int64) id = none := NameMap.get?_empty
  have hpin : ∀ id p, circlePin.get? id = some p → 0 ≤ p.toInt := by
    intro id p hp
    rw [circlePin, NameMap.get?_put] at hp
    split at hp
    · cases hp
      decide
    · cases hp
  obtain ⟨_, hfiled, _, _, hbound⟩ := derived_tiers_of_any_scan tangledScan Register.empty
  obtain ⟨hends, hfiled', hpinned, hnonneg, _⟩ := derived_tiers_of_any_scan tangledScan circlePin
  obtain ⟨t, ht, _⟩ := hfiled ⟨"a", "a", [⟨"b", ⟨"v1.0.0"⟩, false⟩]⟩ (by decide)
  obtain ⟨u, hu, _⟩ := hfiled' ⟨"b", "b", [⟨"c", ⟨"v1.0.0"⟩, false⟩, ⟨"b", ⟨"v1.0.0"⟩, false⟩]⟩
    (by decide)
  have hfive : u = 5 := hpinned "b" 5 u (by decide) hu
  have hsize : (occurring tangledScan).size = 4 := by decide
  refine ⟨hends 4 (by decide), ⟨t, ht, ?_⟩, hfive ▸ hu, fits_tangledScan,
    hnonneg fits_tangledScan hpin⟩
  have hle := hbound hnopin "a" t ht
  rw [hsize] at hle
  exact hle

end Isolation
