import Isolation.Proofs.MergedModules

/-!
# Tiers out of range

A tier is checked where a module is made, and by then it may have been derived. A pin that no module
can have is handed on to all that lies above it, raised by one in each step, and the first module in
the scan with such a tier is refused, whether the tier was declared for it or not. This file fixes
where a refused tier comes from.

* `WrongTier` -- the tier was declared, or inherited from a declared one, or there are as many
  modules as there are tiers;
* `wrongTier_of_merged` -- what is wrong with the tier of a scanned module that is refused for it;
* **`refused_tier_is_declared_or_inherited`** -- no tier is refused but a wrong one, and none at all
  where every declared tier leaves room for the scanned modules above it;
* `undeclared_tier_is_refused` -- the inherited tiers are refused indeed.
-/

namespace Isolation

/-- No module can have the tier. -/
def OutOfRange (t : Int) : Prop := t < 0 ∨ tierLimit ≤ t

/-! ## 1. Which module is refused for its tier -/

section Refusal

variable {id id' : Identity} {t : Int}

theorem Module.dependencyDefect?_cases {ds : List Identity} {defect : Defect}
    (h : dependencyDefect? id ds = some defect) :
    defect = .blankDependency ∨ defect = .selfDependency := by
  induction ds with
  | nil => cases h
  | cons d ds ih =>
    rw [dependencyDefect?] at h
    split at h
    · cases h
      exact Or.inl rfl
    · split at h
      · cases h
        exact Or.inr rfl
      · exact ih h

theorem Module.tierOutOfRange_of_declare {tier : Int} {dependencies : List Identity}
    {version : Option Version}
    (h : declare id tier dependencies version = .error (.invalidManifest id' (.tierOutOfRange t))) :
    id' = id ∧ tier = t ∧ OutOfRange t := by
  unfold declare at h
  split at h
  · cases h
  · split at h
    · split at h
      · rename_i hdefect
        cases h
        rcases dependencyDefect?_cases hdefect with e | e <;> cases e
      · cases h
    · rename_i hrange
      cases h
      refine ⟨rfl, rfl, ?_⟩
      rcases Int.lt_or_le t 0 with hneg | hnonneg
      · exact Or.inl hneg
      · exact Or.inr (Int.not_lt.mp fun hlt => hrange ⟨hnonneg, hlt⟩)

/-- The resolution key, which is checked last, has no part in it. -/
theorem Declaration.tierOutOfRange_of_toModule {d : Declaration} {tier : Int64}
    (h : d.toModule id tier = .error (.invalidManifest id' (.tierOutOfRange t))) :
    id' = id ∧ tier.toInt = t ∧ OutOfRange t := by
  rcases bind_eq_error_iff.mp h with h | ⟨m, _, h⟩
  · exact Module.tierOutOfRange_of_declare h
  · cases hkey : d.key with
    | none =>
      rw [hkey] at h
      cases h
    | some key =>
      rw [hkey] at h
      change m.withKey key = _ at h
      unfold Module.withKey at h
      split at h <;> cases h

theorem Declaration.toModule_of_outOfRange (d : Declaration) (hn : Text.isBlankText id = false)
    {tier : Int64} (h : OutOfRange tier.toInt) :
    d.toModule id tier = .error (.invalidManifest id (.tierOutOfRange tier.toInt)) := by
  have hrange : ¬ (0 ≤ tier.toInt ∧ tier.toInt < tierLimit) := by
    unfold OutOfRange at h
    omega
  rw [toModule, Module.declare, dif_neg (by simp [hn]), dif_neg hrange]
  rfl

theorem Config.tierOutOfRange_of_declaredModule {missing : Defect} {d : Declaration}
    (h : declaredModule missing id d = .error (.invalidManifest id' (.tierOutOfRange t)))
    (hmissing : missing ≠ .tierOutOfRange t) :
    id' = id ∧ ∃ tier, d.tier = some tier ∧ tier.toInt = t ∧ OutOfRange t := by
  unfold declaredModule at h
  split at h
  · rename_i tier ht
    obtain ⟨hid, htier, hrange⟩ := Declaration.tierOutOfRange_of_toModule h
    exact ⟨hid, tier, ht, htier, hrange⟩
  · injection h with h
    injection h with _ h
    exact absurd h hmissing

end Refusal

/-! ## 2. Where its tier comes from -/

section Wrong

variable (c : Config) (scanned : List ScannedModule)

/-- How a tier that no module can have became the tier of `id`. -/
inductive WrongTier (id : Identity) : Int → Prop where
  | declared {t : Int64} (h : (c.modules.get? id).bind Declaration.tier = some t)
    (hr : OutOfRange t.toInt) : WrongTier id t.toInt
  /-- `id` was scanned and has no tier of its own; that of `b`, which is declared, reached it in `n`
      steps. -/
  | inherited {b : Identity} {p : Int64} {n : Nat} (hs : id ∈ scanned.map ScannedModule.id)
    (hu : (c.modules.get? id).bind Declaration.tier = none)
    (hb : (c.modules.get? b).bind Declaration.tier = some p)
    (hc : DerivationChain (requirementMap scanned) c.pinnedTiers id n b)
    (hn : n ≤ scanned.length) (hr : OutOfRange (p.toInt + n)) : WrongTier id (p.toInt + n)
  /-- There are more modules above one another than there are tiers. -/
  | counted {b : Identity} {n : Nat} (hs : id ∈ scanned.map ScannedModule.id)
    (hu : (c.modules.get? id).bind Declaration.tier = none)
    (hb : (c.modules.get? b).bind Declaration.tier = none)
    (hc : DerivationChain (requirementMap scanned) c.pinnedTiers id n b)
    (hn : n ≤ scanned.length) (hr : tierLimit ≤ n) : WrongTier id n

variable {c scanned} {id : Identity}

theorem WrongTier.outOfRange {t : Int} (h : WrongTier c scanned id t) : OutOfRange t := by
  cases h with
  | declared _ hr => exact hr
  | inherited _ _ _ _ _ hr => exact hr
  | counted _ _ _ _ _ hr => exact Or.inr (Int.ofNat_le.mpr hr)

/-- A declaration that holds a tier out of range is at fault for itself. -/
theorem wrongTier_of_mem {p : Identity × Declaration} (hp : p ∈ c.modules) {t : Int64}
    (ht : p.2.tier = some t) (hr : OutOfRange t.toInt) : WrongTier c scanned p.1 t.toInt := by
  refine .declared ?_ hr
  rw [NameMap.get?_eq_some_iff.mpr hp]
  exact ht

/-- A merged declaration that holds a tier out of range has it from the configuration, directly or
    along a chain of derivations. -/
theorem wrongTier_of_merged (hfits : Fits scanned c.pinnedTiers) {s : ScannedModule}
    (hs : s ∈ scanned) {t : Int64} (ht : (mergedDeclaration c scanned s).tier = some t)
    (hr : OutOfRange t.toInt) : WrongTier c scanned s.id t.toInt := by
  have hderived : (deriveTiers scanned c.pinnedTiers).get? s.id = some t := ht
  have hmem : s.id ∈ scanned.map ScannedModule.id := List.mem_map_of_mem hs
  cases hu : (c.modules.get? s.id).bind Declaration.tier with
  | some p =>
    rw [tier_eq_of_pinned hderived ((c.get?_pinnedTiers_eq s.id).trans hu)] at hr ⊢
    exact .declared hu hr
  | none =>
    obtain ⟨n, b, hn, hc, htb⟩ := hfits.exists_derivationChain hderived
    rw [htb, c.get?_pinnedTiers_eq] at hr ⊢
    cases hb : (c.modules.get? b).bind Declaration.tier with
    | some p =>
      rw [hb] at hr
      exact .inherited hmem hu hb hc hn hr
    | none =>
      rw [hb, Option.map_none, Option.getD_none, Int.zero_add] at hr
      rw [Option.map_none, Option.getD_none, Int.zero_add]
      refine .counted hmem hu hb hc hn ?_
      rcases hr with hneg | hlimit
      · exact absurd (Int.natCast_nonneg n) (Int.not_le.mpr hneg)
      · exact Int.ofNat_le.mp hlimit

/-- **What is refused for its tier has a wrong one**, if nothing overflows. -/
theorem wrongTier_of_manifests (hfits : Fits scanned c.pinnedTiers) {t : Int}
    (h : manifests c scanned = .error (.invalidManifest id (.tierOutOfRange t))) :
    WrongTier c scanned id t := by
  by_cases hne : scanned = []
  · subst hne
    rw [manifests_nil] at h
    obtain ⟨p, hp, hf⟩ := exists_of_mapM_eq_error h
    obtain ⟨rfl, tier, ht, rfl, hr⟩ := Config.tierOutOfRange_of_declaredModule hf nofun
    exact wrongTier_of_mem hp ht hr
  · rw [manifests_eq_mapM hne] at h
    obtain ⟨p, hp, hf⟩ := exists_of_mapM_eq_error h
    obtain ⟨rfl, tier, ht, rfl, hr⟩ := Config.tierOutOfRange_of_declaredModule hf nofun
    rcases List.mem_append.mp hp with hp | hp
    · obtain ⟨s, hs, rfl⟩ := List.mem_map.mp hp
      exact wrongTier_of_merged hfits hs ht hr
    · exact wrongTier_of_mem (mem_unscanned.mp hp).1 ht hr

section Room

variable (hlen : scanned.length < tierLimit)
  (hroom : ∀ b p, (c.modules.get? b).bind Declaration.tier = some p →
    0 ≤ p.toInt ∧ p.toInt + scanned.length < tierLimit)
include hlen hroom

/-- Nothing overflows where every declared tier leaves room for the scanned modules above it. -/
theorem fits_of_declared_room : Fits scanned c.pinnedTiers := by
  have hlimit : tierLimit = 4294967296 := rfl
  refine fits_of_room (by omega) fun b p hp => ?_
  have hp' := hroom b p ((c.get?_pinnedTiers_eq b).symm.trans hp)
  omega

/-- No tier is wrong then. -/
theorem not_wrongTier {t : Int} : ¬ WrongTier c scanned id t := by
  intro h
  have hrange := h.outOfRange
  unfold OutOfRange at hrange
  cases h with
  | declared h =>
    have := hroom _ _ h
    omega
  | inherited _ _ hb _ hn =>
    have := hroom _ _ hb
    omega
  | counted _ _ _ _ hn hr => omega

end Room

end Wrong

/-- **A tier that is refused was declared, or was inherited from a declared one**, if nothing
    overflows. The module that is named need not be the one that declares it. Where every declared
    tier leaves room for the scanned modules above it, no module is refused for its tier. -/
theorem refused_tier_is_declared_or_inherited (c : Config) (scanned : List ScannedModule) :
    (Fits scanned c.pinnedTiers →
      ∀ id t, manifests c scanned = .error (.invalidManifest id (.tierOutOfRange t)) →
        WrongTier c scanned id t) ∧
    (scanned.length < tierLimit →
      (∀ b p, (c.modules.get? b).bind Declaration.tier = some p →
        0 ≤ p.toInt ∧ p.toInt + scanned.length < tierLimit) →
      ∀ id t, manifests c scanned ≠ .error (.invalidManifest id (.tierOutOfRange t))) :=
  ⟨fun hfits _ _ => wrongTier_of_manifests hfits, fun hlen hroom _ _ h =>
    not_wrongTier hlen hroom (wrongTier_of_manifests (fits_of_declared_room hlen hroom) h)⟩

/-! ## 3. A pin below an undeclared module -/

/-- A configuration that pins the second of the two scanned modules. -/
def libraryPinnedAt (p : Int64) : Config :=
  { modules := NameMap.put Register.empty "lib" { tier := some p } }

theorem deriveTiers_libraryPinnedAt (p : Int64) :
    (deriveTiers scannedPair (libraryPinnedAt p).pinnedTiers).get? "app" = some (p + 1) := by
  have hscanned : (requirementMap scannedPair).get? "app" = some ["lib"] := rfl
  have hlib : ∀ visiting tiers, tierFrom (requirementMap scannedPair)
      (libraryPinnedAt p).pinnedTiers visiting tiers "lib" = (p, tiers.putNew "lib" p) :=
    fun visiting tiers => tierFrom_of_known rfl
  have happ : tierFrom (requirementMap scannedPair) (libraryPinnedAt p).pinnedTiers []
      Register.empty "app" =
        (p + 1, (NameMap.putNew Register.empty "lib" p).put "app" (p + 1)) := by
    rw [tierFrom_of_scanned rfl List.not_mem_nil hscanned]
    simp only [List.foldl_cons, List.foldl_nil, examine, hlib]
    rfl
  rw [deriveTiers]
  change ((tierFrom _ _ [] (tierFrom _ _ [] Register.empty "app").2 "lib").2).get? "app" = _
  rw [happ, hlib, NameMap.get?_putNew, if_neg (by decide), NameMap.get?_put, if_pos rfl]

/-- **A module without a tier of its own is refused for the one it inherits**, if it comes before
    the module that declares it. -/
theorem manifests_libraryPinnedAt {p : Int64} (h : OutOfRange (p + 1).toInt) :
    manifests (libraryPinnedAt p) scannedPair =
      .error (.invalidManifest "app" (.tierOutOfRange (p + 1).toInt)) := by
  have htier : ∀ s ∈ scannedPair.head?,
      (mergedDeclaration (libraryPinnedAt p) scannedPair s).tier = some (p + 1) := by
    intro s hs
    cases hs
    exact deriveTiers_libraryPinnedAt p
  have hnamed : Text.isBlankText "app" = false := by decide
  rw [manifests_eq_mapM (by decide), mapM_eq_error_iff]
  refine ⟨[], _, _, rfl, nofun, ?_⟩
  rw [Config.declaredModule, htier _ rfl]
  exact Declaration.toModule_of_outOfRange _ hnamed h

/-- One above the highest tier of 64 bits is the lowest. -/
example : manifests (libraryPinnedAt 9223372036854775807) scannedPair =
    .error (.invalidManifest "app" (.tierOutOfRange (-9223372036854775808))) :=
  manifests_libraryPinnedAt (Or.inl (by decide))

/-- Nothing but the library is declared. -/
theorem declared_libraryPinnedAt {p q : Int64} {b : Identity}
    (h : ((libraryPinnedAt p).modules.get? b).bind Declaration.tier = some q) : q = p := by
  rw [libraryPinnedAt, NameMap.get?_put] at h
  split at h
  · exact (Option.some.inj h).symm
  · cases h

theorem fits_libraryPinnedAt {p : Int64} (h : p.toInt + scannedPair.length < 2 ^ 63) :
    Fits scannedPair (libraryPinnedAt p).pinnedTiers := by
  refine fits_of_room (by decide) fun b q hq => ?_
  rw [Config.get?_pinnedTiers_eq] at hq
  rw [declared_libraryPinnedAt hq]
  exact h

/-- The highest tier of a module leaves no room above it, so the module above is refused for what it
    inherits. With a lower one no tier is refused. -/
theorem refused_tier_of_library_at_limit :
    (Fits scannedPair (libraryPinnedAt 4294967295).pinnedTiers ∧
      manifests (libraryPinnedAt 4294967295) scannedPair =
        .error (.invalidManifest "app" (.tierOutOfRange 4294967296)) ∧
      WrongTier (libraryPinnedAt 4294967295) scannedPair "app" 4294967296) ∧
    scannedPair.length < tierLimit ∧
    (∀ b p, ((libraryPinnedAt 7).modules.get? b).bind Declaration.tier = some p →
      0 ≤ p.toInt ∧ p.toInt + scannedPair.length < tierLimit) ∧
    ∀ id t, manifests (libraryPinnedAt 7) scannedPair ≠
      .error (.invalidManifest id (.tierOutOfRange t)) := by
  have hfits : Fits scannedPair (libraryPinnedAt 4294967295).pinnedTiers :=
    fits_libraryPinnedAt (by decide)
  have hfull : manifests (libraryPinnedAt 4294967295) scannedPair =
      .error (.invalidManifest "app" (.tierOutOfRange 4294967296)) :=
    manifests_libraryPinnedAt (Or.inr (by decide))
  have hlen : scannedPair.length < tierLimit := by decide
  have hroom : ∀ b p, ((libraryPinnedAt 7).modules.get? b).bind Declaration.tier = some p →
      0 ≤ p.toInt ∧ p.toInt + scannedPair.length < tierLimit := by
    intro b p h
    rw [declared_libraryPinnedAt h]
    decide
  exact ⟨⟨hfits, hfull, (refused_tier_is_declared_or_inherited _ _).1 hfits _ _ hfull⟩, hlen,
    hroom, (refused_tier_is_declared_or_inherited _ _).2 hlen hroom⟩

/-- A negative pin is blamed on the module above it, which is not even declared, and nothing
    overflows on the way. -/
theorem undeclared_tier_is_refused :
    Fits scannedPair (libraryPinnedAt (-5)).pinnedTiers ∧
    manifests (libraryPinnedAt (-5)) scannedPair =
      .error (.invalidManifest "app" (.tierOutOfRange (-4))) ∧
    (libraryPinnedAt (-5)).modules.get? "app" = none :=
  ⟨fits_libraryPinnedAt (by decide), manifests_libraryPinnedAt (Or.inl (by decide)), rfl⟩

end Isolation
