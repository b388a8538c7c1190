import Isolation.Proofs.SelectedVersions

/-!
# A scan and a configuration, merged

What `manifests` makes of a scan and a configuration is what the declared modules of ONE list of
declarations are: first those of the scanned modules, into which the scan and the configuration were
merged, then those that the configuration alone declares. This file says of what the merged ones
consist and which error is reported where there is one.

* `Declaration.toModule_eq_ok_iff`, `exists_toModule_iff` -- a declaration makes one module, and it
  does so if it is acceptable;
* `Merges`, `merges_mergedDeclaration` -- where each field of a merged declaration comes from;
* `manifests_eq_mapM` -- the modules are made of the merged declarations and of the others;
* **`scan_and_configuration_merge`** -- the modules in their order, or the error of the first of
  them that is refused.
-/

namespace Isolation

/-! ## 1. The module of a declaration, and why there is none -/

namespace Declaration

variable {d : Declaration} {id : Identity} {tier : Int64} {m m' : Module}

/-- What makes a module is acceptable, since every module is well-formed. -/
theorem Makes.acceptable (h : d.Makes id tier m) : d.Acceptable id tier where
  named := h.id_eq ▸ m.id_named
  tier_nonneg := h.tier_eq ▸ Int.natCast_nonneg m.tier
  tier_lt := h.tier_eq ▸ Int.ofNat_lt.mpr m.tier_lt
  dependency_named e he := m.dependency_named e (h.dependencies_eq ▸ mem_distinct.mpr he)
  not_self he := m.not_self (by
    rw [h.id_eq, h.dependencies_eq]
    exact mem_distinct.mpr he)
  key_named k hk := m.key_named k (h.key_eq ▸ hk)

/-- **A declaration makes one module.** -/
theorem Makes.unique (h : d.Makes id tier m) (h' : d.Makes id tier m') : m = m' := by
  have hid := h.id_eq.trans h'.id_eq.symm
  have htier := Int.ofNat_inj.mp (h.tier_eq.trans h'.tier_eq.symm)
  have hdependencies := h.dependencies_eq.trans h'.dependencies_eq.symm
  have hversion := h.version_eq.trans h'.version_eq.symm
  have hkey := h.key_eq.trans h'.key_eq.symm
  cases m
  cases m'
  congr

theorem toModule_eq_ok_iff : d.toModule id tier = .ok m ↔ d.Makes id tier m := by
  refine ⟨makes_of_toModule, fun h => ?_⟩
  obtain ⟨m', hm'⟩ := exists_toModule h.acceptable
  rw [hm', h.unique (makes_of_toModule hm')]

theorem exists_toModule_iff : (∃ m, d.toModule id tier = .ok m) ↔ d.Acceptable id tier :=
  ⟨fun ⟨_, hm⟩ => (makes_of_toModule hm).acceptable, exists_toModule⟩

/-- Why a declaration makes no module: it has no tier, or its module is refused. -/
inductive Refused (d : Declaration) (id : Identity) : Fault → Prop where
  | lacksTier (h : d.tier = none) :
    Refused d id (.invalidManifest id .undeclaredTierUnscanned)
  | invalid {tier : Int64} {f : Fault} (h : d.tier = some tier) (hn : ¬ d.Acceptable id tier)
    (hf : d.toModule id tier = .error f) : Refused d id f

end Declaration

namespace Config

variable {missing : Defect} {id : Identity} {d : Declaration} {m : Module} {f : Fault}

theorem declaredModule_eq_ok_iff : declaredModule missing id d = .ok m ↔
    ∃ tier, d.tier = some tier ∧ d.Makes id tier m := by
  refine ⟨makes_of_declaredModule, ?_⟩
  rintro ⟨tier, ht, hm⟩
  rw [declaredModule, ht]
  exact Declaration.toModule_eq_ok_iff.mpr hm

theorem exists_declaredModule_iff : (∃ m, declaredModule missing id d = .ok m) ↔
    ∃ tier, d.tier = some tier ∧ d.Acceptable id tier := by
  simp only [declaredModule_eq_ok_iff, ← Declaration.exists_toModule_iff,
    Declaration.toModule_eq_ok_iff]
  constructor
  · rintro ⟨m, tier, ht, hm⟩
    exact ⟨tier, ht, m, hm⟩
  · rintro ⟨tier, ht, m, hm⟩
    exact ⟨m, tier, ht, hm⟩

theorem declaredModule_eq_error_iff :
    declaredModule .undeclaredTierUnscanned id d = .error f ↔ d.Refused id f := by
  constructor
  · intro h
    unfold declaredModule at h
    split at h
    · rename_i tier ht
      refine .invalid ht (fun hd => ?_) h
      obtain ⟨m, hm⟩ := Declaration.exists_toModule hd
      cases hm.symm.trans h
    · rename_i ht
      cases h
      exact .lacksTier ht
  · intro h
    cases h with
    | lacksTier ht => rw [declaredModule, ht]
    | invalid ht _ hf =>
      rw [declaredModule, ht]
      exact hf

end Config

/-! ## 2. Merged declarations -/

variable {c : Config} {scanned : List ScannedModule} {s : ScannedModule}

/-- The declaration into which the scan and the configuration of a scanned module are merged. -/
def mergedDeclaration (c : Config) (scanned : List ScannedModule) (s : ScannedModule) :
    Declaration :=
  let declared := (c.modules.get? s.id).getD {}
  { tier := (deriveTiers scanned c.pinnedTiers).get? s.id
    dependencies := s.dependencyIds
    version := declared.version.or (((selectVersions scanned).get? s.id).map Version.text)
    key := declared.key }

/-- Where each field of the declaration of a scanned module comes from. -/
structure Merges (c : Config) (scanned : List ScannedModule) (s : ScannedModule)
    (d : Declaration) : Prop where
  dependencies_eq : d.dependencies = s.dependencyIds
  version_declared : ∀ text, (c.modules.get? s.id).bind Declaration.version = some text →
    d.version = some text
  version_required : (c.modules.get? s.id).bind Declaration.version = none →
    ∀ v, d.version.map Version.ofText = some v ↔ HighestRequired scanned s.id v
  key_eq : d.key = (c.modules.get? s.id).bind Declaration.key
  tier_declared : ∀ t, (c.modules.get? s.id).bind Declaration.tier = some t → d.tier = some t
  tier_derived : (c.modules.get? s.id).bind Declaration.tier = none →
    ∃ t, (deriveTiers scanned c.pinnedTiers).get? s.id = some t ∧ d.tier = some t

theorem Config.get?_pinnedTiers_eq (c : Config) (id : Identity) :
    c.pinnedTiers.get? id = (c.modules.get? id).bind Declaration.tier := by
  refine Option.ext fun t => ?_
  rw [Config.get?_pinnedTiers_iff, Option.bind_eq_some_iff]
  simp only [NameMap.get?_eq_some_iff]

theorem merges_mergedDeclaration
    (hread : ∀ s ∈ scanned, ∀ r ∈ s.requires, ∃ text, r.version = Version.ofText text)
    (hs : s ∈ scanned) : Merges c scanned s (mergedDeclaration c scanned s) := by
  have hversion : (mergedDeclaration c scanned s).version =
      ((c.modules.get? s.id).bind Declaration.version).or
        (((selectVersions scanned).get? s.id).map Version.text) := by
    rw [← field_getD Declaration.version rfl]
    rfl
  obtain ⟨t, ht⟩ : ∃ t, (deriveTiers scanned c.pinnedTiers).get? s.id = some t :=
    exists_derived_tier hs
  refine ⟨rfl, fun text h => ?_, fun h v => ?_, field_getD Declaration.key rfl _, fun p h => ?_,
    fun _ => ⟨t, ht, ht⟩⟩
  · rw [hversion, h]
    rfl
  · rw [hversion, h, Option.none_or, map_ofText_selected hread, get?_selectVersions_iff]
  · rw [← Config.get?_pinnedTiers_eq] at h
    rw [← tier_eq_of_pinned ht h]
    exact ht

/-- The merged declaration of a scanned module makes its module. -/
theorem declaredModule_mergedDeclaration (missing : Defect) (hs : s ∈ scanned) :
    Config.declaredModule missing s.id (mergedDeclaration c scanned s) =
      foundModule c scanned s := by
  obtain ⟨t, ht⟩ : ∃ t, (deriveTiers scanned c.pinnedTiers).get? s.id = some t :=
    exists_derived_tier hs
  have htier : (mergedDeclaration c scanned s).tier = some t := ht
  rw [Config.declaredModule, htier, foundModule, scannedManifest, ht]
  rfl

/-- **The modules are made of the merged declarations and of those that only the configuration
    has.** -/
theorem manifests_eq_mapM (hne : scanned ≠ []) : manifests c scanned =
    (scanned.map (fun s => (s.id, mergedDeclaration c scanned s)) ++ unscanned c scanned).mapM
      fun p => Config.declaredModule .undeclaredTierUnscanned p.1 p.2 := by
  have hfound : (scanned.map fun s => (s.id, mergedDeclaration c scanned s)).mapM
      (fun p => Config.declaredModule .undeclaredTierUnscanned p.1 p.2) =
        scanned.mapM (foundModule c scanned) := by
    rw [List.mapM_map]
    exact mapM_congr fun s hs => declaredModule_mergedDeclaration _ hs
  rw [manifests_eq hne, List.mapM_append, hfound]

/-! ## 3. The merge as a whole -/

theorem pairwise_unscanned (c : Config) (scanned : List ScannedModule) :
    (unscanned c scanned).Pairwise fun p q => p.1 < q.1 := c.modules.ascending.filter _

theorem mem_unscanned_iff {p : Identity × Declaration} : p ∈ unscanned c scanned ↔
    c.modules.get? p.1 = some p.2 ∧ p.1 ∉ scanned.map ScannedModule.id := by
  rw [mem_unscanned, NameMap.get?_eq_some_iff]

/-- **A scan and a configuration are merged without loss or duplication.** There is one declaration
    for each scanned module, in the order of the scan, and after these come the declarations of what
    was not scanned, in ascending order. Each of them makes a module, with the dependencies once
    each, and these are all; or else the error is that of the first that makes none. -/
theorem scan_and_configuration_merge (c : Config) (scanned : List ScannedModule)
    (hne : scanned ≠ [])
    (hread : ∀ s ∈ scanned, ∀ r ∈ s.requires, ∃ text, r.version = Version.ofText text) :
    ((unscanned c scanned).Pairwise (fun p q => p.1 < q.1) ∧
      ∀ p, p ∈ unscanned c scanned ↔
        c.modules.get? p.1 = some p.2 ∧ p.1 ∉ scanned.map ScannedModule.id) ∧
    ∃ merged : List (Identity × Declaration),
      List.Forall₂ (fun s p => p.1 = s.id ∧ Merges c scanned s p.2) scanned merged ∧
      (∀ ms, manifests c scanned = .ok ms ↔
        List.Forall₂ (fun p m => ∃ tier, p.2.tier = some tier ∧ p.2.Makes p.1 tier m)
          (merged ++ unscanned c scanned) ms) ∧
      ∀ f, manifests c scanned = .error f ↔
        ∃ before p after, merged ++ unscanned c scanned = before ++ p :: after ∧
          (∀ q ∈ before, ∃ tier, q.2.tier = some tier ∧ q.2.Acceptable q.1 tier) ∧
          p.2.Refused p.1 f := by
  refine ⟨⟨pairwise_unscanned c scanned, fun _ => mem_unscanned_iff⟩,
    scanned.map fun s => (s.id, mergedDeclaration c scanned s), ?_, fun ms => ?_, fun f => ?_⟩
  · rw [List.forall₂_map_right_iff, List.forall₂_same]
    exact fun s hs => ⟨rfl, merges_mergedDeclaration hread hs⟩
  · rw [manifests_eq_mapM hne, mapM_eq_ok_iff]
    simp only [Config.declaredModule_eq_ok_iff]
  · rw [manifests_eq_mapM hne, mapM_eq_error_iff]
    simp only [Config.exists_declaredModule_iff, Config.declaredModule_eq_error_iff]

theorem read_scannedPair :
    ∀ s ∈ scannedPair, ∀ r ∈ s.requires, ∃ text, r.version = Version.ofText text := by
  have hversions : ∀ s ∈ scannedPair, ∀ r ∈ s.requires, r.version = Version.ofText "v1.0.0" := by
    decide
  exact fun s hs r hr => ⟨_, hversions s hs r hr⟩

/-- The two scanned modules are merged with a configuration that pins one of them. -/
theorem merge_of_pair_pinned_too_low :
    scannedPair ≠ [] ∧
      (∀ s ∈ scannedPair, ∀ r ∈ s.requires, ∃ text, r.version = Version.ofText text) ∧
      ∃ merged : List (Identity × Declaration),
        List.Forall₂ (fun s p => p.1 = s.id ∧ Merges pinnedTooLow scannedPair s p.2)
          scannedPair merged ∧
        List.Forall₂ (fun p m => ∃ tier, p.2.tier = some tier ∧ p.2.Makes p.1 tier m)
          (merged ++ unscanned pinnedTooLow scannedPair) pairOnOneTier := by
  have hne : scannedPair ≠ [] := by decide
  obtain ⟨_, merged, hmerged, hok, _⟩ :=
    scan_and_configuration_merge pinnedTooLow scannedPair hne read_scannedPair
  exact ⟨hne, read_scannedPair, merged, hmerged, (hok _).mp manifests_pinnedTooLow⟩

end Isolation
