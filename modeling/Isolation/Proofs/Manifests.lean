import Isolation.Manifests
import Isolation.Proofs.Building
import Isolation.Proofs.Results
import Isolation.Proofs.TierOverflow

/-!
# What modules a scan makes

`manifests` joins a scan with a configuration and hands the modules to `Graph.build`. The tiers come
from one walk along the requirements, the checks from another, over the modules. This file fixes
what each module is made of and shows that the two walks fit together.

* `Declaration.Makes`, `Declaration.Acceptable` -- what module a declaration makes, and when;
* `mem_manifests`, `map_id_manifests` -- the modules are those of the scan, in order, and after them
  those that are only declared;
* `tier_eq_of_mem_manifests` -- every module lies where the tier equations put it;
* **`inversion_is_pinned`** -- an inversion is blamed on a module only for a tier that is declared;
* **`unpinned_scan_decides`** -- where no tier is declared, a scan makes a graph unless requirements
  run in a circle, and each module lies as high as its longest chain of requirements is long.
-/

namespace Isolation

/-! ## 1. The module of a declaration -/

namespace Declaration

variable {d : Declaration} {id : Identity} {m : Module}

/-- `m` is the module of a declaration with a given identity and tier. -/
structure Makes (d : Declaration) (id : Identity) (tier : Int64) (m : Module) : Prop where
  id_eq : m.id = id
  tier_eq : (m.tier : Int) = tier.toInt
  dependencies_eq : m.dependencies = distinct d.dependencies
  version_eq : m.version = d.version.map Version.ofText
  key_eq : m.ownKey = d.key

/-- A declaration breaks no rule that concerns a module alone. -/
structure Acceptable (d : Declaration) (id : Identity) (tier : Int64) : Prop where
  named : Text.isBlankText id = false
  tier_nonneg : 0 ≤ tier.toInt
  tier_lt : tier.toInt < tierLimit
  dependency_named : ∀ e ∈ d.dependencies, Text.isBlankText e = false
  not_self : id ∉ d.dependencies
  key_named : ∀ k ∈ d.key, Text.isBlankText k = false

section Declare

variable {tier : Int}

theorem of_declare {dependencies : List Identity} {version : Option Version}
    (h : Module.declare id tier dependencies version = .ok m) :
    m.id = id ∧ (m.tier : Int) = tier ∧ m.dependencies = distinct dependencies ∧
      m.version = version ∧ m.ownKey = none := by
  unfold Module.declare at h
  split at h
  · cases h
  · split at h
    · rename_i ht
      split at h
      · cases h
      · cases h
        exact ⟨rfl, Int.toNat_of_nonneg ht.1, rfl, rfl, rfl⟩
    · cases h

theorem exists_declare {dependencies : List Identity} {version : Option Version}
    (hn : Text.isBlankText id = false) (ht : 0 ≤ tier ∧ tier < tierLimit)
    (hd : ∀ e ∈ dependencies, Text.isBlankText e = false) (hs : id ∉ dependencies) :
    ∃ m, Module.declare id tier dependencies version = .ok m := by
  have hdefect : Module.dependencyDefect? id dependencies = none :=
    Module.dependencyDefect?_eq_none_iff.mpr fun e he => ⟨hd e he, fun e' => hs (e' ▸ he)⟩
  rw [Module.declare, dif_neg (by simp [hn]), dif_pos ht]
  split
  · rename_i h
    rw [hdefect] at h
    cases h
  · exact ⟨_, rfl⟩

theorem exists_defect_of_declare {dependencies : List Identity} {version : Option Version}
    {f : Fault} (h : Module.declare id tier dependencies version = .error f) :
    ∃ defect, f = .invalidManifest id defect := by
  unfold Module.declare at h
  split at h
  · cases h
    exact ⟨_, rfl⟩
  · split at h
    · split at h
      · cases h
        exact ⟨_, rfl⟩
      · cases h
    · cases h
      exact ⟨_, rfl⟩

end Declare

theorem of_withKey {m' : Module} {key : String} (h : m'.withKey key = .ok m) :
    m.id = m'.id ∧ m.tier = m'.tier ∧ m.dependencies = m'.dependencies ∧ m.version = m'.version ∧
      m.ownKey = some key := by
  unfold Module.withKey at h
  split at h
  · cases h
  · cases h
    exact ⟨rfl, rfl, rfl, rfl, rfl⟩

variable {tier : Int64}

/-- **The module of a declaration has what is declared**, each dependency once. -/
theorem makes_of_toModule (h : d.toModule id tier = .ok m) : d.Makes id tier m := by
  obtain ⟨m', hm, h⟩ := bind_eq_ok_iff.mp h
  obtain ⟨hid, ht, hd, hv, hk⟩ := of_declare hm
  cases hkey : d.key with
  | none =>
    rw [hkey] at h
    cases h
    exact ⟨hid, ht, hd, hv, hk.trans hkey.symm⟩
  | some key =>
    rw [hkey] at h
    obtain ⟨hid', ht', hd', hv', hk'⟩ := of_withKey h
    exact ⟨hid'.trans hid, ht' ▸ ht, hd'.trans hd, hv'.trans hv, hk'.trans hkey.symm⟩

theorem exists_toModule (h : d.Acceptable id tier) : ∃ m, d.toModule id tier = .ok m := by
  obtain ⟨m, hm⟩ : ∃ m, Module.declare id tier.toInt d.dependencies
      (d.version.map Version.ofText) = .ok m :=
    exists_declare h.named ⟨h.tier_nonneg, h.tier_lt⟩ h.dependency_named h.not_self
  cases hkey : d.key with
  | none => exact ⟨m, by rw [toModule, hm, hkey]; rfl⟩
  | some key =>
    have hk : ¬ Text.isBlankText key = true := by
      rw [h.key_named key hkey]
      exact Bool.false_ne_true
    refine ⟨{ m with ownKey := some key, key_named := by simpa using hk }, ?_⟩
    rw [toModule, hm, hkey]
    exact dif_neg hk

theorem exists_defect_of_toModule {f : Fault} (h : d.toModule id tier = .error f) :
    ∃ defect, f = .invalidManifest id defect := by
  rcases bind_eq_error_iff.mp h with h | ⟨m, hm, h⟩
  · exact exists_defect_of_declare h
  · cases hkey : d.key with
    | none =>
      rw [hkey] at h
      cases h
    | some key =>
      rw [hkey] at h
      change m.withKey key = .error f at h
      unfold Module.withKey at h
      split at h
      · cases h
        exact ⟨_, by rw [(of_declare hm).1]⟩
      · cases h

end Declaration

/-! ## 2. Declared tiers -/

namespace Config

variable {c : Config}

theorem pinnedTiers_eq (c : Config) : c.pinnedTiers =
    Register.ofList (c.modules.toList.filterMap fun p => p.2.tier.map (p.1, ·)) := rfl

/-- **The pins are the declared tiers.** -/
theorem get?_pinnedTiers_iff {id : Identity} {t : Int64} :
    c.pinnedTiers.get? id = some t ↔ ∃ d, (id, d) ∈ c.modules ∧ d.tier = some t := by
  have hnodup : ((c.modules.toList.filterMap fun p => p.2.tier.map (p.1, ·)).map
      Prod.fst).Nodup := by
    rw [List.nodup_iff_pairwise_ne, List.pairwise_map]
    refine c.modules.ascending.filterMap _ fun p q hpq a ha b hb => ?_
    obtain ⟨_, _, rfl⟩ := Option.map_eq_some_iff.mp ha
    obtain ⟨_, _, rfl⟩ := Option.map_eq_some_iff.mp hb
    intro (e : p.1 = q.1)
    rw [e] at hpq
    exact String.lt_irrefl _ hpq
  rw [pinnedTiers_eq, NameMap.get?_ofList_eq_some_iff hnodup, List.mem_filterMap]
  constructor
  · rintro ⟨⟨id', d⟩, hmem, h⟩
    obtain ⟨t', ht, e⟩ := Option.map_eq_some_iff.mp h
    cases e
    exact ⟨d, hmem, ht⟩
  · rintro ⟨d, hmem, ht⟩
    exact ⟨(id, d), hmem, by rw [ht]; rfl⟩

theorem makes_of_declaredModule {missing : Defect} {id : Identity} {d : Declaration} {m : Module}
    (h : declaredModule missing id d = .ok m) : ∃ t, d.tier = some t ∧ d.Makes id t m := by
  unfold declaredModule at h
  split at h
  · rename_i t ht
    exact ⟨t, ht, Declaration.makes_of_toModule h⟩
  · cases h

theorem exists_defect_of_declaredModule {missing : Defect} {id : Identity} {d : Declaration}
    {f : Fault} (h : declaredModule missing id d = .error f) :
    ∃ defect, f = .invalidManifest id defect := by
  unfold declaredModule at h
  split at h
  · exact Declaration.exists_defect_of_toModule h
  · cases h
    exact ⟨_, rfl⟩

end Config

/-! ## 3. The modules of a scan and a configuration -/

section Manifests

variable {c : Config} {scanned : List ScannedModule} {ms : List Module}

/-- The modules that are declared and were not scanned. -/
def unscanned (c : Config) (scanned : List ScannedModule) : List (Identity × Declaration) :=
  c.modules.toList.filter fun p => decide (p.1 ∉ scanned.map ScannedModule.id)

/-- What makes a scanned module a module of the repository. -/
def foundModule (c : Config) (scanned : List ScannedModule) (s : ScannedModule) :
    Except Fault Module :=
  scannedManifest c (deriveTiers scanned c.pinnedTiers) (selectVersions scanned) s

theorem mem_unscanned {p : Identity × Declaration} :
    p ∈ unscanned c scanned ↔ p ∈ c.modules ∧ p.1 ∉ scanned.map ScannedModule.id := by
  rw [unscanned, List.mem_filter, decide_eq_true_iff, Register.mem_def]

theorem manifests_nil (c : Config) : manifests c [] = c.declaredModules := rfl

theorem manifests_eq (hne : scanned ≠ []) : manifests c scanned = do
    let fs ← scanned.mapM (foundModule c scanned)
    let ds ← (unscanned c scanned).mapM fun p =>
      Config.declaredModule .undeclaredTierUnscanned p.1 p.2
    return fs ++ ds := by
  have hothers : (c.modules.toList.filter fun p =>
      !(Register.ofList (scanned.map ScannedModule.id) : NameSet).has p.1) =
      unscanned c scanned := by
    refine List.filter_congr fun p _ => ?_
    rw [Bool.eq_iff_iff, Bool.not_eq_true', ← Bool.not_eq_true, NameSet.has_iff_mem,
      NameSet.mem_ofList, decide_eq_true_iff]
  have hempty : ¬ scanned.isEmpty = true := by simpa using hne
  rw [← hothers, manifests, if_neg hempty]
  rfl

theorem manifests_eq_ok_iff (hne : scanned ≠ []) : manifests c scanned = .ok ms ↔
    ∃ fs ds, scanned.mapM (foundModule c scanned) = .ok fs ∧
      (unscanned c scanned).mapM (fun p => Config.declaredModule .undeclaredTierUnscanned p.1 p.2) =
        .ok ds ∧ ms = fs ++ ds := by
  rw [manifests_eq hne, bind_eq_ok_iff]
  refine exists_congr fun fs => ?_
  rw [bind_eq_ok_iff, ← exists_and_left]
  refine exists_congr fun ds => ?_
  exact and_congr_right fun _ => and_congr_right fun _ =>
    ⟨fun h => (Except.ok.inj h).symm, fun h => h ▸ rfl⟩

/-- What a scanned module brings into its module, whether it is declared besides or not. -/
theorem of_found {s : ScannedModule} {m : Module} (h : foundModule c scanned s = .ok m) :
    m.id = s.id ∧
      (m.tier : Int) = (((deriveTiers scanned c.pinnedTiers).get? s.id).getD 0).toInt ∧
      m.dependencies = distinct s.dependencyIds := by
  have hm := Declaration.makes_of_toModule h
  exact ⟨hm.id_eq, hm.tier_eq, hm.dependencies_eq⟩

/-- **The modules are those that were scanned and those that are only declared.** -/
theorem mem_manifests (hne : scanned ≠ []) (h : manifests c scanned = .ok ms) {m : Module} :
    m ∈ ms ↔ (∃ s ∈ scanned, foundModule c scanned s = .ok m) ∨
      ∃ p ∈ c.modules, p.1 ∉ scanned.map ScannedModule.id ∧
        Config.declaredModule .undeclaredTierUnscanned p.1 p.2 = .ok m := by
  obtain ⟨fs, ds, hfs, hds, rfl⟩ := (manifests_eq_ok_iff hne).mp h
  rw [List.mem_append, mem_of_mapM_eq_ok hfs, mem_of_mapM_eq_ok hds]
  simp only [mem_unscanned, and_assoc]

/-- The scanned modules come first and in their order, the others after them and in theirs. -/
theorem map_id_manifests (hne : scanned ≠ []) (h : manifests c scanned = .ok ms) :
    ms.map Module.id = scanned.map ScannedModule.id ++ (unscanned c scanned).map Prod.fst := by
  obtain ⟨fs, ds, hfs, hds, rfl⟩ := (manifests_eq_ok_iff hne).mp h
  have hscanned : fs.map Module.id = scanned.map ScannedModule.id :=
    map_eq_of_mapM_eq_ok (fun _ _ hf => (of_found hf).1) hfs
  have hdeclared : ds.map Module.id = (unscanned c scanned).map Prod.fst := by
    refine map_eq_of_mapM_eq_ok (fun p m hd => ?_) hds
    obtain ⟨t, _, hm⟩ := Config.makes_of_declaredModule hd
    exact hm.id_eq
  rw [List.map_append, hscanned, hdeclared]

theorem nodup_scanned_of_distinct (hne : scanned ≠ []) (h : manifests c scanned = .ok ms)
    (hd : Distinct ms) : (scanned.map ScannedModule.id).Nodup := by
  rw [Distinct, map_id_manifests hne h] at hd
  exact (List.nodup_append.mp hd).1

/-- What is required in the scan is depended on among the modules. -/
theorem dependsOn_of_requires (h : manifests c scanned = .ok ms) {a d : Identity}
    (hr : Requires scanned a d) : DependsOn ms a d := by
  obtain ⟨s, hs, rfl, hd⟩ := hr
  have hne : scanned ≠ [] := List.ne_nil_of_mem hs
  obtain ⟨fs, ds, hfs, -, -⟩ := (manifests_eq_ok_iff hne).mp h
  obtain ⟨m, hm⟩ := exists_of_mem_of_mapM_eq_ok hfs hs
  obtain ⟨hid, _, hdeps⟩ := of_found hm
  refine ⟨m, (mem_manifests hne h).mpr (Or.inl ⟨s, hs, hm⟩), hid, ?_⟩
  rw [hdeps]
  exact mem_distinct.mpr hd

/-- **Every module lies where the tier equations put it**, as far as they say where. -/
theorem tier_eq_of_mem_manifests (hne : scanned ≠ []) (h : manifests c scanned = .ok ms)
    (hs : Settled (requirementMap scanned) c.pinnedTiers (deriveTiers scanned c.pinnedTiers))
    {m : Module} (hm : m ∈ ms) {t : Int64}
    (ht : (deriveTiers scanned c.pinnedTiers).get? m.id = some t) : (m.tier : Int) = t.toInt := by
  rcases (mem_manifests hne h).mp hm with ⟨s, _, hf⟩ | ⟨p, hp, _, hd⟩
  · obtain ⟨hid, htier, _⟩ := of_found hf
    rw [htier, ← hid, ht, Option.getD_some]
  · -- what is only declared was not walked for itself, but its pin is what others saw of it
    obtain ⟨t', htier, hmakes⟩ := Config.makes_of_declaredModule hd
    have hpin : c.pinnedTiers.get? m.id = some t' :=
      Config.get?_pinnedTiers_iff.mpr ⟨p.2, hmakes.id_eq ▸ hp, htier⟩
    rw [hmakes.tier_eq, (TierEquation.pinned hpin).unique (hs m.id t ht)]

/-- Whatever is wrong before the graph is built is wrong with a module by itself. -/
theorem exists_defect_of_manifests {f : Fault} (h : manifests c scanned = .error f) :
    ∃ id defect, f = .invalidManifest id defect := by
  by_cases hne : scanned = []
  · subst hne
    obtain ⟨p, _, hp⟩ := exists_of_mapM_eq_error h
    exact ⟨p.1, Config.exists_defect_of_declaredModule hp⟩
  · rw [manifests_eq hne] at h
    rcases bind_eq_error_iff.mp h with h | ⟨fs, _, h⟩
    · obtain ⟨s, _, hs⟩ := exists_of_mapM_eq_error h
      exact ⟨s.id, Declaration.exists_defect_of_toModule hs⟩
    · rcases bind_eq_error_iff.mp h with h | ⟨ds, _, h⟩
      · obtain ⟨p, _, hp⟩ := exists_of_mapM_eq_error h
        exact ⟨p.1, Config.exists_defect_of_declaredModule hp⟩
      · cases h

/-! ## 4. Inversions -/

/-- What is only declared has its tier from the configuration. -/
theorem declared_of_declaredModule {missing : Defect} {p : Identity × Declaration} {m : Module}
    (hp : p ∈ c.modules) (h : Config.declaredModule missing p.1 p.2 = .ok m) :
    ∃ d, c.modules.get? m.id = some d ∧ d.tier.map Int64.toInt = some (m.tier : Int) := by
  obtain ⟨t, ht, hm⟩ := Config.makes_of_declaredModule h
  have hmem : (m.id, p.2) ∈ c.modules := by
    rw [hm.id_eq]
    exact hp
  exact ⟨p.2, NameMap.get?_eq_some_iff.mpr hmem, by rw [ht, hm.tier_eq, Option.map_some]⟩

/-- What was scanned has its tier from the configuration as well, or else it lies above all that it
    depends on. -/
theorem declared_or_lt_of_found (hd : Distinct ms) (hc : ¬ Cyclic ms)
    (h : manifests c scanned = .ok ms) {s : ScannedModule} (hs : s ∈ scanned) {m n : Module}
    (hf : foundModule c scanned s = .ok m) (hn : n ∈ ms) (hdep : n.id ∈ m.dependencies) :
    (∃ d, c.modules.get? m.id = some d ∧ d.tier.map Int64.toInt = some (m.tier : Int)) ∨ n.tier < m.tier := by
  have hne : scanned ≠ [] := List.ne_nil_of_mem hs
  have hnodup := nodup_scanned_of_distinct hne h hd
  have hacyclic : ∀ a, ¬ Relation.TransGen (Requires scanned) a a := fun a ha =>
    hc ⟨a, Relation.TransGen.mono (fun _ _ => dependsOn_of_requires h) a a ha⟩
  have hderives : ∀ a, ¬ Relation.TransGen (Derives (requirementMap scanned) c.pinnedTiers) a a :=
    not_transGen_derives hnodup hacyclic
  have hsettled := settled_deriveTiers hderives
  obtain ⟨hid, htier, hreq⟩ := of_found hf
  obtain ⟨v, hv⟩ := exists_tier_of_scanned hderives hs
  rw [hv, Option.getD_some] at htier
  cases hpin : c.pinnedTiers.get? s.id with
  | some t =>
    obtain ⟨d, hmem, ht⟩ := Config.get?_pinnedTiers_iff.mp hpin
    have hvt : t = v := (TierEquation.pinned hpin).unique (hsettled _ _ hv)
    refine Or.inl ⟨d, ?_, by rw [ht, hvt, htier, Option.map_some]⟩
    rw [hid]
    exact NameMap.get?_eq_some_iff.mpr hmem
  | none =>
    have hedge : Derives (requirementMap scanned) c.pinnedTiers s.id n.id :=
      (derives_iff hnodup).mpr ⟨hpin, s, hs, rfl, mem_distinct.mp (hreq ▸ hdep)⟩
    obtain ⟨w, hw, hle⟩ := (hsettled _ _ hv).exists_succ_le hedge
    have hnw := tier_eq_of_mem_manifests hne h hsettled hn hw
    -- what became the tier of a module is far from the highest tier there is
    have hlimit : n.tier < 4294967296 := n.tier_lt
    rw [Int64.le_iff_toInt_le, toInt_add_one (by omega)] at hle
    exact Or.inr (by omega)

/-- **An inversion is the fault of a pin**: the module that is blamed has the tier for which it is
    blamed from the configuration. -/
theorem inversion_is_pinned {id d : Identity} {t u : Nat} (h : manifests c scanned = .ok ms)
    (hb : Graph.build ms = .error (.tierInversion id t d u)) :
    ∃ declared, c.modules.get? id = some declared ∧
      declared.tier.map Int64.toInt = some (t : Int) := by
  obtain ⟨hd, _, hc, m, hm, n, hn, rfl, rfl, rfl, rfl, _, earlier, later, hdeps, _, hle⟩ :=
    Graph.build_eq_tierInversion_iff.mp hb
  have hdep : n.id ∈ m.dependencies := by
    rw [hdeps]
    exact List.mem_append_right _ List.mem_cons_self
  by_cases hne : scanned = []
  · subst hne
    obtain ⟨p, hp, hdecl⟩ := (mem_of_mapM_eq_ok h).mp hm
    exact declared_of_declaredModule hp hdecl
  · rcases (mem_manifests hne h).mp hm with ⟨s, hs, hf⟩ | ⟨p, hp, _, hdecl⟩
    · rcases declared_or_lt_of_found hd hc h hs hf hn hdep with hpin | hlt
      · exact hpin
      · omega
    · exact declared_of_declaredModule hp hdecl

/-- A scan of two modules, the first of which requires the second. -/
def scannedPair : List ScannedModule :=
  [⟨"app", "app", [⟨"lib", ⟨"v1.0.0"⟩, false⟩]⟩, ⟨"lib", "lib", []⟩]

/-- A configuration that pins the first of them to the lowest tier. -/
def pinnedTooLow : Config :=
  { modules := NameMap.put Register.empty "app" { tier := some 0 } }

/-- The two modules, on one tier. -/
def pairOnOneTier : List Module := Declaration.modules
  [("app", { dependencies := ["lib"] }), ("lib", { version := some "v1.0.0" })]

/-- The second module is not pinned and requires nothing. -/
theorem deriveTiers_pinnedTooLow :
    deriveTiers scannedPair pinnedTooLow.pinnedTiers =
      (NameMap.put Register.empty "app" 0).put "lib" 0 := by
  have happ : ∀ tiers, tierFrom (requirementMap scannedPair) pinnedTooLow.pinnedTiers [] tiers
      "app" = (0, tiers.putNew "app" 0) := fun tiers => tierFrom_of_known rfl
  have hscanned : (requirementMap scannedPair).get? "lib" = some [] := rfl
  have hlib : tierFrom (requirementMap scannedPair) pinnedTooLow.pinnedTiers []
      (NameMap.putNew Register.empty "app" 0) "lib" =
        (0, (NameMap.put Register.empty "app" 0).put "lib" 0) := by
    rw [tierFrom_of_scanned rfl List.not_mem_nil hscanned]
    rfl
  rw [deriveTiers]
  change (tierFrom _ _ [] (tierFrom _ _ [] Register.empty "app").2 "lib").2 = _
  rw [happ, hlib]

theorem manifests_pinnedTooLow : manifests pinnedTooLow scannedPair = .ok pairOnOneTier := by
  rw [manifests, deriveTiers_pinnedTooLow]
  rfl

/-- Pinned no higher than what it requires, the first module is blamed, and it is the pin that it is
    blamed for. -/
theorem inversion_of_pair_pinned_too_low :
    manifests pinnedTooLow scannedPair = .ok pairOnOneTier ∧
      Graph.build pairOnOneTier = .error (.tierInversion "app" 0 "lib" 0) ∧
      ∃ declared, pinnedTooLow.modules.get? "app" = some declared ∧
        declared.tier.map Int64.toInt = some ((0 : Nat) : Int) := by
  have hb : Graph.build pairOnOneTier = .error (.tierInversion "app" 0 "lib" 0) := rfl
  exact ⟨manifests_pinnedTooLow, hb, inversion_is_pinned manifests_pinnedTooLow hb⟩

/-! ## 5. Scans without pins -/

/-- A scan about which nothing can be wrong but a circle of requirements: identities are distinct
    and named, requirements were scanned too, and the configuration declares modules that were
    scanned, without tiers. -/
structure WellScanned (c : Config) (scanned : List ScannedModule) : Prop where
  nonempty : scanned ≠ []
  length_lt : scanned.length < tierLimit
  nodup : (scanned.map ScannedModule.id).Nodup
  named : ∀ s ∈ scanned, Text.isBlankText s.id = false
  resolved : ∀ s ∈ scanned, ∀ d ∈ s.dependencyIds, d ∈ scanned.map ScannedModule.id
  configured : ∀ p ∈ c.modules, p.1 ∈ scanned.map ScannedModule.id
  unpinned : ∀ p ∈ c.modules, p.2.tier = none
  key_named : ∀ p ∈ c.modules, ∀ k ∈ p.2.key, Text.isBlankText k = false

namespace WellScanned

variable (hw : WellScanned c scanned)
include hw

theorem get?_pinnedTiers (id : Identity) : c.pinnedTiers.get? id = none := by
  cases h : c.pinnedTiers.get? id with
  | none => rfl
  | some t =>
    obtain ⟨d, hd, ht⟩ := Config.get?_pinnedTiers_iff.mp h
    rw [hw.unpinned _ hd] at ht
    cases ht

theorem unscanned_eq_nil : unscanned c scanned = [] := by
  refine List.eq_nil_iff_forall_not_mem.mpr fun p hp => ?_
  obtain ⟨hmem, hnot⟩ := mem_unscanned.mp hp
  exact hnot (hw.configured p hmem)

/-- Nothing overflows where tiers are only counted up. -/
theorem fits : Fits scanned c.pinnedTiers := by
  have hlength : scanned.length < 4294967296 := hw.length_lt
  refine fits_of_room (by omega) fun b p hp => ?_
  exact nomatch (hw.get?_pinnedTiers b).symm.trans hp

/-- The modules are those that were scanned. -/
theorem map_id_eq (h : manifests c scanned = .ok ms) :
    ms.map Module.id = scanned.map ScannedModule.id := by
  rw [map_id_manifests hw.nonempty h, hw.unscanned_eq_nil, List.map_nil, List.append_nil]

theorem exists_found_of_mem (h : manifests c scanned = .ok ms) {m : Module} (hm : m ∈ ms) :
    ∃ s ∈ scanned, foundModule c scanned s = .ok m := by
  rcases (mem_manifests hw.nonempty h).mp hm with hf | ⟨p, hp, hnot, _⟩
  · exact hf
  · exact absurd (hw.configured p hp) hnot

theorem distinct_of_manifests (h : manifests c scanned = .ok ms) : Distinct ms := by
  rw [Distinct, hw.map_id_eq h]
  exact hw.nodup

theorem requires_of_mem (h : manifests c scanned = .ok ms) {m : Module} (hm : m ∈ ms) {d : Identity}
    (hd : d ∈ m.dependencies) : Requires scanned m.id d := by
  obtain ⟨s, hs, hf⟩ := hw.exists_found_of_mem h hm
  obtain ⟨hid, _, hdeps⟩ := of_found hf
  rw [hdeps] at hd
  exact ⟨s, hs, hid.symm, mem_distinct.mp hd⟩

theorem resolved_of_manifests (h : manifests c scanned = .ok ms) : Resolved ms := by
  intro m hm d hd
  obtain ⟨s, hs, _, hreq⟩ := hw.requires_of_mem h hm hd
  rw [hw.map_id_eq h]
  exact hw.resolved s hs d hreq

theorem cyclic_iff (h : manifests c scanned = .ok ms) :
    Cyclic ms ↔ ∃ id, Relation.TransGen (Requires scanned) id id := by
  have hrel : DependsOn ms = Requires scanned := by
    funext a d
    refine propext ⟨?_, dependsOn_of_requires h⟩
    rintro ⟨m, hm, rfl, hd⟩
    exact hw.requires_of_mem h hm hd
  rw [Cyclic, hrel]

theorem descending_of_not_cyclic (h : manifests c scanned = .ok ms) (hc : ¬ Cyclic ms) :
    Descending ms := by
  intro m hm n hn hdep
  obtain ⟨s, hs, hf⟩ := hw.exists_found_of_mem h hm
  rcases declared_or_lt_of_found (hw.distinct_of_manifests h) hc h hs hf hn hdep with
    ⟨d, hd, ht⟩ | hlt
  · rw [hw.unpinned _ (NameMap.get?_eq_some_iff.mp hd)] at ht
    cases ht
  · exact hlt

/-- All that can go wrong is a circle of requirements, or a module that breaks a rule by itself. -/
theorem fault_cases {f : Fault} (h : (manifests c scanned >>= Graph.build) = .error f) :
    (∃ cycle, f = .cyclicDependency cycle) ∨ ∃ id defect, f = .invalidManifest id defect := by
  rcases bind_eq_error_iff.mp h with hf | ⟨ms, hms, hb⟩
  · exact Or.inr (exists_defect_of_manifests hf)
  · have hbuilt := Graph.built_build ms
    rw [hb] at hbuilt
    have hd := hw.distinct_of_manifests hms
    have hr := hw.resolved_of_manifests hms
    cases hbuilt with
    | repeated h' => exact absurd hd (Graph.not_distinct_of_firstRepeated h')
    | unresolved _ h' => exact absurd hr (Graph.not_resolved_of_firstUnresolved hd h')
    | cyclic => exact Or.inl ⟨_, rfl⟩
    | inverted _ _ hc h' =>
      have hs := hw.descending_of_not_cyclic hms hc
      exact absurd hs (Graph.not_descending_of_firstInverted hd h')

section Acyclic

variable (hacyclic : ∀ id, ¬ Relation.TransGen (Requires scanned) id id)
include hacyclic

/-- The tier of a scanned module is a number that the modules are enough to count to: that of the
    requirements on its longest chain. -/
theorem exists_tier {s : ScannedModule} (hs : s ∈ scanned) :
    ∃ t : Int64, (deriveTiers scanned c.pinnedTiers).get? s.id = some t ∧
      ∃ n : Nat, t.toInt = n ∧ n < scanned.length ∧ IsGreatest {k | RequireChain scanned s.id k} n := by
  have hderives : ∀ a, ¬ Relation.TransGen (Derives (requirementMap scanned) c.pinnedTiers) a a :=
    not_transGen_derives hw.nodup hacyclic
  obtain ⟨t, ht⟩ := exists_tier_of_scanned hderives hs
  have hint := hw.fits.get?_ints ht
  have hpin : ∀ id, c.pinnedTiers.ints.get? id = none := fun id => by
    rw [NameMap.get?_ints, hw.get?_pinnedTiers, Option.map_none]
  have hnonneg : 0 ≤ t.toInt := by
    refine nonneg_of_get?_deriveTiers (fun id u hu => ?_) hint
    exact nomatch (hpin id).symm.trans hu
  obtain ⟨n, hn⟩ := Int.eq_ofNat_of_zero_le hnonneg
  have hresolved : ∀ a d, Requires scanned a d → d ∈ scanned.map ScannedModule.id := by
    rintro a d ⟨s', hs', _, hd⟩
    exact hw.resolved s' hs' d hd
  rw [hn] at hint
  exact ⟨t, ht, n, hn,
    lt_length_of_tier hw.nodup hpin hacyclic hresolved (List.mem_map_of_mem hs) hint,
    isGreatest_requireChain hw.nodup hpin hacyclic hint⟩

theorem exists_found {s : ScannedModule} (hs : s ∈ scanned) :
    ∃ m, foundModule c scanned s = .ok m := by
  obtain ⟨t, ht, n, hn, hlt, _⟩ := hw.exists_tier hacyclic hs
  have hlimit := hw.length_lt
  refine Declaration.exists_toModule ⟨hw.named s hs, ?_, ?_, ?_, ?_, ?_⟩
  · rw [ht, Option.getD_some, hn]
    exact Int.natCast_nonneg n
  · rw [ht, Option.getD_some, hn]
    omega
  · intro d hd
    obtain ⟨s', hs', rfl⟩ := List.mem_map.mp (hw.resolved s hs d hd)
    exact hw.named s' hs'
  · intro hself
    exact hacyclic s.id (.single ⟨s, hs, rfl, hself⟩)
  · intro k hk
    change k ∈ ((c.modules.get? s.id).getD {}).key at hk
    cases hd : c.modules.get? s.id with
    | none =>
      rw [hd] at hk
      cases hk
    | some d =>
      rw [hd] at hk
      exact hw.key_named _ (NameMap.get?_eq_some_iff.mp hd) k hk

theorem exists_manifests : ∃ ms, manifests c scanned = .ok ms := by
  obtain ⟨fs, hfs⟩ := exists_mapM_eq_ok fun s hs => hw.exists_found hacyclic hs
  refine ⟨fs ++ [], (manifests_eq_ok_iff hw.nonempty).mpr ⟨fs, [], hfs, ?_, rfl⟩⟩
  rw [hw.unscanned_eq_nil]
  rfl

theorem isGreatest_tier (h : manifests c scanned = .ok ms) {m : Module} (hm : m ∈ ms) :
    IsGreatest {n | RequireChain scanned m.id n} m.tier := by
  obtain ⟨s, hs, hf⟩ := hw.exists_found_of_mem h hm
  obtain ⟨hid, htier, _⟩ := of_found hf
  obtain ⟨t, ht, n, hn, _, hgreatest⟩ := hw.exists_tier hacyclic hs
  rw [ht, Option.getD_some, hn] at htier
  rw [Int.ofNat_inj.mp htier, hid]
  exact hgreatest

end Acyclic

end WellScanned

/-- **A scan without pins makes a graph unless its requirements run in a circle.** Each module of
    the graph then lies as high as its longest chain of requirements is long. And whatever comes of
    the scan, no tier, no repeated identity and no unresolved dependency is blamed. -/
theorem unpinned_scan_decides (hw : WellScanned c scanned) :
    ((∃ g, (manifests c scanned >>= Graph.build) = .ok g) ↔
      ∀ id, ¬ Relation.TransGen (Requires scanned) id id) ∧
    (∀ g, (manifests c scanned >>= Graph.build) = .ok g →
      (∀ s ∈ scanned, ∃ m, g.get? s.id = some m) ∧
      ∀ m ∈ g.modules, m.id ∈ scanned.map ScannedModule.id ∧
        IsGreatest {n | RequireChain scanned m.id n} m.tier) ∧
    (∀ id t d u, (manifests c scanned >>= Graph.build) ≠ .error (.tierInversion id t d u)) ∧
    (∀ id, (manifests c scanned >>= Graph.build) ≠ .error (.duplicateModule id)) ∧
    ∀ id d, (manifests c scanned >>= Graph.build) ≠ .error (.unresolvedDependency id d) := by
  have hacyclic : ∀ g, (manifests c scanned >>= Graph.build) = .ok g →
      ∀ id, ¬ Relation.TransGen (Requires scanned) id id := by
    intro g hg id hid
    obtain ⟨ms, h, hb⟩ := bind_eq_ok_iff.mp hg
    obtain ⟨hd, hr, hs⟩ := Graph.build_eq_ok_iff.mp ⟨g, hb⟩
    exact not_cyclic_of_descending hd hs hr ((hw.cyclic_iff h).mpr ⟨id, hid⟩)
  have hfault : ∀ f, (manifests c scanned >>= Graph.build) = .error f →
      (∃ cycle, f = .cyclicDependency cycle) ∨ ∃ id defect, f = .invalidManifest id defect :=
    fun _ h => hw.fault_cases h
  refine ⟨⟨fun ⟨g, hg⟩ => hacyclic g hg, fun h => ?_⟩, fun g hg => ⟨fun s hs => ?_, fun m hm => ?_⟩,
    fun id t d u h => ?_, fun id h => ?_, fun id d h => ?_⟩
  · obtain ⟨ms, hms⟩ := hw.exists_manifests h
    have hc : ¬ Cyclic ms := fun hc => by
      obtain ⟨id, hid⟩ := (hw.cyclic_iff hms).mp hc
      exact h id hid
    obtain ⟨g, hg⟩ := Graph.build_eq_ok_iff.mpr ⟨hw.distinct_of_manifests hms,
      hw.resolved_of_manifests hms, hw.descending_of_not_cyclic hms hc⟩
    exact ⟨g, bind_eq_ok_iff.mpr ⟨ms, hms, hg⟩⟩
  · obtain ⟨ms, hms, hb⟩ := bind_eq_ok_iff.mp hg
    have hmem : s.id ∈ ms.map Module.id := by
      rw [hw.map_id_eq hms]
      exact List.mem_map_of_mem hs
    obtain ⟨m, hm, hid⟩ := List.mem_map.mp hmem
    exact ⟨m, (Graph.get?_eq_some_iff_of_build hb).mpr ⟨hm, hid⟩⟩
  · obtain ⟨ms, hms, hb⟩ := bind_eq_ok_iff.mp hg
    have hmem := (Graph.mem_modules_of_build hb).mp hm
    refine ⟨?_, hw.isGreatest_tier (hacyclic g hg) hms hmem⟩
    rw [← hw.map_id_eq hms]
    exact List.mem_map_of_mem hmem
  · rcases hfault _ h with ⟨_, e⟩ | ⟨_, _, e⟩ <;> cases e
  · rcases hfault _ h with ⟨_, e⟩ | ⟨_, _, e⟩ <;> cases e
  · rcases hfault _ h with ⟨_, e⟩ | ⟨_, _, e⟩ <;> cases e

/-- A configuration that says which version the second of the two scanned modules has. -/
def versionedLibrary : Config :=
  { modules := NameMap.put Register.empty "lib" { version := some "v2.0.0" } }

theorem wellScanned_pair : WellScanned versionedLibrary scannedPair where
  nonempty := by decide
  length_lt := by decide
  nodup := by decide
  named := by decide
  resolved := by decide
  configured := by
    change ∀ p ∈ versionedLibrary.modules.toList, p.1 ∈ scannedPair.map ScannedModule.id
    decide
  unpinned := by
    change ∀ p ∈ versionedLibrary.modules.toList, p.2.tier = none
    decide
  key_named := by
    change ∀ p ∈ versionedLibrary.modules.toList, ∀ k ∈ p.2.key, Text.isBlankText k = false
    decide

theorem not_transGen_requires_pair (id : Identity) :
    ¬ Relation.TransGen (Requires scannedPair) id id := by
  have hedge : ∀ s ∈ scannedPair, ∀ d ∈ s.dependencyIds, s.id = "app" ∧ d = "lib" := by decide
  have hchain : ∀ {a d}, Relation.TransGen (Requires scannedPair) a d → a = "app" ∧ d = "lib" := by
    intro a d h
    induction h with
    | single h =>
      obtain ⟨s, hs, rfl, hd⟩ := h
      exact hedge s hs _ hd
    | tail _ h ih =>
      obtain ⟨s, hs, rfl, hd⟩ := h
      exact ⟨ih.1, (hedge s hs _ hd).2⟩
  intro h
  obtain ⟨happ, hlib⟩ := hchain h
  exact absurd (happ.symm.trans hlib) (by decide)

/-- The scan of the two modules makes a graph, in which each lies as high as its longest chain. -/
theorem unpinned_scan_of_pair :
    WellScanned versionedLibrary scannedPair ∧
      ∃ g, (manifests versionedLibrary scannedPair >>= Graph.build) = .ok g ∧
        ∀ m ∈ g.modules, IsGreatest {n | RequireChain scannedPair m.id n} m.tier := by
  obtain ⟨hok, hgraph, _⟩ := unpinned_scan_decides wellScanned_pair
  obtain ⟨g, hg⟩ := hok.mpr not_transGen_requires_pair
  exact ⟨wellScanned_pair, g, hg, fun m hm => ((hgraph g hg).2 m hm).2⟩

end Manifests

end Isolation
