import Isolation.Proofs.TierSolutions
import Isolation.Proofs.VersionPrecedence

/-!
# Selected versions

`selectVersions` goes through all requirements of a scan and keeps the higher of two versions.
Since only equal versions compare as equal, there is one highest version among those that are
required of an identity, and it makes no difference when it is met.

* `Selects`, `selects_foldl` -- what is selected among the requirements looked at so far;
* `RequiredAt`, `HighestRequired`, **`get?_selectVersions_iff`** -- what is selected in a scan;
* `selectVersions_congr` -- all that counts is which versions are required of which identities;
* `Rearranges` -- requirements come in another order, or one is moved or repeated;
* **`selected_versions_are_the_highest`** -- the highest required version is selected for whatever
  is required, and no rearrangement changes it.
-/

namespace Isolation

/-! ## 1. The requirements looked at so far -/

theorem Version.atLeast_iff {v w : Version} : v.atLeast w = true ↔ (w.compare v).isLE := by
  have hswap : w.compare v = (v.compare w).swap := Std.OrientedCmp.eq_swap
  rw [atLeast, hswap]
  cases v.compare w <;> decide

/-- The higher of two versions is one of them, and the other is no higher. -/
theorem Version.highest_cases (s v : Version) :
    highest (some s) v = s ∧ (v.compare s).isLE ∨ highest (some s) v = v ∧ (s.compare v).isLE := by
  by_cases h : s.atLeast v = true
  · exact Or.inl ⟨if_pos h, atLeast_iff.mp h⟩
  · refine Or.inr ⟨if_neg h, ?_⟩
    rw [show s.compare v = .lt by rwa [atLeast, bne_iff_ne, not_not] at h]
    rfl

/-- What is to be selected for an identity among some requirements: the highest version that is
    required of it, or nothing where none is. -/
def Selects (rs : List ScannedRequirement) (id : Identity) : Option Version → Prop
  | none => ∀ r ∈ rs, r.id ≠ id
  | some v => (∃ r ∈ rs, r.id = id ∧ r.version = v) ∧
      ∀ r ∈ rs, r.id = id → (r.version.compare v).isLE

section Selects

variable {rs : List ScannedRequirement} {id : Identity} {selected : Option Version}
  {r : ScannedRequirement}

/-- With one more requirement of the identity the higher of the two versions is the highest. -/
theorem Selects.concat (h : Selects rs id selected) (hr : r.id = id) :
    Selects (rs ++ [r]) id (some (highest selected r.version)) := by
  have hlast : r ∈ rs ++ [r] := List.mem_append_right _ (List.mem_singleton_self r)
  -- no version is higher than the new one if none of those before it is
  have hforall : ∀ w : Version, (∀ q ∈ rs, q.id = id → (q.version.compare w).isLE) →
      (r.version.compare w).isLE → ∀ q ∈ rs ++ [r], q.id = id → (q.version.compare w).isLE := by
    intro w hbefore hnew q hq hid
    rcases List.mem_append.mp hq with hq | hq
    · exact hbefore q hq hid
    · rw [List.mem_singleton.mp hq]
      exact hnew
  cases selected with
  | none =>
    exact ⟨⟨r, hlast, hr, rfl⟩,
      hforall _ (fun q hq hid => absurd hid (h q hq)) Std.ReflCmp.isLE_rfl⟩
  | some v =>
    obtain ⟨⟨q, hq, hid, hv⟩, hle⟩ := h
    rcases Version.highest_cases v r.version with ⟨e, hlow⟩ | ⟨e, hlow⟩
    · rw [e]
      exact ⟨⟨q, List.mem_append_left _ hq, hid, hv⟩, hforall v hle hlow⟩
    · rw [e]
      exact ⟨⟨r, hlast, hr, rfl⟩, hforall _
        (fun p hp hpid => Std.TransCmp.isLE_trans (hle p hp hpid) hlow) Std.ReflCmp.isLE_rfl⟩

/-- A requirement of another identity makes no difference. -/
theorem Selects.concat_of_ne (h : Selects rs id selected) (hr : r.id ≠ id) :
    Selects (rs ++ [r]) id selected := by
  have hmem : ∀ q ∈ rs ++ [r], q.id = id → q ∈ rs := by
    intro q hq hid
    rcases List.mem_append.mp hq with hq | hq
    · exact hq
    · exact absurd (List.mem_singleton.mp hq ▸ hid) hr
  cases selected with
  | none => exact fun q hq hid => h q (hmem q hq hid) hid
  | some v =>
    obtain ⟨⟨q, hq, hid, hv⟩, hle⟩ := h
    exact ⟨⟨q, List.mem_append_left _ hq, hid, hv⟩, fun p hp hpid => hle p (hmem p hp hpid) hpid⟩

/-- Along a list of requirements the highest version of those looked at so far is selected. -/
theorem selects_foldl {seen rest : List ScannedRequirement} {m : NameMap Version}
    (h : ∀ id, Selects seen id (m.get? id)) (id : Identity) :
    Selects (seen ++ rest) id
      ((rest.foldl (fun m r => m.put r.id (highest (m.get? r.id) r.version)) m).get? id) := by
  induction rest generalizing seen m with
  | nil =>
    rw [List.append_nil]
    exact h id
  | cons r rest ih =>
    rw [List.append_cons, List.foldl_cons]
    refine ih fun id => ?_
    rw [NameMap.get?_put]
    split
    · rename_i hr
      exact hr ▸ (h r.id).concat rfl
    · rename_i hr
      exact (h id).concat_of_ne hr

end Selects

/-! ## 2. The requirements of a scan -/

variable {scanned scanned' : List ScannedModule} {id : Identity} {v w : Version}

/-- Some scanned module requires an identity at this version, directly or not. -/
def RequiredAt (scanned : List ScannedModule) (id : Identity) (v : Version) : Prop :=
  ∃ s ∈ scanned, ∃ r ∈ s.requires, r.id = id ∧ r.version = v

/-- The version is required of the identity, and none is required of it that is higher. -/
structure HighestRequired (scanned : List ScannedModule) (id : Identity) (v : Version) : Prop where
  required : RequiredAt scanned id v
  highest : ∀ w, RequiredAt scanned id w → (w.compare v).isLE

theorem requiredAt_iff : RequiredAt scanned id v ↔
    ∃ r ∈ scanned.flatMap ScannedModule.requires, r.id = id ∧ r.version = v := by
  simp only [RequiredAt, List.mem_flatMap]
  constructor
  · rintro ⟨s, hs, r, hr, hid, hv⟩
    exact ⟨r, ⟨s, hs, hr⟩, hid, hv⟩
  · rintro ⟨r, ⟨s, hs, hr⟩, hid, hv⟩
    exact ⟨s, hs, r, hr, hid, hv⟩

theorem highestRequired_iff : HighestRequired scanned id v ↔
    Selects (scanned.flatMap ScannedModule.requires) id (some v) := by
  constructor
  · rintro ⟨hrequired, hhighest⟩
    exact ⟨requiredAt_iff.mp hrequired, fun r hr hid =>
      hhighest _ (requiredAt_iff.mpr ⟨r, hr, hid, rfl⟩)⟩
  · rintro ⟨hrequired, hhighest⟩
    refine ⟨requiredAt_iff.mpr hrequired, fun w hw => ?_⟩
    obtain ⟨r, hr, hid, rfl⟩ := requiredAt_iff.mp hw
    exact hhighest r hr hid

/-- **There is no second highest version.** -/
theorem HighestRequired.unique (hv : HighestRequired scanned id v)
    (hw : HighestRequired scanned id w) : v = w :=
  Version.compare_eq_iff.mp
    (Std.OrientedCmp.isLE_antisymm (hw.highest v hv.required) (hv.highest w hw.required))

theorem selects_selectVersions (scanned : List ScannedModule) (id : Identity) :
    Selects (scanned.flatMap ScannedModule.requires) id ((selectVersions scanned).get? id) := by
  have hnone : ∀ id, Selects [] id (NameMap.get? Register.empty id) :=
    fun _ _ hr => absurd hr List.not_mem_nil
  exact selects_foldl hnone id

theorem exists_selected_iff : (∃ v, (selectVersions scanned).get? id = some v) ↔
    ∃ s ∈ scanned, ∃ r ∈ s.requires, r.id = id := by
  have hselects := selects_selectVersions scanned id
  constructor
  · rintro ⟨v, hv⟩
    rw [hv] at hselects
    obtain ⟨s, hs, r, hr, hid, _⟩ := (highestRequired_iff.mpr hselects).required
    exact ⟨s, hs, r, hr, hid⟩
  · rintro ⟨s, hs, r, hr, hid⟩
    cases hv : (selectVersions scanned).get? id with
    | some v => exact ⟨v, rfl⟩
    | none =>
      rw [hv] at hselects
      exact absurd hid (hselects r (List.mem_flatMap.mpr ⟨s, hs, hr⟩))

/-- **What is selected is the highest version that is required.** -/
theorem get?_selectVersions_iff :
    (selectVersions scanned).get? id = some v ↔ HighestRequired scanned id v := by
  have hhighest : ∀ {w}, (selectVersions scanned).get? id = some w →
      HighestRequired scanned id w := by
    intro w hw
    have hselects := selects_selectVersions scanned id
    rw [hw] at hselects
    exact highestRequired_iff.mpr hselects
  refine ⟨hhighest, fun h => ?_⟩
  obtain ⟨s, hs, r, hr, hid, _⟩ := h.required
  obtain ⟨w, hw⟩ := exists_selected_iff.mpr ⟨s, hs, r, hr, hid⟩
  rw [hw, (hhighest hw).unique h]

/-- **All that counts is which versions are required of which identities.** -/
theorem selectVersions_congr (h : ∀ id v, RequiredAt scanned' id v ↔ RequiredAt scanned id v) :
    selectVersions scanned' = selectVersions scanned := by
  refine NameMap.ext_get? fun id => Option.ext fun v => ?_
  rw [get?_selectVersions_iff, get?_selectVersions_iff]
  constructor
  · rintro ⟨hrequired, hhighest⟩
    exact ⟨(h id v).mp hrequired, fun w hw => hhighest w ((h id w).mpr hw)⟩
  · rintro ⟨hrequired, hhighest⟩
    exact ⟨(h id v).mpr hrequired, fun w hw => hhighest w ((h id w).mp hw)⟩

/-! ## 3. Rearrangements -/

/-- Modules or requirements come in another order, or the first module's requirement moves to the
    second one, or is repeated there. -/
inductive Rearranges : List ScannedModule → List ScannedModule → Prop where
  | reordered {scanned scanned' : List ScannedModule} (h : Reorders scanned scanned') :
    Rearranges scanned scanned'
  | moved {s t : ScannedModule} {r : ScannedRequirement} {rs : List ScannedRequirement}
    (rest : List ScannedModule) (h : s.requires = r :: rs) :
    Rearranges (s :: t :: rest)
      ({ s with requires := rs } :: { t with requires := r :: t.requires } :: rest)
  | repeated {s t : ScannedModule} {r : ScannedRequirement} (rest : List ScannedModule)
    (h : r ∈ s.requires) :
    Rearranges (s :: t :: rest) (s :: { t with requires := r :: t.requires } :: rest)

/-- A rearrangement neither adds nor drops a requirement. -/
theorem Rearranges.mem_iff (h : Rearranges scanned scanned') {r : ScannedRequirement} :
    r ∈ scanned'.flatMap ScannedModule.requires ↔
      r ∈ scanned.flatMap ScannedModule.requires := by
  cases h with
  | reordered h =>
    have hiff := fun a => h.exists_requirement_iff (a := a) (r := r)
    simp only [List.mem_flatMap]
    constructor
    · rintro ⟨s, hs, hr⟩
      obtain ⟨s', hs', _, hr'⟩ := (hiff s.id).mpr ⟨s, hs, rfl, hr⟩
      exact ⟨s', hs', hr'⟩
    · rintro ⟨s, hs, hr⟩
      obtain ⟨s', hs', _, hr'⟩ := (hiff s.id).mp ⟨s, hs, rfl, hr⟩
      exact ⟨s', hs', hr'⟩
  | moved rest h =>
    simp only [List.flatMap_cons, List.mem_append, List.mem_cons, h]
    tauto
  | @repeated s t q rest h =>
    simp only [List.flatMap_cons, List.mem_append, List.mem_cons]
    constructor
    · rintro (hr | (rfl | hr) | hr)
      · exact Or.inl hr
      · exact Or.inl h
      · exact Or.inr (Or.inl hr)
      · exact Or.inr (Or.inr hr)
    · rintro (hr | hr | hr)
      · exact Or.inl hr
      · exact Or.inr (Or.inl (Or.inr hr))
      · exact Or.inr (Or.inr hr)

theorem requiredAt_iff_of_rearranged (h : Relation.ReflTransGen Rearranges scanned scanned') :
    RequiredAt scanned' id v ↔ RequiredAt scanned id v := by
  induction h with
  | refl => exact Iff.rfl
  | tail _ hlast ih =>
    rw [← ih, requiredAt_iff, requiredAt_iff]
    simp only [hlast.mem_iff]

/-- **For whatever is required, the highest version at which it is required is selected**, and for
    nothing else. Which modules require it makes no difference, nor how often and in which order:
    the selection, with the texts of its versions, stays the same when requirements are rearranged,
    and whenever the same versions are required of every identity. -/
theorem selected_versions_are_the_highest (scanned : List ScannedModule) :
    (∀ id, (∃ v, (selectVersions scanned).get? id = some v) ↔
      ∃ s ∈ scanned, ∃ r ∈ s.requires, r.id = id) ∧
    (∀ id v, (selectVersions scanned).get? id = some v ↔ HighestRequired scanned id v) ∧
    (∀ scanned', Relation.ReflTransGen Rearranges scanned scanned' →
      selectVersions scanned' = selectVersions scanned) ∧
    ∀ scanned', (∀ id v, RequiredAt scanned' id v ↔ RequiredAt scanned id v) →
      selectVersions scanned' = selectVersions scanned :=
  ⟨fun _ => exists_selected_iff, fun _ _ => get?_selectVersions_iff,
    fun _ h => selectVersions_congr fun _ _ => requiredAt_iff_of_rearranged h,
    fun _ h => selectVersions_congr h⟩

/-- A scan in which a library is required at two spellings of one release and at a hash. -/
def spelledThrice : List ScannedModule :=
  [⟨"x", "x", [⟨"lib", ⟨"1.10.0"⟩, false⟩]⟩, ⟨"y", "y", [⟨"lib", ⟨"v1.10.0"⟩, true⟩]⟩,
    ⟨"z", "z", [⟨"lib", ⟨"v1.9.0"⟩, false⟩, ⟨"lib", ⟨"ffff"⟩, false⟩]⟩]

/-- The texts decide between the two spellings, from whichever end the modules are looked at. -/
theorem selected_version_of_three_spellings :
    HighestRequired spelledThrice "lib" ⟨"v1.10.0"⟩ ∧
      selectVersions spelledThrice.reverse = selectVersions spelledThrice := by
  obtain ⟨_, hhighest, hrearranged, _⟩ := selected_versions_are_the_highest spelledThrice
  have hselected : (selectVersions spelledThrice).get? "lib" = some ⟨"v1.10.0"⟩ := by
    decide +kernel
  exact ⟨(hhighest _ _).mp hselected,
    hrearranged _ (.single (.reordered (.modules (List.reverse_perm _).symm)))⟩

end Isolation
