import Isolation.Proofs.InheritedTiers

/-!
# Which declarations are accepted

A module is declared by an identity, a tier and a list of dependencies. Each of the three has its
rules, and a declaration that breaks several is refused for the first one. This file fixes:

* `Module.Admissible` -- the rules, as they are stated for declarations: identities are not blank,
  the tier is not negative, and nothing depends on itself;
* `Module.FirstDefect` -- what is reported, and in which words: the identity comes before the tier,
  and the tier before the dependencies in their order (`dependencyDefect?_eq_some_iff`);
* **`declaration_is_judged_rule_by_rule`** -- a declaration is accepted exactly if it is admissible
  and its tier fits 32 bits; otherwise its first defect is reported;
* `foldlM_takeDependency` -- looking for a defect first and collecting the dependencies afterwards
  comes to the same as checking each dependency where it is collected.

**The bound of 32 bits is no rule of the first kind**: a tier beyond it is refused as if it were
negative (`admissible_declaration_is_refused`).
-/

namespace Isolation

namespace Module

variable {id : Identity} {tier : Int} {ds : List Identity} {version : Option Version}
variable {defect : Defect} {f : Fault}

/-! ## 1. The rules -/

/-- The rules for what a module declares. -/
structure Admissible (id : Identity) (tier : Int) (ds : List Identity) : Prop where
  named : Text.isBlankText id = false
  tier_nonneg : 0 ≤ tier
  dependency_named : ∀ d ∈ ds, Text.isBlankText d = false
  not_self : id ∉ ds

/-- Dependencies that break no rule. -/
def Sound (id : Identity) (ds : List Identity) : Prop :=
  ∀ d ∈ ds, Text.isBlankText d = false ∧ d ≠ id

theorem sound_iff : Sound id ds ↔ (∀ d ∈ ds, Text.isBlankText d = false) ∧ id ∉ ds := by
  constructor
  · intro h
    exact ⟨fun d hd => (h d hd).1, fun hid => (h id hid).2 rfl⟩
  · rintro ⟨hnamed, hself⟩ d hd
    exact ⟨hnamed d hd, fun e => hself (e ▸ hd)⟩

/-- The first rule that a declaration breaks: the defect, and the words for it. -/
inductive FirstDefect (id : Identity) (tier : Int) (ds : List Identity) :
    Defect → String → Prop where
  | identity (hid : Text.isBlankText id = true) :
    FirstDefect id tier ds .blankIdentity "module identity is empty"
  | tier (hid : Text.isBlankText id = false) (ht : OutOfRange tier) :
    FirstDefect id tier ds (.tierOutOfRange tier)
      ("tier must be a non-negative integer, got " ++ toString tier)
  | blankDependency {before after : List Identity} {d : Identity}
    (hid : Text.isBlankText id = false) (ht : ¬ OutOfRange tier) (hds : ds = before ++ d :: after)
    (hbefore : Sound id before) (hd : Text.isBlankText d = true) :
    FirstDefect id tier ds .blankDependency "dependency identity is empty"
  | selfDependency {before after : List Identity}
    (hid : Text.isBlankText id = false) (ht : ¬ OutOfRange tier) (hds : ds = before ++ id :: after)
    (hbefore : Sound id before) :
    FirstDefect id tier ds .selfDependency "a module cannot depend on itself"

/-! ## 2. The first bad dependency -/

theorem dependencyDefect?_append (h : Sound id ds) (rest : List Identity) :
    dependencyDefect? id (ds ++ rest) = dependencyDefect? id rest := by
  induction ds with
  | nil => rfl
  | cons d ds ih =>
    obtain ⟨⟨hnamed, hother⟩, hds⟩ := List.forall_mem_cons.mp h
    have hblank : ¬ Text.isBlankText d = true := Bool.not_eq_true _ ▸ hnamed
    rw [List.cons_append, dependencyDefect?, if_neg hblank, if_neg hother, ih hds]

/-- **A defect of a list is that of one entry**, and the entries before it are sound. -/
theorem dependencyDefect?_eq_some_iff : dependencyDefect? id ds = some defect ↔
    ∃ before d after, ds = before ++ d :: after ∧ Sound id before ∧
      (Text.isBlankText d = true ∧ defect = .blankDependency ∨
        Text.isBlankText d = false ∧ d = id ∧ defect = .selfDependency) := by
  constructor
  · intro h
    induction ds with
    | nil => cases h
    | cons d ds ih =>
      rw [dependencyDefect?] at h
      split at h
      · rename_i hblank
        cases h
        exact ⟨[], d, ds, rfl, List.forall_mem_nil _, Or.inl ⟨hblank, rfl⟩⟩
      · rename_i hblank
        have hnamed : Text.isBlankText d = false := Bool.eq_false_iff.mpr hblank
        split at h
        · rename_i hself
          cases h
          exact ⟨[], d, ds, rfl, List.forall_mem_nil _, Or.inr ⟨hnamed, hself, rfl⟩⟩
        · rename_i hother
          obtain ⟨before, e, after, rfl, hbefore, he⟩ := ih h
          exact ⟨d :: before, e, after, rfl,
            List.forall_mem_cons.mpr ⟨⟨hnamed, hother⟩, hbefore⟩, he⟩
  · rintro ⟨before, d, after, rfl, hbefore, hd⟩
    rw [dependencyDefect?_append hbefore, dependencyDefect?]
    rcases hd with ⟨hblank, rfl⟩ | ⟨hnamed, rfl, rfl⟩
    · rw [if_pos hblank]
    · rw [if_neg (by rw [hnamed]; exact Bool.false_ne_true), if_pos rfl]

/-! ## 3. One pass over the dependencies -/

/-- Take one more dependency behind those that were taken, unless it is a bad one. -/
def takeDependency (id : Identity) (taken : List Identity) (d : Identity) :
    Except Defect (List Identity) :=
  if Text.isBlankText d then .error .blankDependency
  else if d = id then .error .selfDependency
  else .ok (pushNew taken d)

/-- **Checking each dependency where it is taken comes to the same**: the pass stops with the first
    defect, or has collected every dependency once. -/
theorem foldlM_takeDependency (taken : List Identity) : ds.foldlM (takeDependency id) taken =
    match dependencyDefect? id ds with
    | some defect => .error defect
    | none => .ok (ds.foldl pushNew taken) := by
  induction ds generalizing taken with
  | nil => rfl
  | cons d ds ih =>
    rw [List.foldlM_cons, takeDependency, dependencyDefect?]
    split
    · rfl
    · split
      · rfl
      · exact ih _

/-! ## 4. Declaring -/

theorem not_outOfRange_iff : ¬ OutOfRange tier ↔ 0 ≤ tier ∧ tier < tierLimit := by
  unfold OutOfRange
  omega

/-- **A declaration makes a module exactly if it is admissible and its tier fits 32 bits.** -/
theorem exists_declare_iff : (∃ m, declare id tier ds version = .ok m) ↔
    Admissible id tier ds ∧ tier < tierLimit := by
  constructor
  · rintro ⟨m, hm⟩
    obtain ⟨rfl, rfl, hds, _, _⟩ := Declaration.of_declare hm
    have hmem : ∀ d, d ∈ m.dependencies ↔ d ∈ ds := fun d => by rw [hds, mem_distinct]
    exact ⟨⟨m.id_named, Int.natCast_nonneg _,
      fun d hd => m.dependency_named d ((hmem d).mpr hd),
      fun hd => m.not_self ((hmem _).mpr hd)⟩, Int.ofNat_lt.mpr m.tier_lt⟩
  · rintro ⟨h, hlt⟩
    exact Declaration.exists_declare h.named ⟨h.tier_nonneg, hlt⟩ h.dependency_named h.not_self

theorem declare_of_blank (hid : Text.isBlankText id = true) :
    declare id tier ds version = .error (.invalidManifest id .blankIdentity) :=
  dif_pos hid

theorem declare_of_outOfRange (hid : Text.isBlankText id = false) (ht : OutOfRange tier) :
    declare id tier ds version = .error (.invalidManifest id (.tierOutOfRange tier)) := by
  have hrange : ¬ (0 ≤ tier ∧ tier < tierLimit) := fun h => not_outOfRange_iff.mpr h ht
  rw [declare, dif_neg (by rw [hid]; exact Bool.false_ne_true), dif_neg hrange]

theorem declare_of_defect (hid : Text.isBlankText id = false) (ht : ¬ OutOfRange tier)
    (hdefect : dependencyDefect? id ds = some defect) :
    declare id tier ds version = .error (.invalidManifest id defect) := by
  rw [declare, dif_neg (by rw [hid]; exact Bool.false_ne_true), dif_pos (not_outOfRange_iff.mp ht)]
  split
  · rename_i found
    rw [hdefect] at found
    cases found
    rfl
  · rename_i none_found
    rw [hdefect] at none_found
    cases none_found

/-- What is refused breaks a rule, and is refused for the first that it breaks. -/
theorem exists_firstDefect (h : declare id tier ds version = .error f) :
    ∃ defect reason, FirstDefect id tier ds defect reason ∧ f = .invalidManifest id defect := by
  cases hid : Text.isBlankText id with
  | true =>
    rw [declare_of_blank hid] at h
    exact ⟨_, _, .identity hid, (Except.error.inj h).symm⟩
  | false =>
    by_cases ht : OutOfRange tier
    · rw [declare_of_outOfRange hid ht] at h
      exact ⟨_, _, .tier hid ht, (Except.error.inj h).symm⟩
    · cases hdefect : dependencyDefect? id ds with
      | none =>
        obtain ⟨hnonneg, hlt⟩ := not_outOfRange_iff.mp ht
        obtain ⟨hnamed, hself⟩ := sound_iff.mp (dependencyDefect?_eq_none_iff.mp hdefect)
        obtain ⟨m, hm⟩ := exists_declare_iff.mpr ⟨⟨hid, hnonneg, hnamed, hself⟩, hlt⟩
        cases hm.symm.trans h
      | some defect =>
        rw [declare_of_defect hid ht hdefect] at h
        obtain ⟨before, d, after, hds, hbefore, hd⟩ := dependencyDefect?_eq_some_iff.mp hdefect
        rcases hd with ⟨hblank, rfl⟩ | ⟨_, rfl, rfl⟩
        · exact ⟨_, _, .blankDependency hid ht hds hbefore hblank, (Except.error.inj h).symm⟩
        · exact ⟨_, _, .selfDependency hid ht hds hbefore, (Except.error.inj h).symm⟩

theorem FirstDefect.declare_eq {reason : String} (h : FirstDefect id tier ds defect reason) :
    declare id tier ds version = .error (.invalidManifest id defect) := by
  cases h with
  | identity hid => exact declare_of_blank hid
  | tier hid ht => exact declare_of_outOfRange hid ht
  | blankDependency hid ht hds hbefore hd =>
    exact declare_of_defect hid ht
      (dependencyDefect?_eq_some_iff.mpr ⟨_, _, _, hds, hbefore, Or.inl ⟨hd, rfl⟩⟩)
  | selfDependency hid ht hds hbefore =>
    exact declare_of_defect hid ht
      (dependencyDefect?_eq_some_iff.mpr ⟨_, _, _, hds, hbefore, Or.inr ⟨hid, rfl, rfl⟩⟩)

/-- The fault names the module and gives the reason in words. -/
theorem FirstDefect.message_eq {reason : String} (h : FirstDefect id tier ds defect reason) :
    (Fault.invalidManifest id defect).message =
      "Invalid manifest for '" ++ id ++ "': " ++ reason := by
  cases h <;> rfl

/-- **A declaration is judged rule by rule**: the identity first, the tier next, and then the
    dependencies in their order. It makes a module, which has what was declared, exactly if it is
    admissible and its tier fits 32 bits. Otherwise the fault names the module that was declared and
    gives the first rule that is broken. -/
theorem declaration_is_judged_rule_by_rule (id : Identity) (tier : Int) (ds : List Identity)
    (version : Option Version) :
    ((∃ m, declare id tier ds version = .ok m) ↔ Admissible id tier ds ∧ tier < tierLimit) ∧
    (∀ m, declare id tier ds version = .ok m → m.id = id ∧ (m.tier : Int) = tier ∧
      m.dependencies = distinct ds ∧ m.version = version ∧ m.ownKey = none) ∧
    ∀ f, declare id tier ds version = .error f ↔
      ∃ defect reason, FirstDefect id tier ds defect reason ∧ f = .invalidManifest id defect ∧
        f.message = "Invalid manifest for '" ++ id ++ "': " ++ reason := by
  refine ⟨exists_declare_iff, fun m hm => Declaration.of_declare hm, fun f => ?_⟩
  constructor
  · intro h
    obtain ⟨defect, reason, hfirst, rfl⟩ := exists_firstDefect h
    exact ⟨defect, reason, hfirst, rfl, hfirst.message_eq⟩
  · rintro ⟨defect, reason, hfirst, rfl, _⟩
    exact hfirst.declare_eq

/-- The first tier beyond 32 bits is not negative, and the module is refused all the same, in the
    words for a negative one. -/
theorem admissible_declaration_is_refused :
    Admissible "app" 4294967296 [] ∧
    (¬ ∃ m, declare "app" 4294967296 [] none = .ok m) ∧
    declare "app" 4294967296 [] none =
      .error (.invalidManifest "app" (.tierOutOfRange 4294967296)) ∧
    (Fault.invalidManifest "app" (.tierOutOfRange 4294967296)).message =
      "Invalid manifest for 'app': tier must be a non-negative integer, got 4294967296" := by
  have hnamed : Text.isBlankText "app" = false := by decide
  have hrefused : declare "app" 4294967296 [] none =
      .error (.invalidManifest "app" (.tierOutOfRange 4294967296)) :=
    declare_of_outOfRange hnamed (Or.inr (by decide))
  refine ⟨⟨hnamed, by decide, nofun, nofun⟩, ?_, hrefused, by decide⟩
  rintro ⟨m, hm⟩
  cases hrefused.symm.trans hm

end Module

end Isolation
