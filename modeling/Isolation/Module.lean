import Isolation.Distinct
import Isolation.Fault
import Isolation.Version

/-!
# Modules

A module of the repository: its identity, its tier, its direct dependencies, and optionally a
version and a resolution key. What a declaration has to satisfy in itself belongs to the type, so a
`Module` is always a well-formed one; what involves other modules (unresolved dependencies, cycles,
the order of the tiers) is decided where a graph is built.

`Module.declare` is the one way in from raw data. It checks the identity first, then the tier, then
the dependencies in the order in which they are listed, and reports the first rule that is violated.
-/

namespace Isolation

/-- Tiers fit 32 bits. -/
def tierLimit : Nat := 4294967296

/-- A well-formed module declaration. -/
structure Module where
  id : Identity
  tier : Nat
  /-- The direct dependencies, in the order of declaration. -/
  dependencies : List Identity
  version : Option Version := none
  /-- The key under which versions of this module compete, when it is not the identity. -/
  ownKey : Option String := none
  id_named : Text.isBlankText id = false
  tier_lt : tier < tierLimit
  dependency_named : ∀ d ∈ dependencies, Text.isBlankText d = false
  dependencies_nodup : dependencies.Nodup
  not_self : id ∉ dependencies
  key_named : ∀ k ∈ ownKey, Text.isBlankText k = false
deriving DecidableEq, Repr

namespace Module

/-! ## 1. Declaring a module -/

/-- What is wrong with the first bad entry of a dependency list. -/
def dependencyDefect? (id : Identity) : List Identity → Option Defect
  | [] => none
  | d :: ds =>
    if Text.isBlankText d then some .blankDependency
    else if d = id then some .selfDependency
    else dependencyDefect? id ds

theorem dependencyDefect?_eq_none_iff {id : Identity} {ds : List Identity} :
    dependencyDefect? id ds = none ↔ ∀ d ∈ ds, Text.isBlankText d = false ∧ d ≠ id := by
  induction ds with
  | nil => simp [dependencyDefect?]
  | cons d ds ih =>
    rw [dependencyDefect?]
    by_cases hb : Text.isBlankText d = true
    · simp [hb]
    · by_cases he : d = id
      · rw [if_neg hb, if_pos he]
        simp [he]
      · simp [hb, he, ih]

/-- A declaration, validated in isolation. Repeated dependencies are collapsed. -/
def declare (id : Identity) (tier : Int) (dependencies : List Identity)
    (version : Option Version) : Except Fault Module :=
  if hid : Text.isBlankText id = true then .error (.invalidManifest id .blankIdentity)
  else if ht : 0 ≤ tier ∧ tier < tierLimit then
    match hd : dependencyDefect? id dependencies with
    | some defect => .error (.invalidManifest id defect)
    | none => .ok
      { id
        tier := tier.toNat
        dependencies := distinct dependencies
        version
        id_named := by simpa using hid
        tier_lt := by omega
        dependency_named := fun d h =>
          (dependencyDefect?_eq_none_iff.mp hd d (mem_distinct.mp h)).1
        dependencies_nodup := nodup_distinct _
        not_self := fun h => (dependencyDefect?_eq_none_iff.mp hd id (mem_distinct.mp h)).2 rfl
        key_named := by simp }
  else .error (.invalidManifest id (.tierOutOfRange tier))

/-- A module that competes under its identity passes the checks of its own declaration. -/
theorem declare_of_ownKey (m : Module) (h : m.ownKey = none) :
    declare m.id m.tier m.dependencies m.version = .ok m := by
  have hdefect : dependencyDefect? m.id m.dependencies = none :=
    dependencyDefect?_eq_none_iff.mpr fun d hd =>
      ⟨m.dependency_named d hd, fun hself => m.not_self (hself ▸ hd)⟩
  have htier := m.tier_lt
  rw [declare, dif_neg (by simp [m.id_named]), dif_pos (by omega)]
  split
  · rename_i hd
    rw [hdefect] at hd
    cases hd
  · congr 1
    cases m
    cases h
    simp [distinct_of_nodup, *]

/-- The module under a resolution key other than its identity. -/
def withKey (m : Module) (key : String) : Except Fault Module :=
  if hk : Text.isBlankText key = true then .error (.invalidManifest m.id .blankResolutionKey)
  else .ok { m with ownKey := some key, key_named := by simpa using hk }

/-! ## 2. Reading a module -/

/-- The key under which versions of this module compete: its own, or its identity. -/
def key (m : Module) : String := m.ownKey.getD m.id

/-- The module as it is shown: its identity, with the version after `@` when it has one. -/
def label (m : Module) : String :=
  match m.version with
  | some v => m.id ++ "@" ++ v.text
  | none => m.id

/-- The version as it is shown where one has to be shown. -/
def versionText (version : Option Version) (absent : String) : String :=
  match version with
  | some v => v.text
  | none => absent

/-- Whether `d` is a direct dependency. -/
def dependsOn (m : Module) (d : Identity) : Bool := m.dependencies.contains d

end Module

end Isolation
