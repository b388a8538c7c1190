import Isolation.Bound
import Isolation.Bundle
import Isolation.Module

/-!
# Configurations

A verification request as it is configured: where modules are found, which modules are declared and
which tiers are pinned, the bounds and bundles to check, and how the toolchain is called. Every part
may be absent and then has a default. This module holds the settings and what follows from them; how
they are written is the matter of `Isolation.Config.Reading`.
-/

namespace Isolation

/-- Where modules are looked for. -/
structure Workspace where
  /-- The beginning of every module path of the repository. -/
  space : Option String := none
  /-- The directories that are scanned; none disables scanning. -/
  included : List String := []
  /-- The files that are passed over. -/
  excluded : List String := []
deriving Repr, DecidableEq

/-- What is configured about a module; for a scanned module it may be its tier alone. -/
structure Declaration where
  tier : Option Int64 := none
  dependencies : List Identity := []
  version : Option String := none
  key : Option String := none
deriving Repr, DecidableEq

/-- A configured bundle. -/
structure BundleDeclaration where
  name : Option String := none
  members : List Identity
deriving Repr, DecidableEq

/-- How the toolchain is called. -/
structure ToolchainSettings where
  program : String := "go"
  /-- The version at which consumers require every module. -/
  version : String := "v0.1.0"
  /-- Variables set on top of the inherited environment. -/
  env : NameMap String := Register.empty
deriving DecidableEq

/-- A verification request. -/
structure Config where
  workspace : Workspace := {}
  modules : NameMap Declaration := Register.empty
  bounds : NameMap Bound := Register.empty
  bundles : List BundleDeclaration := []
  toolchain : ToolchainSettings := {}

/-- The module that a declaration makes, with a given tier. -/
def Declaration.toModule (d : Declaration) (id : Identity) (tier : Int64) :
    Except Fault Module := do
  let m ← Module.declare id tier.toInt d.dependencies (d.version.map Version.ofText)
  match d.key with
  | some key => m.withKey key
  | none => return m

namespace Config

/-- Whether modules are looked for in files. -/
def scans (c : Config) : Bool := !c.workspace.included.isEmpty

/-- The module of a declaration that has to have a tier of its own. -/
def declaredModule (missing : Defect) (id : Identity) (d : Declaration) : Except Fault Module :=
  match d.tier with
  | some tier => d.toModule id tier
  | none => .error (.invalidManifest id missing)

/-- The declared modules, in ascending order of their identities. -/
def declaredModules (c : Config) : Except Fault (List Module) :=
  c.modules.toList.mapM fun p => declaredModule .undeclaredTier p.1 p.2

/-- The tiers that are declared. -/
def pinnedTiers (c : Config) : NameMap Int64 :=
  (c.modules.toList.filterMap fun p => p.2.tier.map (p.1, ·)).foldl
    (fun m p => NameMap.put m p.1 p.2) Register.empty

/-- The bounds by root, in ascending order. -/
def tierBounds (c : Config) : List (Identity × Bound) := c.bounds.toList

/-- The bundles in order. -/
def importBundles (c : Config) : List Bundle :=
  c.bundles.map fun b => Bundle.ofMembers b.members b.name

end Config

end Isolation
