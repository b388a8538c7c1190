import Isolation.Graph
import Isolation.Tiers

/-!
# From scan and configuration to modules

Where modules were scanned, each becomes a module with the requirements it was found with; a
matching declaration gives it its tier, version and resolution key, as far as it declares them. What
is not declared is derived: the tier from the requirements, the version as the highest that any
scanned module requires. Declarations without a scanned module come after the scanned modules, in
ascending order, and have to be complete. Where nothing was scanned, the declarations are the
modules.
-/

namespace Isolation

/-- The highest of a version and the one selected so far, if there is one. -/
def highest (selected : Option Version) (v : Version) : Version :=
  match selected with
  | some s => if s.atLeast v then s else v
  | none => v

/-- For every identity that is required, the highest version at which it is. -/
def selectVersions (scanned : List ScannedModule) : NameMap Version :=
  (scanned.flatMap ScannedModule.requires).foldl
    (fun m r => m.put r.id (highest (m.get? r.id) r.version)) Register.empty

/-- The module of a scanned module. -/
def scannedManifest (c : Config) (tiers : NameMap Int64) (selected : NameMap Version)
    (s : ScannedModule) : Except Fault Module :=
  let declared := (c.modules.get? s.id).getD {}
  let merged : Declaration :=
    { declared with
      dependencies := s.dependencyIds
      version := declared.version.or ((selected.get? s.id).map Version.text) }
  merged.toModule s.id ((tiers.get? s.id).getD 0)

/-- The validated modules of a scan and a configuration. -/
def manifests (c : Config) (scanned : List ScannedModule) : Except Fault (List Module) :=
  if scanned.isEmpty then c.declaredModules
  else do
    let tiers := deriveTiers scanned c.pinnedTiers
    let selected := selectVersions scanned
    let found ← scanned.mapM (scannedManifest c tiers selected)
    let seen : NameSet := Register.ofList (scanned.map ScannedModule.id)
    let others := c.modules.toList.filter fun p => !seen.has p.1
    let declared ← others.mapM fun p =>
      Config.declaredModule .undeclaredTierUnscanned p.1 p.2
    return found ++ declared

/-- The graph of a repository. -/
def loadGraph (v : Files.Volume) (root : String) (c : Config) : Except Failure Graph := do
  let scanned ← scan v root c
  let modules ← orFault (manifests c scanned)
  orFault (Graph.build modules)

end Isolation
