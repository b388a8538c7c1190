import Isolation.Identity

/-!
# Faults of a module set

What can be wrong with a set of module declarations, or with a question about one. A fault carries
its causes, and `Fault.message` is the one place where it is worded. All faults but
`Fault.unknownModule` are structural: with them there is no graph to ask.
-/

namespace Isolation

/-- What is wrong with a single declaration. -/
inductive Defect where
  /-- The identity is empty or white space. -/
  | blankIdentity
  /-- The tier is negative or does not fit 32 bits. -/
  | tierOutOfRange (tier : Int)
  /-- A dependency is empty or white space. -/
  | blankDependency
  /-- The module lists itself. -/
  | selfDependency
  /-- The resolution key is empty or white space. -/
  | blankResolutionKey
  /-- The declaration has no tier. -/
  | undeclaredTier
  /-- The declaration has no tier, and no scanned module has its identity. -/
  | undeclaredTierUnscanned
  /-- A reason given in words. -/
  | stated (reason : String)
deriving DecidableEq, Repr

/-- The wording of a defect. -/
def Defect.message : Defect → String
  | .blankIdentity => "module identity is empty"
  | .tierOutOfRange tier => s!"tier must be a non-negative integer, got {tier}"
  | .blankDependency => "dependency identity is empty"
  | .selfDependency => "a module cannot depend on itself"
  | .blankResolutionKey => "resolution key is empty"
  | .undeclaredTier => "tier is not declared"
  | .undeclaredTierUnscanned => "tier is not declared and the module was not found by scanning"
  | .stated reason => reason

/-- What is wrong with a set of declarations. -/
inductive Fault where
  /-- A declaration is malformed in itself. -/
  | invalidManifest (module : Identity) (defect : Defect)
  /-- Two declarations have the same identity. -/
  | duplicateModule (module : Identity)
  /-- A dependency names no declared module. -/
  | unresolvedDependency (module dependency : Identity)
  /-- The dependencies run in a circle; the last identity repeats the first. -/
  | cyclicDependency (cycle : List Identity)
  /-- A module does not lie strictly above one of its dependencies. -/
  | tierInversion (module : Identity) (tier : Nat) (dependency : Identity) (dependencyTier : Nat)
  /-- A question names no module of the graph. -/
  | unknownModule (module : Identity)
deriving DecidableEq, Repr

namespace Fault

/-- The wording of a fault. -/
def message : Fault → String
  | invalidManifest module defect =>
    let reason := defect.message
    s!"Invalid manifest for '{module}': {reason}"
  | duplicateModule module => s!"Module '{module}' is declared more than once"
  | unresolvedDependency module dependency =>
    s!"Module '{module}' depends on '{dependency}', which is not declared"
  | cyclicDependency cycle => "Dependency cycle detected: " ++ Text.joined " -> " cycle
  | tierInversion module tier dependency dependencyTier =>
    s!"Module '{module}' (tier {tier}) depends on '{dependency}' (tier {dependencyTier}); "
      ++ "a module's tier must be greater than every dependency's tier"
  | unknownModule module => s!"Unknown module '{module}'"

/-- The stable code under which a fault is reported. -/
def code : Fault → String
  | invalidManifest .. => "modguard::invalid_manifest"
  | duplicateModule .. => "modguard::duplicate_module"
  | unresolvedDependency .. => "modguard::unresolved_dependency"
  | cyclicDependency .. => "modguard::cyclic_dependency"
  | tierInversion .. => "modguard::tier_inversion"
  | unknownModule .. => "modguard::unknown_module"

/-- Advice on how to mend a fault. -/
def help? : Fault → Option String
  | unresolvedDependency .. =>
    some "Declare the missing module or remove it from the dependency list"
  | _ => none

/-- Whether a fault leaves no graph, rather than failing a single question. -/
def isStructural : Fault → Bool
  | unknownModule .. => false
  | _ => true

/-- The modules that a fault is about. -/
def subjects : Fault → List Identity
  | invalidManifest module _ => [module]
  | duplicateModule module => [module]
  | unresolvedDependency module dependency => [module, dependency]
  | cyclicDependency cycle => cycle.dropLast
  | tierInversion module _ dependency _ => [module, dependency]
  | unknownModule module => [module]

end Fault

end Isolation
