import Isolation.Manifests
import Isolation.Status

/-!
# The module inventory and the views of one module

What is shown of a graph: the list of its modules, and for one module its dependency tree, its
closure, its dependents, or the way from it to another module.
-/

namespace Isolation

/-! ## 1. The list of modules -/

/-- A module as a line of the list: identity, tier, version and direct dependencies in columns. -/
def inventoryLine (m : Module) : String :=
  let id := Text.padRight 40 m.id
  let tier := Text.padRight 3 (toString m.tier)
  let version := Text.padRight 10 (Module.versionText m.version "-")
  let dependencies := Text.joined ", " m.dependencies
  s!"{id} tier {tier} {version} [{dependencies}]\n"

/-- The list of the modules of a graph, announced by their number. -/
def Graph.inventory (g : Graph) : Printed :=
  let size := g.size
  let edges := g.edgeCount
  { out := String.join (g.modules.toList.map inventoryLine)
    err := statusLine "Found" s!"{size} module(s), {edges} edge(s)" }

/-- The list of the modules of a repository. -/
def list (v : Files.Volume) (root : String) (c : Config) : Except Failure Printed :=
  return (← loadGraph v root c).inventory

/-! ## 2. Views of one module -/

/-- What is to be shown of a module. Of several wishes the way to another module comes first, then
    the dependents, then the flat closure; the tree is shown when there is no wish. -/
structure TreeRequest where
  module : Identity
  /-- The depth of the tree. -/
  depth : Option Nat := none
  /-- Show the way to this module. -/
  why : Option Identity := none
  /-- Show the modules that depend on the module. -/
  inverted : Bool := false
  /-- Show the closure as a list. -/
  flat : Bool := false
deriving DecidableEq, Repr

/-- A way of dependencies, each module indented one step further than the one before. -/
def pathLines (indent : Nat) : List Module → String
  | [] => ""
  | m :: ms =>
    String.ofList (List.replicate (2 * indent) ' ') ++ m.label ++ "\n" ++ pathLines (indent + 1) ms

/-- What a request shows. -/
def Graph.view (g : Graph) (r : TreeRequest) : Except Fault String :=
  let module := r.module
  match r.why with
  | some target => do
    match ← g.path? module target with
    | some path => return s!"Path from {module} to {target}:\n" ++ pathLines 0 path
    | none => return s!"'{target}' is not a dependency of '{module}'.\n"
  | none =>
    if r.inverted then g.invertedTree module
    else if r.flat then do
      let members ← g.closure module
      let size := members.size
      return s!"{module} ({size} module(s))\n" ++
        String.join (members.toList.map fun id => s!"  {id}\n")
    else g.tree module r.depth

/-- What a request shows of a repository. -/
def tree (v : Files.Volume) (root : String) (c : Config) (r : TreeRequest) :
    Except Failure Printed := do
  let g ← loadGraph v root c
  return { out := ← orFault (g.view r) }

end Isolation
