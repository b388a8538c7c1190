import Isolation.Bundle
import Isolation.Closure.Memo
import Isolation.Sorting

/-!
# Ambiguous imports

When modules are imported together, their closures merge. A resolution key under which the merged
modules have more than one version is a conflict: the import it stands for is ambiguous. Having no
version is a version of its own here.

The conflicts of a bundle are listed by key. Each names all modules of its key, ordered by version
and then identity, and for each the bundle members that pull it in, so the list depends on which
members a bundle has and not on their order.
-/

namespace Isolation

/-- A module that competes for a resolution key. -/
structure Candidate where
  module : Identity
  version : Option Version
  /-- The bundle members whose import brings the module in. -/
  requestedBy : NameSet
deriving DecidableEq

/-- A resolution key that stands for more than one version. -/
structure Conflict where
  key : String
  candidates : List Candidate
deriving DecidableEq

/-- Candidates by version, then identity. -/
def Candidate.compare : Candidate → Candidate → Ordering :=
  compareLex (compareOn Candidate.version) (compareOn Candidate.module)

/-! ## 1. What a bundle merges -/

/-- The bundle members with their closures. -/
abbrev Pulled := List (Identity × NameSet)

/-- Ask for the closures of the members in order, up to the first that is unknown. -/
def gather : List Identity → Inquiry (Except Fault Pulled)
  | [] => .answer (.ok [])
  | root :: rest =>
    .ask root fun
      | .error f => .answer (.error f)
      | .ok c => (gather rest).map (Except.map ((root, c) :: ·))

/-- The members and everything in their closures. -/
def mergedIds (pulled : Pulled) : NameSet :=
  Register.ofList (pulled.flatMap fun p => p.1 :: p.2.toList)

/-- The members that pull a module in: the module itself, if it is one, and those with the module
    in their closures. -/
def requesters (pulled : Pulled) (id : Identity) : NameSet :=
  Register.ofList ((pulled.filter fun p => p.1 == id || p.2.has id).map Prod.fst)

/-! ## 2. Conflicts -/

/-- A module of the merged set as a candidate for its key. -/
def candidate (pulled : Pulled) (m : Module) : Candidate :=
  ⟨m.id, m.version, requesters pulled m.id⟩

/-- Whether candidates have more than one version between them. -/
def versionsDiffer : List Candidate → Bool
  | [] => false
  | c :: cs => cs.any fun d => d.version != c.version

/-- The conflicts among the modules that a bundle pulls in, by key. -/
def conflictsAmong (g : Graph) (pulled : Pulled) : List Conflict :=
  let modules := g.modulesOf (mergedIds pulled).toList
  let keys : NameSet := Register.ofList (modules.map Module.key)
  keys.toList.filterMap fun key =>
    let candidates := (modules.filter fun m => m.key == key).map (candidate pulled)
    if versionsDiffer candidates then some ⟨key, sortedBy Candidate.compare candidates⟩ else none

/-- The bundle members together with their closures. -/
def Bundle.merged (b : Bundle) : Inquiry (Except Fault NameSet) :=
  (gather b.members).map (Except.map mergedIds)

/-- The conflicts of a bundle. -/
def Bundle.conflicts (g : Graph) (b : Bundle) : Inquiry (Except Fault (List Conflict)) :=
  (gather b.members).map (Except.map (conflictsAmong g))

/-- The wording of a candidate. -/
def Candidate.message (c : Candidate) : String :=
  let module := c.module
  let version := Module.versionText c.version "unversioned"
  let needed := Text.joined ", " c.requestedBy.toList
  s!"{module} {version} needed by {needed}"

/-- The wording of a conflict. -/
def Conflict.message (c : Conflict) : String :=
  let key := c.key
  let candidates := Text.joined "; " (c.candidates.map Candidate.message)
  s!"ambiguous import '{key}': {candidates}"

end Isolation
