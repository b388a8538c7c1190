import Isolation.Closure.Memo

/-!
# Tier bounds

How many modules a root may pull in. A bound counts the members of the root's closure, all of them
or those of one namespace, and the finding holds what was counted. The expected members only explain
a failure; they never decide one.
-/

namespace Isolation

/-- The most members that the closure of a root may have. -/
structure Bound where
  max : Nat
  /-- When given, only members of this namespace are counted. -/
  space : Option String := none
  /-- The closure that the caller expects. -/
  expected : Option NameSet := none
deriving DecidableEq

/-- Whether a closure member is counted. -/
def Bound.counts (b : Bound) (id : Identity) : Bool :=
  match b.space with
  | some space => Identity.inNamespace id space
  | none => true

/-- What a bound found about a root. -/
structure Finding where
  root : Identity
  bound : Nat
  /-- The counted members of the closure. -/
  members : NameSet
  /-- The counted members that were not expected, where an expectation was given. -/
  unexpected : Option NameSet
deriving DecidableEq

namespace Finding

/-- The number of counted members. -/
def actual (f : Finding) : Nat := f.members.size

/-- Whether the root keeps within its bound. -/
def passed (f : Finding) : Bool := f.actual ≤ f.bound

/-- Names between commas. -/
def listed (s : NameSet) : String := Text.joined ", " s.toList

/-- The wording of a finding. -/
def message (f : Finding) : String :=
  let root := f.root
  let actual := f.actual
  let bound := f.bound
  if f.passed then s!"{root} pulls in {actual} module(s), within bound {bound}"
  else
    let members := listed f.members
    let failure := s!"{root} pulls in {actual} module(s), bound is {bound}: [{members}]"
    match f.unexpected with
    | some u =>
      if u.isEmpty then failure
      else
        let names := listed u
        failure ++ s!"; not expected: [{names}]"
    | none => failure

end Finding

/-- The finding of a bound on a root with a given closure. -/
def Bound.finding (b : Bound) (root : Identity) (closure : NameSet) : Finding :=
  let members : NameSet := closure.filter b.counts
  { root, bound := b.max, members, unexpected := b.expected.map (NameSet.diff members) }

/-- Check the closure of a root against its bound. -/
def Bound.check (b : Bound) (root : Identity) : Inquiry (Except Fault Finding) :=
  .ask root fun c => .answer (c.map (b.finding root))

end Isolation
