import Isolation.Distinct
import Isolation.Identity

/-!
# Import bundles

Modules that a consumer imports at the same time. Members keep the order in which they were first
named, and none is held twice.
-/

namespace Isolation

/-- Modules imported together. -/
structure Bundle where
  name : Option String := none
  /-- The members, in the order of first mention. -/
  members : List Identity
  members_nodup : members.Nodup
deriving Repr

namespace Bundle

/-- The bundle of the named modules. -/
def ofMembers (ids : List Identity) (name : Option String := none) : Bundle :=
  { name, members := distinct ids, members_nodup := nodup_distinct ids }

/-- The bundle with one more member. -/
def push (b : Bundle) (id : Identity) : Bundle :=
  { b with members := pushNew b.members id, members_nodup := nodup_pushNew b.members_nodup id }

/-- What a bundle is called in reports: its name, or its members with `+` between them. -/
def label (b : Bundle) : String := b.name.getD (Text.joined "+" b.members)

end Bundle

end Isolation
