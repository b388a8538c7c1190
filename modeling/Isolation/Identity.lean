import Isolation.Register
import Isolation.Text.Fields

/-!
# Identities

A module is known by its identity, a path-like text such as `modules/ssh`. Identities are compared
as texts, code point by code point, and nothing about them is normalised: `a` and `a ` are two
identities. What lies under a common path is a namespace, and a namespace is a plain beginning of
the text, so `modules/a` lies in the namespace `mod`.
-/

namespace Isolation

/-- The name a module is known by. -/
abbrev Identity := String

/-- Whether an identity lies in a namespace. -/
def Identity.inNamespace (id : Identity) (space : String) : Bool := Text.startsWith id space

end Isolation
