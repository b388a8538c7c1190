import Isolation.Version.Semantic

/-!
# Versions

A module's declared version is a text: a release tag, a commit hash, anything. Surrounding white
space is not part of it. Versions are equal exactly when their texts are.

Versions are ordered only for stable output and to select the highest of several. A text that is a
semantic version, one leading `v` aside, lies above every text that is none; two semantic versions
follow their own order; what is still equal is decided by the texts, so that **only equal versions
compare as equal**.
-/

namespace Isolation

/-- A version as a module declares it. -/
structure Version where
  /-- The declared text without surrounding white space. -/
  text : String
deriving DecidableEq, Repr

namespace Version

/-- The version that a text declares. -/
def ofText (s : String) : Version := ⟨Text.trimmed s⟩

/-- A text without one leading `v`. -/
def dropV : List Char → List Char
  | 'v' :: r => r
  | cs => cs

/-- The semantic version that the text denotes, if it denotes one. -/
def semantic? (v : Version) : Option SemanticVersion := SemanticVersion.parse? (dropV v.text.toList)

/-- The total order on versions. -/
def compare : Version → Version → Ordering :=
  compareLex (compareOn semantic?) (compareOn text)

instance : Ord Version := ⟨compare⟩

/-- Whether `a` lies at or above `b`. -/
def atLeast (a b : Version) : Bool := compare a b != .lt

end Version

end Isolation
