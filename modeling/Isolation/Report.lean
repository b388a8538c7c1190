import Isolation.Bound
import Isolation.Conflict
import Isolation.Json

/-!
# Verification reports

A report is the list of verdicts of one run, in a fixed order: first one verdict for each bound,
then the verdicts of each bundle, one for a clean bundle and one for each conflict otherwise. A
check that asked about an unknown module fails with a structural verdict of its own and leaves the
others alone. A module set that is no graph yields a report of one structural verdict.

A report is written in two forms, as text and as JSON, and both follow from the verdicts alone.
-/

namespace Isolation

/-- The check that a verdict belongs to. -/
inductive CheckKind where
  | tier
  | ambiguousImport
  | structural
deriving DecidableEq, Repr

/-- What a kind of check is called in reports. -/
def CheckKind.text : CheckKind → String
  | tier => "tier"
  | ambiguousImport => "ambiguous-import"
  | structural => "structural"

/-- One finding of a run. -/
structure Verdict where
  check : CheckKind
  /-- The modules that the verdict is about. -/
  subjects : List Identity
  passed : Bool
  message : String
deriving DecidableEq, Repr

/-- The verdicts of one run. -/
structure Report where
  verdicts : List Verdict
deriving DecidableEq, Repr

/-! ## 1. From checks to verdicts -/

/-- A failing verdict for a fault. -/
def Verdict.ofFault (subjects : List Identity) (f : Fault) : Verdict :=
  ⟨.structural, subjects, false, f.message⟩

/-- The verdict on a bound. -/
def Verdict.ofFinding (root : Identity) : Except Fault Finding → Verdict
  | .ok f => ⟨.tier, [root], f.passed, f.message⟩
  | .error fault => .ofFault [root] fault

/-- The verdict on a conflict of a bundle. Its subjects are the modules that compete; of those that
    follow upon themselves one is left. -/
def Verdict.ofConflict (b : Bundle) (c : Conflict) : Verdict :=
  ⟨.ambiguousImport, (c.candidates.map Candidate.module).eraseReps, false,
    b.label ++ ": " ++ c.message⟩

/-- The verdicts on a bundle: a passing one when nothing conflicts, else one for each conflict. -/
def Verdict.ofBundle (b : Bundle) : Except Fault (List Conflict) → List Verdict
  | .ok [] =>
    [⟨.ambiguousImport, b.members, true, b.label ++ " resolves without ambiguous imports"⟩]
  | .ok (c :: cs) => (c :: cs).map (Verdict.ofConflict b)
  | .error fault => [.ofFault b.members fault]

namespace Report

/-- The report of the checked bounds and bundles, each in the order given. -/
def ofChecks (bounds : List (Identity × Except Fault Finding))
    (bundles : List (Bundle × Except Fault (List Conflict))) : Report :=
  ⟨bounds.map (fun p => Verdict.ofFinding p.1 p.2)
    ++ bundles.flatMap (fun p => Verdict.ofBundle p.1 p.2)⟩

/-- The report of a module set that is no graph. -/
def ofFault (f : Fault) : Report := ⟨[.ofFault f.subjects f]⟩

/-! ## 2. The outcome of a run -/

/-- The number of failing verdicts. -/
def failures (r : Report) : Nat := r.verdicts.countP fun v => !v.passed

/-- Whether every verdict passes. -/
def isSuccess (r : Report) : Bool := r.verdicts.all Verdict.passed

/-- The exit status that a report stands for. -/
def exitCode (r : Report) : Nat := if r.isSuccess then 0 else 1

theorem exitCode_eq_zero_iff {r : Report} : r.exitCode = 0 ↔ r.isSuccess = true := by
  rw [exitCode]
  split
  · exact iff_of_true rfl ‹_›
  · exact iff_of_false Nat.one_ne_zero ‹_›

/-! ## 3. Writing -/

/-- A verdict as a line of text. -/
def verdictLine (v : Verdict) : String :=
  let status := if v.passed then "PASS" else "FAIL"
  let check := v.check.text
  let message := v.message
  s!"{status} [{check}] {message}"

/-- A report as text: a line for each verdict and a closing count. -/
def text (r : Report) : String :=
  let total := r.verdicts.length
  let failed := r.failures
  let closing :=
    if failed = 0 then s!"{total} check(s) passed." else s!"{failed} of {total} check(s) failed."
  String.join (r.verdicts.map fun v => verdictLine v ++ "\n") ++ closing

/-- A verdict as a JSON object. -/
def verdictJson (v : Verdict) : Json :=
  .object [("check", .text v.check.text), ("subjects", .texts v.subjects),
    ("status", .text (if v.passed then "pass" else "fail")), ("message", .text v.message)]

/-- A report as a JSON text. -/
def json (r : Report) : String :=
  (Json.object [("entries", .array (r.verdicts.map verdictJson))]).render

end Report

end Isolation
