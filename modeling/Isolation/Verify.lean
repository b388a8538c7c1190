import Isolation.Manifests
import Isolation.Report
import Isolation.Status

/-!
# Verification

All bounds and all bundles of a request are checked against one graph with one memo. The verdicts
are reported in the order of the request, whatever the order in which the checks run. A repository
whose modules form no graph is not an error of the run: its report says so and fails.
-/

namespace Isolation

/-! ## 1. Running the checks -/

/-- Check bounds and bundles through a memo; the report, and the memo after that. -/
def checkThrough (g : Graph) (memo : Memo) (bounds : List (Identity × Bound))
    (bundles : List Bundle) : Report × Memo :=
  let (findings, memo) := Inquiry.runAll g memo (bounds.map fun p => p.2.check p.1)
  let (conflicts, memo) := Inquiry.runAll g memo (bundles.map fun b => b.conflicts g)
  (Report.ofChecks ((bounds.map Prod.fst).zip findings) (bundles.zip conflicts), memo)

/-- Check bounds and bundles on a graph. -/
def runChecks (g : Graph) (bounds : List (Identity × Bound)) (bundles : List Bundle) : Report :=
  (checkThrough g Memo.empty bounds bundles).1

/-! ## 2. Verifying a repository -/

/-- What announces the checks. -/
def verifyingLine (g : Graph) (c : Config) : String :=
  let modules := g.size
  let bounds := c.tierBounds.length
  let bundles := c.importBundles.length
  statusLine "Verifying"
    s!"{modules} module(s): {bounds} tier bound(s), {bundles} import bundle(s)"

/-- The report on scanned modules and a configuration, and what is announced. -/
def verifyScanned (c : Config) (scanned : List ScannedModule) : Report × String :=
  match manifests c scanned >>= Graph.build with
  | .ok g => (runChecks g c.tierBounds c.importBundles, verifyingLine g c)
  | .error f => (Report.ofFault f, "")

/-- The report on a repository, and what is announced. -/
def verify (v : Files.Volume) (root : String) (c : Config) : Except Failure (Report × String) :=
  return verifyScanned c (← scan v root c)

end Isolation
