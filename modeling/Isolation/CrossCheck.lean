import Isolation.Conflict
import Isolation.Json
import Isolation.Manifests
import Isolation.Status
import Isolation.Toolchain

/-!
# Cross-checks

The predictions of the graph beside the answers of a toolchain: the closure of a module and what a
consumer of it gets, the conflicts of a bundle and the ambiguity of its build; and whether modules
build on their own. A check holds what was compared, and whether it agrees follows from that.

A check asks for closures, all through the memo of its run, before it asks the toolchain; so it is
an `Inquiry` whose answer is what remains to be done. A run stops at the first check that cannot be
carried out, and what was checked before it has been announced by then. So a run is a `Progress`:
the checks carried out, and what stopped them.
-/

namespace Isolation

/-! ## 1. Checks -/

/-- The closure of a module beside what its consumers get. -/
structure ModuleCheck where
  module : Identity
  predicted : NameSet
  observed : NameSet
deriving DecidableEq

namespace ModuleCheck

/-- What the toolchain resolves and the graph does not predict. -/
def missing (c : ModuleCheck) : NameSet := c.observed.diff c.predicted

/-- What the graph predicts and the toolchain does not resolve. -/
def unexpected (c : ModuleCheck) : NameSet := c.predicted.diff c.observed

/-- Whether the graph and the toolchain agree. -/
def agrees (c : ModuleCheck) : Bool := c.missing.isEmpty && c.unexpected.isEmpty

/-- They agree exactly when nothing is missing and nothing unexpected. -/
theorem agrees_iff_forall_not_mem {c : ModuleCheck} :
    c.agrees = true ↔ (∀ x, x ∉ c.missing) ∧ ∀ x, x ∉ c.unexpected := by
  have empty_iff {s : NameSet} : s.isEmpty = true ↔ ∀ x, x ∉ s := by
    rw [Register.isEmpty, List.isEmpty_iff]
    exact List.eq_nil_iff_forall_not_mem
  rw [agrees, Bool.and_eq_true, empty_iff, empty_iff]

/-- They agree exactly when the toolchain resolves what the graph predicts. -/
theorem agrees_iff {c : ModuleCheck} : c.agrees = true ↔ c.observed = c.predicted := by
  rw [agrees_iff_forall_not_mem]
  simp only [missing, unexpected, NameSet.mem_diff, not_and, Classical.not_not]
  constructor
  · rintro ⟨h, h'⟩
    exact Register.ext_mem fun x => ⟨h x, h' x⟩
  · rintro h
    exact ⟨fun x hx => h ▸ hx, fun x hx => h ▸ hx⟩

/-- The wording of a check. -/
def message (c : ModuleCheck) : String :=
  let module := c.module
  if c.agrees then
    let size := c.predicted.size
    s!"{module}: graph and toolchain agree on {size} module(s)"
  else
    let listed (lead : String) (ids : NameSet) : String :=
      if ids.isEmpty then "" else lead ++ Text.joined ", " ids.toList
    s!"{module}: closure differs from toolchain" ++ listed "; missing from graph: " c.missing
      ++ listed "; not resolved by toolchain: " c.unexpected

/-- A check as a JSON object. -/
def json (c : ModuleCheck) : Json :=
  .object [("module", .text c.module), ("predicted", .texts c.predicted.toList),
    ("observed", .texts c.observed.toList), ("missing", .texts c.missing.toList),
    ("unexpected", .texts c.unexpected.toList)]

end ModuleCheck

/-- The predicted ambiguity of a bundle beside that of its build. -/
structure BundleCheck where
  bundle : String
  predicted : Bool
  observed : Bool
  buildSucceeded : Bool
deriving DecidableEq, Repr

namespace BundleCheck

/-- Whether the graph and the toolchain agree. -/
def agrees (c : BundleCheck) : Bool := c.predicted == c.observed

/-- What an ambiguity is called. -/
def ambiguityText (ambiguous : Bool) : String := if ambiguous then "ambiguous" else "unambiguous"

/-- The wording of a check. -/
def message (c : BundleCheck) : String :=
  let bundle := c.bundle
  let predicted := ambiguityText c.predicted
  let observed := ambiguityText c.observed
  let failed := if !c.buildSucceeded && !c.observed then " (build failed)" else ""
  s!"{bundle}: graph predicts {predicted}, toolchain reports {observed}{failed}"

/-- A check as a JSON object. -/
def json (c : BundleCheck) : Json :=
  .object [("bundle", .text c.bundle), ("predicted_ambiguous", .bool c.predicted),
    ("observed_ambiguous", .bool c.observed), ("build_succeeded", .bool c.buildSucceeded)]

end BundleCheck

/-- The build of a module on its own. -/
structure BuildCheck where
  module : Identity
  /-- The output of a build that failed. -/
  failedOutput : Option String
deriving DecidableEq, Repr

namespace BuildCheck

/-- Whether the module builds. -/
def success (c : BuildCheck) : Bool := c.failedOutput.isNone

/-- The wording of a check. -/
def message (c : BuildCheck) : String :=
  let module := c.module
  match c.failedOutput with
  | none => s!"{module}: builds on its own"
  | some output =>
    let output := Text.trimmedEnd output
    s!"{module}: build failed" ++ if output = "" then "" else "\n" ++ output

/-- A check as a JSON object. -/
def json (c : BuildCheck) : Json :=
  let output :=
    match c.failedOutput with
    | some output => [("output", Json.text output)]
    | none => []
  .object (("module", .text c.module) :: ("success", .bool c.success) :: output)

end BuildCheck

/-- The checks of a run. -/
structure CrossReport where
  modules : List ModuleCheck := []
  bundles : List BundleCheck := []
  builds : List BuildCheck := []
deriving DecidableEq

namespace CrossReport

/-- Every check in order: its wording, and whether it agrees. -/
def lines (r : CrossReport) : List (String × Bool) :=
  r.modules.map (fun c => (c.message, c.agrees)) ++ r.bundles.map (fun c => (c.message, c.agrees))
    ++ r.builds.map fun c => (c.message, c.success)

/-- The number of checks. -/
def total (r : CrossReport) : Nat := r.lines.length

/-- The number of checks that do not agree. -/
def disagreements (r : CrossReport) : Nat := r.lines.countP fun l => !l.2

theorem disagreements_eq_zero_iff {r : CrossReport} :
    r.disagreements = 0 ↔ (∀ c ∈ r.modules, c.agrees = true) ∧ (∀ c ∈ r.bundles, c.agrees = true)
      ∧ ∀ c ∈ r.builds, c.success = true := by
  simp [disagreements, lines, List.countP_eq_zero]

/-- What the checks are announced with. -/
def announced (r : CrossReport) : String :=
  let comparison (message : String) (agrees : Bool) : String :=
    statusLine (if agrees then "Agrees" else "Differs") message
  String.join (r.modules.map (fun c => comparison c.message c.agrees)
    ++ r.bundles.map (fun c => comparison c.message c.agrees)
    ++ r.builds.map fun c => statusLine (if c.success then "Built" else "Failed") c.module)

/-- A report as text, a check a line. -/
def text (r : CrossReport) : String := String.join (r.lines.map fun l => l.1 ++ "\n")

/-- A report as a JSON text. -/
def json (r : CrossReport) : String :=
  (Json.object [("modules", .array (r.modules.map ModuleCheck.json)),
    ("bundles", .array (r.bundles.map BundleCheck.json)),
    ("builds", .array (r.builds.map BuildCheck.json))]).render

end CrossReport

/-! ## 2. Single checks -/

section

variable {m : Type → Type} [Monad m]

/-- Check one module. Its closure is asked for first. -/
def checkModule (t : Toolchain m) (id : Identity) : Inquiry (ExceptT Failure m ModuleCheck) :=
  .ask id fun closure => .answer do
    let predicted ← ExceptT.mk (pure (orFault closure))
    return ⟨id, predicted, ← t.resolve id⟩

/-- Check one bundle. Its conflicts are looked for first. -/
def checkBundle (g : Graph) (t : Toolchain m) (b : Bundle) :
    Inquiry (ExceptT Failure m BundleCheck) :=
  (b.conflicts g).map fun conflicts => do
    let conflicts ← ExceptT.mk (pure (orFault conflicts))
    let build ← t.buildBundle b
    return ⟨b.label, !conflicts.isEmpty, build.ambiguous, build.success⟩

/-- Check that one module builds. -/
def checkBuild (t : Toolchain m) (s : ScannedModule) : ExceptT Failure m BuildCheck := do
  let build ← t.buildModule s
  return ⟨s.id, if build.success then none else some build.output⟩

end

/-! ## 3. Runs -/

/-- What is to be checked. -/
structure CrossRequest where
  /-- The modules to check; when none is named, those with a bound. -/
  named : List Identity := []
  /-- Check the bundles too. -/
  bundles : Bool := false
  /-- Check that the scanned modules build, or those of them that are named. -/
  moduleBuilds : Bool := false
deriving DecidableEq, Repr

namespace CrossRequest

/-- The modules that are checked. -/
def modules (r : CrossRequest) (c : Config) : List Identity :=
  if r.named.isEmpty then c.tierBounds.map Prod.fst else r.named

/-- The bundles that are checked. -/
def checkedBundles (r : CrossRequest) (c : Config) : List Bundle :=
  if r.bundles then c.importBundles else []

/-- The scanned modules that are built. -/
def builds (r : CrossRequest) (scanned : List ScannedModule) : List ScannedModule :=
  if r.moduleBuilds then
    scanned.filter fun m => r.named.isEmpty || r.named.contains m.id
  else []

end CrossRequest

/-- A run: the checks carried out, and the failure that stopped it. -/
structure Progress where
  report : CrossReport := {}
  stopped : Option Failure := none

namespace Progress

/-- The report of a run that was not stopped. -/
def outcome (p : Progress) : Except Failure CrossReport :=
  match p.stopped with
  | some f => .error f
  | none => .ok p.report

/-- The run with one more stage, unless it was stopped. -/
def andThen {m : Type → Type} [Monad m] (p : Progress) (stage : CrossReport → m Progress) :
    m Progress :=
  match p.stopped with
  | some _ => pure p
  | none => stage p.report

end Progress

/-- Carry out checks up to the first that cannot be carried out. -/
def checkEach {m : Type → Type} [Monad m] {α β : Type} (check : α → ExceptT Failure m β) :
    List α → m (List β × Option Failure)
  | [] => return ([], none)
  | a :: as => do
    match ← (check a).run with
    | .error f => return ([], some f)
    | .ok b =>
      let (bs, stopped) ← checkEach check as
      return (b :: bs, stopped)

/-- Checks that change nothing, one at a time. -/
theorem checkEach_cons {α β : Type} (check : α → ExceptT Failure Id β) (a : α) (as : List α) :
    checkEach check (a :: as) =
      match check a with
      | .error f => ([], some f)
      | .ok b => (b :: (checkEach check as).1, (checkEach check as).2) := by
  rw [checkEach]
  simp only [ExceptT.run, bind, pure]
  cases check a <;> rfl

/-- Checks that change nothing are a list of results: all of them, or the failure of the first that
    cannot be carried out. -/
theorem mapM_eq_checkEach {α β : Type} (check : α → Except Failure β) (as : List α) :
    as.mapM check =
      match (checkEach (m := Id) check as).2 with
      | some f => .error f
      | none => .ok (checkEach (m := Id) check as).1 := by
  induction as with
  | nil => rfl
  | cons a as ih =>
    rw [List.mapM_cons, checkEach_cons, ih]
    cases check a with
    | error f => rfl
    | ok b => cases (checkEach (m := Id) check as).2 <;> rfl

section

variable {m : Type → Type} [Monad m]

/-- Carry out checks that ask for closures through a memo, up to the first that cannot be carried
    out; and the memo after that. -/
def checkEachThrough {α β : Type} (g : Graph) (check : α → Inquiry (ExceptT Failure m β))
    (memo : Memo) : List α → m ((List β × Option Failure) × Memo)
  | [] => return (([], none), memo)
  | a :: as => do
    let (rest, memo) := (check a).run g memo
    match ← rest.run with
    | .error f => return (([], some f), memo)
    | .ok b =>
      let ((bs, stopped), memo) ← checkEachThrough g check memo as
      return ((b :: bs, stopped), memo)

/-- Checks through a memo, one at a time: what a check asks for changes the memo only. -/
theorem checkEachThrough_cons {α β : Type} (g : Graph)
    (check : α → Inquiry (ExceptT Failure Id β)) (memo : Memo) (a : α) (as : List α) :
    checkEachThrough g check memo (a :: as) =
      match ((check a).run g memo).1 with
      | .error f => (([], some f), ((check a).run g memo).2)
      | .ok b =>
        let rest := checkEachThrough g check ((check a).run g memo).2 as
        ((b :: rest.1.1, rest.1.2), rest.2) := by
  rw [checkEachThrough]
  simp only [ExceptT.run, bind, pure]
  cases ((check a).run g memo).1 <;> rfl

/-- Cross-check scanned modules with their graph. -/
def crossCheckGraph (t : Toolchain m) (c : Config) (r : CrossRequest)
    (scanned : List ScannedModule) (g : Graph) : m Progress := do
  if (r.modules c).isEmpty && !r.bundles && !r.moduleBuilds then
    return { stopped := some (.config .nothingToCheck) }
  else
    let ((modules, stopped), memo) ← checkEachThrough g (checkModule t) Memo.empty (r.modules c)
    let first : Progress := ⟨{ modules }, stopped⟩
    let second ← first.andThen fun report => do
      let ((bundles, stopped), _) ← checkEachThrough g (checkBundle g t) memo (r.checkedBundles c)
      return ⟨{ report with bundles }, stopped⟩
    second.andThen fun report => do
      if r.moduleBuilds && scanned.isEmpty then return ⟨report, some (.config .noDirectories)⟩
      else
        let (builds, stopped) ← checkEach (checkBuild t) (r.builds scanned)
        return ⟨{ report with builds }, stopped⟩

/-- Cross-check scanned modules. -/
def crossCheckScanned (t : Toolchain m) (c : Config) (r : CrossRequest)
    (scanned : List ScannedModule) : m Progress :=
  match manifests c scanned >>= Graph.build with
  | .ok g => crossCheckGraph t c r scanned g
  | .error f => return { stopped := some (.fault f) }

/-- Cross-check a repository with a toolchain. -/
def crossCheckWith (t : Toolchain m) (v : Files.Volume) (root : String) (c : Config)
    (r : CrossRequest) : m Progress :=
  match scan v root c with
  | .ok scanned => crossCheckScanned t c r scanned
  | .error f => return { stopped := some f }

end

/-- Cross-check a repository with the toolchain of its configuration. -/
def crossCheck (launch : Launcher (StateM Files.Volume)) (root : String) (c : Config)
    (r : CrossRequest) : StateM Files.Volume Progress := do
  match GoToolchain.ofConfig c with
  | .ok t => crossCheckWith (t.toolchain launch) (← get) root c r
  | .error f => return { stopped := some f }

end Isolation
