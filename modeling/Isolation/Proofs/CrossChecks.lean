import Isolation.Proofs.Closures
import Isolation.Proofs.ScannedEdges
import Isolation.CrossCheck

/-!
# What a cross-check reports

A cross-check goes through modules, bundles and builds, and stops at the first check that cannot be
carried out. The toolchain is here any source of answers that asking does not change: functions from
what is asked to an answer or a failure.

* `ModuleCheck.Compares`, `BundleCheck.Compares`, `BuildCheck.Compares` -- what one check holds;
  `checkModule_eq_ok_iff` and its like say that a check which is carried out holds it, and
  `of_checkModule_eq_error` and its like why one cannot be;
* `checkEachThrough_spec` -- checks that share a memo are those that ask the graph;
* `outcome_crossCheckGraph` -- so a run is its stages in order, each a list of results;
* **`outcome_crossCheckGraph_eq_ok_iff`**, `hindered_of_error`, `not_hindered_of_ok` -- from this,
  the two ends of a run: a report on all that is selected, or one of the hindrances listed in
  `CrossRequest.Hindered`;
* `disagreements_iff` -- nothing in a report disagrees exactly when the toolchain confirms the graph;
* **`cross_check_reports_what_it_compared`** -- all of this, for every configuration, request and
  toolchain, of every scan and of a repository.

NOT here: what the `go` command answers. `Isolation.Proofs.Listings` reads its module lists.
-/

namespace Isolation

/-! ## 1. Single checks -/

theorem orFault_eq_ok_iff {α : Type} {r : Except Fault α} {a : α} :
    orFault r = .ok a ↔ r = .ok a := by
  cases r with
  | ok b =>
    exact ⟨fun h => congrArg Except.ok (Except.ok.inj h), fun h => congrArg _ (Except.ok.inj h)⟩
  | error f => exact ⟨fun h => (nomatch h), fun h => (nomatch h)⟩

theorem exists_error_of_orFault {α : Type} {r : Except Fault α} {f : Failure}
    (h : orFault r = .error f) : ∃ fault, r = .error fault := by
  cases r with
  | ok a => cases h
  | error fault => exact ⟨fault, rfl⟩

/-- The conflicts that are found for a bundle, whatever the memo has served before. -/
def Bundle.Conflicting (g : Graph) (b : Bundle) (cs : List Conflict) : Prop :=
  ∀ memo : Memo, memo.Faithful g → ((b.conflicts g).run g memo).1 = .ok cs

theorem Bundle.conflicting_iff {g : Graph} {b : Bundle} {cs : List Conflict} :
    b.Conflicting g cs ↔ (b.conflicts g).answerIn g = .ok cs := by
  constructor
  · intro h
    rw [← (Inquiry.run_spec _ Memo.faithful_empty).1]
    exact h Memo.empty Memo.faithful_empty
  · intro h memo hm
    rw [(Inquiry.run_spec _ hm).1, h]

/-- A check of a module holds its closure and what the toolchain resolves it to. -/
structure ModuleCheck.Compares (g : Graph) (t : Toolchain Id) (id : Identity) (k : ModuleCheck) :
    Prop where
  module : k.module = id
  predicted : g.closure id = .ok k.predicted
  observed : t.resolve id = .ok k.observed

/-- A check of a bundle holds whether it has conflicts and how the toolchain builds it. -/
structure BundleCheck.Compares (g : Graph) (t : Toolchain Id) (b : Bundle) (k : BundleCheck) :
    Prop where
  bundle : k.bundle = b.label
  predicted : ∃ cs, b.Conflicting g cs ∧ (k.predicted = true ↔ cs ≠ [])
  observed : ∃ build, t.buildBundle b = .ok build ∧ k.observed = build.ambiguous ∧
    k.buildSucceeded = build.success

/-- A check of a build holds how the toolchain builds the module, and its output if it fails. -/
structure BuildCheck.Compares (t : Toolchain Id) (s : ScannedModule) (k : BuildCheck) : Prop where
  module : k.module = s.id
  built : ∃ build, t.buildModule s = .ok build ∧
    k.failedOutput = if build.success then none else some build.output

section

variable {g : Graph} {t : Toolchain Id} {id : Identity} {b : Bundle} {s : ScannedModule}
  {f : Failure}

/-- Asking that changes nothing is asking for a result. -/
theorem bind_eq_bind_result {α β : Type} (x : Except Failure α) (k : α → Except Failure β) :
    bind (m := ExceptT Failure Id) x k = bind (m := Except Failure) x k := by
  cases x <;> rfl

theorem answerIn_checkModule (g : Graph) (t : Toolchain Id) (id : Identity) :
    (checkModule t id).answerIn g = (do
      let predicted ← orFault (g.closure id)
      let observed ← (t.resolve id : Except Failure NameSet)
      return ⟨id, predicted, observed⟩ : Except Failure ModuleCheck) := by
  refine (bind_eq_bind_result _ _).trans (bind_congr fun predicted => ?_)
  exact bind_eq_bind_result _ _

theorem answerIn_checkBundle (g : Graph) (t : Toolchain Id) (b : Bundle) :
    (checkBundle g t b).answerIn g = (do
      let conflicts ← orFault ((b.conflicts g).answerIn g)
      let build ← (t.buildBundle b : Except Failure Build)
      return ⟨b.label, !conflicts.isEmpty, build.ambiguous, build.success⟩ :
        Except Failure BundleCheck) := by
  rw [checkBundle, Inquiry.answerIn_map]
  refine (bind_eq_bind_result _ _).trans (bind_congr fun conflicts => ?_)
  exact bind_eq_bind_result _ _

theorem checkBuild_eq (t : Toolchain Id) (s : ScannedModule) :
    checkBuild t s = (do
      let build ← (t.buildModule s : Except Failure Build)
      return ⟨s.id, if build.success then none else some build.output⟩ :
        Except Failure BuildCheck) :=
  bind_eq_bind_result _ _

theorem checkModule_eq_ok_iff {k : ModuleCheck} :
    (checkModule t id).answerIn g = .ok k ↔ k.Compares g t id := by
  rw [answerIn_checkModule, bind_eq_ok_iff]
  constructor
  · rintro ⟨predicted, hp, h⟩
    obtain ⟨observed, ho, h⟩ := bind_eq_ok_iff.mp h
    cases h
    exact ⟨rfl, orFault_eq_ok_iff.mp hp, ho⟩
  · rintro ⟨rfl, hp, ho⟩
    exact ⟨k.predicted, orFault_eq_ok_iff.mpr hp, bind_eq_ok_iff.mpr ⟨k.observed, ho, rfl⟩⟩

theorem checkBundle_eq_ok_iff {k : BundleCheck} :
    (checkBundle g t b).answerIn g = .ok k ↔ k.Compares g t b := by
  rw [answerIn_checkBundle, bind_eq_ok_iff]
  constructor
  · rintro ⟨cs, hcs, h⟩
    obtain ⟨build, hb, h⟩ := bind_eq_ok_iff.mp h
    cases h
    exact ⟨rfl, ⟨cs, Bundle.conflicting_iff.mpr (orFault_eq_ok_iff.mp hcs), by simp⟩,
      build, hb, rfl, rfl⟩
  · rintro ⟨hlabel, ⟨cs, hcs, hp⟩, build, hb, ho, hs⟩
    refine ⟨cs, orFault_eq_ok_iff.mpr (Bundle.conflicting_iff.mp hcs),
      bind_eq_ok_iff.mpr ⟨build, hb, ?_⟩⟩
    have hpredicted : k.predicted = !cs.isEmpty := by
      rw [Bool.eq_iff_iff, hp]
      simp
    rw [← hlabel, ← hpredicted, ← ho, ← hs]
    rfl

theorem checkBuild_eq_ok_iff {k : BuildCheck} : checkBuild t s = .ok k ↔ k.Compares t s := by
  rw [checkBuild_eq, bind_eq_ok_iff]
  constructor
  · rintro ⟨build, hb, h⟩
    cases h
    exact ⟨rfl, build, hb, rfl⟩
  · rintro ⟨hid, build, hb, ho⟩
    refine ⟨build, hb, ?_⟩
    rw [← hid, ← ho]
    rfl

/-- A module cannot be checked when it is unknown or the toolchain does not resolve it. -/
theorem of_checkModule_eq_error (h : (checkModule t id).answerIn g = .error f) :
    ¬ g.Known id ∨ t.resolve id = .error f := by
  rw [answerIn_checkModule] at h
  rcases bind_eq_error_iff.mp h with h | ⟨predicted, _, h⟩
  · obtain ⟨fault, hfault⟩ := exists_error_of_orFault h
    refine Or.inl fun hknown => ?_
    obtain ⟨s, hs⟩ := Graph.exists_closure_iff.mpr hknown
    cases hs.symm.trans hfault
  · rcases bind_eq_error_iff.mp h with h | ⟨observed, _, h⟩
    · exact Or.inr h
    · cases h

/-- A bundle cannot be checked when a member is unknown or the toolchain does not build it. -/
theorem of_checkBundle_eq_error (h : (checkBundle g t b).answerIn g = .error f) :
    (∃ id ∈ b.members, ¬ g.Known id) ∨ t.buildBundle b = .error f := by
  rw [answerIn_checkBundle] at h
  rcases bind_eq_error_iff.mp h with h | ⟨conflicts, _, h⟩
  · obtain ⟨fault, hfault⟩ := exists_error_of_orFault h
    rcases Graph.known_or_exists_first_unknown b.members with hknown | ⟨_, x, _, hb, _, hx⟩
    · cases (Bundle.answerIn_conflicts_of_known hknown).symm.trans hfault
    · have hmember : x ∈ b.members := hb ▸ List.mem_append_right _ List.mem_cons_self
      have hunknown : ¬ g.Known x := by
        rintro ⟨m, hm⟩
        cases hx.symm.trans hm
      exact Or.inl ⟨x, hmember, hunknown⟩
  · rcases bind_eq_error_iff.mp h with h | ⟨build, _, h⟩
    · exact Or.inr h
    · cases h

theorem of_checkBuild_eq_error (h : checkBuild t s = .error f) : t.buildModule s = .error f := by
  rw [checkBuild_eq] at h
  rcases bind_eq_error_iff.mp h with h | ⟨build, _, h⟩
  · exact h
  · cases h

theorem ModuleCheck.Compares.known {k : ModuleCheck} (h : k.Compares g t id) : g.Known id :=
  Graph.exists_closure_iff.mp ⟨_, h.predicted⟩

theorem BundleCheck.Compares.known {k : BundleCheck} (h : k.Compares g t b) :
    ∀ id ∈ b.members, g.Known id := by
  obtain ⟨cs, hcs, _⟩ := h.predicted
  rcases Graph.known_or_exists_first_unknown b.members with hknown | ⟨_, _, _, hb, hbefore, hx⟩
  · exact hknown
  · cases (Bundle.answerIn_conflicts_of_unknown hb hbefore hx).symm.trans
      (Bundle.conflicting_iff.mp hcs)

end

/-! ## 2. Runs as lists of results -/

section

variable {t : Toolchain Id} {c : Config} {r : CrossRequest} {scanned : List ScannedModule}
  {g : Graph}

/-- A stage that puts its checks into a report has the outcome of the list of results. -/
theorem outcome_checkEach {α β : Type} (check : α → Except Failure β) (as : List α)
    (put : List β → CrossReport) :
    Progress.outcome ⟨put (checkEach (m := Id) check as).1, (checkEach (m := Id) check as).2⟩ =
      as.mapM check >>= fun bs => .ok (put bs) := by
  rw [mapM_eq_checkEach, Progress.outcome]
  cases (checkEach (m := Id) check as).2 <;> rfl

theorem outcome_of_stopped {p : Progress} {f : Failure} (h : p.stopped = some f) :
    p.outcome = .error f := by
  rw [Progress.outcome, h]

theorem outcome_of_not_stopped {p : Progress} (h : p.stopped = none) :
    p.outcome = .ok p.report := by
  rw [Progress.outcome, h]

/-- One more stage goes on from the report, if there is one. -/
theorem outcome_andThen (p : Progress) (stage : CrossReport → Id Progress) :
    Progress.outcome (p.andThen stage) =
      p.outcome >>= fun report => Progress.outcome (stage report) := by
  unfold Progress.andThen
  cases h : p.stopped with
  | some f =>
    rw [outcome_of_stopped h]
    exact outcome_of_stopped h
  | none =>
    rw [outcome_of_not_stopped h]
    rfl

/-- **Checks through a faithful memo** are those that ask the graph, and leave it faithful. -/
theorem checkEachThrough_spec {α β : Type} (check : α → Inquiry (ExceptT Failure Id β))
    {memo : Memo} (hm : memo.Faithful g) (as : List α) :
    (checkEachThrough g check memo as).1 = checkEach (fun a => (check a).answerIn g) as ∧
      (checkEachThrough g check memo as).2.Faithful g := by
  induction as generalizing memo with
  | nil => exact ⟨rfl, hm⟩
  | cons a as ih =>
    obtain ⟨ha, hm'⟩ := (check a).run_spec hm
    obtain ⟨has, hm''⟩ := ih hm'
    rw [checkEachThrough_cons, checkEach_cons, ha]
    cases (check a).answerIn g with
    | error f => exact ⟨rfl, hm'⟩
    | ok b => exact ⟨congrArg (fun r => (b :: r.1, r.2)) has, hm''⟩

/-- A run with a graph is its stages in order, each check asking the graph itself. -/
theorem outcome_crossCheckGraph :
    Progress.outcome (crossCheckGraph t c r scanned g) =
      if (r.modules c).isEmpty && !r.bundles && !r.moduleBuilds then
        .error (.config .nothingToCheck)
      else do
        let modules ← List.mapM (m := Except Failure)
          (fun id => (checkModule (m := Id) t id).answerIn g) (r.modules c)
        let bundles ← List.mapM (m := Except Failure)
          (fun b => (checkBundle (m := Id) g t b).answerIn g) (r.checkedBundles c)
        if r.moduleBuilds && scanned.isEmpty then .error (.config .noDirectories)
        else
          let builds ← List.mapM (m := Except Failure) (checkBuild (m := Id) t) (r.builds scanned)
          return ⟨modules, bundles, builds⟩ := by
  unfold crossCheckGraph
  split
  · rfl
  · obtain ⟨hms, hmemo⟩ :=
      checkEachThrough_spec (checkModule (m := Id) t) (Memo.faithful_empty (g := g)) (r.modules c)
    obtain ⟨hbs, _⟩ := checkEachThrough_spec (checkBundle (m := Id) g t) hmemo (r.checkedBundles c)
    have hmodules := outcome_checkEach (fun id => (checkModule (m := Id) t id).answerIn g)
      (r.modules c) fun modules => { modules }
    have hbundles := fun report : CrossReport =>
      outcome_checkEach (fun b => (checkBundle (m := Id) g t b).answerIn g) (r.checkedBundles c)
        fun bundles => { report with bundles }
    have hbuilds := fun report : CrossReport =>
      outcome_checkEach (checkBuild (m := Id) t) (r.builds scanned)
        fun builds => { report with builds }
    rw [← hms] at hmodules
    rw [← hbs] at hbundles
    change Progress.outcome (Progress.andThen (m := Id) (Progress.andThen (m := Id) _ _) _) = _
    rw [outcome_andThen, outcome_andThen, hmodules]
    cases List.mapM (m := Except Failure) (fun id => (checkModule (m := Id) t id).answerIn g)
      (r.modules c) with
    | error f => rfl
    | ok modules =>
      change (Progress.outcome ⟨_, _⟩ >>= _) = _
      rw [hbundles]
      cases List.mapM (m := Except Failure) (fun b => (checkBundle (m := Id) g t b).answerIn g)
        (r.checkedBundles c) with
      | error f => rfl
      | ok bundles =>
        change Progress.outcome (if _ then _ else _) = if _ then _ else _
        split
        · rfl
        · exact hbuilds _

end

/-! ## 3. The two ends of a run -/

/-- What is checked in one run. -/
structure CrossRequest.Selection where
  modules : List Identity
  bundles : List Bundle
  builds : List ScannedModule

/-- What a request selects: the modules that are named, in that order, or all that have a bound, in
    ascending order; the configured bundles, if asked for; and the scanned modules, if asked for,
    those of them that are named where any is. -/
structure CrossRequest.Selects (r : CrossRequest) (c : Config) (scanned : List ScannedModule)
    (sel : Selection) : Prop where
  named : r.named ≠ [] → sel.modules = r.named
  bounded : r.named = [] →
    sel.modules.Pairwise (· < ·) ∧ ∀ id, id ∈ sel.modules ↔ ∃ b, c.bounds.get? id = some b
  bundles : sel.bundles = if r.bundles then c.importBundles else []
  builds : sel.builds =
    if r.moduleBuilds then scanned.filter fun s => r.named = [] ∨ s.id ∈ r.named else []

/-- A report has one check for each item that is selected, in order, and holds what it compares. -/
structure CrossReport.Compares (g : Graph) (t : Toolchain Id) (sel : CrossRequest.Selection)
    (report : CrossReport) : Prop where
  modules : List.Forall₂ (fun id k => k.Compares g t id) sel.modules report.modules
  bundles : List.Forall₂ (fun b k => k.Compares g t b) sel.bundles report.bundles
  builds : List.Forall₂ (fun s k => k.Compares t s) sel.builds report.builds

/-- A toolchain confirms a graph: it resolves the selected modules to their closures, finds the
    selected bundles ambiguous exactly when they have conflicts, and builds the selected modules. -/
structure Toolchain.Confirms (t : Toolchain Id) (g : Graph) (sel : CrossRequest.Selection) :
    Prop where
  modules : ∀ id ∈ sel.modules, ∃ s, g.closure id = .ok s ∧ t.resolve id = .ok s
  bundles : ∀ b ∈ sel.bundles, ∃ cs build, b.Conflicting g cs ∧ t.buildBundle b = .ok build ∧
    (build.ambiguous = true ↔ cs ≠ [])
  builds : ∀ s ∈ sel.builds, ∃ build, t.buildModule s = .ok build ∧ build.success = true

/-- Why a run ends without a report. -/
inductive CrossRequest.Hindered (t : Toolchain Id) (c : Config) (r : CrossRequest)
    (scanned : List ScannedModule) (sel : Selection) : Prop where
  | noManifests {f : Fault} (h : manifests c scanned = .error f)
  | noGraph {ms : List Module} {f : Fault} (hms : manifests c scanned = .ok ms)
      (h : Graph.build ms = .error f)
  | nothingToCheck (hm : sel.modules = []) (hb : r.bundles = false) (hs : r.moduleBuilds = false)
  | noDirectories (h : r.moduleBuilds = true) (hs : scanned = [])
  | unknownModule {ms : List Module} {id : Identity} (hms : manifests c scanned = .ok ms)
      (hid : id ∈ sel.modules) (h : id ∉ ms.map Module.id)
  | unresolved {id : Identity} {f : Failure} (hid : id ∈ sel.modules) (h : t.resolve id = .error f)
  | unknownMember {ms : List Module} {b : Bundle} {id : Identity}
      (hms : manifests c scanned = .ok ms) (hb : b ∈ sel.bundles) (hid : id ∈ b.members)
      (h : id ∉ ms.map Module.id)
  | unbuiltBundle {b : Bundle} {f : Failure} (hb : b ∈ sel.bundles)
      (h : t.buildBundle b = .error f)
  | unbuiltModule {s : ScannedModule} {f : Failure} (hs : s ∈ sel.builds)
      (h : t.buildModule s = .error f)

section

variable {t : Toolchain Id} {c : Config} {r : CrossRequest} {scanned : List ScannedModule}
  {g : Graph} {ms : List Module} {report : CrossReport} {f : Failure}

/-- The selection of a request. -/
def CrossRequest.selection (r : CrossRequest) (c : Config) (scanned : List ScannedModule) :
    Selection := ⟨r.modules c, r.checkedBundles c, r.builds scanned⟩

theorem CrossRequest.selects (r : CrossRequest) (c : Config) (scanned : List ScannedModule) :
    r.Selects c scanned (r.selection c scanned) where
  named h := by
    have hne : ¬ r.named.isEmpty = true := by simpa using h
    show r.modules c = r.named
    rw [modules, if_neg hne]
  bounded h := by
    show (r.modules c).Pairwise (· < ·) ∧ ∀ id, id ∈ r.modules c ↔ _
    rw [modules, h]
    exact ⟨List.pairwise_map.mpr c.bounds.ascending, fun _ => NameMap.mem_names_iff⟩
  bundles := rfl
  builds := by
    have hempty : r.named.isEmpty = decide (r.named = []) := by
      rw [Bool.eq_iff_iff]
      simp
    show r.builds scanned = _
    simp [builds, hempty]

theorem idle_iff : ((r.modules c).isEmpty && !r.bundles && !r.moduleBuilds) = true ↔
    r.modules c = [] ∧ r.bundles = false ∧ r.moduleBuilds = false := by
  simp [and_assoc]

/-- **A run with a graph ends with a report** exactly when something is to be checked, there is a
    scan if modules are to be built, and the report compares all that is selected. -/
theorem outcome_crossCheckGraph_eq_ok_iff :
    Progress.outcome (crossCheckGraph t c r scanned g) = .ok report ↔
      ¬ (r.modules c = [] ∧ r.bundles = false ∧ r.moduleBuilds = false) ∧
      ¬ (r.moduleBuilds = true ∧ scanned = []) ∧
      report.Compares g t (r.selection c scanned) := by
  rw [outcome_crossCheckGraph, ← idle_iff]
  constructor
  · intro h
    split at h
    · cases h
    · rename_i hidle
      obtain ⟨modules, hm, h⟩ := bind_eq_ok_iff.mp h
      obtain ⟨bundles, hb, h⟩ := bind_eq_ok_iff.mp h
      split at h
      · cases h
      · rename_i hdirectories
        obtain ⟨builds, hs, h⟩ := bind_eq_ok_iff.mp h
        cases h
        exact ⟨hidle, by simpa using hdirectories,
          (mapM_eq_ok_iff.mp hm).imp fun _ _ => checkModule_eq_ok_iff.mp,
          (mapM_eq_ok_iff.mp hb).imp fun _ _ => checkBundle_eq_ok_iff.mp,
          (mapM_eq_ok_iff.mp hs).imp fun _ _ => checkBuild_eq_ok_iff.mp⟩
  · rintro ⟨hidle, hdirectories, hm, hb, hs⟩
    rw [if_neg hidle]
    refine bind_eq_ok_iff.mpr ⟨report.modules,
      mapM_eq_ok_iff.mpr (hm.imp fun _ _ => checkModule_eq_ok_iff.mpr), ?_⟩
    refine bind_eq_ok_iff.mpr ⟨report.bundles,
      mapM_eq_ok_iff.mpr (hb.imp fun _ _ => checkBundle_eq_ok_iff.mpr), ?_⟩
    rw [if_neg (by simpa using hdirectories)]
    exact bind_eq_ok_iff.mpr ⟨report.builds,
      mapM_eq_ok_iff.mpr (hs.imp fun _ _ => checkBuild_eq_ok_iff.mpr), rfl⟩

/-- A run with a graph that ends without a report was hindered. -/
theorem hindered_of_crossCheckGraph_eq_error (hms : manifests c scanned = .ok ms)
    (hg : Graph.build ms = .ok g)
    (h : Progress.outcome (crossCheckGraph t c r scanned g) = .error f) :
    r.Hindered t c scanned (r.selection c scanned) := by
  have hunknown : ∀ {id}, ¬ g.Known id → id ∉ ms.map Module.id :=
    fun hid => mt (Graph.known_iff_of_build hg).mpr hid
  rw [outcome_crossCheckGraph] at h
  split at h
  · rename_i hidle
    obtain ⟨hm, hb, hs⟩ := idle_iff.mp hidle
    exact .nothingToCheck hm hb hs
  rcases bind_eq_error_iff.mp h with h | ⟨modules, _, h⟩
  · obtain ⟨id, hid, h⟩ := exists_of_mapM_eq_error h
    rcases of_checkModule_eq_error h with h | h
    · exact .unknownModule hms hid (hunknown h)
    · exact .unresolved hid h
  rcases bind_eq_error_iff.mp h with h | ⟨bundles, _, h⟩
  · obtain ⟨b, hb, h⟩ := exists_of_mapM_eq_error h
    rcases of_checkBundle_eq_error h with ⟨id, hid, h⟩ | h
    · exact .unknownMember hms hb hid (hunknown h)
    · exact .unbuiltBundle hb h
  split at h
  · rename_i hdirectories
    obtain ⟨hs, hempty⟩ : r.moduleBuilds = true ∧ scanned = [] := by simpa using hdirectories
    exact .noDirectories hs hempty
  · rcases bind_eq_error_iff.mp h with h | ⟨builds, _, h⟩
    · obtain ⟨s, hs, h⟩ := exists_of_mapM_eq_error h
      exact .unbuiltModule hs (of_checkBuild_eq_error h)
    · cases h

/-- Scanned modules that make a graph are checked with it. -/
theorem crossCheckScanned_of_build (hms : manifests c scanned = .ok ms)
    (hg : Graph.build ms = .ok g) :
    crossCheckScanned t c r scanned = crossCheckGraph t c r scanned g := by
  have hgraph : (manifests c scanned >>= Graph.build) = .ok g := bind_eq_ok_iff.mpr ⟨ms, hms, hg⟩
  rw [crossCheckScanned, hgraph]

theorem exists_graph_of_ok (h : Progress.outcome (crossCheckScanned t c r scanned) = .ok report) :
    ∃ ms g, manifests c scanned = .ok ms ∧ Graph.build ms = .ok g ∧
      Progress.outcome (crossCheckGraph t c r scanned g) = .ok report := by
  cases hgraph : manifests c scanned >>= Graph.build with
  | error f =>
    rw [crossCheckScanned, hgraph] at h
    cases h
  | ok g =>
    obtain ⟨ms, hms, hg⟩ := bind_eq_ok_iff.mp hgraph
    exact ⟨ms, g, hms, hg, crossCheckScanned_of_build hms hg ▸ h⟩

theorem hindered_of_error (h : Progress.outcome (crossCheckScanned t c r scanned) = .error f) :
    r.Hindered t c scanned (r.selection c scanned) := by
  cases hms : manifests c scanned with
  | error f => exact .noManifests hms
  | ok ms =>
    cases hg : Graph.build ms with
    | error f => exact .noGraph hms hg
    | ok g =>
      rw [crossCheckScanned_of_build hms hg] at h
      exact hindered_of_crossCheckGraph_eq_error hms hg h

/-- A run that ends with a report was not hindered. -/
theorem not_hindered_of_ok (h : Progress.outcome (crossCheckScanned t c r scanned) = .ok report) :
    ¬ r.Hindered t c scanned (r.selection c scanned) := by
  obtain ⟨ms, g, hms, hg, h⟩ := exists_graph_of_ok h
  obtain ⟨hidle, hdirectories, hcompares⟩ := outcome_crossCheckGraph_eq_ok_iff.mp h
  intro hindered
  cases hindered with
  | noManifests h => cases hms.symm.trans h
  | noGraph hms' h =>
    cases hms.symm.trans hms'
    cases hg.symm.trans h
  | nothingToCheck hm hb hs => exact hidle ⟨hm, hb, hs⟩
  | noDirectories hs hempty => exact hdirectories ⟨hs, hempty⟩
  | unknownModule hms' hid h =>
    cases hms.symm.trans hms'
    obtain ⟨k, _, hk⟩ := exists_of_mem_of_forall₂ hcompares.modules hid
    exact h ((Graph.known_iff_of_build hg).mp hk.known)
  | unresolved hid h =>
    obtain ⟨k, _, hk⟩ := exists_of_mem_of_forall₂ hcompares.modules hid
    cases hk.observed.symm.trans h
  | unknownMember hms' hb hid h =>
    cases hms.symm.trans hms'
    obtain ⟨k, _, hk⟩ := exists_of_mem_of_forall₂ hcompares.bundles hb
    exact h ((Graph.known_iff_of_build hg).mp (hk.known _ hid))
  | unbuiltBundle hb h =>
    obtain ⟨k, _, hk⟩ := exists_of_mem_of_forall₂ hcompares.bundles hb
    obtain ⟨build, hbuild, _⟩ := hk.observed
    cases hbuild.symm.trans h
  | unbuiltModule hs h =>
    obtain ⟨k, _, hk⟩ := exists_of_mem_of_forall₂ hcompares.builds hs
    obtain ⟨build, hbuild, _⟩ := hk.built
    cases hbuild.symm.trans h

/-! ## 4. Agreement -/

theorem ModuleCheck.Compares.agrees_iff {id : Identity} {k : ModuleCheck}
    (h : k.Compares g t id) :
    k.agrees = true ↔ ∃ s, g.closure id = .ok s ∧ t.resolve id = .ok s := by
  rw [ModuleCheck.agrees_iff]
  constructor
  · intro he
    exact ⟨k.predicted, h.predicted, he ▸ h.observed⟩
  · rintro ⟨s, hs, ho⟩
    have hpredicted : k.predicted = s := Except.ok.inj (h.predicted.symm.trans hs)
    have hobserved : k.observed = s := Except.ok.inj (h.observed.symm.trans ho)
    rw [hpredicted, hobserved]

theorem BundleCheck.Compares.agrees_iff {b : Bundle} {k : BundleCheck} (h : k.Compares g t b) :
    k.agrees = true ↔ ∃ cs build, b.Conflicting g cs ∧ t.buildBundle b = .ok build ∧
      (build.ambiguous = true ↔ cs ≠ []) := by
  obtain ⟨cs, hcs, hp⟩ := h.predicted
  obtain ⟨build, hbuild, ho, _⟩ := h.observed
  rw [BundleCheck.agrees, beq_iff_eq, Bool.eq_iff_iff, hp, ho]
  constructor
  · intro he
    exact ⟨cs, build, hcs, hbuild, he.symm⟩
  · rintro ⟨cs', build', hcs', hbuild', he⟩
    rw [Bundle.conflicting_iff] at hcs hcs'
    cases hcs.symm.trans hcs'
    cases hbuild.symm.trans hbuild'
    exact he.symm

theorem BuildCheck.Compares.success_iff {s : ScannedModule} {k : BuildCheck}
    (h : k.Compares t s) :
    k.success = true ↔ ∃ build, t.buildModule s = .ok build ∧ build.success = true := by
  obtain ⟨build, hbuild, ho⟩ := h.built
  have hsuccess : k.success = build.success := by
    rw [BuildCheck.success, ho]
    cases build.success <;> rfl
  rw [hsuccess]
  constructor
  · intro hs
    exact ⟨build, hbuild, hs⟩
  · rintro ⟨build', hbuild', hs⟩
    cases hbuild.symm.trans hbuild'
    exact hs

theorem CrossReport.Compares.total_eq {sel : CrossRequest.Selection}
    (h : report.Compares g t sel) :
    report.total = sel.modules.length + sel.bundles.length + sel.builds.length := by
  rw [h.modules.length_eq, h.bundles.length_eq, h.builds.length_eq]
  simp [CrossReport.total, CrossReport.lines, Nat.add_assoc]

/-- **Nothing disagrees** exactly when the toolchain confirms the graph. -/
theorem CrossReport.Compares.disagreements_iff {sel : CrossRequest.Selection}
    (h : report.Compares g t sel) : report.disagreements = 0 ↔ t.Confirms g sel := by
  rw [CrossReport.disagreements_eq_zero_iff,
    forall_mem_iff_of_forall₂ h.modules fun _ _ hk => hk.agrees_iff,
    forall_mem_iff_of_forall₂ h.bundles fun _ _ hk => hk.agrees_iff,
    forall_mem_iff_of_forall₂ h.builds fun _ _ hk => hk.success_iff]
  constructor
  · rintro ⟨hm, hb, hs⟩
    exact ⟨hm, hb, hs⟩
  · rintro ⟨hm, hb, hs⟩
    exact ⟨hm, hb, hs⟩

/-- A cross-check of a repository is one of what was scanned in it. -/
theorem outcome_crossCheckWith (t : Toolchain Id) (v : Files.Volume) (root : String) (c : Config)
    (r : CrossRequest) : Progress.outcome (crossCheckWith t v root c r) =
      scan v root c >>= fun scanned => Progress.outcome (crossCheckScanned t c r scanned) := by
  rw [crossCheckWith]
  cases scan v root c <;> rfl

end

/-- **A cross-check reports exactly what it compared**, with any toolchain. Of every scan: the items
    that the request selects are fixed. If there is a report, the scan makes a graph, and the report
    has one check for each item in order, with what the graph predicts and what the toolchain
    answers; nothing in it disagrees exactly when every closure is what the toolchain resolves,
    every bundle is ambiguous exactly when it has conflicts, and every module builds. There is no
    report exactly when the scan makes no graph, nothing is to be checked, modules are to be built
    and none was scanned, or an item is unknown or the toolchain fails to answer for it. And a
    cross-check of a repository is that of its scan, or fails with it. -/
theorem cross_check_reports_what_it_compared (t : Toolchain Id) (c : Config) (r : CrossRequest) :
    (∀ scanned, ∃ sel, r.Selects c scanned sel ∧
      (∀ report, Progress.outcome (crossCheckScanned t c r scanned) = .ok report →
        ∃ ms g, manifests c scanned = .ok ms ∧ Graph.build ms = .ok g ∧
          report.Compares g t sel ∧ (report.disagreements = 0 ↔ t.Confirms g sel)) ∧
      ((∃ f, Progress.outcome (crossCheckScanned t c r scanned) = .error f) ↔
        r.Hindered t c scanned sel)) ∧
    ∀ v root,
      (∀ report, Progress.outcome (crossCheckWith t v root c r) = .ok report ↔
        ∃ scanned, scan v root c = .ok scanned ∧
          Progress.outcome (crossCheckScanned t c r scanned) = .ok report) ∧
      ((∃ f, Progress.outcome (crossCheckWith t v root c r) = .error f) ↔
        (∃ f, scan v root c = .error f) ∨
        ∃ scanned, scan v root c = .ok scanned ∧
          ∃ f, Progress.outcome (crossCheckScanned t c r scanned) = .error f) := by
  refine ⟨fun scanned => ⟨r.selection c scanned, r.selects c scanned, fun report h => ?_, ?_⟩,
    fun v root => ?_⟩
  · obtain ⟨ms, g, hms, hg, h⟩ := exists_graph_of_ok h
    obtain ⟨_, _, hcompares⟩ := outcome_crossCheckGraph_eq_ok_iff.mp h
    exact ⟨ms, g, hms, hg, hcompares, hcompares.disagreements_iff⟩
  · constructor
    · rintro ⟨f, h⟩
      exact hindered_of_error h
    · intro hindered
      cases h : Progress.outcome (crossCheckScanned t c r scanned) with
      | error f => exact ⟨f, rfl⟩
      | ok report => exact absurd hindered (not_hindered_of_ok h)
  · rw [outcome_crossCheckWith]
    refine ⟨fun report => bind_eq_ok_iff, ?_⟩
    simp only [bind_eq_error_iff]
    constructor
    · rintro ⟨f, h | ⟨scanned, hs, h⟩⟩
      · exact Or.inl ⟨f, h⟩
      · exact Or.inr ⟨scanned, hs, f, h⟩
    · rintro (⟨f, h⟩ | ⟨scanned, hs, f, h⟩)
      · exact ⟨f, Or.inl h⟩
      · exact ⟨f, Or.inr ⟨scanned, hs, h⟩⟩

/-- A configuration that pins two scanned modules, bounds the first of them, and has one bundle. -/
def pinnedPair : Config :=
  { modules := (NameMap.put Register.empty "app" { tier := some 1 }).put "lib" { tier := some 0 }
    bounds := NameMap.put Register.empty "app" { max := 1 }
    bundles := [{ members := ["app", "lib"] }] }

/-- The modules of that configuration. -/
def pairOnTwoTiers : List Module := Declaration.modules
  [("app", { tier := some 1, dependencies := ["lib"] }),
    ("lib", { tier := some 0, version := some "v1.0.0" })]

theorem manifests_pinnedPair : manifests pinnedPair scannedPair = .ok pairOnTwoTiers := by
  have hpinned : ∀ s ∈ scannedPair, (pinnedPair.pinnedTiers.get? s.id).isSome = true := by decide
  rw [manifests, deriveTiers_of_pinned hpinned]
  rfl

/-- A toolchain that resolves every module to the library and builds every bundle, and every module
    but the library. -/
def lacksLibrary : Toolchain Id where
  resolve _ := ExceptT.mk (.ok (Register.ofList ["lib"]))
  buildBundle _ := ExceptT.mk (.ok ⟨true, false, ""⟩)
  buildModule s := ExceptT.mk (if s.id = "lib" then .error (.toolchain (.stated "not there"))
    else .ok ⟨true, false, ""⟩)

/-- A request for the first module, the bundle, and builds. -/
def requestForApp : CrossRequest := { named := ["app"], bundles := true, moduleBuilds := true }

/-- What that request selects: the library is not named and not built. -/
def selectionForApp : CrossRequest.Selection where
  modules := ["app"]
  bundles := [Bundle.ofMembers ["app", "lib"]]
  builds := [⟨"app", "app", [⟨"lib", ⟨"v1.0.0"⟩, false⟩]⟩]

theorem eq_selectionForApp {sel : CrossRequest.Selection}
    (h : requestForApp.Selects pinnedPair scannedPair sel) : sel = selectionForApp := by
  obtain ⟨modules, bundles, builds⟩ := sel
  have hmodules : modules = ["app"] := h.named (by decide)
  have hbundles : bundles = [Bundle.ofMembers ["app", "lib"]] := h.bundles
  have hbuilds : builds = selectionForApp.builds := h.builds.trans (by decide)
  rw [hmodules, hbundles, hbuilds]
  rfl

theorem confirms_pair {g : Graph} (hg : Graph.build pairOnTwoTiers = .ok g) :
    lacksLibrary.Confirms g selectionForApp where
  modules id hid := by
    obtain rfl := List.mem_singleton.mp hid
    obtain ⟨s, hs⟩ := (Graph.exists_closure_iff_of_build hg).mpr
      (by decide : "app" ∈ pairOnTwoTiers.map Module.id)
    have hreached : ∀ x ∈ ["app", "lib"],
        Relation.ReflTransGen (DependsOn pairOnTwoTiers) "app" x := by
      simp only [List.forall_mem_cons]
      exact ⟨.refl, .single (by decide), fun _ h => nomatch h⟩
    have hclosure := Graph.closure_eq_ofList hg hs
      (Graph.mem_iff_reflTransGen_of_closed (by decide) (by decide) hreached)
    exact ⟨s, hs, congrArg Except.ok hclosure.symm⟩
  bundles b hb := by
    obtain rfl := List.mem_singleton.mp hb
    have hknown : ∀ r ∈ (Bundle.ofMembers ["app", "lib"]).members, g.Known r :=
      Graph.forall_known_of_build hg (by decide)
    have hversions : ∀ m ∈ pairOnTwoTiers, ∀ n ∈ pairOnTwoTiers, m.key = n.key →
        m.version = n.version := by decide
    have hnone : conflictsAmong g (g.pulled (Bundle.ofMembers ["app", "lib"]).members) = [] := by
      rw [Graph.conflictsAmong_eq_nil_iff]
      rintro key ⟨m, n, ⟨hm, _⟩, ⟨hn, _⟩, hmk, hnk, hne⟩
      exact hne (hversions m ((Graph.get?_eq_some_iff_of_build hg).mp hm).1 n
        ((Graph.get?_eq_some_iff_of_build hg).mp hn).1 (hmk.trans hnk.symm))
    refine ⟨[], _, Bundle.conflicting_iff.mpr ?_, rfl, by simp⟩
    rw [Bundle.answerIn_conflicts_of_known hknown, hnone]
  builds s hs := by
    obtain rfl := List.mem_singleton.mp hs
    exact ⟨_, rfl, rfl⟩

theorem not_hindered_pair :
    ¬ requestForApp.Hindered lacksLibrary pinnedPair scannedPair selectionForApp := by
  obtain ⟨g, hg⟩ : ∃ g, Graph.build pairOnTwoTiers = .ok g :=
    Graph.build_eq_ok_iff.mpr ⟨by decide, by decide, by decide⟩
  have hknown : ∀ id, id = "app" ∨ id = "lib" → id ∈ pairOnTwoTiers.map Module.id := by
    rintro id (rfl | rfl) <;> decide
  intro hindered
  cases hindered with
  | noManifests h => cases manifests_pinnedPair.symm.trans h
  | noGraph hms h =>
    cases manifests_pinnedPair.symm.trans hms
    cases hg.symm.trans h
  | nothingToCheck hm => cases hm
  | noDirectories _ hs => cases hs
  | unknownModule hms hid h =>
    cases manifests_pinnedPair.symm.trans hms
    exact h (hknown _ (Or.inl (List.mem_singleton.mp hid)))
  | unresolved _ h => cases h
  | unknownMember hms hb hid h =>
    cases manifests_pinnedPair.symm.trans hms
    obtain rfl := List.mem_singleton.mp hb
    have hmember := mem_distinct.mp hid
    simp at hmember
    exact h (hknown _ hmember)
  | unbuiltBundle _ h => cases h
  | unbuiltModule hs h =>
    obtain rfl := List.mem_singleton.mp hs
    cases h

/-- The toolchain that lacks the library confirms the first module, the bundle and the build that
    are asked for. Where all builds are asked for, there is no report. -/
theorem cross_check_of_pair :
    (∃ report,
      Progress.outcome (crossCheckScanned lacksLibrary pinnedPair requestForApp scannedPair) =
        .ok report ∧
      report.disagreements = 0 ∧ report.total = 3) ∧
    ∃ f, Progress.outcome
      (crossCheckScanned lacksLibrary pinnedPair { moduleBuilds := true } scannedPair) =
        .error f := by
  constructor
  · obtain ⟨hscan, _⟩ := cross_check_reports_what_it_compared lacksLibrary pinnedPair requestForApp
    obtain ⟨sel, hsel, hreport, hfails⟩ := hscan scannedPair
    obtain rfl := eq_selectionForApp hsel
    cases h : Progress.outcome
        (crossCheckScanned lacksLibrary pinnedPair requestForApp scannedPair) with
    | error f => exact absurd (hfails.mp ⟨f, h⟩) not_hindered_pair
    | ok report =>
      obtain ⟨ms, g, hms, hg, hcompares, hagree⟩ := hreport report h
      cases manifests_pinnedPair.symm.trans hms
      exact ⟨report, rfl, hagree.mpr (confirms_pair hg), hcompares.total_eq⟩
  · obtain ⟨hscan, _⟩ :=
      cross_check_reports_what_it_compared lacksLibrary pinnedPair { moduleBuilds := true }
    obtain ⟨sel, hsel, _, hfails⟩ := hscan scannedPair
    have hlibrary : (⟨"lib", "lib", []⟩ : ScannedModule) ∈ sel.builds := by
      rw [hsel.builds]
      decide
    exact hfails.mpr (.unbuiltModule hlibrary rfl)

end Isolation
