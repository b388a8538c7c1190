import Isolation.Proofs.Manifests
import Isolation.Proofs.Texts

/-!
# What the edges of a scan say

A scan turns module paths into identities by taking the namespace off where it is there, and leaves
every other path as it is. So two paths can have one identity, and an edge of the scan goes to
whatever module has it. This file fixes which required paths lead to a scanned module, and which
edges lead to none.

* `identityOf_eq_identityOf_iff` -- an internal path has the identity of a scanned module exactly
  when it is the path `requiredPath` under which this module is required;
* **`scanned_edges_decide`** -- for a module in the namespace, or where none is set, this is its own
  path: the edges to it are the requirements of it. A module outside the namespace is taken for the
  one that has its path behind the namespace, as `stray_edge_of_module_outside` shows;
* `exists_declared_of_unresolved` -- where every edge of a scan leads to a scanned module, a
  dependency can be unresolved only in a module that is declared and was not scanned;
* **`unscoped_scan_resolves`** -- without a namespace every edge does;
* `exists_documents_of_scan`, `loadGraph_unresolved_of_unscoped` -- the same of a scan of files.

NOT here: which files are scanned, and that identities are distinct. Two scanned modules of one
identity are a matter of the graph.
-/

namespace Isolation

namespace Scan

variable {space : Option String} {start path p q : String} {docs : List (String × GoMod)}

/-! ## 1. Identities and paths -/

/-- The path that has to be required for an edge to a scanned module of a given path. -/
def requiredPath (space : Option String) (path : String) : String :=
  match space with
  | some start => if Text.startsWith path start then path else start ++ path
  | none => path

theorem identityOf_append (start id : String) : identityOf (some start) (start ++ id) = id := by
  rw [identityOf, Text.afterStart?, String.toList_append, Text.after?_append, Option.map_some,
    Option.getD_some, String.ofList_toList]

theorem identityOf_of_not_startsWith (h : ¬ Text.startsWith path start = true) :
    identityOf (some start) path = path := by
  rw [Text.startsWith, Bool.not_eq_true, Option.isSome_eq_false_iff, Option.isNone_iff_eq_none] at h
  rw [identityOf, Text.afterStart?, h]
  rfl

/-- A path in the namespace is the namespace and the identity after it. -/
theorem append_identityOf (h : Text.startsWith path start = true) :
    start ++ identityOf (some start) path = path := by
  obtain ⟨rest, hrest⟩ := Text.startsWith_iff.mp h
  have hpath : path = start ++ String.ofList rest := by
    rw [← String.toList_inj, String.toList_append, String.toList_ofList, hrest]
  rw [hpath, identityOf_append]

/-- **An internal path leads to a module** exactly when it is the one required for an edge to it. -/
theorem identityOf_eq_identityOf_iff {known : List String} (hp : p ∈ known) :
    isInternal space known q = true ∧ identityOf space q = identityOf space p ↔
      q = requiredPath space p := by
  cases space with
  | none =>
    simp only [isInternal, identityOf, requiredPath, List.contains_iff_mem]
    constructor
    · exact fun h => h.2
    · rintro rfl
      exact ⟨hp, rfl⟩
  | some start =>
    simp only [isInternal, requiredPath]
    by_cases hin : Text.startsWith p start = true
    · rw [if_pos hin]
      constructor
      · rintro ⟨hq, he⟩
        rw [← append_identityOf hq, he, append_identityOf hin]
      · rintro rfl
        exact ⟨hin, rfl⟩
    · rw [if_neg hin, identityOf_of_not_startsWith hin]
      constructor
      · rintro ⟨hq, rfl⟩
        exact (append_identityOf hq).symm
      · rintro rfl
        refine ⟨Text.startsWith_iff.mpr ?_, identityOf_append start p⟩
        rw [String.toList_append]
        exact List.prefix_append _ _

/-! ## 2. Edges -/

theorem mem_dependencyIds_moduleOf {known : List String} {directory : String} {doc : GoMod}
    {d : Identity} : d ∈ (moduleOf space known directory doc).dependencyIds ↔
      ∃ r ∈ doc.requires, isInternal space known r.path = true ∧ identityOf space r.path = d := by
  simp [moduleOf, ScannedModule.dependencyIds, and_assoc]

/-- The scanned modules stand beside the documents that they were made of. -/
theorem mem_zip_modulesOf {a : String × GoMod} {s : ScannedModule}
    (h : (a, s) ∈ docs.zip (modulesOf space docs)) :
    a ∈ docs ∧ s = moduleOf space (docs.map fun d => d.2.modulePath) a.1 a.2 := by
  rw [modulesOf, List.zip_map_right, List.mem_map] at h
  obtain ⟨⟨x, y⟩, hxy, he⟩ := h
  obtain ⟨rfl, rfl⟩ := Prod.mk.inj he
  have hsame : x = y := by
    obtain ⟨i, hi⟩ := List.mem_iff_getElem?.mp hxy
    rw [List.getElem?_zip_eq_some] at hi
    exact Option.some.inj (hi.1.symm.trans hi.2)
  subst hsame
  exact ⟨(List.of_mem_zip hxy).1, rfl⟩

/-- **Which requirements are edges to a scanned module**: those of the path that leads to it. -/
theorem mem_dependencyIds_iff {a b : String × GoMod} {s t : ScannedModule}
    (ha : (a, s) ∈ docs.zip (modulesOf space docs))
    (hb : (b, t) ∈ docs.zip (modulesOf space docs)) :
    t.id ∈ s.dependencyIds ↔ ∃ r ∈ a.2.requires, r.path = requiredPath space b.2.modulePath := by
  obtain ⟨_, rfl⟩ := mem_zip_modulesOf ha
  obtain ⟨hdoc, rfl⟩ := mem_zip_modulesOf hb
  have hknown : b.2.modulePath ∈ docs.map fun d => d.2.modulePath := List.mem_map_of_mem hdoc
  rw [mem_dependencyIds_moduleOf]
  exact exists_congr fun r => and_congr_right fun _ => identityOf_eq_identityOf_iff hknown

end Scan

open Scan

/-- **The edges of a scan are requirements.** An edge to a module in the namespace, or to any module
    where none is set, is a requirement of this module. A module outside the namespace has the
    identity of the path behind the namespace, and the edges to it are requirements of that one. -/
theorem scanned_edges_decide {space : Option String} {docs : List (String × GoMod)}
    {a b : String × GoMod} {s t : ScannedModule} (ha : (a, s) ∈ docs.zip (modulesOf space docs))
    (hb : (b, t) ∈ docs.zip (modulesOf space docs)) :
    ((∀ start ∈ space, start.toList <+: b.2.modulePath.toList) →
      (t.id ∈ s.dependencyIds ↔ ∃ r ∈ a.2.requires, r.path = b.2.modulePath)) ∧
    ∀ start ∈ space, ¬ start.toList <+: b.2.modulePath.toList →
      (t.id ∈ s.dependencyIds ↔ ∃ r ∈ a.2.requires, r.path = start ++ b.2.modulePath) := by
  have hedge := mem_dependencyIds_iff ha hb
  constructor
  · intro hin
    have hpath : requiredPath space b.2.modulePath = b.2.modulePath := by
      cases space with
      | none => rfl
      | some start => exact if_pos (Text.startsWith_iff.mpr (hin start rfl))
    rwa [hpath] at hedge
  · rintro start rfl hout
    have hpath : requiredPath (some start) b.2.modulePath = start ++ b.2.modulePath :=
      if_neg fun hin => hout (Text.startsWith_iff.mp hin)
    rwa [hpath] at hedge

/-- A module that requires two others of the namespace `n/`. -/
def requiringDocument : GoMod := ⟨"n/a", [⟨"n/b", "v0.1.0", false⟩, ⟨"n/c", "v0.2.0", false⟩]⟩

/-- Its repository: one of the two is there, and a module outside the namespace that has the path of
    the other one behind the namespace. -/
def strayDocuments : List (String × GoMod) :=
  [("modules/a", requiringDocument), ("modules/b", ⟨"b", []⟩), ("modules/c", ⟨"n/c", []⟩)]

/-- What is scanned of the first of them. -/
def requiringModule : ScannedModule :=
  ⟨"a", "modules/a", [⟨"b", ⟨"v0.1.0"⟩, false⟩, ⟨"c", ⟨"v0.2.0"⟩, false⟩]⟩

theorem modulesOf_strayDocuments : modulesOf (some "n/") strayDocuments =
    [requiringModule, ⟨"b", "modules/b", []⟩, ⟨"c", "modules/c", []⟩] := by
  decide

/-- In that repository the edge to the module of the namespace is a requirement of it. -/
theorem scanned_edges_of_stray_repository :
    (∀ start ∈ some "n/", start.toList <+: "n/c".toList) ∧ "c" ∈ requiringModule.dependencyIds ∧
      ∃ r ∈ requiringDocument.requires, r.path = "n/c" := by
  have hin : ∀ start ∈ some "n/", start.toList <+: "n/c".toList := by
    intro start hstart
    rw [← Option.some.inj hstart]
    decide
  have ha : (("modules/a", requiringDocument), requiringModule) ∈
      strayDocuments.zip (modulesOf (some "n/") strayDocuments) := by
    rw [modulesOf_strayDocuments]
    decide
  have hc : (("modules/c", ⟨"n/c", []⟩), ⟨"c", "modules/c", []⟩) ∈
      strayDocuments.zip (modulesOf (some "n/") strayDocuments) := by
    rw [modulesOf_strayDocuments]
    decide
  have hedge : "c" ∈ requiringModule.dependencyIds := by decide
  exact ⟨hin, hedge, ((scanned_edges_decide ha hc).1 hin).mp hedge⟩

/-- **An edge may go astray**: the documents are well-formed, and the first module depends on the
    second one, which it does not require. -/
theorem stray_edge_of_module_outside :
    GoMod.parse "module n/a\nrequire n/b v0.1.0\nrequire n/c v0.2.0\n" = .ok requiringDocument ∧
      GoMod.parse "module b\n" = .ok ⟨"b", []⟩ ∧ GoMod.parse "module n/c\n" = .ok ⟨"n/c", []⟩ ∧
      ∃ a b, (("modules/a", requiringDocument), a) ∈
          strayDocuments.zip (modulesOf (some "n/") strayDocuments) ∧
        (("modules/b", ⟨"b", []⟩), b) ∈
          strayDocuments.zip (modulesOf (some "n/") strayDocuments) ∧
        b.id ∈ a.dependencyIds ∧ ¬ ∃ r ∈ requiringDocument.requires, r.path = "b" := by
  rw [modulesOf_strayDocuments]
  refine ⟨rfl, rfl, rfl, requiringModule, ⟨"b", "modules/b", []⟩, ?_⟩
  decide

/-! ## 3. Edges that lead nowhere -/

section Unresolved

variable {c : Config} {scanned : List ScannedModule} {ms : List Module} {id d : Identity}

/-- A module that is only declared has the dependencies that are declared. -/
theorem get?_of_declaredModule {missing : Defect} {p : Identity × Declaration} {m : Module}
    (hp : p ∈ c.modules) (h : Config.declaredModule missing p.1 p.2 = .ok m) :
    m.id = p.1 ∧ c.modules.get? m.id = some p.2 ∧ m.dependencies = distinct p.2.dependencies := by
  obtain ⟨t, _, hm⟩ := Config.makes_of_declaredModule h
  refine ⟨hm.id_eq, NameMap.get?_eq_some_iff.mpr ?_, hm.dependencies_eq⟩
  rw [hm.id_eq]
  exact hp

/-- **Only what is declared and was not scanned can miss a dependency**, if every edge of the scan
    leads to a scanned module. -/
theorem exists_declared_of_unresolved
    (hscan : ∀ s ∈ scanned, ∀ e ∈ s.dependencyIds, e ∈ scanned.map ScannedModule.id)
    (h : manifests c scanned = .ok ms) (hb : Graph.build ms = .error (.unresolvedDependency id d)) :
    id ∉ scanned.map ScannedModule.id ∧
      ∃ declared, c.modules.get? id = some declared ∧ d ∈ declared.dependencies := by
  obtain ⟨_, before, m, after, hms, rfl, _, earlier, later, hdeps, _, hmissing⟩ :=
    Graph.build_eq_unresolvedDependency_iff.mp hb
  have hm : m ∈ ms := by
    rw [hms]
    exact List.mem_append_right _ List.mem_cons_self
  have hd : d ∈ m.dependencies := by
    rw [hdeps]
    exact List.mem_append_right _ List.mem_cons_self
  by_cases hne : scanned = []
  · subst hne
    obtain ⟨p, hp, hdecl⟩ := (mem_of_mapM_eq_ok h).mp hm
    obtain ⟨_, hget, hdd⟩ := get?_of_declaredModule hp hdecl
    exact ⟨List.not_mem_nil, p.2, hget, mem_distinct.mp (hdd ▸ hd)⟩
  · rcases (mem_manifests hne h).mp hm with ⟨s, hs, hf⟩ | ⟨p, hp, hnot, hdecl⟩
    · -- a scanned module depends on scanned ones, and each of them is a module
      obtain ⟨_, _, hreq⟩ := of_found hf
      have hd' : d ∈ scanned.map ScannedModule.id := hscan s hs d (mem_distinct.mp (hreq ▸ hd))
      refine absurd ?_ hmissing
      rw [map_id_manifests hne h]
      exact List.mem_append_left _ hd'
    · obtain ⟨hid, hget, hdd⟩ := get?_of_declaredModule hp hdecl
      rw [hid] at hget ⊢
      exact ⟨hnot, p.2, hget, mem_distinct.mp (hdd ▸ hd)⟩

end Unresolved

/-- Without a namespace the identity of a module is its path, and a requirement is internal only if
    a scanned module has its path. -/
theorem mem_map_id_of_unscoped {docs : List (String × GoMod)} {s : ScannedModule}
    (hs : s ∈ modulesOf none docs) {d : Identity} (hd : d ∈ s.dependencyIds) :
    d ∈ (modulesOf none docs).map ScannedModule.id := by
  obtain ⟨doc, _, rfl⟩ := List.mem_map.mp hs
  obtain ⟨r, _, hknown, rfl⟩ := mem_dependencyIds_moduleOf.mp hd
  obtain ⟨other, hother, hpath⟩ := List.mem_map.mp (List.contains_iff_mem.mp hknown)
  exact List.mem_map.mpr ⟨_, List.mem_map_of_mem hother, hpath⟩

/-- **A scan without a namespace resolves every edge.** So if a dependency of the modules that it
    makes is unresolved, the module that is blamed was not scanned: it is declared, with this
    dependency. -/
theorem unscoped_scan_resolves (docs : List (String × GoMod)) (c : Config) :
    (∀ s ∈ modulesOf none docs, ∀ d ∈ s.dependencyIds,
      d ∈ (modulesOf none docs).map ScannedModule.id) ∧
    ∀ ms id d, manifests c (modulesOf none docs) = .ok ms →
      Graph.build ms = .error (.unresolvedDependency id d) →
      id ∉ (modulesOf none docs).map ScannedModule.id ∧
        ∃ declared, c.modules.get? id = some declared ∧ d ∈ declared.dependencies := by
  have hscan : ∀ s ∈ modulesOf none docs, ∀ d ∈ s.dependencyIds,
      d ∈ (modulesOf none docs).map ScannedModule.id :=
    fun _ hs _ hd => mem_map_id_of_unscoped hs hd
  exact ⟨hscan, fun _ _ _ h hb => exists_declared_of_unresolved hscan h hb⟩

/-- Two modules without a namespace: the first requires the second one, and a third that is not
    there. -/
def unscopedDocuments : List (String × GoMod) :=
  [("a", ⟨"a", [⟨"b", "v1.0.0", false⟩, ⟨"x.org/far", "v3.0.0", true⟩]⟩), ("b", ⟨"b", []⟩)]

/-- A configuration that pins both, and declares one more with a dependency that nobody has. -/
def gapped : Config :=
  { modules := ((NameMap.put Register.empty "a" { tier := some 1 }).put "b" { tier := some 0 }).put
      "late" { tier := some 1, dependencies := ["gone"] } }

/-- The modules of the scan and of the configuration. -/
def gappedModules : List Module := Declaration.modules
  [("a", { tier := some 1, dependencies := ["b"] }), ("b", { tier := some 0, version := "v1.0.0" }),
    ("late", { tier := some 1, dependencies := ["gone"] })]

theorem manifests_gapped :
    manifests gapped (modulesOf none unscopedDocuments) = .ok gappedModules := by
  have hpinned : ∀ s ∈ modulesOf none unscopedDocuments,
      (gapped.pinnedTiers.get? s.id).isSome = true := by decide
  rw [manifests, deriveTiers_of_pinned hpinned]
  rfl

/-- The module that is blamed there is the one that was not scanned. -/
theorem unscoped_scan_blames_declared :
    manifests gapped (modulesOf none unscopedDocuments) = .ok gappedModules ∧
      Graph.build gappedModules = .error (.unresolvedDependency "late" "gone") ∧
      "late" ∉ (modulesOf none unscopedDocuments).map ScannedModule.id ∧
      ∃ declared, gapped.modules.get? "late" = some declared ∧ "gone" ∈ declared.dependencies := by
  have hb : Graph.build gappedModules = .error (.unresolvedDependency "late" "gone") := rfl
  exact ⟨manifests_gapped, hb,
    (unscoped_scan_resolves unscopedDocuments gapped).2 _ _ _ manifests_gapped hb⟩

/-! ## 4. Scans of files -/

section Files

variable {v : Files.Volume} {root : String} {c : Config} {scanned : List ScannedModule}

/-- **What is scanned is scanned of documents** that were read in files. -/
theorem exists_documents_of_scan (h : scan v root c = .ok scanned) :
    ∃ found docs, documents v root found = .ok docs ∧
      scanned = modulesOf c.workspace.space docs := by
  unfold scan at h
  split at h
  · cases h
    exact ⟨[], [], rfl, rfl⟩
  · obtain ⟨_, _, h⟩ := bind_eq_ok_iff.mp h
    obtain ⟨_, _, h⟩ := bind_eq_ok_iff.mp h
    split at h
    · cases h
    · obtain ⟨docs, hdocs, h⟩ := bind_eq_ok_iff.mp h
      exact ⟨_, docs, hdocs, (Except.ok.inj h).symm⟩

/-- A scan does not look at what the modules are, so it finds no fault with them. -/
theorem scan_ne_fault (f : Fault) : scan v root c ≠ .error (.fault f) := by
  have hpatterns : ∀ texts, patterns texts ≠ .error (.fault f) := by
    intro texts h
    unfold patterns at h
    split at h <;> cases h
  have hread : ∀ path, readDocument v path ≠ .error (.fault f) := by
    intro path h
    unfold readDocument at h
    split at h
    · cases h
    · split at h <;> cases h
  intro h
  unfold scan at h
  split at h
  · cases h
  · rcases bind_eq_error_iff.mp h with h | ⟨_, _, h⟩
    · exact hpatterns _ h
    · rcases bind_eq_error_iff.mp h with h | ⟨_, _, h⟩
      · exact hpatterns _ h
      · split at h
        · cases h
        · rcases bind_eq_error_iff.mp h with h | ⟨_, _, h⟩
          · obtain ⟨names, _, h⟩ := exists_of_mapM_eq_error h
            rcases bind_eq_error_iff.mp h with h | ⟨_, _, h⟩
            · exact hread _ h
            · cases h
          · cases h

theorem orFault_eq_error_iff {α : Type} {r : Except Fault α} {f : Fault} :
    orFault r = .error (.fault f) ↔ r = .error f := by
  cases r with
  | ok a => exact ⟨fun h => (nomatch h), fun h => (nomatch h)⟩
  | error f' =>
    constructor
    · intro h
      cases h
      rfl
    · intro h
      cases h
      rfl

/-- A repository without a namespace lacks a dependency only of a module that it declares and in
    which no file was found. -/
theorem loadGraph_unresolved_of_unscoped {id d : Identity} (hspace : c.workspace.space = none)
    (h : loadGraph v root c = .error (.fault (.unresolvedDependency id d))) :
    ∃ scanned, scan v root c = .ok scanned ∧ id ∉ scanned.map ScannedModule.id ∧
      ∃ declared, c.modules.get? id = some declared ∧ d ∈ declared.dependencies := by
  rcases bind_eq_error_iff.mp h with h | ⟨scanned, hs, h⟩
  · exact absurd h (scan_ne_fault _)
  · obtain ⟨_, docs, _, rfl⟩ := exists_documents_of_scan hs
    rw [hspace] at hs h
    refine ⟨_, hs, ?_⟩
    rcases bind_eq_error_iff.mp h with h | ⟨ms, hms, h⟩
    · obtain ⟨_, _, hdefect⟩ := exists_defect_of_manifests (orFault_eq_error_iff.mp h)
      cases hdefect
    · cases hm : manifests c (modulesOf none docs) with
      | error f =>
        rw [hm] at hms
        cases hms
      | ok ms' =>
        rw [hm] at hms
        cases hms
        exact exists_declared_of_unresolved (fun _ hs _ hd => mem_map_id_of_unscoped hs hd) hm
          (orFault_eq_error_iff.mp h)

end Files

end Isolation
