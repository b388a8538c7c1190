import Isolation.Conflict
import Isolation.Proofs.Building
import Isolation.Proofs.Memo

/-!
# Which imports are ambiguous

A resolution key is AMBIGUOUS for some roots when two modules that the roots bring in have this key
and different versions (`Graph.Ambiguous`). This is said of the graph alone: no memo, no order of
the roots, no grouping. The file fixes how the detection of conflicts relates to it:

* `answerIn_conflicts_of_known`, `answerIn_conflicts_of_unknown` -- a bundle of known members has
  conflicts (possibly none); the first unknown member of any other bundle is its fault;
* **`mem_keys_conflictsAmong`** -- the keys of the conflicts are exactly the ambiguous keys, and
  `pairwise_keys_conflictsAmong` lists them in ascending order;
* `exists_conflicts_of_known` -- so they are through any faithful memo;
* `mem_candidates_iff`, `mem_requesters_pulled` -- the candidates of a conflict are the modules of
  its key, and the requesters of a candidate the members that bring it in;
* `nodup_map_module_of_mem` -- each module is a candidate once;
* **`conflict_keys_eq_union_of_pairs`** -- an ambiguity needs two modules, each brought in by one
  member; so the ambiguous keys of a bundle are those of its pairs of members.

NOT here: the order of the candidates.
-/

namespace Isolation

/-! ## 1. What roots bring in -/

namespace Graph

variable (g : Graph)

/-- The graph has a module for the identity. -/
def Known (id : Identity) : Prop := ∃ m, g.get? id = some m

/-- Importing `r` brings `x` in: it is `r` itself, or a chain of dependencies leads to it. -/
def Pulls (r x : Identity) : Prop := x = r ∨ g.downward.Below r x

/-- A module of the graph that some of the roots bring in. -/
def Brought (roots : List Identity) (m : Module) : Prop :=
  g.get? m.id = some m ∧ ∃ r ∈ roots, g.Pulls r m.id

/-- Two modules that the roots bring in have the key and different versions. -/
def Ambiguous (roots : List Identity) (key : String) : Prop :=
  ∃ m n, g.Brought roots m ∧ g.Brought roots n ∧ m.key = key ∧ n.key = key ∧
    m.version ≠ n.version

variable {g} {roots : List Identity}

theorem known_iff_of_build {ms : List Module} (hg : build ms = .ok g) {id : Identity} :
    g.Known id ↔ id ∈ ms.map Module.id := by
  rw [Known, List.mem_map]
  simp only [get?_eq_some_iff_of_build hg]

theorem forall_known_of_build {ms : List Module} (hg : build ms = .ok g)
    (h : ∀ r ∈ roots, r ∈ ms.map Module.id) : ∀ r ∈ roots, g.Known r :=
  fun r hr => (known_iff_of_build hg).mpr (h r hr)

theorem Brought.mono {roots' : List Identity} {m : Module} (h : g.Brought roots m)
    (hs : ∀ r ∈ roots, r ∈ roots') : g.Brought roots' m := by
  obtain ⟨hm, r, hr, hp⟩ := h
  exact ⟨hm, r, hs r hr, hp⟩

theorem Ambiguous.mono {roots' : List Identity} {key : String} (h : g.Ambiguous roots key)
    (hs : ∀ r ∈ roots, r ∈ roots') : g.Ambiguous roots' key := by
  obtain ⟨m, n, hm, hn, h⟩ := h
  exact ⟨m, n, hm.mono hs, hn.mono hs, h⟩

/-- **Ambiguity is a matter of two roots**: of those that bring in the two modules. -/
theorem ambiguous_iff_exists_pair {key : String} :
    g.Ambiguous roots key ↔ ∃ r ∈ roots, ∃ s ∈ roots, g.Ambiguous [r, s] key := by
  constructor
  · rintro ⟨m, n, ⟨hm, r, hr, hpm⟩, ⟨hn, s, hs, hpn⟩, h⟩
    exact ⟨r, hr, s, hs, m, n, ⟨hm, r, List.mem_cons_self, hpm⟩,
      ⟨hn, s, List.mem_cons_of_mem _ List.mem_cons_self, hpn⟩, h⟩
  · rintro ⟨r, hr, s, hs, h⟩
    refine h.mono fun x hx => ?_
    rcases List.mem_cons.mp hx with rfl | hx
    · exact hr
    · exact List.mem_singleton.mp hx ▸ hs

/-! ## 2. Gathering -/

/-- The roots with their closures. -/
def pulled (g : Graph) (roots : List Identity) : Pulled :=
  roots.map fun r => (r, Register.ofList (g.downward.below r))

theorem answerIn_gather_of_known (h : ∀ r ∈ roots, g.Known r) :
    (gather roots).answerIn g = .ok (g.pulled roots) := by
  induction roots with
  | nil => rfl
  | cons r roots ih =>
    obtain ⟨m, hm⟩ := h r List.mem_cons_self
    have ih := ih fun x hx => h x (List.mem_cons_of_mem _ hx)
    rw [gather, Inquiry.answerIn, closure_of_get? hm]
    simp only [Inquiry.answerIn_map, ih]
    rfl

theorem answerIn_gather_of_unknown {before after : List Identity} {x : Identity}
    (h : ∀ r ∈ before, g.Known r) (hx : g.get? x = none) :
    (gather (before ++ x :: after)).answerIn g = .error (.unknownModule x) := by
  induction before with
  | nil =>
    rw [List.nil_append, gather, Inquiry.answerIn, closure_of_get?_eq_none hx]
    rfl
  | cons r before ih =>
    obtain ⟨m, hm⟩ := h r List.mem_cons_self
    have ih := ih fun x hx => h x (List.mem_cons_of_mem _ hx)
    rw [List.cons_append, gather, Inquiry.answerIn, closure_of_get? hm]
    simp only [Inquiry.answerIn_map, ih]
    rfl

/-- Either all identities are known, or there is a first one that is not. -/
theorem known_or_exists_first_unknown (roots : List Identity) :
    (∀ r ∈ roots, g.Known r) ∨ ∃ before x after, roots = before ++ x :: after ∧
      (∀ r ∈ before, g.Known r) ∧ g.get? x = none := by
  induction roots with
  | nil => exact Or.inl fun r hr => absurd hr List.not_mem_nil
  | cons r roots ih =>
    cases hr : g.get? r with
    | none => exact Or.inr ⟨[], r, roots, rfl, fun _ h => absurd h List.not_mem_nil, hr⟩
    | some m =>
      rcases ih with h | ⟨before, x, after, rfl, hb, hx⟩
      · exact Or.inl (List.forall_mem_cons.mpr ⟨⟨m, hr⟩, h⟩)
      · exact Or.inr ⟨r :: before, x, after, rfl, List.forall_mem_cons.mpr ⟨⟨m, hr⟩, hb⟩, hx⟩

theorem mem_mergedIds_pulled {x : Identity} :
    x ∈ mergedIds (g.pulled roots) ↔ ∃ r ∈ roots, g.Pulls r x := by
  rw [mergedIds, NameSet.mem_ofList, List.mem_flatMap]
  constructor
  · rintro ⟨p, hp, hx⟩
    obtain ⟨r, hr, rfl⟩ := List.mem_map.mp hp
    exact ⟨r, hr, (List.mem_cons.mp hx).imp id mem_ofList_below.mp⟩
  · rintro ⟨r, hr, hx⟩
    exact ⟨_, List.mem_map_of_mem hr, List.mem_cons.mpr (hx.imp id mem_ofList_below.mpr)⟩

/-- The requesters of a module are the roots that bring it in. -/
theorem mem_requesters_pulled {r x : Identity} :
    r ∈ requesters (g.pulled roots) x ↔ r ∈ roots ∧ g.Pulls r x := by
  rw [requesters, NameSet.mem_ofList, List.mem_map]
  simp only [List.mem_filter, Bool.or_eq_true, beq_iff_eq, NameSet.has_iff_mem]
  constructor
  · rintro ⟨p, ⟨hp, hx⟩, rfl⟩
    obtain ⟨r, hr, rfl⟩ := List.mem_map.mp hp
    exact ⟨hr, hx.imp Eq.symm mem_ofList_below.mp⟩
  · rintro ⟨hr, hx⟩
    exact ⟨_, ⟨List.mem_map_of_mem hr, hx.imp Eq.symm mem_ofList_below.mpr⟩, rfl⟩

theorem mem_modulesOf {ids : List Identity} {m : Module} :
    m ∈ g.modulesOf ids ↔ g.get? m.id = some m ∧ m.id ∈ ids := by
  rw [modulesOf, List.mem_filterMap]
  constructor
  · rintro ⟨id, hid, hm⟩
    rw [id_of_get? hm]
    exact ⟨hm, hid⟩
  · rintro ⟨hm, hid⟩
    exact ⟨m.id, hid, hm⟩

theorem mem_modulesOf_mergedIds {m : Module} :
    m ∈ g.modulesOf (mergedIds (g.pulled roots)).toList ↔ g.Brought roots m := by
  rw [mem_modulesOf, ← Register.mem_def, mem_mergedIds_pulled, Brought]

end Graph

/-! ## 3. Conflicts -/

theorem eq_nil_iff_forall_key {cs : List Conflict} :
    cs = [] ↔ ∀ key, key ∉ cs.map Conflict.key := by
  rw [← List.map_eq_nil_iff (f := Conflict.key), List.eq_nil_iff_forall_not_mem]

theorem versionsDiffer_iff {cs : List Candidate} :
    versionsDiffer cs = true ↔ ∃ c ∈ cs, ∃ d ∈ cs, c.version ≠ d.version := by
  cases cs with
  | nil => simp [versionsDiffer]
  | cons c cs =>
    rw [versionsDiffer, List.any_eq_true]
    constructor
    · rintro ⟨d, hd, hne⟩
      exact ⟨d, List.mem_cons_of_mem _ hd, c, List.mem_cons_self, by simpa using hne⟩
    · rintro ⟨d, hd, e, he, hne⟩
      -- of two different versions at least one differs from the first candidate's
      by_cases hdc : d.version = c.version
      · have hec : e.version ≠ c.version := fun h => hne (hdc.trans h.symm)
        refine ⟨e, (List.mem_cons.mp he).resolve_left fun h => hec (h ▸ rfl), by simpa using hec⟩
      · exact ⟨d, (List.mem_cons.mp hd).resolve_left fun h => hdc (h ▸ rfl), by simpa using hdc⟩

namespace Graph

variable {g : Graph} {roots : List Identity} {key : String}

/-- The candidates for a key, not in order yet. -/
def competing (g : Graph) (pulled : Pulled) (key : String) : List Candidate :=
  ((g.modulesOf (mergedIds pulled).toList).filter fun m => m.key == key).map (candidate pulled)

theorem mem_competing {c : Candidate} : c ∈ g.competing (g.pulled roots) key ↔
    ∃ m, g.Brought roots m ∧ m.key = key ∧ candidate (g.pulled roots) m = c := by
  simp only [competing, List.mem_map, List.mem_filter, mem_modulesOf_mergedIds, beq_iff_eq,
    and_assoc]

/-- The candidates for a key have more than one version exactly when the key is ambiguous. -/
theorem versionsDiffer_competing_iff :
    versionsDiffer (g.competing (g.pulled roots) key) = true ↔ g.Ambiguous roots key := by
  rw [versionsDiffer_iff, Ambiguous]
  constructor
  · rintro ⟨c, hc, d, hd, hne⟩
    obtain ⟨m, hm, hmk, rfl⟩ := mem_competing.mp hc
    obtain ⟨n, hn, hnk, rfl⟩ := mem_competing.mp hd
    exact ⟨m, n, hm, hn, hmk, hnk, hne⟩
  · rintro ⟨m, n, hm, hn, hmk, hnk, hne⟩
    exact ⟨_, mem_competing.mpr ⟨m, hm, hmk, rfl⟩, _, mem_competing.mpr ⟨n, hn, hnk, rfl⟩, hne⟩

/-- A key stands for a conflict when the candidates for it have more than one version. -/
theorem conflictsAmong_eq_competing (pulled : Pulled) :
    conflictsAmong g pulled =
      (Register.ofList ((g.modulesOf (mergedIds pulled).toList).map Module.key) :
        NameSet).toList.filterMap fun key =>
          if versionsDiffer (g.competing pulled key) then
            some ⟨key, sortedBy Candidate.compare (g.competing pulled key)⟩
          else none := rfl

/-- The keys of the conflicts are the keys of the merged modules less those that are in order. -/
theorem keys_conflictsAmong (pulled : Pulled) :
    (conflictsAmong g pulled).map Conflict.key =
      (Register.ofList ((g.modulesOf (mergedIds pulled).toList).map Module.key) :
        NameSet).toList.filter fun key => versionsDiffer (g.competing pulled key) := by
  rw [conflictsAmong_eq_competing, List.map_filterMap, ← List.filterMap_eq_filter]
  congr 1
  funext key
  rw [Option.guard_apply]
  split <;> rfl

/-- **The keys of the conflicts are exactly the ambiguous keys.** -/
theorem mem_keys_conflictsAmong :
    key ∈ (conflictsAmong g (g.pulled roots)).map Conflict.key ↔ g.Ambiguous roots key := by
  rw [keys_conflictsAmong, List.mem_filter, versionsDiffer_competing_iff, ← Register.mem_def,
    NameSet.mem_ofList]
  constructor
  · exact And.right
  · rintro ⟨m, n, hm, h⟩
    exact ⟨List.mem_map.mpr ⟨m, mem_modulesOf_mergedIds.mpr hm, h.2.1⟩, m, n, hm, h⟩

theorem pairwise_keys_conflictsAmong (pulled : Pulled) :
    ((conflictsAmong g pulled).map Conflict.key).Pairwise (· < ·) := by
  rw [keys_conflictsAmong]
  exact (Register.ascending _).filter _

/-- A conflict stands for an ambiguous key and lists the candidates for it. -/
theorem of_mem_conflictsAmong {c : Conflict} (h : c ∈ conflictsAmong g (g.pulled roots)) :
    g.Ambiguous roots c.key ∧
      c.candidates = sortedBy Candidate.compare (g.competing (g.pulled roots) c.key) := by
  have hkey : g.Ambiguous roots c.key := mem_keys_conflictsAmong.mp (List.mem_map_of_mem h)
  refine ⟨hkey, ?_⟩
  rw [conflictsAmong_eq_competing] at h
  obtain ⟨key, _, hc⟩ := List.mem_filterMap.mp h
  obtain ⟨_, hc⟩ := Option.ite_none_right_eq_some.mp hc
  cases hc
  rfl

/-- **The candidates of a conflict are the modules of its key that the roots bring in.** -/
theorem mem_candidates_iff {c : Conflict} (h : c ∈ conflictsAmong g (g.pulled roots))
    {k : Candidate} : k ∈ c.candidates ↔
      ∃ m, g.Brought roots m ∧ m.key = c.key ∧ candidate (g.pulled roots) m = k := by
  rw [(of_mem_conflictsAmong h).2, (sortedBy_perm _ _).mem_iff, mem_competing]

theorem conflictsAmong_eq_nil_iff :
    conflictsAmong g (g.pulled roots) = [] ↔ ∀ key, ¬ g.Ambiguous roots key := by
  rw [eq_nil_iff_forall_key]
  simp only [mem_keys_conflictsAmong]

theorem sublist_map_id_modulesOf (ids : List Identity) :
    ((g.modulesOf ids).map Module.id).Sublist ids := by
  induction ids with
  | nil => exact .slnil
  | cons x ids ih =>
    unfold modulesOf at ih ⊢
    rw [List.filterMap_cons]
    cases hx : g.get? x with
    | none => exact ih.cons x
    | some m =>
      have hid : m.id = x := id_of_get? hx
      rw [List.map_cons, hid]
      exact ih.cons_cons x

/-- **Each module competes once.** -/
theorem nodup_map_module_competing (p : Pulled) :
    ((g.competing p key).map Candidate.module).Nodup := by
  have hids : (mergedIds p).toList.Nodup := (mergedIds p).nodup_toList
  have hmodules : ((g.modulesOf (mergedIds p).toList).map Module.id).Nodup :=
    hids.sublist (sublist_map_id_modulesOf _)
  unfold competing
  rw [List.map_map]
  exact hmodules.sublist (List.filter_sublist.map Module.id)

theorem nodup_map_module_of_mem {c : Conflict} (h : c ∈ conflictsAmong g (g.pulled roots)) :
    (c.candidates.map Candidate.module).Nodup := by
  have hperm : (c.candidates.map Candidate.module).Perm
      ((g.competing (g.pulled roots) c.key).map Candidate.module) := by
    rw [(of_mem_conflictsAmong h).2]
    exact (sortedBy_perm _ _).map Candidate.module
  exact hperm.nodup_iff.mpr (nodup_map_module_competing _)

end Graph

/-! ## 4. Bundles -/

namespace Bundle

variable {g : Graph} {b : Bundle}

theorem answerIn_conflicts_of_known (h : ∀ r ∈ b.members, g.Known r) :
    (b.conflicts g).answerIn g = .ok (conflictsAmong g (g.pulled b.members)) := by
  rw [conflicts, Inquiry.answerIn_map, Graph.answerIn_gather_of_known h]
  rfl

theorem answerIn_conflicts_of_unknown {before after : List Identity} {x : Identity}
    (hb : b.members = before ++ x :: after) (h : ∀ r ∈ before, g.Known r)
    (hx : g.get? x = none) : (b.conflicts g).answerIn g = .error (.unknownModule x) := by
  rw [conflicts, Inquiry.answerIn_map, hb, Graph.answerIn_gather_of_unknown h hx]
  rfl

theorem exists_conflicts_of_known {memo : Memo} (hm : memo.Faithful g)
    (h : ∀ r ∈ b.members, g.Known r) :
    ∃ cs, ((b.conflicts g).run g memo).1 = .ok cs ∧
      ∀ key, key ∈ cs.map Conflict.key ↔ g.Ambiguous b.members key := by
  refine ⟨conflictsAmong g (g.pulled b.members), ?_, fun key => Graph.mem_keys_conflictsAmong⟩
  rw [(Inquiry.run_spec _ hm).1, answerIn_conflicts_of_known h]

theorem exists_conflicts_of_pair {memo : Memo} (hm : memo.Faithful g) {r s : Identity}
    (hr : g.Known r) (hs : g.Known s) :
    ∃ ds, (((ofMembers [r, s]).conflicts g).run g memo).1 = .ok ds ∧
      ∀ key, key ∈ ds.map Conflict.key ↔ g.Ambiguous [r, s] key := by
  have hmem : ∀ x, x ∈ (ofMembers [r, s]).members ↔ x ∈ [r, s] := fun x => mem_distinct
  have hknown : ∀ x ∈ (ofMembers [r, s]).members, g.Known x := by
    intro x hx
    rcases List.mem_cons.mp ((hmem x).mp hx) with rfl | hx
    · exact hr
    · exact List.mem_singleton.mp hx ▸ hs
  obtain ⟨ds, hds, hkeys⟩ := exists_conflicts_of_known hm hknown
  refine ⟨ds, hds, fun key => (hkeys key).trans ?_⟩
  exact ⟨fun h => h.mono fun x => (hmem x).mp, fun h => h.mono fun x => (hmem x).mpr⟩

/-- **Ambiguity is a pairwise matter.** For a bundle of known members, asked about through any
    faithful memo: the conflicts have exactly the keys that the conflicts of two of its members
    (the same one twice included) have; so a bundle is free of conflicts if and only if all its
    pairs are. -/
theorem conflict_keys_eq_union_of_pairs {memo : Memo} (hm : memo.Faithful g)
    (hb : ∀ r ∈ b.members, g.Known r) :
    ∃ cs, ((b.conflicts g).run g memo).1 = .ok cs ∧
      (∀ key, key ∈ cs.map Conflict.key ↔
        ∃ r ∈ b.members, ∃ s ∈ b.members, ∃ ds,
          (((ofMembers [r, s]).conflicts g).run g memo).1 = .ok ds ∧
          key ∈ ds.map Conflict.key) ∧
      (cs = [] ↔ ∀ r ∈ b.members, ∀ s ∈ b.members,
        (((ofMembers [r, s]).conflicts g).run g memo).1 = .ok []) := by
  obtain ⟨cs, hcs, hkeys⟩ := exists_conflicts_of_known hm hb
  have hpair : ∀ r ∈ b.members, ∀ s ∈ b.members, ∃ ds,
      (((ofMembers [r, s]).conflicts g).run g memo).1 = .ok ds ∧
      ∀ key, key ∈ ds.map Conflict.key ↔ g.Ambiguous [r, s] key :=
    fun r hr s hs => exists_conflicts_of_pair hm (hb r hr) (hb s hs)
  have hunion : ∀ key, key ∈ cs.map Conflict.key ↔ ∃ r ∈ b.members, ∃ s ∈ b.members, ∃ ds,
      (((ofMembers [r, s]).conflicts g).run g memo).1 = .ok ds ∧ key ∈ ds.map Conflict.key := by
    intro key
    rw [hkeys, Graph.ambiguous_iff_exists_pair]
    constructor
    · rintro ⟨r, hr, s, hs, h⟩
      obtain ⟨ds, hds, hkeys'⟩ := hpair r hr s hs
      exact ⟨r, hr, s, hs, ds, hds, (hkeys' key).mpr h⟩
    · rintro ⟨r, hr, s, hs, ds, hds, h⟩
      obtain ⟨ds', hds', hkeys'⟩ := hpair r hr s hs
      rw [hds'] at hds
      cases hds
      exact ⟨r, hr, s, hs, (hkeys' key).mp h⟩
  refine ⟨cs, hcs, hunion, ?_⟩
  rw [eq_nil_iff_forall_key]
  constructor
  · intro h r hr s hs
    obtain ⟨ds, hds, _⟩ := hpair r hr s hs
    have hnil : ds = [] := eq_nil_iff_forall_key.mpr fun key hkey =>
      h key ((hunion key).mpr ⟨r, hr, s, hs, ds, hds, hkey⟩)
    rw [hds, hnil]
  · intro h key hkey
    obtain ⟨r, hr, s, hs, ds, hds, hkey⟩ := (hunion key).mp hkey
    rw [h r hr s hs] at hds
    cases hds
    exact absurd hkey List.not_mem_nil

end Bundle

/-- Two services, each with a copy of its own of one library. -/
def twoCopies : List Module := Declaration.modules
  [("api", { tier := some 1, dependencies := ["lib/old"] }),
    ("web", { tier := some 1, dependencies := ["lib/new"] }),
    ("lib/old", { tier := some 0, version := some "1.0.0", key := some "lib" }),
    ("lib/new", { tier := some 0, version := some "2.0.0", key := some "lib" })]

theorem exists_build_twoCopies : ∃ g, Graph.build twoCopies = .ok g :=
  Graph.build_eq_ok_iff.mpr ⟨by decide, by decide, by decide⟩

/-- In a repository with two copies of a library: a bundle of both services and one of the copies
    has the key of the library as a conflict, and its keys are those of its pairs. -/
theorem Bundle.conflict_keys_of_two_copies :
    ∃ g cs, Graph.build twoCopies = .ok g ∧
      (((ofMembers ["api", "web", "lib/new"]).conflicts g).run g Memo.empty).1 = .ok cs ∧
      "lib" ∈ cs.map Conflict.key ∧
      ∀ key, key ∈ cs.map Conflict.key ↔
        ∃ r ∈ (ofMembers ["api", "web", "lib/new"]).members,
          ∃ s ∈ (ofMembers ["api", "web", "lib/new"]).members, ∃ ds,
            (((ofMembers [r, s]).conflicts g).run g Memo.empty).1 = .ok ds ∧
            key ∈ ds.map Conflict.key := by
  obtain ⟨g, hg⟩ := exists_build_twoCopies
  have hknown : ∀ r ∈ (ofMembers ["api", "web", "lib/new"]).members, g.Known r := by
    have hmem : ∀ r ∈ (ofMembers ["api", "web", "lib/new"]).members,
        r ∈ twoCopies.map Module.id := by decide
    exact fun r hr => (Graph.known_iff_of_build hg).mpr (hmem r hr)
  obtain ⟨cs, hcs, hkeys, _⟩ := conflict_keys_eq_union_of_pairs Memo.faithful_empty hknown
  refine ⟨g, cs, hg, hcs, ?_, hkeys⟩
  obtain ⟨cs', hcs', hambiguous⟩ := exists_conflicts_of_known Memo.faithful_empty hknown
  rw [hcs'] at hcs
  cases hcs
  rw [hambiguous]
  obtain ⟨m, hm, hmid, hmk, hmv⟩ : ∃ m ∈ twoCopies, m.id = "lib/old" ∧ m.key = "lib" ∧
    m.version = some ⟨"1.0.0"⟩ := by decide
  obtain ⟨n, hn, hnid, hnk, hnv⟩ : ∃ n ∈ twoCopies, n.id = "lib/new" ∧ n.key = "lib" ∧
    n.version = some ⟨"2.0.0"⟩ := by decide
  have hpulls : g.Pulls "api" m.id := by
    rw [hmid]
    exact Or.inr ((Graph.below_iff_of_build hg).mpr (.single (by decide)))
  refine ⟨m, n, ⟨(Graph.get?_eq_some_iff_of_build hg).mpr ⟨hm, rfl⟩, "api", by decide, hpulls⟩,
    ⟨(Graph.get?_eq_some_iff_of_build hg).mpr ⟨hn, rfl⟩, "lib/new", by decide, Or.inl hnid⟩,
    hmk, hnk, ?_⟩
  rw [hmv, hnv]
  decide

end Isolation
