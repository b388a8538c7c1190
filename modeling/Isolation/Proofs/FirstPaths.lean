import Isolation.Proofs.Closures
import Isolation.Proofs.Paths
import Isolation.Proofs.Reversal

/-!
# The path that is found is the first one

A search gives up on a value for good once it failed. This file fixes that nothing is lost by it:
the search finds what an exhaustive one finds, and that is the first path there is when paths are
compared by the turns they take.

* `Leads` -- a path as it is judged: from its start, child by child, to its target; a path repeats
  no value and is no longer than the ranks allow (`Leads.nodup`, `Leads.length_add_rank_le`);
* `turns` -- for each value of a path but the last one, the place of the child that it goes on with;
* **`exists_firstPath_of_leads`** -- the exhaustive search finds a path where there is any, and the
  turns of every other path are lexicographically greater;
* **`path?_eq_firstPath`** -- so does the search with the shortcut. The values that it skips lead
  nowhere (`Spent`), except for those that it is still trying, and these cannot be met from what is
  below them;
* **`found_path_is_first`** -- all of this for the modules of a graph.
-/

namespace Isolation

namespace Branching

variable {α : Type} {b : Branching α} {target a c : α} {p q : List α}

/-! ## 1. Paths -/

/-- The path leads from a value to the target: from each of its values to a child of that value. -/
inductive Leads (b : Branching α) (target : α) : α → List α → Prop where
  | here : Leads b target target [target]
  | further {a c : α} {p : List α} : c ∈ b.children a → Leads b target c p →
    Leads b target a (a :: p)

theorem Leads.exists_cons (h : b.Leads target a p) : ∃ r, p = a :: r := by
  cases h with
  | here => exact ⟨[], rfl⟩
  | further _ _ => exact ⟨_, rfl⟩

theorem leads_iff : b.Leads target a p ↔
    p.head? = some a ∧ p.getLast? = some target ∧ p.IsChain fun a c => c ∈ b.children a := by
  constructor
  · intro h
    induction h with
    | here => exact ⟨rfl, rfl, .singleton target⟩
    | further hc hp ih =>
      obtain ⟨r, rfl⟩ := hp.exists_cons
      obtain ⟨_, hlast, hchain⟩ := ih
      exact ⟨rfl, by rw [List.getLast?_cons_cons, hlast], .cons_cons hc hchain⟩
  · rintro ⟨hhead, hlast, hchain⟩
    induction p generalizing a with
    | nil => cases hhead
    | cons x p ih =>
      cases hhead
      cases p with
      | nil =>
        cases hlast
        exact .here
      | cons c p =>
        rw [List.isChain_cons_cons] at hchain
        rw [List.getLast?_cons_cons] at hlast
        exact .further hchain.1 (ih rfl hlast hchain.2)

/-- There is a path exactly to what is below, and to the start itself. -/
theorem exists_leads_iff : (∃ p, b.Leads target a p) ↔ a = target ∨ b.Below a target := by
  constructor
  · rintro ⟨p, h⟩
    induction h with
    | here => exact Or.inl rfl
    | further hc _ ih =>
      refine Or.inr (below_iff_exists_child.mpr ⟨_, hc, ?_⟩)
      exact ih.imp Eq.symm id
  · rintro (rfl | h)
    · exact ⟨_, .here⟩
    · induction h with
      | child hc => exact ⟨_, .further hc .here⟩
      | further hc _ ih =>
        obtain ⟨p, hp⟩ := ih
        exact ⟨_, .further hc hp⟩

theorem Leads.mem (h : b.Leads target a p) : ∀ x ∈ p, x = a ∨ b.Below a x := by
  induction h with
  | here => exact fun x hx => Or.inl (List.mem_singleton.mp hx)
  | further hc _ ih =>
    intro x hx
    rcases List.mem_cons.mp hx with rfl | hx
    · exact Or.inl rfl
    · exact Or.inr (below_iff_exists_child.mpr ⟨_, hc, ih x hx⟩)

/-- A value has no path from a child back to it. -/
theorem Leads.not_mem_of_child (hc : c ∈ b.children a) (h : b.Leads target c p) : a ∉ p :=
  fun ha => Below.irrefl (below_iff_exists_child.mpr ⟨c, hc, h.mem a ha⟩)

/-- **A path repeats no value.** -/
theorem Leads.nodup (h : b.Leads target a p) : p.Nodup := by
  induction h with
  | here => exact List.nodup_singleton target
  | further hc hp ih => exact List.nodup_cons.mpr ⟨hp.not_mem_of_child hc, ih⟩

/-- **A path is no longer than the rank falls along it.** -/
theorem Leads.length_add_rank_le (h : b.Leads target a p) :
    p.length + b.rank target ≤ b.rank a + 1 := by
  induction h with
  | here => exact Nat.le_of_eq (Nat.add_comm 1 _)
  | further hc _ ih =>
    have hfalls := b.falls _ _ hc
    rw [List.length_cons]
    omega

/-- The only path that returns to its start is the one that does not leave it. -/
theorem Leads.eq_singleton (h : b.Leads target target p) : p = [target] := by
  cases h with
  | here => rfl
  | further hc hp =>
    have hbelow : b.Below target target := below_iff_exists_child.mpr
      ⟨_, hc, (exists_leads_iff.mp ⟨_, hp⟩).imp Eq.symm id⟩
    exact absurd hbelow Below.irrefl

/-! ## 2. The first path -/

variable [DecidableEq α]

/-- The turns that a path takes: for each value but the last one, the place among its children of
    the one that the path goes on with. -/
def turns (b : Branching α) : List α → List Nat
  | a :: c :: r => (b.children a).idxOf c :: b.turns (c :: r)
  | _ => []

theorem turns_cons (h : b.Leads target c p) (a : α) :
    b.turns (a :: p) = (b.children a).idxOf c :: b.turns p := by
  obtain ⟨r, rfl⟩ := h.exists_cons
  rfl

theorem firstPath_eq (b : Branching α) (target a : α) :
    b.firstPath target a =
      if a = target then some [a]
      else ((b.children a).findSome? (b.firstPath target)).map (a :: ·) := by
  rw [firstPath]
  congr 2
  rw [← List.attach_map_subtype_val (b.children a), List.findSome?_map,
    List.attach_map_subtype_val]
  rfl

/-- What the exhaustive search finds is a path. -/
theorem leads_of_firstPath (h : b.firstPath target a = some p) : b.Leads target a p := by
  induction hn : b.rank a using Nat.strongRecOn generalizing a p with
  | _ n ih =>
    rw [firstPath_eq] at h
    split at h
    · rename_i hat
      cases h
      exact hat ▸ .here
    · obtain ⟨r, hr, rfl⟩ := Option.map_eq_some_iff.mp h
      obtain ⟨c, hc, hcr⟩ := List.exists_of_findSome?_eq_some hr
      exact .further hc (ih (b.rank c) (hn ▸ b.falls a c hc) hcr rfl)

/-- **The exhaustive search finds a path where there is one, and finds the first one**: by induction
    on the other path. Either the two part here, and then the search took the earlier turn, or they
    part later. -/
theorem exists_firstPath_of_leads (h : b.Leads target a q) :
    ∃ p, b.firstPath target a = some p ∧ (q = p ∨ b.turns p < b.turns q) := by
  induction h with
  | here =>
    refine ⟨[target], ?_, Or.inl rfl⟩
    rw [firstPath_eq, if_pos rfl]
  | @further a c q hc hq ih =>
    obtain ⟨p, hp, hqp⟩ := ih
    have hne : a ≠ target := by
      rintro rfl
      have hback : a :: q = [a] := (Leads.further hc hq).eq_singleton
      obtain ⟨r, rfl⟩ := hq.exists_cons
      cases hback
    have hsome : ((b.children a).findSome? (b.firstPath target)).isSome :=
      List.findSome?_isSome_iff.mpr ⟨c, hc, by rw [hp]; rfl⟩
    obtain ⟨r, hr⟩ := Option.isSome_iff_exists.mp hsome
    obtain ⟨before, d, after, hsplit, hd, hbefore⟩ := List.findSome?_eq_some_iff.mp hr
    refine ⟨a :: r, by rw [firstPath_eq, if_neg hne, hr]; rfl, ?_⟩
    rw [turns_cons hq, turns_cons (leads_of_firstPath hd)]
    have hd_not : d ∉ before := by
      intro hmem
      rw [hbefore d hmem] at hd
      cases hd
    by_cases hdc : d = c
    · subst hdc
      rw [hd] at hp
      cases hp
      rcases hqp with rfl | hlt
      · exact Or.inl rfl
      · exact Or.inr (List.Lex.cons hlt)
    · refine Or.inr (List.Lex.rel ?_)
      have hc_not : c ∉ before := by
        intro hmem
        rw [hbefore c hmem] at hp
        cases hp
      rw [hsplit, List.idxOf_append_of_notMem hd_not, List.idxOf_append_of_notMem hc_not,
        List.idxOf_cons_self, List.idxOf_cons_ne _ hdc]
      omega

theorem firstPath_eq_none_iff : b.firstPath target a = none ↔ ∀ p, ¬ b.Leads target a p := by
  constructor
  · intro hnone p hp
    obtain ⟨r, hr, _⟩ := exists_firstPath_of_leads hp
    rw [hnone] at hr
    cases hr
  · intro h
    exact Option.eq_none_iff_forall_ne_some.mpr fun p hp => h p (leads_of_firstPath hp)

/-! ## 3. The shortcut -/

variable {failed cs : List α}

/-- What failed before and can be met from `a` on leads nowhere. -/
def Spent (b : Branching α) (target : α) (failed : List α) (a : α) : Prop :=
  ∀ x ∈ failed, x = a ∨ b.Below a x → ∀ p, ¬ b.Leads target x p

/-- A search that started from `roots` tells what an exhaustive one finds; what it notes as failed
    it was told, or has met. -/
inductive Tells (b : Branching α) (failed roots : List α) : Option (List α) → Search α → Prop where
  | found (p : List α) : Tells b failed roots (some p) (.found p)
  | exhausted {failed' : List α}
    (h : ∀ x ∈ failed', x ∈ failed ∨ ∃ r ∈ roots, x = r ∨ b.Below r x) :
    Tells b failed roots none (.exhausted failed')

omit [DecidableEq α] in
theorem Spent.child (h : b.Spent target failed a) (hc : c ∈ b.children a) :
    b.Spent target (a :: failed) c := by
  intro x hx hcx
  rcases List.mem_cons.mp hx with rfl | hx
  · -- `x` is still being tried, but no child of it leads back to it
    exact absurd (below_iff_exists_child.mpr ⟨c, hc, hcx⟩) Below.irrefl
  · exact h x hx (Or.inr (below_iff_exists_child.mpr ⟨c, hc, hcx⟩))

omit [DecidableEq α] in
/-- Where a value leads nowhere, nothing below it leads anywhere. -/
theorem not_leads_of_below (h : ∀ p, ¬ b.Leads target a p) {x : α} (hx : x = a ∨ b.Below a x) :
    ∀ p, ¬ b.Leads target x p := by
  rcases hx with rfl | hx
  · exact h
  · induction hx with
    | child hc => exact fun p hp => h _ (.further hc hp)
    | further hc _ ih => exact ih fun p hp => h _ (.further hc hp)

/-- Values tried one after another tell what they lead to, if each of them by itself does. -/
theorem tells_foldl
    (hcs : ∀ c ∈ cs, ∀ failed, b.Spent target failed c →
      Tells b failed [c] (b.firstPath target c) (b.search target failed c))
    (h : ∀ c ∈ cs, b.Spent target failed c) :
    Tells b failed cs (cs.findSome? (b.firstPath target))
      (cs.foldl (Search.next (b.search target)) (.exhausted failed)) := by
  induction cs generalizing failed with
  | nil => exact .exhausted fun x hx => Or.inl hx
  | cons c cs ih =>
    have hc := hcs c List.mem_cons_self failed (h c List.mem_cons_self)
    rw [List.findSome?_cons, List.foldl_cons, Search.next]
    generalize hfirst : b.firstPath target c = first at hc
    generalize b.search target failed c = found at hc
    cases hc with
    | found p =>
      rw [foldl_next_found]
      exact .found p
    | @exhausted failed' hmet =>
      have hspent : ∀ c' ∈ cs, b.Spent target failed' c' := by
        intro c' hc' x hx hmeets
        rcases hmet x hx with hx | ⟨r, hr, hx⟩
        · exact h c' (List.mem_cons_of_mem c hc') x hx hmeets
        · rw [List.mem_singleton.mp hr] at hx
          exact not_leads_of_below (firstPath_eq_none_iff.mp hfirst) hx
      have hrest := ih (fun c' hc' => hcs c' (List.mem_cons_of_mem c hc')) hspent
      generalize cs.findSome? (b.firstPath target) = first' at hrest
      generalize cs.foldl (Search.next (b.search target)) (.exhausted failed') = found' at hrest
      cases hrest with
      | found p => exact .found p
      | exhausted hmet' =>
        refine .exhausted fun x hx => ?_
        rcases hmet' x hx with hx | ⟨r, hr, hx⟩
        · rcases hmet x hx with hx | ⟨r, hr, hx⟩
          · exact Or.inl hx
          · exact Or.inr ⟨c, List.mem_cons_self, List.mem_singleton.mp hr ▸ hx⟩
        · exact Or.inr ⟨r, List.mem_cons_of_mem c hr, hx⟩

/-- **A search tells what an exhaustive one finds**, by induction on the rank of its start. -/
theorem tells_search (h : b.Spent target failed a) :
    Tells b failed [a] (b.firstPath target a) (b.search target failed a) := by
  induction hn : b.rank a using Nat.strongRecOn generalizing a failed with
  | _ n ih =>
    have hself : a = a ∨ b.Below a a := Or.inl rfl
    by_cases hat : a = target
    · rw [firstPath_eq, search_eq, if_pos hat, if_pos hat]
      exact .found [a]
    · by_cases hfailed : a ∈ failed
      · rw [firstPath_eq_none_iff.mpr (h a hfailed hself), search_eq, if_neg hat, if_pos hfailed]
        exact .exhausted fun x hx => Or.inl hx
      · have hbelow := tells_foldl
          (fun c hc failed hs => ih (b.rank c) (hn ▸ b.falls a c hc) hs rfl)
          (fun c hc => h.child hc)
        rw [firstPath_eq, search_eq, if_neg hat, if_neg hat, if_neg hfailed]
        generalize (b.children a).findSome? (b.firstPath target) = first at hbelow
        generalize (b.children a).foldl (Search.next (b.search target))
          (.exhausted (a :: failed)) = found at hbelow
        cases hbelow with
        | found p => exact .found (a :: p)
        | exhausted hmet =>
          refine .exhausted fun x hx => ?_
          rcases hmet x hx with hx | ⟨c, hc, hx⟩
          · rcases List.mem_cons.mp hx with rfl | hx
            · exact Or.inr ⟨x, List.mem_singleton.mpr rfl, Or.inl rfl⟩
            · exact Or.inl hx
          · exact Or.inr ⟨a, List.mem_singleton.mpr rfl,
              Or.inr (below_iff_exists_child.mpr ⟨c, hc, hx⟩)⟩

/-- **The shortcut makes no difference to the path that is found.** -/
theorem path?_eq_firstPath (b : Branching α) (a target : α) :
    b.path? a target = b.firstPath target a := by
  have hspent : b.Spent target [] a := fun x hx => absurd hx List.not_mem_nil
  have htells := tells_search hspent
  unfold path?
  generalize b.firstPath target a = first at htells
  generalize b.search target [] a = found at htells
  cases htells <;> rfl

end Branching

/-! ## 4. Modules -/

namespace Graph

variable {ms : List Module} {g : Graph} {start target : Identity} {ids : List Identity}

/-- The identities lead from one module of the list to another: each declares the next one as a
    direct dependency. -/
structure DependencyPath (ms : List Module) (start target : Identity) (ids : List Identity) :
    Prop where
  starts : ids.head? = some start
  ends : ids.getLast? = some target
  declared : ids.IsChain (DependsOn ms)

theorem leads_iff_of_build (hg : build ms = .ok g) :
    g.downward.Leads target start ids ↔ DependencyPath ms start target ids := by
  have hrel : (fun a c => c ∈ g.downward.children a) = DependsOn ms := by
    funext a c
    exact propext (mem_dependencyIds_of_build hg)
  rw [Branching.leads_iff, hrel]
  exact ⟨fun ⟨hs, he, hd⟩ => ⟨hs, he, hd⟩, fun h => ⟨h.starts, h.ends, h.declared⟩⟩

/-- What a module of the list declares is what its identity has as dependencies. -/
theorem dependencyIds_of_build (hg : build ms = .ok g) {ds : List Identity}
    (h : ∃ m ∈ ms, m.id = start ∧ m.dependencies = ds) : g.dependencyIds start = ds := by
  obtain ⟨m, hm, hid, rfl⟩ := h
  exact dependencyIds_of_get? ((get?_eq_some_iff_of_build hg).mpr ⟨hm, hid⟩)

/-- A path consists of modules of the graph, if its start does. -/
theorem known_of_leads (hs : g.Known start) (h : g.downward.Leads target start ids) :
    ∀ x ∈ ids, g.Known x := by
  intro x hx
  rcases h.mem x hx with rfl | hx
  · exact hs
  · exact exists_get?_of_below hx

/-- **The path that is found is the first one.** Of two modules of a graph that was built from a
    list: a path is found exactly where they are the same module or the one pulls in the other, and
    it is the one that an exhaustive search finds, which notes nothing. It consists of modules of
    the list, leads from the one to the other along declared dependencies, repeats nothing, and has
    at most one module more than there are tiers between the two; and each other path takes turns
    that are lexicographically greater. -/
theorem found_path_is_first {ms : List Module} {g : Graph} (hg : build ms = .ok g) {m n : Module}
    (hm : m ∈ ms) (hn : n ∈ ms) :
    ∃ found s, g.path? m.id n.id = .ok found ∧ g.closure m.id = .ok s ∧
      (found.isSome = true ↔ m = n ∨ n.id ∈ s) ∧
      found = (g.downward.firstPath n.id m.id).map g.modulesOf ∧
      ∀ p ∈ found, (∀ k ∈ p, k ∈ ms) ∧ DependencyPath ms m.id n.id (p.map Module.id) ∧
        (p.map Module.id).Nodup ∧ p.length + n.tier ≤ m.tier + 1 ∧
        ∀ ids, DependencyPath ms m.id n.id ids →
          ids = p.map Module.id ∨ g.downward.turns (p.map Module.id) < g.downward.turns ids := by
  have hget : g.get? m.id = some m := (get?_eq_some_iff_of_build hg).mpr ⟨hm, rfl⟩
  have hget' : g.get? n.id = some n := (get?_eq_some_iff_of_build hg).mpr ⟨hn, rfl⟩
  refine ⟨_, _, path?_of_get? hget hget', closure_of_get? hget, ?_, ?_, fun p hp => ?_⟩
  · have hsame : m.id = n.id ↔ m = n :=
      ⟨fun h => Option.some.inj (hget.symm.trans (h ▸ hget')), congrArg Module.id⟩
    rw [Option.isSome_map, Branching.path?_eq_firstPath, mem_ofList_below, ← hsame,
      ← Branching.exists_leads_iff, ← Option.ne_none_iff_isSome, ne_eq,
      Branching.firstPath_eq_none_iff, not_forall_not]
  · rw [Branching.path?_eq_firstPath]
  · rw [Branching.path?_eq_firstPath] at hp
    obtain ⟨ids, hids, rfl⟩ := Option.map_eq_some_iff.mp hp
    have hleads : g.downward.Leads n.id m.id ids := Branching.leads_of_firstPath hids
    have hmap : (g.modulesOf ids).map Module.id = ids :=
      map_id_modulesOf (known_of_leads ⟨m, hget⟩ hleads)
    have hlength : ids.length + g.tier n.id ≤ g.tier m.id + 1 := hleads.length_add_rank_le
    rw [tier_of_get? hget, tier_of_get? hget', ← hmap, List.length_map] at hlength
    rw [hmap]
    refine ⟨fun k hk => ?_, (leads_iff_of_build hg).mp hleads, hleads.nodup, hlength,
      fun other hother => ?_⟩
    · obtain ⟨_, _, hk⟩ := List.mem_filterMap.mp hk
      exact ((get?_eq_some_iff_of_build hg).mp hk).1
    · obtain ⟨first, hfirst, hor⟩ :=
        Branching.exists_firstPath_of_leads ((leads_iff_of_build hg).mpr hother)
      rw [hids] at hfirst
      cases hfirst
      exact hor

/-- A repository where the first way down leads nowhere, and part of it is met again. -/
def blindAlley : List Module := Declaration.modules
  [("top", { tier := some 3, dependencies := ["left", "right"] }),
    ("left", { tier := some 2, dependencies := ["mid"] }),
    ("right", { tier := some 2, dependencies := ["mid", "goal"] }),
    ("mid", { tier := some 1, dependencies := ["end"] }),
    ("end", { tier := some 0 }),
    ("goal", { tier := some 0, version := some "1.0.0" })]

/-- The first way down is given up; the second one skips what failed in the first, and is found.
    Every other path would turn later, and there is no path back. -/
theorem found_path_of_blind_alley : ∃ g p, build blindAlley = .ok g ∧
    g.path? "top" "goal" = .ok (some p) ∧ p.map Module.id = ["top", "right", "goal"] ∧
    (∀ ids, DependencyPath blindAlley "top" "goal" ids →
      ids = ["top", "right", "goal"] ∨ [1, 1] < g.downward.turns ids) ∧
    g.path? "goal" "top" = .ok none := by
  obtain ⟨g, hg⟩ : ∃ g, build blindAlley = .ok g :=
    build_eq_ok_iff.mpr ⟨by decide, by decide, by decide⟩
  obtain ⟨m, hm, hmid⟩ : ∃ m ∈ blindAlley, m.id = "top" := by decide
  obtain ⟨n, hn, hnid⟩ : ∃ n ∈ blindAlley, n.id = "goal" := by decide
  have htop : g.downward.children "top" = ["left", "right"] :=
    dependencyIds_of_build hg (by decide)
  have hleft : g.downward.children "left" = ["mid"] := dependencyIds_of_build hg (by decide)
  have hright : g.downward.children "right" = ["mid", "goal"] :=
    dependencyIds_of_build hg (by decide)
  have hmiddle : g.downward.children "mid" = ["end"] := dependencyIds_of_build hg (by decide)
  have hend : g.downward.children "end" = [] := dependencyIds_of_build hg (by decide)
  have hgoal : g.downward.children "goal" = [] := dependencyIds_of_build hg (by decide)
  have hfirst : g.downward.firstPath "goal" "top" = some ["top", "right", "goal"] := by
    simp [Branching.firstPath_eq, htop, hleft, hright, hmiddle, hend]
  have hnone : g.downward.firstPath "top" "goal" = none := by
    simp [Branching.firstPath_eq, hgoal]
  have hturns : g.downward.turns ["top", "right", "goal"] = [1, 1] := by
    simp [Branching.turns, htop, hright]
  have hids : (g.modulesOf ["top", "right", "goal"]).map Module.id = ["top", "right", "goal"] :=
    map_id_modulesOf (forall_known_of_build hg (by decide))
  obtain ⟨found, _, hfound, _, _, hsearch, hall⟩ := found_path_is_first hg hm hn
  obtain ⟨back, _, hback, _, _, hsearch', _⟩ := found_path_is_first hg hn hm
  rw [hmid, hnid] at hfound hsearch hback hsearch' hall
  rw [hfirst] at hsearch
  rw [hnone] at hsearch'
  subst hsearch hsearch'
  obtain ⟨_, _, _, _, hothers⟩ := hall _ rfl
  rw [hids, hturns] at hothers
  exact ⟨g, _, hg, hfound, hids, hothers, hback⟩

end Graph

end Isolation
