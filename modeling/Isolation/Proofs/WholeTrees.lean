import Isolation.Proofs.OutlineLines

/-!
# A whole tree shows every edge once

Without a limit an outline abbreviates what it meets again, and still shows everything. This file
says what it shows, line by line and altogether:

* `Entry.edges` -- a line shows the edge from the line it hangs from, which is the nearest line
  above it that is one level less deep;
* **`perm_edges_outline`** -- the lines of an outline are its root and, once each, the edges from
  the root and from everything below it. What a value was noted for is exactly that its edges are shown
  (`Unrolls.perm_edges`), and a value with children is noted once (`Unrolls.nodup_inner`);
* `Entry.InPlace` -- what a line has to look like among the lines above it and beneath it, and
  **`inPlace_of_outline`**, that every line of an outline does;
* `outline_eq_of_long` -- a limit that no path from the root exceeds makes no difference;
* **`tree_shows_every_edge_once`** -- all of this for the tree of a module.
-/

namespace Isolation

/-! ## 1. The edges that lines show -/

namespace Entry

variable {α : Type}

/-- The edges that lines show after the lines `above`, of which the nearest comes first: for each
    line the value of the line that it hangs from, and its own value. -/
def edges (above : List (Entry α)) : List (Entry α) → List (Option α × α)
  | [] => []
  | x :: xs =>
    ((above.find? fun u => u.depth + 1 == x.depth).map value, x.value) :: edges (x :: above) xs

theorem length_edges (above xs : List (Entry α)) : (edges above xs).length = xs.length := by
  induction xs generalizing above with
  | nil => rfl
  | cons x xs ih => rw [edges, List.length_cons, List.length_cons, ih]

theorem edges_append (above xs ys : List (Entry α)) :
    edges above (xs ++ ys) = edges above xs ++ edges (xs.reverse ++ above) ys := by
  induction xs generalizing above with
  | nil => rfl
  | cons x xs ih =>
    rw [List.cons_append, edges, edges, ih, List.reverse_cons, List.append_assoc]
    rfl

/-- Lines hang from none of the deeper lines before them. -/
theorem find?_above_of_lt {d : Nat} {xs : List (Entry α)} (above : List (Entry α))
    (h : ∀ x ∈ xs, d < x.depth) :
    (xs.reverse ++ above).find? (fun u => u.depth + 1 == d + 1) =
      above.find? fun u => u.depth + 1 == d + 1 := by
  have hnone : xs.reverse.find? (fun u => u.depth + 1 == d + 1) = none := by
    refine List.find?_eq_none.mpr fun x hx => ?_
    have hlt := h x (List.mem_reverse.mp hx)
    simpa using Nat.ne_of_gt hlt
  rw [List.find?_append, hnone, Option.none_or]

/-- How a line has to look among the lines above it and below it when nothing is cut off. -/
structure InPlace (b : Branching α) (before : List (Entry α)) (x : Entry α)
    (after : List (Entry α)) : Prop where
  /-- It is a repetition when its value has children and was listed before. -/
  repeated_iff : x.repeated = true ↔ b.children x.value ≠ [] ∧ ∃ u ∈ before, u.value = x.value
  beneath_repeated : x.repeated = true → x.beneath after = []
  /-- Else all children are listed one level deeper, in order, -/
  children : x.repeated = false → (x.directly after).map value = b.children x.value
  /-- and of these the last one alone is marked as the last. -/
  lasts_dropLast : ∀ y ∈ (x.directly after).dropLast, y.lasts = x.lasts ++ [false]
  lasts_getLast : ∀ y ∈ (x.directly after).getLast?, y.lasts = x.lasts ++ [true]

end Entry

namespace Branching

variable {α : Type} {b : Branching α} {lasts : List Bool} {root : α}
variable {cs : List (α × Bool)} {e e' : List α} {es : List (Entry α)}

/-- The edges from a value to its children, in order. -/
def edgesFrom (b : Branching α) (a : α) : List (Option α × α) := (b.children a).map (some a, ·)

theorem map_markLast_children (a : α) :
    (markLast (b.children a)).map (fun c => (some a, c.1)) = b.edgesFrom a := by
  rw [edgesFrom, ← map_fst_markLast (b.children a), List.map_map, map_fst_markLast]
  rfl

/-- **Siblings show the edges that lead to them, and the edges from every value that they cause to
    be noted**, by induction on the rules: what is noted at a line pays for the lines beneath it. -/
theorem Unrolls.perm_edges (h : Unrolls b none lasts cs e es e') {above : List (Entry α)}
    {p : Entry α} (hp : above.find? (fun u => u.depth + 1 == lasts.length + 1) = some p) :
    (Entry.edges above es ++ e.flatMap b.edgesFrom).Perm
      (cs.map (fun c => (some p.value, c.1)) ++ e'.flatMap b.edgesFrom) := by
  induction h generalizing above p with
  | nil => exact .refl _
  | @again lasts a last _ _ _ _ _ _ _ ih =>
    have hdeep : ∀ x ∈ [(⟨a, lasts ++ [last], true⟩ : Entry α)], lasts.length < x.depth := by
      simp [Entry.depth_concat]
    have hskip := Entry.find?_above_of_lt above hdeep
    rw [hp] at hskip
    rw [Entry.edges, Entry.depth_concat, hp]
    exact (ih hskip).cons _
  | cut _ hcut _ _ => cases hcut
  | @expand lasts a last cs e e' e'' sub es _ _ hsub _ ihsub ih =>
    have hdeep : ∀ x ∈ ⟨a, lasts ++ [last], false⟩ :: sub, lasts.length < x.depth := by
      refine List.forall_mem_cons.mpr ⟨by simp [Entry.depth_concat], fun x hx => ?_⟩
      have hlt := hsub.lt_depth x hx
      rw [List.length_append] at hlt
      exact Nat.lt_of_succ_lt hlt
    have hskip := Entry.find?_above_of_lt above hdeep
    rw [hp, List.reverse_cons, List.append_assoc] at hskip
    have hline : (⟨a, lasts ++ [last], false⟩ :: above).find?
        (fun u => u.depth + 1 == (lasts ++ [last]).length + 1) = some ⟨a, lasts ++ [last], false⟩ :=
      List.find?_cons_of_pos (by simp [Entry.depth])
    have hbeneath := ihsub hline
    rw [map_markLast_children, List.flatMap_cons] at hbeneath
    have hpaid : (Entry.edges (⟨a, lasts ++ [last], false⟩ :: above) sub ++
        e.flatMap b.edgesFrom).Perm (e'.flatMap b.edgesFrom) := by
      refine (List.perm_append_left_iff (b.edgesFrom a)).mp (.trans ?_ hbeneath)
      exact List.perm_append_comm_assoc _ _ _
    rw [Entry.edges, Entry.depth_concat, hp, Entry.edges_append]
    have hswap : (Entry.edges (⟨a, lasts ++ [last], false⟩ :: above) sub ++
        Entry.edges (sub.reverse ++ ⟨a, lasts ++ [last], false⟩ :: above) es ++
        e.flatMap b.edgesFrom).Perm
        (Entry.edges (sub.reverse ++ ⟨a, lasts ++ [last], false⟩ :: above) es ++
        (Entry.edges (⟨a, lasts ++ [last], false⟩ :: above) sub ++ e.flatMap b.edgesFrom)) := by
      rw [← List.append_assoc]
      exact List.perm_append_comm.append_right _
    exact (hswap.trans ((hpaid.append_left _).trans (ih hskip))).cons _

/-- A value that has children is noted at most once. -/
theorem Unrolls.nodup_inner {limit : Option Nat} (h : Unrolls b limit lasts cs e es e')
    (he : (e.filter fun a => b.children a ≠ []).Nodup) :
    (e'.filter fun a => b.children a ≠ []).Nodup := by
  induction h with
  | nil => exact he
  | again _ _ _ ih | cut _ _ _ ih => exact ih he
  | @expand _ a _ _ e _ _ _ _ hnew _ _ _ ihsub ih =>
    refine ih (ihsub ?_)
    by_cases ha : b.children a = []
    · rw [List.filter_cons_of_neg (by simpa using ha)]
      exact he
    · rw [List.filter_cons_of_pos (by simpa using ha), List.nodup_cons]
      exact ⟨fun hmem => hnew ⟨ha, (List.mem_filter.mp hmem).1⟩, he⟩

/-- What is noted without a limit is what a walk enters that enters each value once. -/
theorem Unrolls.collected (h : Unrolls b none lasts cs e es e') :
    Collected b e (cs.map Prod.fst) e' := by
  induction h with
  | nil => exact .nil
  | again _ hnoted _ ih =>
    refine .cons ?_ ih
    exact ⟨fun _ h => h, fun r hr => List.mem_singleton.mp hr ▸ hnoted, fun _ h h' => absurd h h',
      fun _ h => Or.inl h⟩
  | cut _ hcut _ _ => cases hcut
  | expand _ _ _ _ ihsub ih =>
    rw [map_fst_markLast] at ihsub
    exact .cons (.node ihsub) ih

theorem flatMap_edgesFrom_filter (l : List α) :
    (l.filter fun a => b.children a ≠ []).flatMap b.edgesFrom = l.flatMap b.edgesFrom := by
  induction l with
  | nil => rfl
  | cons a l ih =>
    by_cases ha : b.children a = []
    · rw [List.filter_cons_of_neg (by simpa using ha), List.flatMap_cons, ih, edgesFrom, ha]
      rfl
    · rw [List.filter_cons_of_pos (by simpa using ha), List.flatMap_cons, List.flatMap_cons, ih]

/-- **The lines of an outline are its root and, once each, the edges from the root and from all that
    is below it.** -/
theorem perm_edges_outline [DecidableEq α] {l : List α} (hl : l.Nodup)
    (hmem : ∀ x, x ∈ l ↔ x = root ∨ b.Below root x) :
    (Entry.edges [] (b.outline none root)).Perm ((none, root) :: l.flatMap b.edgesFrom) := by
  obtain ⟨es, e, houtline, hunrolls⟩ := exists_unrolls_outline b none root
  rw [houtline]
  refine List.Perm.cons _ ?_
  have habove : [(⟨root, [], false⟩ : Entry α)].find?
      (fun u => u.depth + 1 == ([] : List Bool).length + 1) = some ⟨root, [], false⟩ := rfl
  have hshown := hunrolls.perm_edges habove
  rw [map_markLast_children, List.flatMap_cons, List.flatMap_nil, List.append_nil] at hshown
  have hnoted : (Entry.edges [⟨root, [], false⟩] es).Perm (e.flatMap b.edgesFrom) :=
    (List.perm_append_left_iff (b.edgesFrom root)).mp (List.perm_append_comm.trans hshown)
  have hreached : ∀ x, x ∈ e ↔ x = root ∨ b.Below root x := by
    have hcollected := hunrolls.collected
    rw [map_fst_markLast] at hcollected
    exact fun x => hcollected.node.mem_iff
  -- a leaf may be noted more than once, but no edges are shown for it
  have hinner : (e.filter fun a => b.children a ≠ []).Perm
      (l.filter fun a => b.children a ≠ []) := by
    refine (List.perm_ext_iff_of_nodup (hunrolls.nodup_inner ?_) (hl.filter _)).mpr fun x => ?_
    · exact (List.nodup_singleton root).filter _
    · rw [List.mem_filter, List.mem_filter, hreached, hmem]
  rw [← flatMap_edgesFrom_filter e] at hnoted
  rw [← flatMap_edgesFrom_filter l]
  exact hnoted.trans (hinner.flatMap_right _)

/-! ## 2. A line among the others -/

theorem markLast_concat (l : List α) (a : α) :
    markLast (l ++ [a]) = l.map (·, false) ++ [(a, true)] := by
  induction l with
  | nil => rfl
  | cons c l ih =>
    cases l with
    | nil => rfl
    | cons d l => rw [List.cons_append, List.cons_append, markLast, ← List.cons_append, ih]; rfl

theorem filter_direct_cons (a : α) (last repeated : Bool) (es : List (Entry α)) :
    ((⟨a, lasts ++ [last], repeated⟩ :: es).filter fun y => y.depth = lasts.length + 1) =
      ⟨a, lasts ++ [last], repeated⟩ :: es.filter fun y => y.depth = lasts.length + 1 :=
  List.filter_cons_of_pos (decide_eq_true (Entry.depth_concat a lasts last repeated))

/-- The siblings themselves are the lines that are one level deeper. -/
theorem Unrolls.map_direct {limit : Option Nat} (h : Unrolls b limit lasts cs e es e') :
    (es.filter fun y => y.depth = lasts.length + 1).map (fun y => (y.value, y.lasts)) =
      cs.map fun c => (c.1, lasts ++ [c.2]) := by
  induction h with
  | nil => rfl
  | again _ _ _ ih | cut _ _ _ ih =>
    rw [filter_direct_cons, List.map_cons, ih]
    rfl
  | @expand lasts a last _ _ _ _ sub _ _ _ hsub _ _ ih =>
    have hnone : (sub.filter fun y => y.depth = lasts.length + 1) = [] := by
      refine List.filter_eq_nil_iff.mpr fun y hy => ?_
      have hlt := hsub.lt_depth y hy
      rw [List.length_append] at hlt
      simpa using Nat.ne_of_gt hlt
    rw [filter_direct_cons, List.filter_append, hnone, List.nil_append, List.map_cons, ih]
    rfl

/-- Lines in the places of children: their values are the children, and the last one is marked. -/
theorem places_of_map {ds : List (Entry α)} {l : List α}
    (h : ds.map (fun y => (y.value, y.lasts)) = (markLast l).map fun c => (c.1, lasts ++ [c.2])) :
    ds.map Entry.value = l ∧ (∀ y ∈ ds.dropLast, y.lasts = lasts ++ [false]) ∧
      ∀ y ∈ ds.getLast?, y.lasts = lasts ++ [true] := by
  have hvalues : ds.map Entry.value = l := by
    have hfst := congrArg (List.map Prod.fst) h
    rw [List.map_map, List.map_map] at hfst
    exact hfst.trans (map_fst_markLast l)
  refine ⟨hvalues, ?_⟩
  rcases List.eq_nil_or_concat l with rfl | ⟨l', c, rfl⟩
  · rw [List.map_eq_nil_iff.mp hvalues]
    exact ⟨fun y hy => absurd hy List.not_mem_nil, fun y hy => nomatch hy⟩
  · rw [List.concat_eq_append, markLast_concat, List.map_append, List.map_map] at h
    obtain ⟨front, back, rfl, hfront, hback⟩ := List.map_eq_append_iff.mp h
    obtain ⟨y, rest, rfl, hy, hrest⟩ := List.map_eq_cons_iff.mp hback
    rw [List.map_eq_nil_iff.mp hrest, List.dropLast_concat, List.getLast?_concat]
    refine ⟨fun z hz => ?_, fun z hz => ?_⟩
    · have hmem : (z.value, z.lasts) ∈ front.map fun y => (y.value, y.lasts) :=
        List.mem_map_of_mem hz
      rw [hfront] at hmem
      obtain ⟨_, _, heq⟩ := List.mem_map.mp hmem
      exact (congrArg Prod.snd heq).symm
    · cases hz
      exact congrArg Prod.snd hy

/-- A line with its children beneath it, that is no repetition, is in place. -/
theorem Unrolls.inPlace {limit : Option Nat} {x : Entry α} {sub rest before : List (Entry α)}
    (h : Unrolls b limit x.lasts (markLast (b.children x.value)) e sub e')
    (hrest : ∀ y ∈ rest.head?, y.depth ≤ x.depth) (hx : x.repeated = false)
    (hnew : ¬ (b.children x.value ≠ [] ∧ ∃ u ∈ before, u.value = x.value)) :
    x.InPlace b before (sub ++ rest) := by
  have hdirectly : x.directly (sub ++ rest) =
      sub.filter fun y => y.depth = x.lasts.length + 1 := by
    rw [Entry.directly, Entry.beneath_append h.lt_depth hrest]
    rfl
  obtain ⟨hchildren, hfront, hlast⟩ := places_of_map h.map_direct
  rw [← hdirectly] at hchildren hfront hlast
  refine ⟨⟨fun hrepeated => ?_, fun hmet => absurd hmet hnew⟩, fun hrepeated => ?_,
    fun _ => hchildren, hfront, hlast⟩ <;>
  · rw [hx] at hrepeated
    cases hrepeated

/-- A repetition with nothing beneath it is in place. -/
theorem inPlace_of_repeated {x : Entry α} {rest before : List (Entry α)}
    (hrest : ∀ y ∈ rest.head?, y.depth ≤ x.depth) (hx : x.repeated = true)
    (hmet : b.children x.value ≠ [] ∧ ∃ u ∈ before, u.value = x.value) :
    x.InPlace b before ([] ++ rest) := by
  have hbeneath : x.beneath ([] ++ rest) = [] :=
    Entry.beneath_append (fun _ hy => absurd hy List.not_mem_nil) hrest
  have hdirectly : x.directly ([] ++ rest) = [] := by
    rw [Entry.directly, hbeneath, List.filter_nil]
  refine ⟨⟨fun _ => hmet, fun _ => hx⟩, fun _ => hbeneath, fun hfalse => ?_, ?_, ?_⟩
  · rw [hx] at hfalse
    cases hfalse
  · rw [hdirectly]
    exact fun y hy => absurd hy List.not_mem_nil
  · rw [hdirectly]
    exact fun y hy => nomatch hy

/-- Every value that was listed before a line is noted there. -/
theorem noted_of_mem [DecidableEq α] {before after : List (Entry α)} {x : Entry α} {noted : List α}
    (h : b.outline none root = before ++ x :: after) (hnotes : Notes none [] before noted) :
    ∀ u ∈ before, u.value ∈ noted := by
  intro u hu
  obtain ⟨before', between, rfl⟩ := List.append_of_mem hu
  rw [hnotes]
  by_cases hrepeated : u.repeated = true
  · -- the value was noted where it was repeated already, for a line further up
    obtain ⟨noted', _, _, _, _, hnotes', hstands⟩ :=
      exists_stands_of_outline rfl (h.trans (List.append_assoc before' (u :: between) _))
    cases hstands with
    | again _ _ hnoted =>
      refine ((hnotes' u.value).mp hnoted).imp id fun ⟨v, hv, hvalue, hexpanded⟩ => ?_
      exact ⟨v, List.mem_append_left _ hv, hvalue, hexpanded⟩
    | cut hfalse _ _ => rw [hfalse] at hrepeated; cases hrepeated
    | expanded hexpanded _ _ => rw [hexpanded.1] at hrepeated; cases hrepeated
  · exact Or.inr ⟨u, List.mem_append_right _ List.mem_cons_self, rfl,
      Bool.eq_false_iff.mpr hrepeated, rfl⟩

/-- **Every line of an outline without a limit is in place.** -/
theorem inPlace_of_outline [DecidableEq α] {before after : List (Entry α)} {x : Entry α}
    (h : b.outline none root = before ++ x :: after) : x.InPlace b before after := by
  obtain ⟨noted, sub, rest, rfl, hrest, hnotes, hstands⟩ := exists_stands_of_outline rfl h
  have hnoted : x.value ∈ noted ↔ ∃ u ∈ before, u.value = x.value := by
    constructor
    · intro hx
      obtain ⟨u, hu, hvalue, _⟩ := ((hnotes x.value).mp hx).resolve_left List.not_mem_nil
      exact ⟨u, hu, hvalue⟩
    · rintro ⟨u, hu, hvalue⟩
      exact hvalue ▸ noted_of_mem h hnotes u hu
  cases hstands with
  | again hrepeated hchildren hmet =>
    exact inPlace_of_repeated hrest hrepeated ⟨hchildren, hnoted.mp hmet⟩
  | cut _ _ hlimit => cases hlimit
  | expanded hexpanded hnew hsub =>
    rw [hnoted] at hnew
    exact hsub.inPlace hrest hexpanded.1 hnew

/-! ## 3. Limits that cut nothing off -/

section Long

variable [DecidableEq α] {n : Nat} {a : α}

/-- Where no path from a value is longer than the limit allows there, the same entries are listed
    with and without the limit, by induction on the rank of the value. What is at the limit is a
    leaf, which only goes unnoted. -/
theorem entriesFrom_matches_of_long
    (hn : ∀ target p, b.Leads target a p → lasts.length + p.length ≤ n + 1)
    (he : b.SameNotes e e') :
    Matches b.SameNotes (b.entriesFrom (some n) e lasts a) (b.entriesFrom none e' lasts a) := by
  induction hrank : b.rank a using Nat.strongRecOn generalizing a e e' lasts with
  | _ r ih =>
    have hopen : ¬ atLimit none lasts.length = true := Bool.false_ne_true
    rw [entriesFrom_eq, entriesFrom_eq, if_neg hopen]
    by_cases hagain : b.children a ≠ [] ∧ a ∈ e
    · rw [if_pos hagain, if_pos ⟨hagain.1, (he a hagain.1).mp hagain.2⟩]
      exact ⟨rfl, he⟩
    · have hagain' : ¬ (b.children a ≠ [] ∧ a ∈ e') := fun h => hagain ⟨h.1, (he a h.1).mpr h.2⟩
      rw [if_neg hagain, if_neg hagain']
      by_cases hcut : atLimit (some n) lasts.length = true
      · have hleaf : b.children a = [] := by
          refine List.eq_nil_iff_forall_not_mem.mpr fun c hc => ?_
          have hlong := hn c [a, c] (.further hc .here)
          have hle : n ≤ lasts.length := of_decide_eq_true hcut
          simp only [List.length_cons, List.length_nil] at hlong
          omega
        rw [if_pos hcut, hleaf]
        exact ⟨rfl, he.note_leaf hleaf⟩
      · rw [if_neg hcut]
        refine siblings_matches_at (fun c hc e e' last he => ?_) ⟨rfl, he.note a⟩
        refine ih (b.rank c) (hrank ▸ b.falls a c hc) (fun target p hp => ?_) he rfl
        have hlong := hn target (a :: p) (.further hc hp)
        rw [List.length_cons] at hlong
        rw [List.length_append, List.length_singleton]
        omega

/-- **A limit that no path from the root exceeds makes no difference.** -/
theorem outline_eq_of_long (hn : ∀ target p, b.Leads target root p → p.length ≤ n + 1) :
    b.outline (some n) root = b.outline none root := by
  rw [outline_eq_siblings, outline_eq_siblings]
  refine (siblings_matches_at (R := b.SameNotes) (fun c hc e e' last he => ?_)
    ⟨rfl, fun _ _ => Iff.rfl⟩).1
  refine entriesFrom_matches_of_long (fun target p hp => ?_) he
  have hlong := hn target (root :: p) (.further hc hp)
  rw [List.length_cons] at hlong
  rw [List.length_append, List.length_singleton, List.length_nil]
  omega

end Long

end Branching

/-! ## 4. Modules -/

namespace Graph

/-- **A tree shows every edge once.** Of a module of a graph that was built from a list: its tree
    without a limit consists of lines, the first of which is its own. Of the edges that they show
    there is, besides, exactly one for each declared dependency of the module and of everything in
    its closure, which fixes the number of lines. A line is a repetition exactly when its module has
    dependencies and was listed before; then nothing lies beneath it, and else its dependencies lie
    directly beneath it in the order of their declaration, the last one alone marked as the last. A
    depth that no chain of dependencies from the module exceeds makes no difference. -/
theorem tree_shows_every_edge_once {ms : List Module} {g : Graph} (hg : build ms = .ok g)
    {m : Module} (hm : m ∈ ms) :
    g.tree m.id none =
      .ok (String.join ((g.downward.outline none m.id).map (Entry.text g.label))) ∧
    (g.downward.outline none m.id).head? = some ⟨m.id, [], false⟩ ∧
    (∃ s, g.closure m.id = .ok s ∧
      (Entry.edges [] (g.downward.outline none m.id)).Perm ((none, m.id) ::
        (m.id :: s.toList).flatMap fun a => (g.dependencyIds a).map (some a, ·)) ∧
      (g.downward.outline none m.id).length =
        1 + ((m.id :: s.toList).map fun a => (g.dependencyIds a).length).sum) ∧
    (∀ before x after, g.downward.outline none m.id = before ++ x :: after →
      x.InPlace g.downward before after) ∧
    ∀ n, (∀ target ids, DependencyPath ms m.id target ids → ids.length ≤ n + 1) →
      g.tree m.id (some n) = g.tree m.id none := by
  have hget : g.get? m.id = some m := (get?_eq_some_iff_of_build hg).mpr ⟨hm, rfl⟩
  have hperm : (Entry.edges [] (g.downward.outline none m.id)).Perm ((none, m.id) ::
      (m.id :: (Register.ofList (g.downward.below m.id) : NameSet).toList).flatMap
        g.downward.edgesFrom) := by
    refine Branching.perm_edges_outline (List.nodup_cons.mpr ⟨?_, Register.nodup_toList _⟩)
      fun x => ?_
    · exact root_not_mem_closure (closure_of_get? hget)
    · rw [List.mem_cons, ← Register.mem_def, mem_ofList_below]
  refine ⟨tree_of_get? hget none, ?_, ⟨_, closure_of_get? hget, hperm, ?_⟩,
    fun before x after => Branching.inPlace_of_outline, fun n hn => ?_⟩
  · obtain ⟨es, _, houtline, _⟩ := Branching.exists_unrolls_outline g.downward none m.id
    rw [houtline]
    rfl
  · have hlengths : (fun a => (g.downward.edgesFrom a).length) =
        fun a => (g.dependencyIds a).length := funext fun a => List.length_map _
    rw [← Entry.length_edges [], hperm.length_eq, List.length_cons, List.length_flatMap, hlengths,
      Nat.add_comm]
  · have houtline : g.downward.outline (some n) m.id = g.downward.outline none m.id :=
      Branching.outline_eq_of_long fun target ids h => hn target ids ((leads_iff_of_build hg).mp h)
    rw [tree_of_get? hget, tree_of_get? hget, Branching.drawing, Branching.drawing, houtline]

/-- The tree of the module at the top of the blind alley: what both ways down share is expanded
    under the first of them. It has a line for its root and one for each of the six dependencies, and
    three levels are enough for it. -/
theorem tree_of_blind_alley : ∃ g, build blindAlley = .ok g ∧
    g.tree "top" none = .ok ("top\n├── left\n│   └── mid\n│       └── end\n└── right\n" ++
      "    ├── mid (*)\n    └── goal@1.0.0\n") ∧
    (∃ s, g.closure "top" = .ok s ∧
      1 + (("top" :: s.toList).map fun a => (g.dependencyIds a).length).sum = 7) ∧
    g.tree "top" (some 3) = g.tree "top" none := by
  obtain ⟨g, hg⟩ : ∃ g, build blindAlley = .ok g :=
    build_eq_ok_iff.mpr ⟨by decide, by decide, by decide⟩
  obtain ⟨m, hm, hid, htier⟩ : ∃ m ∈ blindAlley, m.id = "top" ∧ m.tier = 3 := by decide
  have hcount : (build blindAlley).toOption.map
      (fun g => (g.downward.outline none "top").length) = some 7 := by decide +kernel
  have htext : (build blindAlley).toOption.map (fun g => g.tree "top" none) =
      some (.ok ("top\n├── left\n│   └── mid\n│       └── end\n└── right\n" ++
        "    ├── mid (*)\n    └── goal@1.0.0\n")) := by decide +kernel
  rw [hg] at hcount htext
  obtain ⟨_, _, ⟨s, hs, _, hlength⟩, _, hlimit⟩ := tree_shows_every_edge_once hg hm
  have hlong : ∀ target ids, DependencyPath blindAlley m.id target ids → ids.length ≤ 3 + 1 := by
    intro target ids h
    have hrank := ((leads_iff_of_build hg).mpr h).length_add_rank_le
    have htop : g.downward.rank m.id = 3 :=
      htier ▸ tier_of_get? ((get?_eq_some_iff_of_build hg).mpr ⟨hm, rfl⟩)
    omega
  have hsame := hlimit 3 hlong
  rw [hid] at hs hlength hsame
  exact ⟨g, hg, Option.some.inj htext, ⟨s, hs, hlength.symm.trans (Option.some.inj hcount)⟩, hsame⟩

end Graph

end Isolation
