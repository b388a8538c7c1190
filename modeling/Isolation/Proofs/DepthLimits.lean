import Isolation.Proofs.LimitedTrees

/-!
# How deep a limited tree goes

The limit of an outline is looked at where a line below the root has been listed, to decide whether
its children follow. The children of the root follow without that: **a limit of 0 is a limit of 1**.
Above it the limit is one.

* `Entry.length_lead` -- the depth of a line can be read off the text: four characters for each
  level stand before its value;
* `Unrolls.eq_of_limit` -- siblings at the limit are listed one by one with nothing between them;
* `outline_of_le_one`, `mem_outline_of_le_one` -- so with a limit of 0 or 1 an outline is its root
  and, one level deeper, the children of it;
* **`depth_le_of_mem_outline`** -- no line lies deeper than the limit, or than 1 where that is more;
* **`tree_exceeds_only_zero`** -- so the tree of a module goes deeper than its limit exactly where
  the limit is 0 and the module declares dependencies (`tree_below_limit_of_zero`).

NOT here: what a limit hides; for limits from 1 on see `limited_tree_shows_what_is_near`.
-/

namespace Isolation

/-! ## 1. Depth in the text -/

namespace Entry

theorem length_rail (last : Bool) : (rail last).length = 4 := by
  cases last <;> rfl

theorem length_connector (last : Bool) : (connector last).length = 4 := by
  cases last <;> rfl

/-- **Before the value of a line stand four characters for each level** that it lies below the
    root. -/
theorem length_lead (lasts : List Bool) : (lead lasts).length = 4 * lasts.length := by
  induction lasts using lead.induct with
  | case1 => rfl
  | case2 last => exact length_connector last
  | case3 last l ls ih =>
    have hrail := length_rail last
    have hlength : (last :: l :: ls).length = (l :: ls).length + 1 := rfl
    rw [lead, String.length_append, hrail, ih, hlength]
    omega

end Entry

/-! ## 2. Lines at the limit -/

namespace Branching

variable {α : Type} {b : Branching α} {limit : Option Nat} {lasts : List Bool}
variable {cs : List (α × Bool)} {e e' : List α} {es : List (Entry α)}

/-- Siblings at the limit, of which none was expanded, have one line each and nothing beneath. -/
theorem Unrolls.eq_of_limit (h : Unrolls b limit lasts cs e es e')
    (hlimit : atLimit limit (lasts.length + 1) = true) (hnew : ∀ c ∈ cs, c.1 ∉ e) :
    es = cs.map fun c => ⟨c.1, lasts ++ [c.2], false⟩ := by
  induction h with
  | nil => rfl
  | again _ hnoted _ _ => exact absurd hnoted (hnew _ List.mem_cons_self)
  | cut _ _ _ ih =>
    have hrest := ih hlimit fun c hc => hnew c (List.mem_cons_of_mem _ hc)
    rw [hrest, List.map_cons]
  | expand _ hopen _ _ _ _ =>
    rw [hlimit] at hopen
    cases hopen

section Outline

variable [DecidableEq α] {root : α} {n : Nat}

/-- **With a limit of 0 or 1 an outline is its root and the children of it.** -/
theorem outline_of_le_one (b : Branching α) (root : α) (hn : n ≤ 1) :
    b.outline (some n) root =
      ⟨root, [], false⟩ :: (markLast (b.children root)).map fun c => ⟨c.1, [c.2], false⟩ := by
  obtain ⟨es, e, houtline, hunrolls⟩ := exists_unrolls_outline b (some n) root
  have hlimit : atLimit (some n) (([] : List Bool).length + 1) = true := decide_eq_true hn
  have hnew : ∀ c ∈ markLast (b.children root), c.1 ∉ [root] := by
    intro c hc hroot
    -- the rank of a child is smaller, so no child is the root
    have hfalls := b.falls root c.1 (mem_of_mem_markLast hc)
    rw [List.mem_singleton.mp hroot] at hfalls
    exact Nat.lt_irrefl _ hfalls
  have hlines := hunrolls.eq_of_limit hlimit hnew
  rw [houtline, hlines]
  rfl

theorem mem_outline_of_le_one (hn : n ≤ 1) {x : Entry α} :
    x ∈ b.outline (some n) root ↔ x = ⟨root, [], false⟩ ∨
      ∃ c ∈ markLast (b.children root), x = ⟨c.1, [c.2], false⟩ := by
  rw [outline_of_le_one b root hn, List.mem_cons, List.mem_map]
  constructor
  · rintro (h | ⟨c, hc, h⟩)
    · exact Or.inl h
    · exact Or.inr ⟨c, hc, h.symm⟩
  · rintro (h | ⟨c, hc, h⟩)
    · exact Or.inl h
    · exact Or.inr ⟨c, hc, h.symm⟩

/-- **No line lies deeper than the limit**, or than one level where the limit is 0. -/
theorem depth_le_of_mem_outline {x : Entry α} (hx : x ∈ b.outline (some n) root) :
    x.depth ≤ max n 1 := by
  by_cases hn : n ≤ 1
  · have hmax : 1 ≤ max n 1 := Nat.le_max_right n 1
    rcases (mem_outline_of_le_one hn).mp hx with rfl | ⟨c, _, rfl⟩
    · exact Nat.zero_le _
    · exact hmax
  · have hpos : 1 ≤ n := by omega
    have hdepth := (leads_of_mem_outline hpos hx).1
    exact Nat.le_trans hdepth (Nat.le_max_left n 1)

/-- Some line lies deeper than the limit exactly where the limit is 0 and the root has children. -/
theorem exists_lt_depth_iff :
    (∃ x ∈ b.outline (some n) root, n < x.depth) ↔ n = 0 ∧ b.children root ≠ [] := by
  constructor
  · rintro ⟨x, hx, hlt⟩
    have hle := depth_le_of_mem_outline hx
    have hzero : n = 0 := by omega
    subst hzero
    refine ⟨rfl, fun hnone => ?_⟩
    rcases (mem_outline_of_le_one (Nat.zero_le 1)).mp hx with rfl | ⟨c, hc, _⟩
    · exact Nat.lt_irrefl 0 hlt
    · have hchild := mem_of_mem_markLast hc
      rw [hnone] at hchild
      cases hchild
  · rintro ⟨rfl, hsome⟩
    obtain ⟨c, hc⟩ := List.exists_mem_of_ne_nil _ hsome
    rw [← map_fst_markLast (b.children root)] at hc
    obtain ⟨p, hp, _⟩ := List.mem_map.mp hc
    have hline : ⟨p.1, [p.2], false⟩ ∈ b.outline (some 0) root :=
      (mem_outline_of_le_one (Nat.zero_le 1)).mpr (Or.inr ⟨p, hp, rfl⟩)
    exact ⟨_, hline, Nat.zero_lt_one⟩

end Outline

end Branching

/-! ## 3. Modules -/

namespace Graph

/-- **A tree goes deeper than its limit exactly where that is 0 and the root declares
    dependencies.** Of the tree of a module to some depth, in a graph that was built from a list:
    it is drawn line by line, each value behind four characters for each level below the root; no
    line is deeper than the limit, except that the dependencies of the root are always listed; and
    so the trees to the depths 0 and 1 are the same. -/
theorem tree_exceeds_only_zero {ms : List Module} {g : Graph} (hg : build ms = .ok g) {m : Module}
    (hm : m ∈ ms) (n : Nat) :
    g.tree m.id (some n) =
      .ok (String.join ((g.downward.outline (some n) m.id).map (Entry.text g.label))) ∧
    (∀ x ∈ g.downward.outline (some n) m.id,
      (Entry.lead x.lasts).length = 4 * x.depth ∧ x.depth ≤ max n 1) ∧
    ((∃ x ∈ g.downward.outline (some n) m.id, n < x.depth) ↔ n = 0 ∧ m.dependencies ≠ []) ∧
    g.tree m.id (some 0) = g.tree m.id (some 1) := by
  have hget : g.get? m.id = some m := (get?_eq_some_iff_of_build hg).mpr ⟨hm, rfl⟩
  have hchildren : g.downward.children m.id = m.dependencies := dependencyIds_of_get? hget
  have hexceeds : (∃ x ∈ g.downward.outline (some n) m.id, n < x.depth) ↔
      n = 0 ∧ m.dependencies ≠ [] := by
    rw [← hchildren]
    exact Branching.exists_lt_depth_iff
  have hsame : g.downward.outline (some 0) m.id = g.downward.outline (some 1) m.id := by
    rw [Branching.outline_of_le_one _ _ (Nat.zero_le 1),
      Branching.outline_of_le_one _ _ (Nat.le_refl 1)]
  refine ⟨tree_of_get? hget (some n), fun x hx => ⟨Entry.length_lead x.lasts, ?_⟩, hexceeds, ?_⟩
  · exact Branching.depth_le_of_mem_outline hx
  · rw [tree_of_get? hget, tree_of_get? hget, Branching.drawing, Branching.drawing, hsame]

/-- To a depth of 2 the repository with the two ways down keeps its limit; to a depth of 0 it does
    not. -/
theorem tree_of_shared_tail_exceeds_zero : ∃ g, build sharedTail = .ok g ∧
    (∀ x ∈ g.downward.outline (some 2) "top", x.depth ≤ 2) ∧
    (∃ x ∈ g.downward.outline (some 0) "top", 0 < x.depth) ∧
    g.tree "top" (some 0) = g.tree "top" (some 1) := by
  obtain ⟨g, hg⟩ : ∃ g, build sharedTail = .ok g :=
    build_eq_ok_iff.mpr ⟨by decide, by decide, by decide⟩
  obtain ⟨m, hm, hid, hdeps⟩ : ∃ m ∈ sharedTail, m.id = "top" ∧ m.dependencies ≠ [] := by decide
  obtain ⟨_, hwithin, _, hsame⟩ := tree_exceeds_only_zero hg hm 2
  obtain ⟨_, _, hzero, _⟩ := tree_exceeds_only_zero hg hm 0
  rw [hid] at hwithin hzero hsame
  exact ⟨g, hg, fun x hx => (hwithin x hx).2, hzero.mpr ⟨rfl, hdeps⟩, hsame⟩

/-- To a depth of 0 the dependencies of `top` are shown, which lie one level below it. -/
theorem tree_below_limit_of_zero : ∃ g, build sharedTail = .ok g ∧
    g.tree "top" (some 0) = .ok "top\n├── long\n└── tail\n" ∧
    ∃ x ∈ g.downward.outline (some 0) "top", x.value = "long" ∧ 0 < x.depth := by
  obtain ⟨g, hg⟩ : ∃ g, build sharedTail = .ok g :=
    build_eq_ok_iff.mpr ⟨by decide, by decide, by decide⟩
  have htext : (build sharedTail).toOption.map (fun g => g.tree "top" (some 0)) =
      some (.ok "top\n├── long\n└── tail\n") := by decide +kernel
  have hline : (build sharedTail).toOption.map (fun g => (g.downward.outline (some 0) "top").any
      fun x => decide (x.value = "long" ∧ 0 < x.depth)) = some true := by decide +kernel
  rw [hg] at htext hline
  obtain ⟨x, hx, hdeep⟩ := List.any_eq_true.mp (Option.some.inj hline)
  exact ⟨g, hg, Option.some.inj htext, x, hx, of_decide_eq_true hdeep⟩

end Graph

end Isolation
