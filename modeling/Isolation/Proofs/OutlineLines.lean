import Isolation.Proofs.FirstPaths
import Isolation.Proofs.Outlines

/-!
# The lines of an outline

What an outline lists under one line depends on all that it listed before, through the values noted
as expanded. This file opens the recursion once, into the rules by which lines come about, so that a
fact about outlines is an induction on these rules.

* `Unrolls` -- the rules: a value that has children and is noted gets one line and nothing below it,
  a value at the limit gets one line, and every other value is noted and its children are listed
  below it, before its next sibling;
* `exists_unrolls_outline` -- every outline comes about by them, below the line of its root;
* `Unrolls.notes` -- what is noted afterwards is what was noted before and the values of the lines
  that were expanded (`Entry.Expanded`);
* **`Unrolls.exists_stands`**, `exists_stands_of_outline` -- the rules hold at every single line:
  what is noted there is what the lines above it say, and the lines beneath it are those of its
  children, or there are none (`Stands`).
-/

namespace Isolation

/-! ## 1. Lines below a line -/

namespace Entry

variable {α : Type}

/-- The lines beneath a line, of those that come after it: all up to the next one that is not
    deeper. -/
def beneath (x : Entry α) (after : List (Entry α)) : List (Entry α) :=
  after.takeWhile fun y => x.depth < y.depth

/-- The lines directly beneath a line: those of the lines beneath it that are one level deeper. -/
def directly (x : Entry α) (after : List (Entry α)) : List (Entry α) :=
  (x.beneath after).filter fun y => y.depth = x.depth + 1

/-- The line is not a repetition, and it is not at the limit. -/
def Expanded (limit : Option Nat) (x : Entry α) : Prop :=
  x.repeated = false ∧ Branching.atLimit limit x.depth = false

theorem depth_concat (a : α) (lasts : List Bool) (last repeated : Bool) :
    (⟨a, lasts ++ [last], repeated⟩ : Entry α).depth = lasts.length + 1 :=
  List.length_append

theorem beneath_append {x : Entry α} {sub rest : List (Entry α)}
    (hsub : ∀ y ∈ sub, x.depth < y.depth) (hrest : ∀ y ∈ rest.head?, y.depth ≤ x.depth) :
    x.beneath (sub ++ rest) = sub := by
  have hnone : rest.takeWhile (fun y => decide (x.depth < y.depth)) = [] := by
    cases rest with
    | nil => rfl
    | cons y rest =>
      have hy : ¬ decide (x.depth < y.depth) = true := by
        simpa using hrest y rfl
      exact List.takeWhile_cons_of_neg hy
  unfold beneath
  rw [List.takeWhile_append_of_pos fun y hy => decide_eq_true (hsub y hy), hnone,
    List.append_nil]

end Entry

namespace Branching

variable {α : Type} {b : Branching α} {limit : Option Nat} {lasts : List Bool}
variable {cs ds : List (α × Bool)} {e e' e'' : List α} {es fs : List (Entry α)}

/-! ## 2. The rules -/

/-- Under a line at the place `lasts`, the siblings `cs` are listed as `es`. Before them the values
    `e` are noted as expanded, after them the values `e'`. -/
inductive Unrolls (b : Branching α) (limit : Option Nat) :
    List Bool → List (α × Bool) → List α → List (Entry α) → List α → Prop where
  | nil {lasts : List Bool} {e : List α} : Unrolls b limit lasts [] e [] e
  | again {lasts : List Bool} {a : α} {last : Bool} {cs : List (α × Bool)} {e e' : List α}
    {es : List (Entry α)} (hchildren : b.children a ≠ []) (hnoted : a ∈ e)
    (hrest : Unrolls b limit lasts cs e es e') :
    Unrolls b limit lasts ((a, last) :: cs) e (⟨a, lasts ++ [last], true⟩ :: es) e'
  | cut {lasts : List Bool} {a : α} {last : Bool} {cs : List (α × Bool)} {e e' : List α}
    {es : List (Entry α)} (hnew : ¬ (b.children a ≠ [] ∧ a ∈ e))
    (hlimit : atLimit limit (lasts.length + 1) = true) (hrest : Unrolls b limit lasts cs e es e') :
    Unrolls b limit lasts ((a, last) :: cs) e (⟨a, lasts ++ [last], false⟩ :: es) e'
  | expand {lasts : List Bool} {a : α} {last : Bool} {cs : List (α × Bool)} {e e' e'' : List α}
    {sub es : List (Entry α)} (hnew : ¬ (b.children a ≠ [] ∧ a ∈ e))
    (hlimit : atLimit limit (lasts.length + 1) = false)
    (hsub : Unrolls b limit (lasts ++ [last]) (markLast (b.children a)) (a :: e) sub e')
    (hrest : Unrolls b limit lasts cs e' es e'') :
    Unrolls b limit lasts ((a, last) :: cs) e (⟨a, lasts ++ [last], false⟩ :: (sub ++ es)) e''

theorem Unrolls.append (h : Unrolls b limit lasts cs e es e')
    (h' : Unrolls b limit lasts ds e' fs e'') :
    Unrolls b limit lasts (cs ++ ds) e (es ++ fs) e'' := by
  induction h with
  | nil => exact h'
  | again hchildren hnoted _ ih => exact .again hchildren hnoted (ih h')
  | cut hnew hlimit _ ih => exact .cut hnew hlimit (ih h')
  | expand hnew hlimit hsub _ _ ih =>
    rw [List.cons_append, List.cons_append, List.append_assoc]
    exact .expand hnew hlimit hsub (ih h')

section Outline

variable [DecidableEq α] {root : α}

/-- Siblings are listed by the rules, if each of them by itself is. -/
theorem exists_unrolls_siblings {cs : List α} (lasts : List Bool) (st : List (Entry α) × List α)
    (h : ∀ c ∈ cs, ∀ last e, Unrolls b limit lasts [(c, last)] e
      (b.entriesFrom limit e (lasts ++ [last]) c).1 (b.entriesFrom limit e (lasts ++ [last]) c).2) :
    ∃ es e', siblings (b.entriesFrom limit) lasts cs st = (st.1 ++ es, e') ∧
      Unrolls b limit lasts (markLast cs) st.2 es e' := by
  have key : ∀ (ps : List (α × Bool)) (st : List (Entry α) × List α), (∀ p ∈ ps, p.1 ∈ cs) →
      ∃ es e', ps.foldl (fun st c =>
        let sub := b.entriesFrom limit st.2 (lasts ++ [c.2]) c.1
        (st.1 ++ sub.1, sub.2)) st = (st.1 ++ es, e') ∧ Unrolls b limit lasts ps st.2 es e' := by
    intro ps
    induction ps with
    | nil => exact fun st _ => ⟨[], st.2, by rw [List.append_nil]; rfl, .nil⟩
    | cons p ps ih =>
      intro st hps
      obtain ⟨es, e', hfold, hunrolls⟩ := ih
        (st.1 ++ (b.entriesFrom limit st.2 (lasts ++ [p.2]) p.1).1,
          (b.entriesFrom limit st.2 (lasts ++ [p.2]) p.1).2)
        fun q hq => hps q (List.mem_cons_of_mem p hq)
      refine ⟨_, e', ?_, (h p.1 (hps p List.mem_cons_self) p.2 st.2).append hunrolls⟩
      rw [List.foldl_cons, hfold, List.append_assoc]
  exact key (markLast cs) st fun p hp => mem_of_mem_markLast hp

/-- **The entries from a value on come about by the rules**, by induction on its rank. -/
theorem unrolls_entriesFrom (limit : Option Nat) (a : α) (last : Bool) (e : List α) :
    Unrolls b limit lasts [(a, last)] e (b.entriesFrom limit e (lasts ++ [last]) a).1
      (b.entriesFrom limit e (lasts ++ [last]) a).2 := by
  induction hn : b.rank a using Nat.strongRecOn generalizing a last e lasts with
  | _ n ih =>
    have hlength : (lasts ++ [last]).length = lasts.length + 1 := List.length_append
    rw [entriesFrom_eq, hlength]
    split
    · rename_i hagain
      exact .again hagain.1 hagain.2 .nil
    · rename_i hnew
      split
      · rename_i hlimit
        exact .cut hnew hlimit .nil
      · rename_i hlimit
        obtain ⟨es, e', hsiblings, hunrolls⟩ := exists_unrolls_siblings (lasts ++ [last])
          ([⟨a, lasts ++ [last], false⟩], a :: e)
          fun c hc last' e => ih (b.rank c) (hn ▸ b.falls a c hc) c last' e rfl
        rw [hsiblings]
        have hline := Unrolls.expand hnew (Bool.eq_false_iff.mpr hlimit) hunrolls .nil
        rw [List.append_nil] at hline
        exact hline

/-- **An outline is the line of its root, and below it the children come about by the rules.** -/
theorem exists_unrolls_outline (b : Branching α) (limit : Option Nat) (root : α) :
    ∃ es e, b.outline limit root = ⟨root, [], false⟩ :: es ∧
      Unrolls b limit [] (markLast (b.children root)) [root] es e := by
  obtain ⟨es, e, hsiblings, hunrolls⟩ := exists_unrolls_siblings []
    ([⟨root, [], false⟩], [root]) fun c (_ : c ∈ b.children root) last e =>
      unrolls_entriesFrom limit c last e
  refine ⟨es, e, ?_, hunrolls⟩
  rw [outline_eq_siblings, hsiblings]
  rfl

end Outline

/-! ## 3. What the rules note -/

/-- After some lines the noted values are those noted before and those of expanded lines. -/
def Notes (limit : Option Nat) (e : List α) (es : List (Entry α)) (e' : List α) : Prop :=
  ∀ x, x ∈ e' ↔ x ∈ e ∨ ∃ u ∈ es, u.value = x ∧ u.Expanded limit

theorem notes_nil : Notes limit e [] e := fun _ =>
  ⟨Or.inl, fun h => h.resolve_right fun ⟨_, hu, _⟩ => List.not_mem_nil hu⟩

theorem Notes.append (h : Notes limit e es e') (h' : Notes limit e' fs e'') :
    Notes limit e (es ++ fs) e'' := by
  intro x
  simp only [h' x, h x, List.mem_append, or_and_right, exists_or, or_assoc]

theorem notes_of_expanded {x : Entry α} (h : x.Expanded limit) :
    Notes limit e [x] (x.value :: e) := by
  intro y
  rw [List.mem_cons, or_comm]
  refine or_congr_right ⟨?_, ?_⟩
  · rintro rfl
    exact ⟨x, List.mem_singleton.mpr rfl, rfl, h⟩
  · rintro ⟨u, hu, rfl, _⟩
    rw [List.mem_singleton.mp hu]

theorem notes_of_not_expanded {x : Entry α} (h : ¬ x.Expanded limit) : Notes limit e [x] e := by
  intro y
  refine ⟨Or.inl, fun hy => hy.resolve_right ?_⟩
  rintro ⟨u, hu, _, hexpanded⟩
  exact h (List.mem_singleton.mp hu ▸ hexpanded)

section Lines

variable {a : α} {last : Bool}

theorem not_expanded_again : ¬ (⟨a, lasts ++ [last], true⟩ : Entry α).Expanded limit :=
  fun h => Bool.noConfusion h.1

theorem not_expanded_cut (h : atLimit limit (lasts.length + 1) = true) :
    ¬ (⟨a, lasts ++ [last], false⟩ : Entry α).Expanded limit := by
  intro hexpanded
  have hopen := hexpanded.2
  rw [Entry.depth_concat, h] at hopen
  cases hopen

theorem expanded_of_open (h : atLimit limit (lasts.length + 1) = false) :
    (⟨a, lasts ++ [last], false⟩ : Entry α).Expanded limit :=
  ⟨rfl, by rw [Entry.depth_concat, h]⟩

end Lines

theorem Unrolls.notes (h : Unrolls b limit lasts cs e es e') : Notes limit e es e' := by
  induction h with
  | nil => exact notes_nil
  | again _ _ _ ih => exact (notes_of_not_expanded not_expanded_again).append ih
  | cut _ hlimit _ ih => exact (notes_of_not_expanded (not_expanded_cut hlimit)).append ih
  | expand _ hlimit _ _ ihsub ih =>
    exact (notes_of_expanded (expanded_of_open hlimit)).append (ihsub.append ih)

/-! ## 4. The rules at a line -/

/-- Everything that is listed under a line is deeper. -/
theorem Unrolls.lt_depth (h : Unrolls b limit lasts cs e es e') :
    ∀ x ∈ es, lasts.length < x.depth := by
  induction h with
  | nil => exact fun _ hx => absurd hx List.not_mem_nil
  | again _ _ _ ih | cut _ _ _ ih =>
    rw [List.forall_mem_cons, Entry.depth_concat]
    exact ⟨Nat.lt_succ_self _, ih⟩
  | @expand lasts _ last _ _ _ _ _ _ _ _ _ _ ihsub ih =>
    rw [List.forall_mem_cons, Entry.depth_concat, List.forall_mem_append]
    refine ⟨Nat.lt_succ_self _, fun x hx => ?_, ih⟩
    have hdeeper : (lasts ++ [last]).length < x.depth := ihsub x hx
    rw [List.length_append] at hdeeper
    exact Nat.lt_of_succ_lt hdeeper

/-- The first line that is listed under a line is no deeper than any of them. -/
theorem Unrolls.depth_head?_le (h : Unrolls b limit lasts cs e es e') {x : Entry α}
    (hx : lasts.length < x.depth) : ∀ y ∈ es.head?, y.depth ≤ x.depth := by
  intro y hy
  cases h with
  | nil => cases hy
  | again _ _ _ | cut _ _ _ | expand _ _ _ _ =>
    cases hy
    rw [Entry.depth_concat]
    exact hx

/-- How a line stands among the others: the values noted where it is listed, and the lines beneath
    it. -/
inductive Stands (b : Branching α) (limit : Option Nat) (x : Entry α) (noted : List α) :
    List (Entry α) → Prop where
  | again (hrepeated : x.repeated = true) (hchildren : b.children x.value ≠ [])
    (hnoted : x.value ∈ noted) : Stands b limit x noted []
  | cut (hrepeated : x.repeated = false) (hnew : ¬ (b.children x.value ≠ [] ∧ x.value ∈ noted))
    (hlimit : atLimit limit x.depth = true) : Stands b limit x noted []
  | expanded {sub : List (Entry α)} {e : List α} (hexpanded : x.Expanded limit)
    (hnew : ¬ (b.children x.value ≠ [] ∧ x.value ∈ noted))
    (hsub : Unrolls b limit x.lasts (markLast (b.children x.value)) (x.value :: noted) sub e) :
    Stands b limit x noted sub

/-- What occurs in two lists together occurs in the one or in the other. -/
theorem append_eq_append_cons {β : Type} {xs ys before after : List β} {x : β}
    (h : xs ++ ys = before ++ x :: after) :
    (∃ after', xs = before ++ x :: after' ∧ after = after' ++ ys) ∨
      ∃ before', before = xs ++ before' ∧ ys = before' ++ x :: after := by
  rcases List.append_eq_append_iff.mp h with ⟨mid, rfl, hys⟩ | ⟨mid, rfl, hys⟩
  · exact Or.inr ⟨mid, rfl, hys⟩
  · rcases List.cons_eq_append_iff.mp hys with ⟨rfl, hys⟩ | ⟨after', rfl, hafter⟩
    · exact Or.inr ⟨[], by rw [List.append_nil, List.append_nil], hys.symm⟩
    · exact Or.inl ⟨after', rfl, hafter⟩

/-- **The rules hold at every line**: the noted values there are those noted before and those of the
    expanded lines above it, and what comes after it are the lines beneath it and then lines that
    are not deeper. -/
theorem Unrolls.exists_stands (h : Unrolls b limit lasts cs e es e') {before after : List (Entry α)}
    {x : Entry α} (hes : es = before ++ x :: after) :
    ∃ noted sub rest, after = sub ++ rest ∧ (∀ y ∈ rest.head?, y.depth ≤ x.depth) ∧
      Notes limit e before noted ∧ Stands b limit x noted sub := by
  have hx := h.lt_depth x (by rw [hes]; exact List.mem_append_right _ List.mem_cons_self)
  induction h generalizing before after with
  | nil => exact absurd hes.symm (List.append_ne_nil_of_right_ne_nil _ (List.cons_ne_nil _ _))
  | again hchildren hnoted hrest ih =>
    rcases List.cons_eq_append_iff.mp hes with ⟨rfl, hhead⟩ | ⟨before', rfl, hes'⟩
    · cases hhead
      exact ⟨_, [], _, rfl, hrest.depth_head?_le hx, notes_nil, .again rfl hchildren hnoted⟩
    · obtain ⟨noted, sub, rest, hafter, hnext, hnotes, hstands⟩ := ih hes' hx
      exact ⟨noted, sub, rest, hafter, hnext,
        (notes_of_not_expanded not_expanded_again).append hnotes, hstands⟩
  | cut hnew hlimit hrest ih =>
    rcases List.cons_eq_append_iff.mp hes with ⟨rfl, hhead⟩ | ⟨before', rfl, hes'⟩
    · cases hhead
      have hcut := hlimit
      rw [← Entry.depth_concat] at hcut
      exact ⟨_, [], _, rfl, hrest.depth_head?_le hx, notes_nil, .cut rfl hnew hcut⟩
    · obtain ⟨noted, sub, rest, hafter, hnext, hnotes, hstands⟩ := ih hes' hx
      exact ⟨noted, sub, rest, hafter, hnext,
        (notes_of_not_expanded (not_expanded_cut hlimit)).append hnotes, hstands⟩
  | expand hnew hlimit hsub hrest ihsub ih =>
    rcases List.cons_eq_append_iff.mp hes with ⟨rfl, hhead⟩ | ⟨before', rfl, hes'⟩
    · cases hhead
      exact ⟨_, _, _, rfl, hrest.depth_head?_le hx, notes_nil,
        .expanded (expanded_of_open hlimit) hnew hsub⟩
    · rcases append_eq_append_cons hes' with ⟨after', hsub', rfl⟩ | ⟨before'', rfl, hes''⟩
      · -- the line is one of those beneath, and what comes after them comes after it, too
        have hdeep := hsub.lt_depth x
          (by rw [hsub']; exact List.mem_append_right _ List.mem_cons_self)
        obtain ⟨noted, sub, rest, rfl, hnext, hnotes, hstands⟩ := ihsub hsub' hdeep
        refine ⟨noted, sub, _, List.append_assoc _ _ _, fun y hy => ?_,
          (notes_of_expanded (expanded_of_open hlimit)).append hnotes, hstands⟩
        cases rest with
        | nil => exact hrest.depth_head?_le hx y hy
        | cons z rest => exact hnext y hy
      · obtain ⟨noted, sub, rest, hafter, hnext, hnotes, hstands⟩ := ih hes'' hx
        have hbefore := hsub.notes.append hnotes
        exact ⟨noted, sub, rest, hafter, hnext,
          (notes_of_expanded (expanded_of_open hlimit)).append hbefore, hstands⟩

/-- **They hold at every line of an outline, and nothing is noted before its first line**, unless the
    limit is at the root itself. -/
theorem exists_stands_of_outline [DecidableEq α] {root : α} (hopen : atLimit limit 0 = false)
    {before after : List (Entry α)} {x : Entry α}
    (h : b.outline limit root = before ++ x :: after) :
    ∃ noted sub rest, after = sub ++ rest ∧ (∀ y ∈ rest.head?, y.depth ≤ x.depth) ∧
      Notes limit [] before noted ∧ Stands b limit x noted sub := by
  have hroot : (⟨root, [], false⟩ : Entry α).Expanded limit := ⟨rfl, hopen⟩
  obtain ⟨es, e, houtline, hunrolls⟩ := exists_unrolls_outline b limit root
  rw [houtline] at h
  rcases List.cons_eq_append_iff.mp h with ⟨rfl, hx⟩ | ⟨before, rfl, hes⟩
  · cases hx
    exact ⟨[], after, [], (List.append_nil after).symm, (fun _ hy => nomatch hy), notes_nil,
      .expanded hroot (fun hmet => List.not_mem_nil hmet.2) hunrolls⟩
  · obtain ⟨noted, sub, rest, hafter, hnext, hnotes, hstands⟩ := hunrolls.exists_stands hes
    exact ⟨noted, sub, rest, hafter, hnext, (notes_of_expanded hroot).append hnotes, hstands⟩

end Branching

end Isolation
