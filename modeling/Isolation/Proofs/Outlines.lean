import Isolation.Outline
import Isolation.Proofs.Reachability

/-!
# What an outline depends on

An outline is the entry of its root and then the entries of its children, one sibling after another
(`siblings`). The values expanded so far are passed from each sibling to the next, so two ways of
listing are compared together with a relation between what they note as expanded (`Matches`): if
they match on every child, they match on the siblings together (`siblings_matches`).

The comparison made here is that of the two kinds of outline. They note different values, since only
one of them notes leaves, but whether a leaf is noted is never asked (`SameNotes`).

* **`fullEntriesFrom_matches`** -- the entries from a value on are the same, and the notes stay the
  same on everything that has children.
* **`fullOutline_eq_outline`**, `fullDrawing_eq_drawing` -- a full outline is the outline without a
  limit, in any branching with the same children at the root and below it. The ranks, and what lies
  elsewhere, do not matter.
* **`outline_eq_of_agree`**, `drawing_eq_of_agree` -- nor do they matter to an outline of one kind,
  whatever its limit, since it lists nothing but its root and what is below (`value_of_mem_outline`).
-/

namespace Isolation

theorem markLast_map {α β : Type} (f : α → β) (l : List α) :
    markLast (l.map f) = (markLast l).map fun p => (f p.1, p.2) := by
  fun_induction markLast l with
  | case1 => rfl
  | case2 a => rfl
  | case3 a b r ih =>
    rw [List.map_cons, List.map_cons, markLast, ← List.map_cons, ih]
    rfl

theorem mem_of_mem_markLast {α : Type} {l : List α} {p : α × Bool} (h : p ∈ markLast l) :
    p.1 ∈ l := by
  rw [← map_fst_markLast l]
  exact List.mem_map_of_mem h

namespace Branching

variable {α : Type}

/-! ## 1. Siblings -/

section Siblings

variable {f f' : List α → List Bool → α → List (Entry α) × List α} {R : List α → List α → Prop}
variable {cs : List α} {st st' : List (Entry α) × List α}

/-- The entries of siblings after those listed so far, and the values expanded after them, when `f`
    lists one value from the values expanded before it and the place of its line. -/
def siblings (f : List α → List Bool → α → List (Entry α) × List α) (lasts : List Bool)
    (cs : List α) (st : List (Entry α) × List α) : List (Entry α) × List α :=
  (markLast cs).foldl (fun st c =>
    let sub := f st.2 (lasts ++ [c.2]) c.1
    (st.1 ++ sub.1, sub.2)) st

theorem siblings_attach (lasts : List Bool) :
    (markLast cs.attach).foldl (fun st c =>
      let sub := f st.2 (lasts ++ [c.2]) c.1.1
      (st.1 ++ sub.1, sub.2)) st = siblings f lasts cs st := by
  have hmark : markLast cs = (markLast cs.attach).map fun p => (p.1.1, p.2) := by
    rw [← markLast_map, List.attach_map_subtype_val]
  rw [siblings, hmark, List.foldl_map]

/-- The same entries, and expanded values that `R` relates. -/
def Matches (R : List α → List α → Prop) (st st' : List (Entry α) × List α) : Prop :=
  st.1 = st'.1 ∧ R st.2 st'.2

/-- Two ways of listing that match on every sibling, in the place that it has, match on the siblings
    together. -/
theorem siblings_matches_at {lasts : List Bool}
    (h : ∀ c ∈ cs, ∀ e e' last, R e e' →
      Matches R (f e (lasts ++ [last]) c) (f' e' (lasts ++ [last]) c))
    (hst : Matches R st st') : Matches R (siblings f lasts cs st) (siblings f' lasts cs st') := by
  refine List.foldl_rel hst fun c hc st st' hst => ?_
  obtain ⟨hentries, hexpanded⟩ := h c.1 (mem_of_mem_markLast hc) st.2 st'.2 c.2 hst.2
  exact ⟨congrArg₂ (· ++ ·) hst.1 hentries, hexpanded⟩

/-- **Two ways of listing that match on every sibling match on the siblings together.** -/
theorem siblings_matches
    (h : ∀ c ∈ cs, ∀ e e' lasts, R e e' → Matches R (f e lasts c) (f' e' lasts c))
    (lasts : List Bool) (hst : Matches R st st') :
    Matches R (siblings f lasts cs st) (siblings f' lasts cs st') :=
  siblings_matches_at (fun c hc e e' last => h c hc e e' (lasts ++ [last])) hst

theorem siblings_congr (h : ∀ c ∈ cs, ∀ e lasts, f e lasts c = f' e lasts c) {lasts : List Bool} :
    siblings f lasts cs st = siblings f' lasts cs st := by
  have hmatch : Matches Eq (siblings f lasts cs st) (siblings f' lasts cs st) := by
    refine siblings_matches (fun c hc e e' lasts he => ?_) lasts ⟨rfl, rfl⟩
    subst he
    rw [h c hc]
    exact ⟨rfl, rfl⟩
  exact Prod.ext hmatch.1 hmatch.2

/-- What holds of the values listed before and of all values that are listed for one sibling holds
    of all values that are listed. -/
theorem forall_mem_siblings {P : α → Prop} {lasts : List Bool}
    (h : ∀ c ∈ cs, ∀ e lasts, ∀ x ∈ (f e lasts c).1, P x.value) (hst : ∀ x ∈ st.1, P x.value) :
    ∀ x ∈ (siblings f lasts cs st).1, P x.value := by
  unfold siblings
  refine List.foldlRecOn
    (motive := fun st : List (Entry α) × List α => ∀ x ∈ st.1, P x.value) _ _ hst
    fun st hst c hc x hx => ?_
  rcases List.mem_append.mp hx with hx | hx
  · exact hst x hx
  · exact h c.1 (mem_of_mem_markLast hc) st.2 _ x hx

end Siblings

/-! ## 2. What is noted as expanded -/

/-- Expanded values that are the same among those that have children. -/
def SameNotes (b : Branching α) (e e' : List α) : Prop :=
  ∀ x, b.children x ≠ [] → (x ∈ e ↔ x ∈ e')

variable {b b' : Branching α} {e e' : List α}

theorem SameNotes.note (h : b.SameNotes e e') (a : α) : b.SameNotes (a :: e) (a :: e') := by
  intro x hx
  rw [List.mem_cons, List.mem_cons, h x hx]

theorem SameNotes.note_leaf (h : b.SameNotes e e') {a : α} (ha : b.children a = []) :
    b.SameNotes e (a :: e') := by
  intro x hx
  have hne : x ≠ a := fun hxa => hx (hxa ▸ ha)
  rw [List.mem_cons, or_iff_right hne, h x hx]

/-! ## 3. The two kinds of outline -/

variable [DecidableEq α] {root : α}

theorem entriesFrom_eq (limit : Option Nat) (expanded : List α) (lasts : List Bool) (a : α) :
    b.entriesFrom limit expanded lasts a =
      if b.children a ≠ [] ∧ a ∈ expanded then ([⟨a, lasts, true⟩], expanded)
      else if atLimit limit lasts.length then ([⟨a, lasts, false⟩], expanded)
      else siblings (b.entriesFrom limit) lasts (b.children a)
        ([⟨a, lasts, false⟩], a :: expanded) := by
  rw [entriesFrom, siblings_attach]

theorem outline_eq_siblings (limit : Option Nat) :
    b.outline limit root = (siblings (b.entriesFrom limit) [] (b.children root)
      ([⟨root, [], false⟩], [root])).1 := rfl

theorem fullEntriesFrom_eq (expanded : List α) (lasts : List Bool) (a : α) :
    b.fullEntriesFrom expanded lasts a =
      if b.children a = [] then ([⟨a, lasts, false⟩], expanded)
      else if a ∈ expanded then ([⟨a, lasts, true⟩], expanded)
      else siblings b.fullEntriesFrom lasts (b.children a)
        ([⟨a, lasts, false⟩], a :: expanded) := by
  rw [fullEntriesFrom, siblings_attach]

theorem fullOutline_eq_siblings :
    b.fullOutline root = (siblings b.fullEntriesFrom [] (b.children root)
      ([⟨root, [], false⟩], [root])).1 := rfl

/-- **From the same notes the two kinds of outline list the same entries**, and keep the same notes,
    by induction on the rank of the value. -/
theorem fullEntriesFrom_matches {a : α} (h : b.AgreeFrom b' a) (he : b.SameNotes e e')
    (lasts : List Bool) :
    Matches b.SameNotes (b.fullEntriesFrom e lasts a) (b'.entriesFrom none e' lasts a) := by
  induction hn : b.rank a using Nat.strongRecOn generalizing a e e' lasts with
  | _ n ih =>
    have hchildren : ∀ c ∈ b.children a, ∀ e e' lasts, b.SameNotes e e' →
        Matches b.SameNotes (b.fullEntriesFrom e lasts c) (b'.entriesFrom none e' lasts c) := by
      intro c hc e e' lasts he
      exact ih (b.rank c) (hn ▸ b.falls a c hc) (h.child hc) he lasts rfl
    have hlimit : ¬ atLimit none lasts.length = true := Bool.false_ne_true
    rw [fullEntriesFrom_eq, entriesFrom_eq, ← h.children_eq, if_neg hlimit]
    by_cases hleaf : b.children a = []
    · rw [if_pos hleaf, if_neg fun hrepeated => hrepeated.1 hleaf, hleaf]
      exact ⟨rfl, he.note_leaf hleaf⟩
    · rw [if_neg hleaf]
      by_cases hmet : a ∈ e
      · rw [if_pos hmet, if_pos ⟨hleaf, (he a hleaf).mp hmet⟩]
        exact ⟨rfl, he⟩
      · rw [if_neg hmet, if_neg fun hrepeated => hmet ((he a hleaf).mpr hrepeated.2)]
        exact siblings_matches hchildren lasts ⟨rfl, he.note a⟩

/-- **A full outline is the outline without a limit**, in any branching that has the same children
    at the root and below it. -/
theorem fullOutline_eq_outline (h : b.AgreeFrom b' root) :
    b.fullOutline root = b'.outline none root := by
  have hchildren : ∀ c ∈ b.children root, ∀ e e' lasts, b.SameNotes e e' →
      Matches b.SameNotes (b.fullEntriesFrom e lasts c) (b'.entriesFrom none e' lasts c) :=
    fun c hc e e' lasts he => fullEntriesFrom_matches (h.child hc) he lasts
  rw [fullOutline_eq_siblings, outline_eq_siblings, ← h.children_eq]
  exact (siblings_matches hchildren [] ⟨rfl, fun _ _ => Iff.rfl⟩).1

theorem fullDrawing_eq_drawing (h : b.AgreeFrom b' root) (label : α → String) :
    b.fullDrawing label root = b'.drawing label none root := by
  rw [fullDrawing, drawing, fullOutline_eq_outline h]

/-! ## 4. Outlines with a limit -/

/-- **The entries from a value on depend on the children at it and below it only**, by induction on
    the rank of the value. -/
theorem entriesFrom_eq_of_agree {a : α} (h : b.AgreeFrom b' a) (limit : Option Nat)
    (expanded : List α) (lasts : List Bool) :
    b.entriesFrom limit expanded lasts a = b'.entriesFrom limit expanded lasts a := by
  induction hn : b.rank a using Nat.strongRecOn generalizing a expanded lasts with
  | _ n ih =>
    have hchildren : ∀ c ∈ b.children a, ∀ e lasts,
        b.entriesFrom limit e lasts c = b'.entriesFrom limit e lasts c := by
      intro c hc e lasts
      exact ih (b.rank c) (hn ▸ b.falls a c hc) (h.child hc) e lasts rfl
    rw [entriesFrom_eq, entriesFrom_eq, ← h.children_eq, siblings_congr hchildren]

theorem outline_eq_of_agree (h : b.AgreeFrom b' root) (limit : Option Nat) :
    b.outline limit root = b'.outline limit root := by
  have hchildren : ∀ c ∈ b.children root, ∀ e lasts,
      b.entriesFrom limit e lasts c = b'.entriesFrom limit e lasts c :=
    fun c hc e lasts => entriesFrom_eq_of_agree (h.child hc) limit e lasts
  rw [outline_eq_siblings, outline_eq_siblings, ← h.children_eq, siblings_congr hchildren]

theorem value_of_mem_entriesFrom {limit : Option Nat} {expanded : List α} {lasts : List Bool}
    {a : α} {x : Entry α} (hx : x ∈ (b.entriesFrom limit expanded lasts a).1) :
    x.value = a ∨ b.Below a x.value := by
  induction hn : b.rank a using Nat.strongRecOn generalizing a expanded lasts x with
  | _ n ih =>
    rw [entriesFrom_eq] at hx
    split at hx
    · exact Or.inl (List.mem_singleton.mp hx ▸ rfl)
    · split at hx
      · exact Or.inl (List.mem_singleton.mp hx ▸ rfl)
      · refine forall_mem_siblings (P := fun v => v = a ∨ b.Below a v) ?_ ?_ x hx
        · intro c hc e lasts y hy
          have hyc := ih (b.rank c) (hn ▸ b.falls a c hc) hy rfl
          exact Or.inr (below_iff_exists_child.mpr ⟨c, hc, hyc⟩)
        · intro y hy
          exact Or.inl (List.mem_singleton.mp hy ▸ rfl)

/-- **An outline lists its root and values below it, and nothing else.** -/
theorem value_of_mem_outline {limit : Option Nat} {x : Entry α} (hx : x ∈ b.outline limit root) :
    x.value = root ∨ b.Below root x.value := by
  rw [outline_eq_siblings] at hx
  refine forall_mem_siblings (P := fun v => v = root ∨ b.Below root v) ?_ ?_ x hx
  · intro c hc e lasts y hy
    exact Or.inr (below_iff_exists_child.mpr ⟨c, hc, value_of_mem_entriesFrom hy⟩)
  · intro y hy
    exact Or.inl (List.mem_singleton.mp hy ▸ rfl)

/-- **The text of an outline depends on what lies at the root and below it only**: on the children
    there, and on how the values there are shown. -/
theorem drawing_eq_of_agree (h : b.AgreeFrom b' root) {label label' : α → String}
    (hlabel : ∀ x, x = root ∨ b.Below root x → label x = label' x) (limit : Option Nat) :
    b.drawing label limit root = b'.drawing label' limit root := by
  have hlines : (b.outline limit root).map (Entry.text label) =
      (b.outline limit root).map (Entry.text label') := by
    refine List.map_congr_left fun x hx => ?_
    unfold Entry.text
    rw [hlabel x.value (value_of_mem_outline hx)]
  rw [drawing, drawing, hlines, outline_eq_of_agree h]

end Branching

end Isolation
