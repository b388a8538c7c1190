import Mathlib.Data.List.Forall2

/-!
# Lists of results

A step that can fail is chained to the next one, and a step that can fail is taken for each entry of
a list. This file fixes what it says that such a chain or such a list succeeds, or that it fails.

* `bind_eq_ok_iff`, `bind_eq_error_iff` -- the two ends of a chain;
* `mapM_eq_ok_iff` -- a list of results is a result for each entry, in order; what follows for the
  entries of either list, and for what is read off them (`map_eq_of_mapM_eq_ok`);
* `exists_mapM_eq_ok`, `mapM_eq_error_iff` -- it fails with the first entry that does, and only
  then;
* `foldlM_eq_ok` -- steps that succeed wherever an invariant holds are steps that cannot fail;
* `exists_of_mem_of_forall₂`, `forall_mem_iff_of_forall₂` -- entries that are related in order.
-/

namespace Isolation

variable {ε α β : Type}

theorem ok_bind {a : α} {k : α → Except ε β} : (Except.ok a >>= k) = k a := rfl

theorem bind_eq_ok_iff {x : Except ε α} {k : α → Except ε β} {b : β} :
    (x >>= k) = .ok b ↔ ∃ a, x = .ok a ∧ k a = .ok b := by
  cases x with
  | error e => exact ⟨fun h => (nomatch h), fun ⟨_, h, _⟩ => (nomatch h)⟩
  | ok a => exact ⟨fun h => ⟨a, rfl, h⟩, fun ⟨_, h, hk⟩ => Except.ok.inj h ▸ hk⟩

theorem bind_eq_error_iff {x : Except ε α} {k : α → Except ε β} {e : ε} :
    (x >>= k) = .error e ↔ x = .error e ∨ ∃ a, x = .ok a ∧ k a = .error e := by
  cases x with
  | error e' =>
    constructor
    · intro h
      exact Or.inl (congrArg Except.error (Except.error.inj h))
    · rintro (h | ⟨a, h, _⟩)
      · cases h
        rfl
      · cases h
  | ok a =>
    constructor
    · exact fun h => Or.inr ⟨a, rfl, h⟩
    · rintro (h | ⟨a', h, hk⟩)
      · cases h
      · cases h
        exact hk

variable {f : α → Except ε β} {l : List α} {r : List β} {R : α → β → Prop}

theorem exists_of_mem_of_forall₂ (h : List.Forall₂ R l r) {a : α} (ha : a ∈ l) :
    ∃ b ∈ r, R a b := by
  induction h with
  | nil => cases ha
  | cons hab _ ih =>
    rcases List.mem_cons.mp ha with rfl | ha
    · exact ⟨_, List.mem_cons_self, hab⟩
    · obtain ⟨b, hb, hab⟩ := ih ha
      exact ⟨b, List.mem_cons_of_mem _ hb, hab⟩

/-- What related entries say of each other is said of all of them or of none of their lists. -/
theorem forall_mem_iff_of_forall₂ {p : α → Prop} {q : β → Prop} (h : List.Forall₂ R l r)
    (hR : ∀ a b, R a b → (q b ↔ p a)) : (∀ b ∈ r, q b) ↔ ∀ a ∈ l, p a := by
  induction h with
  | nil => simp
  | cons hab _ ih => rw [List.forall_mem_cons, List.forall_mem_cons, hR _ _ hab, ih]

/-- **A list of results is a result for each entry**, in order. -/
theorem mapM_eq_ok_iff : l.mapM f = .ok r ↔ List.Forall₂ (fun a b => f a = .ok b) l r := by
  induction l generalizing r with
  | nil =>
    rw [List.mapM_nil, List.forall₂_nil_left_iff]
    exact ⟨fun h => (Except.ok.inj h).symm, fun h => h ▸ rfl⟩
  | cons a l ih =>
    rw [List.mapM_cons, bind_eq_ok_iff, List.forall₂_cons_left_iff]
    refine exists_congr fun b => ?_
    rw [bind_eq_ok_iff]
    constructor
    · rintro ⟨hb, bs, hbs, hr⟩
      exact ⟨bs, hb, ih.mp hbs, (Except.ok.inj hr).symm⟩
    · rintro ⟨bs, hb, hbs, rfl⟩
      exact ⟨hb, bs, ih.mpr hbs, rfl⟩

theorem mapM_congr {g : α → Except ε β} (h : ∀ a ∈ l, f a = g a) : l.mapM f = l.mapM g := by
  induction l with
  | nil => rfl
  | cons a l ih =>
    obtain ⟨ha, hl⟩ := List.forall_mem_cons.mp h
    rw [List.mapM_cons, List.mapM_cons, ha, ih hl]

theorem mem_of_mapM_eq_ok (h : l.mapM f = .ok r) {b : β} : b ∈ r ↔ ∃ a ∈ l, f a = .ok b := by
  replace h := mapM_eq_ok_iff.mp h
  induction h with
  | nil => simp
  | cons hab _ ih =>
    rw [List.mem_cons, List.exists_mem_cons_iff, hab]
    exact or_congr ⟨fun e => e ▸ rfl, fun e => (Except.ok.inj e).symm⟩ ih

theorem exists_of_mem_of_mapM_eq_ok (h : l.mapM f = .ok r) {a : α} (ha : a ∈ l) :
    ∃ b, f a = .ok b := by
  obtain ⟨b, _, hb⟩ := exists_of_mem_of_forall₂ (mapM_eq_ok_iff.mp h) ha
  exact ⟨b, hb⟩

theorem map_eq_of_mapM_eq_ok {γ : Type} {g : β → γ} {k : α → γ}
    (hf : ∀ a b, f a = .ok b → g b = k a) (h : l.mapM f = .ok r) : r.map g = l.map k := by
  replace h := mapM_eq_ok_iff.mp h
  induction h with
  | nil => rfl
  | cons hab _ ih => rw [List.map_cons, List.map_cons, hf _ _ hab, ih]

theorem exists_mapM_eq_ok (h : ∀ a ∈ l, ∃ b, f a = .ok b) : ∃ r, l.mapM f = .ok r := by
  induction l with
  | nil => exact ⟨[], rfl⟩
  | cons a l ih =>
    obtain ⟨b, hb⟩ := h a List.mem_cons_self
    obtain ⟨bs, hbs⟩ := ih fun a' ha' => h a' (List.mem_cons_of_mem _ ha')
    exact ⟨b :: bs, mapM_eq_ok_iff.mpr (.cons hb (mapM_eq_ok_iff.mp hbs))⟩

theorem mapM_map_eq_ok {γ : Type} {φ : γ → α} {ψ : γ → β} {l : List γ}
    (h : ∀ c ∈ l, f (φ c) = .ok (ψ c)) : (l.map φ).mapM f = .ok (l.map ψ) := by
  rw [mapM_eq_ok_iff, List.forall₂_map_left_iff, List.forall₂_map_right_iff, List.forall₂_same]
  exact h

theorem mapM_eq_filterMap {c : α → Option β}
    (h : ∀ a ∈ l, ∃ b, f a = .ok b ∧ c a = some b) : l.mapM f = .ok (l.filterMap c) := by
  induction l with
  | nil => rfl
  | cons a l ih =>
    obtain ⟨⟨b, hf, hc⟩, hl⟩ := List.forall_mem_cons.mp h
    rw [List.mapM_cons, hf, ok_bind, ih hl, List.filterMap_cons_some hc]
    rfl

/-- **A list of results fails with the first entry that fails.** -/
theorem mapM_eq_error_iff {e : ε} : l.mapM f = .error e ↔
    ∃ before a after, l = before ++ a :: after ∧ (∀ x ∈ before, ∃ b, f x = .ok b) ∧
      f a = .error e := by
  induction l with
  | nil =>
    constructor
    · intro h
      cases h
    · rintro ⟨before, a, after, h, _⟩
      exact absurd h.symm (List.append_ne_nil_of_right_ne_nil before (List.cons_ne_nil a after))
  | cons x l ih =>
    rw [List.mapM_cons, bind_eq_error_iff]
    constructor
    · rintro (hx | ⟨b, hb, h⟩)
      · exact ⟨[], x, l, rfl, fun _ hy => absurd hy List.not_mem_nil, hx⟩
      · rcases bind_eq_error_iff.mp h with h | ⟨_, _, h⟩
        · obtain ⟨before, a, after, rfl, hbefore, ha⟩ := ih.mp h
          exact ⟨x :: before, a, after, rfl, List.forall_mem_cons.mpr ⟨⟨b, hb⟩, hbefore⟩, ha⟩
        · cases h
    · rintro ⟨before, a, after, h, hbefore, ha⟩
      cases before with
      | nil =>
        cases h
        exact Or.inl ha
      | cons y before =>
        cases h
        obtain ⟨⟨b, hb⟩, hbefore⟩ := List.forall_mem_cons.mp hbefore
        exact Or.inr ⟨b, hb, bind_eq_error_iff.mpr
          (Or.inl (ih.mpr ⟨before, a, after, rfl, hbefore, ha⟩))⟩

theorem exists_of_mapM_eq_error {e : ε} (h : l.mapM f = .error e) : ∃ a ∈ l, f a = .error e := by
  obtain ⟨before, a, after, rfl, _, ha⟩ := mapM_eq_error_iff.mp h
  exact ⟨a, List.mem_append_right _ List.mem_cons_self, ha⟩

/-- Steps that succeed wherever `I` holds, and keep it, are steps that cannot fail, seen through
    `φ`. -/
theorem foldlM_eq_ok {σ τ : Type} {f : τ → α → Except ε τ} {g : σ → α → σ} (φ : σ → τ)
    (I : σ → Prop)
    (h : ∀ a ∈ l, ∀ t, I t → f (φ t) a = .ok (φ (g t a)) ∧ I (g t a)) {t : σ} (ht : I t) :
    l.foldlM f (φ t) = .ok (φ (l.foldl g t)) ∧ I (l.foldl g t) := by
  induction l generalizing t with
  | nil => exact ⟨rfl, ht⟩
  | cons a l ih =>
    obtain ⟨ha, hl⟩ := List.forall_mem_cons.mp h
    obtain ⟨hstep, hkept⟩ := ha t ht
    rw [List.foldlM_cons, hstep, ok_bind, List.foldl_cons]
    exact ih hl hkept

end Isolation
