/-!
# Registers: values filed under names, in ascending order

A register keeps its values in a list that is strictly ascending in their names, so that a name
occurs at most once, listing is deterministic, and **two registers with the same values are equal**
(`Register.ext_mem`): no order of insertion is left in it. Names are compared by code points.

Sets of names (`NameSet`) and maps from names (`NameMap`) are the two registers the library uses
besides the modules of a graph.
-/

namespace Isolation

/-- Values in strictly ascending order of their names. -/
structure Register {α : Type} (name : α → String) where
  /-- The values, in ascending order. -/
  toList : List α
  ascending : toList.Pairwise fun a b => name a < name b

namespace Register

variable {α : Type} {name : α → String}

instance : Inhabited (Register name) := ⟨⟨[], .nil⟩⟩

instance [DecidableEq α] : DecidableEq (Register name) := fun a b =>
  if h : a.toList = b.toList then
    isTrue (by cases a; cases b; simp_all)
  else isFalse (fun e => h (e ▸ rfl))

instance [Repr α] : Repr (Register name) := ⟨fun r n => reprPrec r.toList n⟩

instance : Membership α (Register name) := ⟨fun r a => a ∈ r.toList⟩

theorem mem_def {a : α} {r : Register name} : a ∈ r ↔ a ∈ r.toList := Iff.rfl

instance [DecidableEq α] (a : α) (r : Register name) : Decidable (a ∈ r) :=
  inferInstanceAs (Decidable (a ∈ r.toList))

/-! ## 1. Filing a value -/

/-- The value at its place in an ascending list, in place of the value of the same name. -/
def insertInto (name : α → String) (a : α) : List α → List α
  | [] => [a]
  | b :: r =>
    if name a < name b then a :: b :: r
    else if name a = name b then a :: r
    else b :: insertInto name a r

theorem mem_of_mem_insertInto {a x : α} {l : List α} (h : x ∈ insertInto name a l) :
    x = a ∨ x ∈ l := by
  induction l with
  | nil => simp_all [insertInto]
  | cons b r ih =>
    rw [insertInto] at h
    split at h
    · simpa using h
    · split at h
      · rcases List.mem_cons.mp h with h | h
        · exact Or.inl h
        · exact Or.inr (List.mem_cons_of_mem _ h)
      · rcases List.mem_cons.mp h with h | h
        · exact Or.inr (h ▸ List.mem_cons_self)
        · rcases ih h with h | h
          · exact Or.inl h
          · exact Or.inr (List.mem_cons_of_mem _ h)

theorem lt_or_eq_or_gt (s t : String) : s < t ∨ s = t ∨ t < s := by
  by_cases h : s < t
  · exact Or.inl h
  · by_cases h' : t < s
    · exact Or.inr (Or.inr h')
    · exact Or.inr (Or.inl (String.le_antisymm (String.not_lt.mp h') (String.not_lt.mp h)))

theorem mem_insertInto {a x : α} {l : List α} (hl : l.Pairwise fun a b => name a < name b) :
    x ∈ insertInto name a l ↔ x = a ∨ (x ∈ l ∧ name x ≠ name a) := by
  induction l with
  | nil => simp [insertInto]
  | cons b r ih =>
    rw [List.pairwise_cons] at hl
    rw [insertInto]
    split
    · rename_i hab
      constructor
      · intro h
        rcases List.mem_cons.mp h with h | h
        · exact Or.inl h
        · refine Or.inr ⟨h, fun e => ?_⟩
          rcases List.mem_cons.mp h with rfl | h
          · exact String.lt_irrefl _ (e ▸ hab)
          · exact String.lt_irrefl _ (String.lt_trans (e ▸ hab) (hl.1 x h))
      · rintro (h | h)
        · exact h ▸ List.mem_cons_self
        · exact List.mem_cons_of_mem _ h.1
    · split
      · rename_i hab hne
        constructor
        · intro h
          rcases List.mem_cons.mp h with h | h
          · exact Or.inl h
          · refine Or.inr ⟨List.mem_cons_of_mem _ h, fun e => ?_⟩
            exact String.lt_irrefl _ (hne ▸ e ▸ hl.1 x h)
        · rintro (h | ⟨h, e⟩)
          · exact h ▸ List.mem_cons_self
          · rcases List.mem_cons.mp h with rfl | h
            · exact absurd hne.symm e
            · exact List.mem_cons_of_mem _ h
      · rename_i hab hne
        rw [List.mem_cons, ih hl.2, List.mem_cons]
        constructor
        · rintro (h | h | ⟨h, e⟩)
          · exact Or.inr ⟨Or.inl h, fun e => hne (h ▸ e.symm)⟩
          · exact Or.inl h
          · exact Or.inr ⟨Or.inr h, e⟩
        · rintro (h | ⟨h | h, e⟩)
          · exact Or.inr (Or.inl h)
          · exact Or.inl h
          · exact Or.inr (Or.inr ⟨h, e⟩)

theorem pairwise_insertInto {a : α} {l : List α} (hl : l.Pairwise fun a b => name a < name b) :
    (insertInto name a l).Pairwise fun a b => name a < name b := by
  induction l with
  | nil => simp [insertInto]
  | cons b r ih =>
    rw [List.pairwise_cons] at hl
    rw [insertInto]
    split
    · rename_i hab
      refine List.pairwise_cons.mpr ⟨fun x hx => ?_, List.pairwise_cons.mpr hl⟩
      rcases List.mem_cons.mp hx with rfl | hx
      · exact hab
      · exact String.lt_trans hab (hl.1 x hx)
    · split
      · rename_i hab hne
        exact List.pairwise_cons.mpr ⟨fun x hx => hne ▸ hl.1 x hx, hl.2⟩
      · rename_i hab hne
        refine List.pairwise_cons.mpr ⟨fun x hx => ?_, ih hl.2⟩
        rcases mem_of_mem_insertInto hx with rfl | hx
        · rcases lt_or_eq_or_gt (name x) (name b) with h | h | h
          · exact absurd h hab
          · exact absurd h hne
          · exact h
        · exact hl.1 x hx

/-- The register with nothing in it. -/
def empty : Register name := ⟨[], .nil⟩

/-- File a value; a value of the same name makes way for it. -/
def insert (r : Register name) (a : α) : Register name :=
  ⟨insertInto name a r.toList, pairwise_insertInto r.ascending⟩

/-- File the values of a list one after another; of two with the same name the later stays. -/
def ofList (l : List α) : Register name := l.foldl insert empty

theorem mem_insert {r : Register name} {a x : α} :
    x ∈ r.insert a ↔ x = a ∨ (x ∈ r ∧ name x ≠ name a) := mem_insertInto r.ascending

/-- Nothing but the values of a list gets into its register. -/
theorem mem_of_mem_ofList {l : List α} {a : α}
    (h : a ∈ (ofList l : Register name)) : a ∈ l := by
  have key : ∀ (l : List α) (r : Register name), a ∈ l.foldl insert r → a ∈ l ∨ a ∈ r := by
    intro l
    induction l with
    | nil => simp
    | cons b l ih =>
      intro r h
      rcases ih _ h with h | h
      · exact Or.inl (List.mem_cons_of_mem _ h)
      · rcases mem_insert.mp h with rfl | h
        · exact Or.inl List.mem_cons_self
        · exact Or.inr h.1
  rcases key l empty h with h | h
  · exact h
  · cases h

/-- A list that names no name twice gets into a register as a whole. -/
theorem mem_ofList_of_nodup {l : List α} (hl : (l.map name).Nodup) {a : α} :
    a ∈ (ofList l : Register name) ↔ a ∈ l := by
  have key : ∀ (l : List α) (r : Register name), (l.map name).Nodup →
      (a ∈ l.foldl insert r ↔ a ∈ l ∨ (a ∈ r ∧ name a ∉ l.map name)) := by
    intro l
    induction l with
    | nil => simp
    | cons b l ih =>
      intro r hl
      obtain ⟨hb, hl⟩ := List.nodup_cons.mp hl
      rw [List.foldl_cons, ih _ hl, mem_insert, List.mem_cons, List.map_cons, List.mem_cons, not_or]
      constructor
      · rintro (h | ⟨rfl | ⟨h, hne⟩, hn⟩)
        · exact Or.inl (Or.inr h)
        · exact Or.inl (Or.inl rfl)
        · exact Or.inr ⟨h, hne, hn⟩
      · rintro ((rfl | h) | ⟨h, hne, hn⟩)
        · exact Or.inr ⟨Or.inl rfl, hb⟩
        · exact Or.inl h
        · exact Or.inr ⟨Or.inr ⟨h, hne⟩, hn⟩
  rw [ofList, key l empty hl]
  exact or_iff_left fun h => nomatch h.1

/-- The values before a value are those with the lower names. -/
theorem mem_before_iff {r : Register name} {before after : List α} {a b : α}
    (h : r.toList = before ++ a :: after) : b ∈ before ↔ b ∈ r ∧ name b < name a := by
  have hr := r.ascending
  rw [h, List.pairwise_append, List.pairwise_cons] at hr
  obtain ⟨_, ⟨ha, _⟩, hb⟩ := hr
  rw [mem_def, h, List.mem_append, List.mem_cons]
  constructor
  · exact fun hm => ⟨Or.inl hm, hb b hm a List.mem_cons_self⟩
  · rintro ⟨hm | rfl | hm, hlt⟩
    · exact hm
    · exact absurd hlt (String.lt_irrefl _)
    · exact absurd hlt (String.lt_asymm (ha b hm))

/-! ## 2. Finding, counting, keeping -/

/-- The value of a name. -/
def find? (r : Register name) (n : String) : Option α := r.toList.find? fun a => name a == n

/-- Whether a name is taken. -/
def has (r : Register name) (n : String) : Bool := (r.find? n).isSome

/-- The number of values. -/
def size (r : Register name) : Nat := r.toList.length

/-- Whether nothing is filed. -/
def isEmpty (r : Register name) : Bool := r.toList.isEmpty

/-- The names, in ascending order. -/
def names (r : Register name) : List String := r.toList.map name

/-- The values that pass a test. -/
def filter (r : Register name) (p : α → Bool) : Register name :=
  ⟨r.toList.filter p, r.ascending.filter p⟩

theorem mem_filter {r : Register name} {p : α → Bool} {a : α} :
    a ∈ r.filter p ↔ a ∈ r ∧ p a = true := List.mem_filter

theorem eq_of_name_eq {r : Register name} {a b : α} (ha : a ∈ r) (hb : b ∈ r)
    (h : name a = name b) : a = b := by
  obtain ⟨l, hl⟩ := r
  induction l with
  | nil => cases ha
  | cons c l ih =>
    rw [List.pairwise_cons] at hl
    rcases List.mem_cons.mp ha with rfl | ha' <;> rcases List.mem_cons.mp hb with rfl | hb'
    · rfl
    · exact absurd (h ▸ hl.1 b hb') (String.lt_irrefl _)
    · exact absurd (h ▸ hl.1 a ha') (String.lt_irrefl _)
    · exact ih hl.2 ha' hb'

/-- **A look-up finds the one value of that name.** -/
theorem find?_eq_some_iff {r : Register name} {n : String} {a : α} :
    r.find? n = some a ↔ a ∈ r ∧ name a = n := by
  constructor
  · intro h
    exact ⟨List.mem_of_find?_eq_some h, by simpa using List.find?_some h⟩
  · rintro ⟨h, rfl⟩
    cases hf : r.find? (name a) with
    | none => exact absurd (BEq.rfl : (name a == name a) = true) (List.find?_eq_none.mp hf a h)
    | some b =>
      have hb : b ∈ r ∧ name b = name a :=
        ⟨List.mem_of_find?_eq_some hf, by simpa using List.find?_some hf⟩
      rw [eq_of_name_eq hb.1 h hb.2]

theorem find?_eq_none_iff {r : Register name} {n : String} :
    r.find? n = none ↔ ∀ a ∈ r, name a ≠ n := by
  simp [find?, mem_def]

theorem find?_insert (r : Register name) (a : α) (n : String) :
    (r.insert a).find? n = if name a = n then some a else r.find? n := by
  split
  · rename_i h
    exact find?_eq_some_iff.mpr ⟨mem_insert.mpr (Or.inl rfl), h⟩
  · rename_i h
    cases hf : r.find? n with
    | none =>
      rw [find?_eq_none_iff] at hf ⊢
      intro b hb
      rcases mem_insert.mp hb with rfl | ⟨hb, _⟩
      · exact h
      · exact hf b hb
    | some b =>
      rw [find?_eq_some_iff] at hf ⊢
      exact ⟨mem_insert.mpr (Or.inr ⟨hf.1, fun e => h (e.symm.trans hf.2)⟩), hf.2⟩

theorem has_iff {r : Register name} {n : String} : r.has n = true ↔ ∃ a ∈ r, name a = n := by
  simp [has, find?, mem_def]

theorem nodup_toList (r : Register name) : r.toList.Nodup :=
  r.ascending.imp fun {a b} hab => by
    rintro rfl
    exact String.lt_irrefl _ hab

theorem nodup_names (r : Register name) : r.names.Nodup := by
  rw [names, List.nodup_iff_pairwise_ne, List.pairwise_map]
  refine r.ascending.imp fun {a b} hab e => ?_
  rw [e] at hab
  exact String.lt_irrefl _ hab

/-! ## 3. Equality -/

/-- An ascending list is determined by its members. -/
theorem eq_of_ascending {l l' : List α} (h : l.Pairwise fun a b => name a < name b)
    (h' : l'.Pairwise fun a b => name a < name b) (hm : ∀ a, a ∈ l ↔ a ∈ l') : l = l' := by
  induction l generalizing l' with
  | nil =>
    cases l' with
    | nil => rfl
    | cons b r => exact absurd ((hm b).mpr List.mem_cons_self) (by simp)
  | cons a l ih =>
    cases l' with
    | nil => exact absurd ((hm a).mp List.mem_cons_self) (by simp)
    | cons b r =>
      rw [List.pairwise_cons] at h h'
      have hab : a = b := by
        rcases List.mem_cons.mp ((hm a).mp List.mem_cons_self) with e | ha
        · exact e
        · rcases List.mem_cons.mp ((hm b).mpr List.mem_cons_self) with e | hb
          · exact e.symm
          · exact absurd (h.1 b hb) (String.lt_asymm (h'.1 a ha))
      subst hab
      congr 1
      refine ih h.2 h'.2 fun x => ?_
      constructor
      · intro hx
        rcases List.mem_cons.mp ((hm x).mp (List.mem_cons_of_mem _ hx)) with rfl | hx'
        · exact absurd (h.1 x hx) (String.lt_irrefl _)
        · exact hx'
      · intro hx
        rcases List.mem_cons.mp ((hm x).mpr (List.mem_cons_of_mem _ hx)) with rfl | hx'
        · exact absurd (h'.1 x hx) (String.lt_irrefl _)
        · exact hx'

/-- **Two registers with the same values are equal.** -/
theorem ext_mem {r s : Register name} (h : ∀ a, a ∈ r ↔ a ∈ s) : r = s := by
  have := eq_of_ascending r.ascending s.ascending h
  cases r
  cases s
  simp_all

end Register

/-! ## 4. Sets of names -/

/-- A set of names. -/
abbrev NameSet := Register (id : String → String)

namespace NameSet

/-- The names of `s` that are not in `t`. -/
def diff (s t : NameSet) : NameSet := s.filter fun n => !t.has n

theorem has_iff_mem {s : NameSet} {n : String} : s.has n = true ↔ n ∈ s := by
  simp [Register.has_iff]

theorem mem_insert {s : NameSet} {a x : String} : x ∈ s.insert a ↔ x = a ∨ x ∈ s := by
  rw [Register.mem_insert]
  by_cases h : x = a <;> simp [h]

theorem mem_ofList {l : List String} {x : String} :
    x ∈ (Register.ofList l : NameSet) ↔ x ∈ l := by
  have key : ∀ (l : List String) (s : NameSet), x ∈ l.foldl Register.insert s ↔ x ∈ l ∨ x ∈ s := by
    intro l
    induction l with
    | nil => simp
    | cons a l ih =>
      intro s
      rw [List.foldl_cons, ih, mem_insert, List.mem_cons]
      constructor
      · rintro (h | h | h)
        · exact Or.inl (Or.inr h)
        · exact Or.inl (Or.inl h)
        · exact Or.inr h
      · rintro ((h | h) | h)
        · exact Or.inr (Or.inl h)
        · exact Or.inl h
        · exact Or.inr (Or.inr h)
  rw [Register.ofList, key]
  simp [Register.empty, Register.mem_def]

theorem mem_diff {s t : NameSet} {x : String} : x ∈ s.diff t ↔ x ∈ s ∧ x ∉ t := by
  rw [diff, Register.mem_filter, Bool.not_eq_true', ← Bool.not_eq_true, has_iff_mem]

end NameSet

/-! ## 5. Maps from names -/

/-- A map from names to values. -/
abbrev NameMap (β : Type) := Register (Prod.fst : String × β → String)

namespace NameMap

variable {β : Type}

/-- The value of a name. -/
def get? (m : NameMap β) (n : String) : Option β := (m.find? n).map Prod.snd

/-- Give a name a value. -/
def put (m : NameMap β) (n : String) (b : β) : NameMap β := Register.insert m (n, b)

/-- Give a name a value unless it has one. -/
def putNew (m : NameMap β) (n : String) (b : β) : NameMap β := if m.has n then m else m.put n b

theorem get?_empty (n : String) : get? (Register.empty : NameMap β) n = none := rfl

theorem get?_put (m : NameMap β) (k n : String) (b : β) :
    (m.put k b).get? n = if k = n then some b else m.get? n := by
  rw [get?, put, Register.find?_insert]
  split <;> rfl

theorem has_eq (m : NameMap β) (n : String) : m.has n = (m.get? n).isSome := by
  simp [get?, Register.has]

theorem get?_putNew (m : NameMap β) (k n : String) (b : β) :
    (m.putNew k b).get? n = if k = n then some ((m.get? k).getD b) else m.get? n := by
  rw [putNew, has_eq]
  cases h : m.get? k with
  | none =>
    rw [Option.isSome_none, if_neg (by simp), get?_put]
    rfl
  | some c =>
    rw [Option.isSome_some, if_pos rfl]
    split
    · rename_i e
      rw [← e, h]
      rfl
    · rfl

theorem mem_names_iff {m : NameMap β} {n : String} : n ∈ m.names ↔ ∃ b, m.get? n = some b := by
  simp only [Register.names, List.mem_map, ← Register.mem_def, get?, Option.map_eq_some_iff,
    Register.find?_eq_some_iff]
  constructor
  · rintro ⟨p, hp, rfl⟩
    exact ⟨p.2, p, ⟨hp, rfl⟩, rfl⟩
  · rintro ⟨b, p, ⟨hp, hn⟩, _⟩
    exact ⟨p, hp, hn⟩

/-- **A map answers a name with the value filed under it.** -/
theorem get?_eq_some_iff {m : NameMap β} {n : String} {b : β} :
    m.get? n = some b ↔ (n, b) ∈ m := by
  rw [get?, Option.map_eq_some_iff]
  constructor
  · rintro ⟨p, hp, rfl⟩
    obtain ⟨hm, hn⟩ := Register.find?_eq_some_iff.mp hp
    rw [← hn]
    exact hm
  · intro hm
    exact ⟨(n, b), Register.find?_eq_some_iff.mpr ⟨hm, rfl⟩, rfl⟩

/-- A list that names no name twice is answered from as a whole. -/
theorem get?_ofList_eq_some_iff {l : List (String × β)} (h : (l.map Prod.fst).Nodup) {n : String}
    {b : β} : get? (Register.ofList l) n = some b ↔ (n, b) ∈ l := by
  rw [get?_eq_some_iff, Register.mem_ofList_of_nodup h]

/-- **Two maps that answer every name alike are equal.** -/
theorem ext_get? {m m' : NameMap β} (h : ∀ n, m.get? n = m'.get? n) : m = m' := by
  refine Register.ext_mem fun p => ?_
  rw [← get?_eq_some_iff, ← get?_eq_some_iff, h]

end NameMap

end Isolation
