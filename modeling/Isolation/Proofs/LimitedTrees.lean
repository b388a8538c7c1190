import Isolation.Proofs.WholeTrees

/-!
# What a limited tree shows

With a limit, a value that is first met deep down is expanded there, and may lose its lower levels
to the limit. A repetition of it that lies nearer the root still has nothing beneath it, so what was
lost above is not made up for. This file says that a limited outline lacks nothing else:

* `Unrolls.leads` -- every line is as many levels below the root as some path to its value has
  steps, and lies within the limit;
* `Entry.DefersDeeper` -- the line is a repetition, and was expanded deeper than it lies itself;
* **`exists_line_of_leads`** -- what a line leads to within the limit is listed, or on the way to it
  is a line that defers to a deeper one, from which it is too far;
* **`limited_tree_shows_what_is_near`** -- both for the tree of a module. Where no line defers to a
  deeper one, the tree shows exactly what is within the limit.
-/

namespace Isolation

/-- The line is a repetition of the line `v` above it, which was expanded, but further away from the
    root. -/
structure Entry.DefersDeeper {α : Type} (limit : Option Nat) (before : List (Entry α))
    (u v : Entry α) : Prop where
  repeated : u.repeated = true
  above : v ∈ before
  expanded : v.Expanded limit
  value_eq : v.value = u.value
  deeper : u.depth < v.depth

namespace Branching

variable {α : Type} {b : Branching α} {limit : Option Nat} {lasts : List Bool} {root target : α}
variable {cs : List (α × Bool)} {e e' : List α} {es : List (Entry α)} {n : Nat}

/-! ## 1. Lines lie within the limit -/

/-- **Every line lies as far below its siblings as some path from one of them is long**, and no
    further than the limit allows. -/
theorem Unrolls.leads (h : Unrolls b (some n) lasts cs e es e') (hn : lasts.length + 1 ≤ n) :
    ∀ x ∈ es, x.depth ≤ n ∧
      ∃ c ∈ cs, ∃ p, b.Leads x.value c.1 p ∧ lasts.length + p.length = x.depth := by
  induction h with
  | nil => exact fun _ hx => absurd hx List.not_mem_nil
  | @again lasts a last cs _ _ _ _ _ _ ih | @cut lasts a last cs _ _ _ _ _ _ ih =>
    rw [List.forall_mem_cons, Entry.depth_concat]
    refine ⟨⟨hn, (a, last), List.mem_cons_self, [a], .here, rfl⟩, fun x hx => ?_⟩
    obtain ⟨hle, c, hc, hpath⟩ := ih hn x hx
    exact ⟨hle, c, List.mem_cons_of_mem _ hc, hpath⟩
  | @expand lasts a last cs _ _ _ _ _ _ hopen _ _ ihsub ih =>
    have hlt : lasts.length + 1 < n := Nat.not_le.mp (of_decide_eq_false hopen)
    rw [List.forall_mem_cons, Entry.depth_concat, List.forall_mem_append]
    refine ⟨⟨hn, (a, last), List.mem_cons_self, [a], .here, rfl⟩, fun x hx => ?_, fun x hx => ?_⟩
    · rw [List.length_append, List.length_singleton] at ihsub
      obtain ⟨hle, c, hc, p, hp, hlength⟩ := ihsub hlt x hx
      refine ⟨hle, (a, last), List.mem_cons_self, a :: p, ?_, ?_⟩
      · exact .further (mem_of_mem_markLast hc) hp
      · rw [List.length_cons]
        omega
    · obtain ⟨hle, c, hc, hpath⟩ := ih hn x hx
      exact ⟨hle, c, List.mem_cons_of_mem _ hc, hpath⟩

variable [DecidableEq α]

/-- **Every line of an outline is as many levels below the root as some path to its value has
    steps**, and no more than the limit allows. -/
theorem leads_of_mem_outline (hn : 1 ≤ n) {x : Entry α} (hx : x ∈ b.outline (some n) root) :
    x.depth ≤ n ∧ ∃ p, b.Leads x.value root p ∧ p.length = x.depth + 1 := by
  obtain ⟨es, e, houtline, hunrolls⟩ := exists_unrolls_outline b (some n) root
  rw [houtline] at hx
  rcases List.mem_cons.mp hx with rfl | hx
  · exact ⟨Nat.zero_le n, [root], .here, rfl⟩
  · obtain ⟨hle, c, hc, p, hp, hlength⟩ := hunrolls.leads hn x hx
    refine ⟨hle, root :: p, .further (mem_of_mem_markLast hc) hp, ?_⟩
    rw [List.length_cons, ← hlength, List.length_nil, Nat.zero_add]

/-! ## 2. What the limit hides -/

omit [DecidableEq α] in
/-- Each of the siblings has a line one level deeper. -/
theorem Unrolls.exists_line {a : α} {cs : List α} (h : Unrolls b limit lasts (markLast cs) e es e')
    (ha : a ∈ cs) : ∃ y ∈ es, y.value = a ∧ y.depth = lasts.length + 1 := by
  rw [← (places_of_map h.map_direct).1] at ha
  obtain ⟨y, hy, rfl⟩ := List.mem_map.mp ha
  rw [List.mem_filter, decide_eq_true_iff] at hy
  exact ⟨y, hy.1, rfl, hy.2⟩

/-- The children of an expanded line have lines one level deeper. -/
theorem exists_line_of_child {x : Entry α} {c : α} (hopen : atLimit limit 0 = false)
    (hx : x ∈ b.outline limit root) (hexpanded : x.Expanded limit) (hc : c ∈ b.children x.value) :
    ∃ y ∈ b.outline limit root, y.value = c ∧ y.depth = x.depth + 1 := by
  obtain ⟨before, after, hsplit⟩ := List.append_of_mem hx
  obtain ⟨_, sub, rest, rfl, _, _, hstands⟩ := exists_stands_of_outline hopen hsplit
  cases hstands with
  | again hrepeated _ _ => rw [hexpanded.1] at hrepeated; cases hrepeated
  | cut _ _ hcut => rw [hexpanded.2] at hcut; cases hcut
  | expanded _ _ hsub =>
    obtain ⟨y, hy, hline⟩ := hsub.exists_line hc
    have hbeneath : y ∈ x :: (sub ++ rest) := List.mem_cons_of_mem _ (List.mem_append_left _ hy)
    exact ⟨y, hsplit ▸ List.mem_append_right _ hbeneath, hline⟩

/-- A repetition has an expanded line of its value above it. -/
theorem exists_expanded_of_repeated {before after : List (Entry α)} {u : Entry α}
    (hopen : atLimit limit 0 = false) (h : b.outline limit root = before ++ u :: after)
    (hu : u.repeated = true) : ∃ v ∈ before, v.value = u.value ∧ v.Expanded limit := by
  obtain ⟨noted, _, _, _, _, hnotes, hstands⟩ := exists_stands_of_outline hopen h
  cases hstands with
  | again _ _ hnoted => exact ((hnotes u.value).mp hnoted).resolve_left List.not_mem_nil
  | cut hfalse _ _ => rw [hfalse] at hu; cases hu
  | expanded hexpanded _ _ => rw [hexpanded.1] at hu; cases hu

/-- **What a line leads to within the limit is listed, or it is hidden** behind a line that defers
    to a deeper one, from which it is too far. By induction on the path: a line that is expanded has
    the next value beneath it, and so has the line that a repetition defers to. -/
theorem exists_line_of_leads {a : α} {p : List α} (hn : 1 ≤ n) (h : b.Leads target a p)
    {x : Entry α} (hx : x ∈ b.outline (some n) root) (ha : x.value = a)
    (hnear : x.depth + p.length ≤ n + 1) :
    (∃ y ∈ b.outline (some n) root, y.value = target) ∨
      ∃ before u after v q, b.outline (some n) root = before ++ u :: after ∧
        u.DefersDeeper (some n) before v ∧ b.Leads target u.value q ∧
        u.depth + q.length ≤ n + 1 ∧ n + 1 < v.depth + q.length := by
  induction h generalizing x with
  | here => exact Or.inl ⟨x, hx, ha⟩
  | @further a c p hc hp ih =>
    subst ha
    rw [List.length_cons] at hnear
    have hroot : atLimit (some n) 0 = false := decide_eq_false (Nat.not_le.mpr hn)
    obtain ⟨before, after, hsplit⟩ := List.append_of_mem hx
    -- the line itself, or the one it defers to
    obtain ⟨v, hv, hvalue, hexpanded, hself⟩ : ∃ v ∈ b.outline (some n) root,
        v.value = x.value ∧ v.Expanded (some n) ∧ (v = x ∨ x.repeated = true ∧ v ∈ before) := by
      by_cases hrepeated : x.repeated = true
      · obtain ⟨v, hv, hvalue, hexpanded⟩ := exists_expanded_of_repeated hroot hsplit hrepeated
        exact ⟨v, hsplit ▸ List.mem_append_left _ hv, hvalue, hexpanded, Or.inr ⟨hrepeated, hv⟩⟩
      · have hlength : 1 ≤ p.length := by
          obtain ⟨r, rfl⟩ := hp.exists_cons
          exact Nat.le_add_left 1 _
        have hopen : atLimit (some n) x.depth = false := decide_eq_false (by omega)
        exact ⟨x, hx, rfl, ⟨Bool.eq_false_iff.mpr hrepeated, hopen⟩, Or.inl rfl⟩
    by_cases hle : v.depth + (p.length + 1) ≤ n + 1
    · obtain ⟨y, hy, hyc, hdepth⟩ := exists_line_of_child hroot hv hexpanded (hvalue ▸ hc)
      exact ih hy hyc (by omega)
    · rcases hself with rfl | ⟨hrepeated, hv⟩
      · exact absurd hnear hle
      · refine Or.inr ⟨before, x, after, v, _, hsplit, ?_, .further hc hp, hnear, ?_⟩
        · exact ⟨hrepeated, hv, hexpanded, hvalue, by omega⟩
        · rw [List.length_cons]
          omega

end Branching

/-! ## 3. Modules -/

namespace Graph

/-- **A limited tree shows what is near, as far as nothing defers to a deeper line.** Of the tree of
    a module to a depth of at least one, in a graph that was built from a list: each line shows what
    as many declared dependencies as its depth lead to, and no line is deeper than the limit.
    Conversely, a module within the limit is shown, or it is hidden: on a way to it is a repetition
    near enough, of a module that was expanded further away from the root, from where it is too far.
    So where no line defers to a deeper one, exactly the modules within the limit are shown, and
    nothing that a smaller limit shows is lost. -/
theorem limited_tree_shows_what_is_near {ms : List Module} {g : Graph} (hg : build ms = .ok g)
    {m : Module} (hm : m ∈ ms) {n : Nat} (hn : 1 ≤ n) :
    g.tree m.id (some n) =
      .ok (String.join ((g.downward.outline (some n) m.id).map (Entry.text g.label))) ∧
    (∀ x ∈ g.downward.outline (some n) m.id,
      x.depth ≤ n ∧ ∃ ids, DependencyPath ms m.id x.value ids ∧ ids.length = x.depth + 1) ∧
    (∀ target ids, DependencyPath ms m.id target ids → ids.length ≤ n + 1 →
      (∃ x ∈ g.downward.outline (some n) m.id, x.value = target) ∨
        ∃ before u after v rest, g.downward.outline (some n) m.id = before ++ u :: after ∧
          u.DefersDeeper (some n) before v ∧ DependencyPath ms u.value target rest ∧
          u.depth + rest.length ≤ n + 1 ∧ n + 1 < v.depth + rest.length) ∧
    ((∀ before u after v, g.downward.outline (some n) m.id = before ++ u :: after →
        ¬ u.DefersDeeper (some n) before v) →
      (∀ target, (∃ x ∈ g.downward.outline (some n) m.id, x.value = target) ↔
        ∃ ids, DependencyPath ms m.id target ids ∧ ids.length ≤ n + 1) ∧
      ∀ k, 1 ≤ k → k ≤ n → ∀ x ∈ g.downward.outline (some k) m.id,
        ∃ y ∈ g.downward.outline (some n) m.id, y.value = x.value) := by
  have hget : g.get? m.id = some m := (get?_eq_some_iff_of_build hg).mpr ⟨hm, rfl⟩
  have hwithin : ∀ k, 1 ≤ k → ∀ x ∈ g.downward.outline (some k) m.id, x.depth ≤ k ∧
      ∃ ids, DependencyPath ms m.id x.value ids ∧ ids.length = x.depth + 1 := by
    intro k hk x hx
    obtain ⟨hle, ids, hleads, hlength⟩ := Branching.leads_of_mem_outline hk hx
    exact ⟨hle, ids, (leads_iff_of_build hg).mp hleads, hlength⟩
  have hroot : ⟨m.id, [], false⟩ ∈ g.downward.outline (some n) m.id := by
    obtain ⟨es, _, houtline, _⟩ := Branching.exists_unrolls_outline g.downward (some n) m.id
    rw [houtline]
    exact List.mem_cons_self
  have hshown : ∀ target ids, DependencyPath ms m.id target ids → ids.length ≤ n + 1 →
      (∃ x ∈ g.downward.outline (some n) m.id, x.value = target) ∨
        ∃ before u after v rest, g.downward.outline (some n) m.id = before ++ u :: after ∧
          u.DefersDeeper (some n) before v ∧ DependencyPath ms u.value target rest ∧
          u.depth + rest.length ≤ n + 1 ∧ n + 1 < v.depth + rest.length := by
    intro target ids hpath hlength
    have hleads := (leads_iff_of_build hg).mpr hpath
    refine (Branching.exists_line_of_leads hn hleads hroot rfl ?_).imp_right ?_
    · exact Nat.le_trans (Nat.le_of_eq (Nat.zero_add _)) hlength
    · rintro ⟨before, u, after, v, rest, hsplit, hdefers, hrest, hnear, hfar⟩
      have hpath := (leads_iff_of_build hg).mp hrest
      exact ⟨before, u, after, v, rest, hsplit, hdefers, hpath, hnear, hfar⟩
  refine ⟨tree_of_get? hget (some n), hwithin n hn, hshown, fun hnone => ?_⟩
  have hexact : ∀ target, (∃ x ∈ g.downward.outline (some n) m.id, x.value = target) ↔
      ∃ ids, DependencyPath ms m.id target ids ∧ ids.length ≤ n + 1 := by
    intro target
    constructor
    · rintro ⟨x, hx, rfl⟩
      obtain ⟨hle, ids, hpath, hlength⟩ := hwithin n hn x hx
      exact ⟨ids, hpath, hlength ▸ Nat.succ_le_succ hle⟩
    · rintro ⟨ids, hpath, hlength⟩
      refine (hshown target ids hpath hlength).resolve_right ?_
      rintro ⟨before, u, after, v, _, hsplit, hdefers, _⟩
      exact hnone before u after v hsplit hdefers
  refine ⟨hexact, fun k hk hkn x hx => ?_⟩
  obtain ⟨hle, ids, hpath, hlength⟩ := hwithin k hk x hx
  exact (hexact x.value).mpr ⟨ids, hpath, by omega⟩

/-- A repository where the longer way down meets `tail` first, and the shorter one meets it
    again. -/
def sharedTail : List Module := Declaration.modules
  [("top", { tier := some 5, dependencies := ["long", "tail"] }),
    ("long", { tier := some 4, dependencies := ["way"] }),
    ("way", { tier := some 3, dependencies := ["tail"] }),
    ("tail", { tier := some 2, dependencies := ["next"] }),
    ("next", { tier := some 1, dependencies := ["last"] }),
    ("last", { tier := some 0 })]

theorem path_to_last : DependencyPath sharedTail "top" "last" ["top", "tail", "next", "last"] :=
  ⟨rfl, rfl, by rw [List.isChain_cons_cons]; decide⟩

theorem last_not_shown {g : Graph} (hg : build sharedTail = .ok g) :
    ¬ ∃ x ∈ g.downward.outline (some 4) "top", x.value = "last" := by
  have hlast : (build sharedTail).toOption.map
      (fun g => (g.downward.outline (some 4) "top").any (·.value = "last")) = some false := by
    decide +kernel
  rw [hg] at hlast
  rintro ⟨x, hx, hvalue⟩
  exact List.any_eq_false.mp (Option.some.inj hlast) x hx (decide_eq_true hvalue)

/-- To a depth of three nothing is abbreviated, and exactly what is within three levels is shown. To
    a depth of four `tail` defers to its deeper line, from which `last` is too far. -/
theorem limited_tree_of_shared_tail : ∃ g, build sharedTail = .ok g ∧
    (∀ target, (∃ x ∈ g.downward.outline (some 3) "top", x.value = target) ↔
      ∃ ids, DependencyPath sharedTail "top" target ids ∧ ids.length ≤ 4) ∧
    ∃ before u after v rest, g.downward.outline (some 4) "top" = before ++ u :: after ∧
      u.DefersDeeper (some 4) before v ∧ DependencyPath sharedTail u.value "last" rest ∧
      u.depth + rest.length ≤ 5 ∧ 5 < v.depth + rest.length := by
  obtain ⟨g, hg⟩ : ∃ g, build sharedTail = .ok g :=
    build_eq_ok_iff.mpr ⟨by decide, by decide, by decide⟩
  obtain ⟨m, hm, hid⟩ : ∃ m ∈ sharedTail, m.id = "top" := by decide
  have hnone : (build sharedTail).toOption.map
      (fun g => (g.downward.outline (some 3) "top").any Entry.repeated) = some false := by
    decide +kernel
  rw [hg] at hnone
  obtain ⟨_, _, _, hexact⟩ := limited_tree_shows_what_is_near hg hm (by decide : 1 ≤ 3)
  obtain ⟨_, _, hshown, _⟩ := limited_tree_shows_what_is_near hg hm (by decide : 1 ≤ 4)
  rw [hid] at hexact hshown
  refine ⟨g, hg, (hexact fun before u after v hsplit hdefers => ?_).1,
    (hshown "last" _ path_to_last (by decide)).resolve_left (last_not_shown hg)⟩
  refine List.any_eq_false.mp (Option.some.inj hnone) u ?_ hdefers.repeated
  rw [hsplit]
  exact List.mem_append_right _ List.mem_cons_self

/-- `last` is three levels below `top`. It is shown to a depth of three, and not to a depth of
    four. -/
theorem deeper_tree_lacks_last : ∃ g, build sharedTail = .ok g ∧
    DependencyPath sharedTail "top" "last" ["top", "tail", "next", "last"] ∧
    g.tree "top" (some 3) = .ok ("top\n├── long\n│   └── way\n│       └── tail\n└── tail\n" ++
      "    └── next\n        └── last\n") ∧
    g.tree "top" (some 4) = .ok ("top\n├── long\n│   └── way\n│       └── tail\n" ++
      "│           └── next\n└── tail (*)\n") ∧
    ¬ ∃ x ∈ g.downward.outline (some 4) "top", x.value = "last" := by
  obtain ⟨g, hg⟩ : ∃ g, build sharedTail = .ok g :=
    build_eq_ok_iff.mpr ⟨by decide, by decide, by decide⟩
  have hthree : (build sharedTail).toOption.map (fun g => g.tree "top" (some 3)) =
      some (.ok ("top\n├── long\n│   └── way\n│       └── tail\n└── tail\n" ++
        "    └── next\n        └── last\n")) := by decide +kernel
  have hfour : (build sharedTail).toOption.map (fun g => g.tree "top" (some 4)) =
      some (.ok ("top\n├── long\n│   └── way\n│       └── tail\n" ++
        "│           └── next\n└── tail (*)\n")) := by decide +kernel
  rw [hg] at hthree hfour
  exact ⟨g, hg, path_to_last, Option.some.inj hthree, Option.some.inj hfour, last_not_shown hg⟩

end Graph

end Isolation
