import Isolation.Proofs.Closures
import Isolation.Proofs.Success

/-!
# What a bound finds, and how findings compare

A bound counts the members of a closure. This file fixes what a finding holds (`Finding.Counts`) and
derives from it how the findings of one graph compare, under different bounds and for different
roots. Each comparison is one of two sets of members:

* `Bound.counts_finding` -- a finding counts the members of the closure that begin with the
  namespace, and nothing else;
* `Finding.Counts.passed_mono` -- of two findings, the one that counts less and allows more passes
  if the other does;
* `Bound.LoosensTo.passed` -- so a bound with a larger maximum or a longer namespace lets everything
  pass that passed;
* `closure_subset_of_dependsOn` -- and what a root depends on pulls in less than the root;
* `Finding.Counts.eq_of_same` -- what is expected makes no difference to what is counted;
* **`check_counts_exactly`** -- all of this for every list of modules that is a graph.

NOT here: how a graph that grows changes its findings (`Isolation.Proofs.Growth`).
-/

namespace Isolation

/-! ## 1. What a finding holds -/

/-- A finding about a root with a given closure holds what a bound is to count. -/
structure Finding.Counts (f : Finding) (root : Identity) (b : Bound) (closure : NameSet) :
    Prop where
  root_eq : f.root = root
  bound_eq : f.bound = b.max
  /-- The members are those of the closure that begin with the namespace, where one is given. -/
  mem_members : ∀ x, x ∈ f.members ↔ x ∈ closure ∧ ∀ space ∈ b.space, space.toList <+: x.toList
  /-- They are as many as the finding says. -/
  actual_eq : f.actual = Set.encard {x | x ∈ f.members}
  passed_iff : f.passed = true ↔ f.actual ≤ b.max
  unexpected_none : b.expected = none → f.unexpected = none
  /-- The members that were not expected, where an expectation is given. -/
  unexpected_some : ∀ expected, b.expected = some expected →
    ∃ u, f.unexpected = some u ∧ ∀ x, x ∈ u ↔ x ∈ f.members ∧ x ∉ expected

/-- The bound `b'` allows no less than `b` and counts no more: its maximum is not smaller, and where
    `b` has a namespace it has that one or an extension of it. -/
structure Bound.LoosensTo (b b' : Bound) : Prop where
  max_le : b.max ≤ b'.max
  space : ∀ space ∈ b.space, ∃ space' ∈ b'.space, space.toList <+: space'.toList

section Findings

variable {f f' : Finding} {root root' x : Identity} {b b' : Bound} {c c' : NameSet}

/-- **A bound finds what it is to count.** -/
theorem Bound.counts_finding (b : Bound) (root : Identity) (c : NameSet) :
    (b.finding root c).Counts root b c where
  root_eq := rfl
  bound_eq := rfl
  mem_members x := by
    show x ∈ c.filter b.counts ↔ _
    rw [Register.mem_filter, Bound.counts_iff]
  actual_eq := (encard_register _).symm
  passed_iff := decide_eq_true_iff
  unexpected_none h := by
    show b.expected.map _ = none
    rw [h, Option.map_none]
  unexpected_some expected h := by
    refine ⟨(b.finding root c).members.diff expected, ?_, fun x => NameSet.mem_diff⟩
    show b.expected.map _ = _
    rw [h, Option.map_some]
    rfl

/-! ## 2. Findings that compare -/

/-- A finding that counts less, under a bound that allows more, passes if the other one does. -/
theorem Finding.Counts.passed_mono (h : f.Counts root b c) (h' : f'.Counts root' b' c')
    (hmem : ∀ x ∈ f'.members, x ∈ f.members) (hmax : b.max ≤ b'.max) (hp : f.passed = true) :
    f'.passed = true := by
  have hactual : f'.actual ≤ f.actual := Register.size_le_of_subset hmem
  have hle : f.actual ≤ b.max := h.passed_iff.mp hp
  exact h'.passed_iff.mpr (by omega)

/-- What begins with an extension of a namespace begins with the namespace. -/
theorem Bound.LoosensTo.mem_members (hb : b.LoosensTo b') (h : f.Counts root b c)
    (h' : f'.Counts root b' c) (hx : x ∈ f'.members) : x ∈ f.members := by
  obtain ⟨hx, hspace'⟩ := (h'.mem_members x).mp hx
  refine (h.mem_members x).mpr ⟨hx, fun space hs => ?_⟩
  obtain ⟨space', hs', hprefix⟩ := hb.space space hs
  exact hprefix.trans (hspace' space' hs')

/-- **A looser bound never fails what passed.** -/
theorem Bound.LoosensTo.passed (hb : b.LoosensTo b') (h : f.Counts root b c)
    (h' : f'.Counts root b' c) (hp : f.passed = true) : f'.passed = true :=
  h.passed_mono h' (fun _ hx => hb.mem_members h h' hx) hb.max_le hp

/-- Bounds that differ in nothing but what they expect count the same. -/
theorem Finding.Counts.eq_of_same (h : f.Counts root b c) (h' : f'.Counts root b' c)
    (hmax : b'.max = b.max) (hspace : b'.space = b.space) :
    f'.passed = f.passed ∧ f'.actual = f.actual ∧ f'.members = f.members := by
  have hmembers : f'.members = f.members := by
    refine Register.ext_mem fun x => ?_
    rw [h'.mem_members, h.mem_members, hspace]
  have hactual : f'.actual = f.actual := congrArg Register.size hmembers
  refine ⟨Bool.eq_iff_iff.mpr ?_, hactual, hmembers⟩
  rw [h'.passed_iff, h.passed_iff, hactual, hmax]

/-- The same bound passes where less is pulled in. -/
theorem Finding.Counts.passed_of_subset (h : f.Counts root b c) (h' : f'.Counts root' b c')
    (hsub : ∀ x ∈ c', x ∈ c) (hp : f.passed = true) : f'.passed = true := by
  refine h.passed_mono h' (fun x hx => ?_) (Nat.le_refl _) hp
  obtain ⟨hx, hspace⟩ := (h'.mem_members x).mp hx
  exact (h.mem_members x).mpr ⟨hsub x hx, hspace⟩

end Findings

/-! ## 3. Findings of a graph -/

section Graphs

variable {ms : List Module} {g : Graph} {root d : Identity} {c c' : NameSet}

/-- **What a root depends on pulls in less**: a chain from it goes on from the root. -/
theorem closure_subset_of_dependsOn (hg : Graph.build ms = .ok g) (hc : g.closure root = .ok c)
    (hc' : g.closure d = .ok c') (hd : DependsOn ms root d) : ∀ x ∈ c', x ∈ c := by
  intro x hx
  have hchain := (Graph.mem_closure_iff_transGen hg hc').mp hx
  exact (Graph.mem_closure_iff_transGen hg hc).mpr (.head hd hchain)

theorem exists_closure_of_dependsOn (hg : Graph.build ms = .ok g) (hd : DependsOn ms root d) :
    ∃ c', g.closure d = .ok c' := by
  obtain ⟨m, hm, _, hdep⟩ := hd
  exact Graph.exists_closure_of_dependency hg hm hdep

end Graphs

/-- **A bound counts exactly, and its verdict is monotone.** In a graph that was built from a list
    of modules, for every module and every bound, through whatever faithful memo: the check succeeds
    and its finding counts the members of the module's closure that begin with the namespace. Under
    every bound with a larger maximum or an extension of the namespace the module passes if it
    passed; whatever is expected, verdict, number and members are the same; and if the module
    passes, so does under the same bound everything that it depends on directly. -/
theorem check_counts_exactly {ms : List Module} {g : Graph} (hg : Graph.build ms = .ok g)
    {root : Identity} (hroot : root ∈ ms.map Module.id) (b : Bound) {memo : Memo}
    (hm : memo.Faithful g) :
    ∃ c f, g.closure root = .ok c ∧ ((b.check root).run g memo).1 = .ok f ∧ f.Counts root b c ∧
      ∀ memo' : Memo, memo'.Faithful g →
        (∀ b', b.LoosensTo b' → ∃ f', ((b'.check root).run g memo').1 = .ok f' ∧
          (f.passed = true → f'.passed = true)) ∧
        (∀ expected, ∃ f', ((Bound.check { b with expected } root).run g memo').1 = .ok f' ∧
          f'.passed = f.passed ∧ f'.actual = f.actual ∧ f'.members = f.members) ∧
        ∀ d, DependsOn ms root d → ∃ f', ((b.check d).run g memo').1 = .ok f' ∧
          (f.passed = true → f'.passed = true) := by
  obtain ⟨c, hc⟩ := (Graph.exists_closure_iff_of_build hg).mpr hroot
  have hcounts := b.counts_finding root c
  refine ⟨c, b.finding root c, hc, Bound.run_check hm hc, hcounts, fun memo' hm' => ⟨?_, ?_, ?_⟩⟩
  · intro b' hb
    exact ⟨b'.finding root c, Bound.run_check hm' hc, hb.passed hcounts (b'.counts_finding root c)⟩
  · intro expected
    refine ⟨_, Bound.run_check hm' hc, ?_⟩
    exact hcounts.eq_of_same (Bound.counts_finding _ root c) rfl rfl
  · intro d hd
    obtain ⟨c', hc'⟩ := exists_closure_of_dependsOn hg hd
    refine ⟨b.finding d c', Bound.run_check hm' hc', ?_⟩
    exact hcounts.passed_of_subset (b.counts_finding d c')
      (closure_subset_of_dependsOn hg hc hc' hd)

/-- The first service of the repository with two copies of a library imports one module and keeps a
    bound of one. It keeps a bound of two in the namespace of the libraries, whatever is expected,
    and the library that it imports keeps the bound of one as well. -/
theorem check_of_one_import : ∃ g f f' f'', Graph.build twoCopies = .ok g ∧
    ((Bound.check { max := 1 } "api").run g Memo.empty).1 = .ok f ∧
    ((Bound.check { max := 2, space := some "lib/", expected := some Register.empty } "api").run g
      Memo.empty).1 = .ok f' ∧
    ((Bound.check { max := 1 } "lib/old").run g Memo.empty).1 = .ok f'' ∧
    f.passed = true ∧ f'.passed = true ∧ f''.passed = true := by
  obtain ⟨g, hg⟩ := exists_build_twoCopies
  obtain ⟨_, f, _, hf, _, hlaws⟩ :=
    @check_counts_exactly twoCopies g hg "api" (by decide) { max := 1 } _ Memo.faithful_empty
  obtain ⟨hloose, _, hdependency⟩ := hlaws Memo.empty Memo.faithful_empty
  have hpassed : f.passed = true := by
    obtain ⟨c', hc', hle⟩ := (kept_iff_of_build hg).mpr kept_api
    rw [Bound.run_check Memo.faithful_empty hc'] at hf
    cases hf
    exact decide_eq_true hle
  obtain ⟨f', hf', hpassed'⟩ := hloose
    { max := 2, space := some "lib/", expected := some Register.empty }
    ⟨by decide, fun _ hspace => nomatch hspace⟩
  obtain ⟨f'', hf'', hpassed''⟩ := hdependency "lib/old" (by decide)
  exact ⟨g, f, f', f'', hg, hf, hf', hf'', hpassed, hpassed' hpassed, hpassed'' hpassed⟩

end Isolation
