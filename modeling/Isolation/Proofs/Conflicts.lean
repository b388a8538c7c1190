import Isolation.Proofs.Success
import Isolation.Proofs.VersionOrder

/-!
# The conflicts of a bundle are exact

`Isolation.Proofs.Ambiguity` says which keys are in conflict and who the candidates are. This file
adds the order in which they are listed, and says all of it in terms of the list of modules that the
graph was built from.

* `Candidate.Before` -- one candidate comes before another: by version, no version first, and where
  the versions are equal by identity; `Candidate.compare_eq_lt_iff` says that candidates are
  compared so, and `Candidate.before_of_isLE` that what is sorted by this comparison is in order;
* **`pairwise_before_of_mem`** -- the candidates of a conflict come one strictly before the other;
* `conflictsAmong_congr` -- the conflicts are those of the set of roots, whatever their order;
* **`conflicts_are_exact`** -- unknown members, keys, candidates, requesters and order together.
-/

namespace Isolation

/-! ## 1. The order of candidates -/

/-- `v` lies below `w`: having no version lies below having one, and versions lie as they
    compare. -/
inductive Version.Below : Option Version → Option Version → Prop where
  | absent (w : Version) : Below none (some w)
  | lower {v w : Version} (h : v.compare w = .lt) : Below (some v) (some w)

theorem Version.compare_option_eq_lt_iff {v w : Option Version} :
    Ord.compare v w = .lt ↔ Version.Below v w := by
  constructor
  · intro h
    cases v with
    | none =>
      cases w with
      | none => cases h
      | some w => exact .absent w
    | some v =>
      cases w with
      | none => cases h
      | some w => exact .lower h
  · rintro (w | h)
    · rfl
    · exact h

namespace Candidate

/-- The candidate `a` comes before `b`: its version lies below, or it has the same version and the
    lower identity. -/
def Before (a b : Candidate) : Prop :=
  Version.Below a.version b.version ∨ a.version = b.version ∧ a.module < b.module

theorem compare_eq_lt_iff {a b : Candidate} : compare a b = .lt ↔ a.Before b := by
  have hmodule : Ord.compare a.module b.module = .lt ↔ a.module < b.module :=
    compareOfLessAndEq_eq_lt
  unfold compare Before
  rw [compareLex, Ordering.then_eq_lt]
  unfold compareOn
  rw [Version.compare_option_eq_lt_iff, Std.LawfulEqOrd.compare_eq_iff_eq, hmodule]

theorem compare_eq_eq_iff {a b : Candidate} :
    compare a b = .eq ↔ a.version = b.version ∧ a.module = b.module := by
  unfold compare
  rw [compareLex_eq_eq]
  unfold compareOn
  rw [Std.LawfulEqOrd.compare_eq_iff_eq, Std.LawfulEqOrd.compare_eq_iff_eq]

instance : Std.TransCmp compare :=
  inferInstanceAs (Std.TransCmp (compareLex (compareOn version) (compareOn module)))

/-- Candidates that are in order and are not the same module come one before the other. -/
theorem before_of_isLE {a b : Candidate} (h : (compare a b).isLE) (hne : a.module ≠ b.module) :
    a.Before b := by
  cases hc : compare a b with
  | lt => exact compare_eq_lt_iff.mp hc
  | eq => exact absurd (compare_eq_eq_iff.mp hc).2 hne
  | gt =>
    rw [hc] at h
    cases h

end Candidate

/-! ## 2. The candidates of a conflict -/

namespace Graph

variable {g : Graph} {roots roots' : List Identity} {key : String} {c : Conflict}

/-- **The candidates of a conflict come one before the other.** -/
theorem pairwise_before_of_mem (h : c ∈ conflictsAmong g (g.pulled roots)) :
    c.candidates.Pairwise Candidate.Before := by
  have horder : c.candidates.Pairwise fun a b => (Candidate.compare a b).isLE := by
    rw [(of_mem_conflictsAmong h).2]
    exact pairwise_sortedBy _
  have hdistinct : c.candidates.Pairwise fun a b => a.module ≠ b.module :=
    List.pairwise_map.mp (nodup_map_module_of_mem h)
  exact (horder.and hdistinct).imp fun hab => Candidate.before_of_isLE hab.1 hab.2

/-- A candidate is requested by the roots that it is, and those that have it in their closures. -/
theorem mem_requestedBy_iff (hroots : ∀ r ∈ roots, g.Known r)
    (h : c ∈ conflictsAmong g (g.pulled roots)) {k : Candidate} (hk : k ∈ c.candidates)
    {r : Identity} : r ∈ k.requestedBy ↔
      r ∈ roots ∧ (k.module = r ∨ ∃ s, g.closure r = .ok s ∧ k.module ∈ s) := by
  obtain ⟨m, _, _, rfl⟩ := (mem_candidates_iff h).mp hk
  show r ∈ requesters (g.pulled roots) m.id ↔ _
  rw [mem_requesters_pulled]
  refine and_congr_right fun hr => or_congr_right ?_
  obtain ⟨s, hs⟩ := exists_closure_iff.mpr (hroots r hr)
  constructor
  · exact fun hb => ⟨s, hs, (mem_closure hs).mpr hb⟩
  · rintro ⟨s', hs', hm⟩
    exact (mem_closure hs').mp hm

/-! ## 3. The order of the roots -/

/-- The roots are asked about in their order, but what they bring in has none. -/
theorem mergedIds_congr (h : ∀ r, r ∈ roots ↔ r ∈ roots') :
    mergedIds (g.pulled roots) = mergedIds (g.pulled roots') := by
  refine Register.ext_mem fun x => ?_
  rw [mem_mergedIds_pulled, mem_mergedIds_pulled]
  simp only [h]

theorem requesters_congr (h : ∀ r, r ∈ roots ↔ r ∈ roots') (x : Identity) :
    requesters (g.pulled roots) x = requesters (g.pulled roots') x := by
  refine Register.ext_mem fun r => ?_
  rw [mem_requesters_pulled, mem_requesters_pulled, h]

/-- **The conflicts are those of the set of roots.** -/
theorem conflictsAmong_congr (h : ∀ r, r ∈ roots ↔ r ∈ roots') :
    conflictsAmong g (g.pulled roots) = conflictsAmong g (g.pulled roots') := by
  have hcandidate : candidate (g.pulled roots) = candidate (g.pulled roots') := by
    funext m
    unfold candidate
    rw [requesters_congr h]
  have hcompeting : g.competing (g.pulled roots) = g.competing (g.pulled roots') := by
    funext key
    unfold competing
    rw [mergedIds_congr h, hcandidate]
  rw [conflictsAmong_eq_competing, conflictsAmong_eq_competing, mergedIds_congr h, hcompeting]

end Graph

/-! ## 4. Bundles -/

namespace Bundle

variable {ms : List Module} {g : Graph} {memo : Memo} {b : Bundle}

theorem run_conflicts_of_known (hm : memo.Faithful g) (h : ∀ r ∈ b.members, g.Known r) :
    ((b.conflicts g).run g memo).1 = .ok (conflictsAmong g (g.pulled b.members)) := by
  rw [(Inquiry.run_spec _ hm).1, answerIn_conflicts_of_known h]

/-- A bundle with an unknown member is refused for the first one. -/
theorem exists_first_unknown (hg : Graph.build ms = .ok g) (hm : memo.Faithful g)
    (h : ∃ r ∈ b.members, r ∉ ms.map Module.id) :
    ∃ before x after, b.members = before ++ x :: after ∧ (∀ r ∈ before, r ∈ ms.map Module.id) ∧
      x ∉ ms.map Module.id ∧ ((b.conflicts g).run g memo).1 = .error (.unknownModule x) := by
  rcases Graph.known_or_exists_first_unknown (g := g) b.members with
    hknown | ⟨before, x, after, hb, hbefore, hx⟩
  · obtain ⟨r, hr, hnone⟩ := h
    exact absurd ((Graph.known_iff_of_build hg).mp (hknown r hr)) hnone
  · have hnone : x ∉ ms.map Module.id := by
      rw [← Graph.known_iff_of_build hg]
      rintro ⟨m, hmx⟩
      rw [hx] at hmx
      cases hmx
    refine ⟨before, x, after, hb, fun r hr => ?_, hnone, ?_⟩
    · exact (Graph.known_iff_of_build hg).mp (hbefore r hr)
    · rw [(Inquiry.run_spec _ hm).1, answerIn_conflicts_of_unknown hb hbefore hx]

/-- The ambiguous keys, in terms of the list of modules. -/
theorem ambiguous_iff_of_build (hg : Graph.build ms = .ok g) {key : String} :
    g.Ambiguous b.members key ↔ ∃ m n, Imports ms b m ∧ Imports ms b n ∧ m.key = key ∧
      n.key = key ∧ m.version ≠ n.version := by
  unfold Graph.Ambiguous
  simp only [Graph.brought_iff_of_build hg]

/-- The candidates of a conflict, in terms of the list of modules. -/
theorem exists_candidate_iff_of_build (hg : Graph.build ms = .ok g) {c : Conflict}
    (hc : c ∈ conflictsAmong g (g.pulled b.members)) {id : Identity} {v : Option Version} :
    (∃ k ∈ c.candidates, k.module = id ∧ k.version = v) ↔
      ∃ m, Imports ms b m ∧ m.key = c.key ∧ m.id = id ∧ m.version = v := by
  simp only [Graph.mem_candidates_iff hc, Graph.brought_iff_of_build hg]
  constructor
  · rintro ⟨k, ⟨m, hm, hkey, rfl⟩, hid, hv⟩
    exact ⟨m, hm, hkey, hid, hv⟩
  · rintro ⟨m, hm, hkey, hid, hv⟩
    exact ⟨_, ⟨m, hm, hkey, rfl⟩, hid, hv⟩

/-- **The conflicts of a bundle are exact**, whatever its memo has served before. A bundle with an
    unknown member is refused for the first one. For any other bundle: the keys in conflict are
    strictly ascending, and are those under which two modules that the bundle imports have different
    versions; the candidates of a key are the modules with this key that the bundle imports, each
    once, ordered by version and then identity, no version first; and each candidate is requested by
    the members that it is, and those that have it in their closures. So bundles with the same
    members have the same conflicts, in whatever order the members are. -/
theorem conflicts_are_exact {ms : List Module} {g : Graph} (hg : Graph.build ms = .ok g)
    {memo : Memo} (hm : memo.Faithful g) :
    (∀ b : Bundle, (∃ r ∈ b.members, r ∉ ms.map Module.id) →
      ∃ before x after, b.members = before ++ x :: after ∧
        (∀ r ∈ before, r ∈ ms.map Module.id) ∧ x ∉ ms.map Module.id ∧
        ((b.conflicts g).run g memo).1 = .error (.unknownModule x)) ∧
    (∀ b : Bundle, (∀ r ∈ b.members, r ∈ ms.map Module.id) →
      ∃ cs, ((b.conflicts g).run g memo).1 = .ok cs ∧
        (cs.map Conflict.key).Pairwise (· < ·) ∧
        (∀ key, key ∈ cs.map Conflict.key ↔ ∃ m n, Imports ms b m ∧ Imports ms b n ∧
          m.key = key ∧ n.key = key ∧ m.version ≠ n.version) ∧
        ∀ c ∈ cs,
          (∀ id v, (∃ k ∈ c.candidates, k.module = id ∧ k.version = v) ↔
            ∃ m, Imports ms b m ∧ m.key = c.key ∧ m.id = id ∧ m.version = v) ∧
          (c.candidates.map Candidate.module).Nodup ∧
          c.candidates.Pairwise Candidate.Before ∧
          ∀ k ∈ c.candidates, ∀ r, r ∈ k.requestedBy ↔
            r ∈ b.members ∧ (k.module = r ∨ ∃ s, g.closure r = .ok s ∧ k.module ∈ s)) ∧
    ∀ b b' : Bundle, (∀ r ∈ b.members, r ∈ ms.map Module.id) →
      (∀ r, r ∈ b.members ↔ r ∈ b'.members) → ∀ memo' : Memo, memo'.Faithful g →
        ((b'.conflicts g).run g memo').1 = ((b.conflicts g).run g memo).1 := by
  refine ⟨fun b h => exists_first_unknown hg hm h, fun b h => ?_, fun b b' h hsame memo' hm' => ?_⟩
  · have hknown : ∀ r ∈ b.members, g.Known r := Graph.forall_known_of_build hg h
    refine ⟨_, run_conflicts_of_known hm hknown, Graph.pairwise_keys_conflictsAmong _,
      fun key => ?_, fun c hc => ⟨fun id v => ?_, ?_, ?_, fun k hk r => ?_⟩⟩
    · rw [Graph.mem_keys_conflictsAmong, ambiguous_iff_of_build hg]
    · exact exists_candidate_iff_of_build hg hc
    · exact Graph.nodup_map_module_of_mem hc
    · exact Graph.pairwise_before_of_mem hc
    · exact Graph.mem_requestedBy_iff hknown hc hk
  · have hknown : ∀ r ∈ b.members, g.Known r := Graph.forall_known_of_build hg h
    have hknown' : ∀ r ∈ b'.members, g.Known r := fun r hr => hknown r ((hsame r).mpr hr)
    rw [run_conflicts_of_known hm hknown, run_conflicts_of_known hm' hknown',
      Graph.conflictsAmong_congr hsame]

/-- In the repository with two copies of a library: both services and one of the copies conflict in
    the library, in whatever order they are imported; that copy is requested by itself and the
    service that needs it, and not by the other service. An unknown module is refused. -/
theorem conflicts_of_two_copies : ∃ g cs, Graph.build twoCopies = .ok g ∧
    (((ofMembers ["api", "web", "lib/new"]).conflicts g).run g Memo.empty).1 = .ok cs ∧
    (((ofMembers ["lib/new", "web", "api"]).conflicts g).run g Memo.empty).1 = .ok cs ∧
    (∃ c ∈ cs, c.key = "lib" ∧ ∃ k ∈ c.candidates, k.module = "lib/new" ∧
      k.version = some ⟨"2.0.0"⟩ ∧ "web" ∈ k.requestedBy ∧ "lib/new" ∈ k.requestedBy ∧
      "api" ∉ k.requestedBy) ∧
    (((ofMembers ["web", "cli", "lib"]).conflicts g).run g Memo.empty).1 =
      .error (.unknownModule "cli") := by
  obtain ⟨g, hg⟩ := exists_build_twoCopies
  obtain ⟨hunknown, hknown, hsame⟩ := conflicts_are_exact hg Memo.faithful_empty
  obtain ⟨cs, hcs, _, hkeys, hcandidates⟩ := hknown (ofMembers ["api", "web", "lib/new"]) (by decide)
  obtain ⟨m, hm, hmid, hmk, n, hn, hnid, hnk, hnv, hv⟩ : ∃ m ∈ twoCopies, m.id = "lib/old" ∧
    m.key = "lib" ∧ ∃ n ∈ twoCopies, n.id = "lib/new" ∧ n.key = "lib" ∧
    n.version = some ⟨"2.0.0"⟩ ∧ m.version ≠ n.version := by decide
  have hold : Imports twoCopies (ofMembers ["api", "web", "lib/new"]) m :=
    ⟨hm, "api", by decide, hmid ▸ .single (by decide)⟩
  have hnew : Imports twoCopies (ofMembers ["api", "web", "lib/new"]) n :=
    ⟨hn, "lib/new", by decide, hnid ▸ .refl⟩
  have hlib : "lib" ∈ cs.map Conflict.key := (hkeys "lib").mpr ⟨m, n, hold, hnew, hmk, hnk, hv⟩
  obtain ⟨c, hc, hck⟩ := List.mem_map.mp hlib
  obtain ⟨hmem, _, _, hrequested⟩ := hcandidates c hc
  obtain ⟨k, hk, hkid, hkv⟩ :=
    (hmem "lib/new" (some ⟨"2.0.0"⟩)).mpr ⟨n, hnew, hnk.trans hck.symm, hnid, hnv⟩
  refine ⟨g, cs, hg, hcs, ?_, ⟨c, hc, hck, k, hk, hkid, hkv, ?_, ?_, ?_⟩, ?_⟩
  · have hmembers : ∀ r, r ∈ (ofMembers ["api", "web", "lib/new"]).members ↔
        r ∈ (ofMembers ["lib/new", "web", "api"]).members := by
      intro r
      show r ∈ distinct ["api", "web", "lib/new"] ↔ r ∈ distinct ["lib/new", "web", "api"]
      rw [mem_distinct, mem_distinct, ← List.mem_reverse]
      exact Iff.rfl
    rw [hsame _ _ (by decide) hmembers Memo.empty Memo.faithful_empty]
    exact hcs
  · obtain ⟨s, hs⟩ : ∃ s, g.closure "web" = .ok s :=
      Graph.exists_closure_iff.mpr ((Graph.known_iff_of_build hg).mpr (by decide))
    have hbelow : g.downward.Below "web" "lib/new" :=
      (Graph.below_iff_of_build hg).mpr (.single (by decide))
    exact (hrequested k hk "web").mpr
      ⟨by decide, Or.inr ⟨s, hs, hkid ▸ (Graph.mem_closure hs).mpr hbelow⟩⟩
  · exact (hrequested k hk "lib/new").mpr ⟨by decide, Or.inl hkid⟩
  · intro hapi
    obtain ⟨_, h⟩ := (hrequested k hk "api").mp hapi
    rw [hkid] at h
    rcases h with h | ⟨s, hs, h⟩
    · exact absurd h (by decide)
    · have hchain := (Graph.below_iff_of_build hg).mp ((Graph.mem_closure hs).mp h)
      exact absurd (eq_of_reflTransGen_api hchain.to_reflTransGen) (by decide)
  · obtain ⟨before, x, after, hb, hbefore, hx, hfault⟩ :=
      hunknown (ofMembers ["web", "cli", "lib"]) ⟨"cli", by decide, by decide⟩
    have hsplit : ["web", "cli", "lib"] = before ++ x :: after := hb
    -- the service is known, and what comes after the unknown module is not reached
    rcases before with _ | ⟨y, _ | ⟨z, before⟩⟩
    · obtain ⟨rfl, _⟩ := List.cons.inj hsplit
      exact absurd hx (by decide)
    · obtain ⟨_, htail⟩ := List.cons.inj hsplit
      obtain ⟨rfl, _⟩ := List.cons.inj htail
      exact hfault
    · obtain ⟨_, htail⟩ := List.cons.inj hsplit
      obtain ⟨rfl, _⟩ := List.cons.inj htail
      exact absurd (hbefore "cli" (by simp)) (by decide)

end Bundle

end Isolation
