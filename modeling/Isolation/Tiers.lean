import Isolation.Scan

/-!
# Derived tiers

The tier of a scanned module is the one that is pinned for it, or else lies one above its highest
requirement; a module that requires nothing, and one that was not scanned, lies at 0. Tiers are
derived by a walk that remembers what it derived. A module that requires itself, directly or not, is
met again while its tier is still open; it counts as 0 there, and the cycle is left for the graph to
report.

The walk runs on 64-bit tiers (`Int64`), and one above the highest of these is the lowest. It adds
and compares tiers and does nothing else with them, so it is written for tiers of any type that can
be added and compared; on the integers it derives what the tiers are where nothing overflows.

The walk ends because each step down adds a scanned module to those whose tiers are open.
-/

namespace Isolation

/-- What each scanned module requires; of two modules of one identity the later counts. -/
def requirementMap (scanned : List ScannedModule) : NameMap (List Identity) :=
  scanned.foldl (fun m s => m.put s.id s.dependencyIds) Register.empty

/-- How many of some identities are not among those that are open. -/
def remaining (ids visiting : List Identity) : Nat := (ids.filter fun id => id ∉ visiting).length

theorem remaining_cons_lt {ids visiting : List Identity} {id : Identity} (h : id ∈ ids)
    (h' : id ∉ visiting) : remaining ids (id :: visiting) < remaining ids visiting := by
  simp only [remaining, ← List.countP_eq_length_filter]
  induction ids with
  | nil => cases h
  | cons a ids ih =>
    have hle : ∀ l : List Identity, l.countP (fun x => decide (x ∉ id :: visiting)) ≤
        l.countP (fun x => decide (x ∉ visiting)) := fun l =>
      List.countP_mono_left fun x _ hx => by
        simp only [List.mem_cons, not_or, decide_eq_true_eq] at hx ⊢
        exact hx.2
    rw [List.countP_cons, List.countP_cons]
    by_cases e : a = id
    · subst e
      have hin : decide (a ∉ a :: visiting) = false := by simp
      have hout : decide (a ∉ visiting) = true := by simpa using h'
      rw [hin, hout, if_neg Bool.false_ne_true, if_pos rfl]
      exact Nat.lt_succ_of_le (hle ids)
    · have hm : id ∈ ids := by
        rcases List.mem_cons.mp h with rfl | hm
        · exact absurd rfl e
        · exact hm
      have := ih hm
      have heq : decide (a ∉ id :: visiting) = decide (a ∉ visiting) := by
        simp [List.mem_cons, e]
      rw [heq]
      omega

section Walk

variable {τ : Type} [OfNat τ 0] [OfNat τ 1] [Add τ] [Max τ]

/-- The highest of a tier and the best so far, if there is one. -/
def higher (best : Option τ) (tier : τ) : Option τ :=
  match best with
  | some b => some (max b tier)
  | none => some tier

/-- The tier of an identity, with the tiers derived so far; `visiting` are those still open. -/
def tierFrom (requirements : NameMap (List Identity)) (pinned : NameMap τ)
    (visiting : List Identity) (tiers : NameMap τ) (id : Identity) : τ × NameMap τ :=
  match (pinned.get? id).or (tiers.get? id) with
  | some tier => (tier, tiers.putNew id tier)
  | none =>
    if _h : id ∈ visiting then (0, tiers)
    else
      match hr : requirements.get? id with
      | none => (0, tiers.put id 0)
      | some required =>
        let walked := required.foldl (fun (acc : Option τ × NameMap τ) d =>
          let t := tierFrom requirements pinned (id :: visiting) acc.2 d
          (higher acc.1 (t.1 + 1), t.2)) (none, tiers)
        let tier := walked.1.getD 0
        (tier, walked.2.put id tier)
termination_by remaining requirements.names visiting
decreasing_by exact remaining_cons_lt (NameMap.mem_names_iff.mpr ⟨_, hr⟩) _h

/-- The tiers of the scanned modules and of everything they require, by identity. -/
def deriveTiers (scanned : List ScannedModule) (pinned : NameMap τ) : NameMap τ :=
  let requirements := requirementMap scanned
  scanned.foldl (fun tiers s => (tierFrom requirements pinned [] tiers s.id).2) Register.empty

end Walk

end Isolation
