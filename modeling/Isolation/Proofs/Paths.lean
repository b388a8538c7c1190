import Isolation.Proofs.Reachability
import Mathlib.Data.List.Basic

/-!
# What a path search depends on

A search tries the children of a value one after another and passes on what failed, until one of
them leads to the target (`Search.next`). This file fixes what a search reads and where it goes:

* `search_eq` -- a search, one value deep;
* **`search_eq_of_agree`**, `path?_eq_of_agree` -- branchings with the same children at the start and
  below it give the same path, whatever lies elsewhere and whatever the ranks are;
* **`mem_of_search_eq_found`**, `mem_of_path?` -- a path that is found consists of its start and of
  values below it;
* `Graph.path?_of_get?` -- the path between two modules of a graph is one of these.
-/

namespace Isolation

namespace Branching

variable {α : Type}

/-! ## 1. One value after another -/

section Next

variable {f : List α → α → Search α} {cs failed path : List α}

/-- Try one more value with `f`, unless the target was found before. -/
def Search.next (f : List α → α → Search α) (s : Search α) (c : α) : Search α :=
  match s with
  | .found p => .found p
  | .exhausted failed => f failed c

/-- What was tried below `a`, as a search from `a`: a path that was found is preceded by `a`. -/
def Search.prepend (a : α) : Search α → Search α
  | .found p => .found (a :: p)
  | .exhausted failed => .exhausted failed

theorem foldl_next_found : cs.foldl (Search.next f) (.found path) = .found path := by
  induction cs with
  | nil => rfl
  | cons c cs ih => exact ih

/-- A path that is found was found from one of the values that were tried. -/
theorem exists_of_foldl_next (h : cs.foldl (Search.next f) (.exhausted failed) = .found path) :
    ∃ c ∈ cs, ∃ failed', f failed' c = .found path := by
  induction cs generalizing failed with
  | nil => cases h
  | cons c cs ih =>
    have hnext : cs.foldl (Search.next f) (f failed c) = .found path := h
    cases hc : f failed c with
    | found p =>
      rw [hc, foldl_next_found] at hnext
      exact ⟨c, List.mem_cons_self, failed, hc.trans hnext⟩
    | exhausted failed' =>
      rw [hc] at hnext
      obtain ⟨c', hc', hfound⟩ := ih hnext
      exact ⟨c', List.mem_cons_of_mem c hc', hfound⟩

theorem exists_of_prepend_eq_found {a : α} {s : Search α} (h : s.prepend a = .found path) :
    ∃ p, s = .found p ∧ path = a :: p := by
  cases s with
  | found p =>
    cases h
    exact ⟨p, rfl, rfl⟩
  | exhausted failed => cases h

end Next

/-! ## 2. Searching -/

variable [DecidableEq α] {b b' : Branching α} {target a : α} {failed path : List α}

theorem search_eq (b : Branching α) (target : α) (failed : List α) (a : α) :
    b.search target failed a =
      if a = target then .found [a]
      else if a ∈ failed then .exhausted failed
      else ((b.children a).foldl (Search.next (b.search target)) (.exhausted (a :: failed))).prepend a
    := by
  rw [search, ← List.foldl_attach (f := Search.next (b.search target))]
  rfl

/-- **A search depends on the children at its start and below it only**, by induction on the rank of
    the start. -/
theorem search_eq_of_agree (h : b.AgreeFrom b' a) :
    b.search target failed a = b'.search target failed a := by
  induction hn : b.rank a using Nat.strongRecOn generalizing a failed with
  | _ n ih =>
    have hchildren : (b.children a).foldl (Search.next (b.search target))
          (.exhausted (a :: failed)) =
        (b.children a).foldl (Search.next (b'.search target)) (.exhausted (a :: failed)) := by
      refine List.foldl_ext _ _ _ fun s c hc => ?_
      cases s with
      | found p => rfl
      | exhausted failed' => exact ih (b.rank c) (hn ▸ b.falls a c hc) (h.child hc) rfl
    rw [search_eq, search_eq, hchildren, ← h.children_eq]

theorem path?_eq_of_agree (h : b.AgreeFrom b' a) : b.path? a target = b'.path? a target := by
  rw [path?, path?, search_eq_of_agree h]

/-- **A path that is found keeps to its start and the values below it.** -/
theorem mem_of_search_eq_found (h : b.search target failed a = .found path) :
    ∀ x ∈ path, x = a ∨ b.Below a x := by
  induction hn : b.rank a using Nat.strongRecOn generalizing a failed path with
  | _ n ih =>
    rw [search_eq] at h
    intro x hx
    split at h
    · cases h
      exact Or.inl (List.mem_singleton.mp hx)
    · split at h
      · cases h
      · obtain ⟨p, hp, rfl⟩ := exists_of_prepend_eq_found h
        obtain ⟨c, hc, failed', hfound⟩ := exists_of_foldl_next hp
        rcases List.mem_cons.mp hx with rfl | hx
        · exact Or.inl rfl
        · have hxc := ih (b.rank c) (hn ▸ b.falls a c hc) hfound rfl x hx
          exact Or.inr (below_iff_exists_child.mpr ⟨c, hc, hxc⟩)

theorem mem_of_path? (h : b.path? a target = some path) : ∀ x ∈ path, x = a ∨ b.Below a x := by
  unfold path? at h
  split at h
  · rename_i p hp
    cases h
    exact mem_of_search_eq_found hp
  · cases h

end Branching

/-- Between two modules of a graph the path is looked for downwards. -/
theorem Graph.path?_of_get? {g : Graph} {start target : Identity} {m n : Module}
    (hm : g.get? start = some m) (hn : g.get? target = some n) :
    g.path? start target = .ok ((g.downward.path? start target).map g.modulesOf) := by
  rw [path?, lookUp, lookUp, hm, hn, ← id_of_get? hm, ← id_of_get? hn]
  rfl

end Isolation
