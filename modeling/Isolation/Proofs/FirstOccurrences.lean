import Isolation.Bundle
import Isolation.Proofs.Declarations
import Mathlib.Data.List.Perm.Basic

/-!
# Collections keep first occurrences

A module's dependencies and a bundle's members are collected one after another, and a value that is
there already is passed over. This file says what list comes of it:

* `FirstOccurrences` -- the values of a list, each once, in the order in which they first occur in
  it; no two lists are that (`FirstOccurrences.unique`);
* `FirstOccurrences.pushNew`, `FirstOccurrences.foldl_pushNew` -- one more value, and any number of
  values more;
* `Bundle.foldl_push` -- a bundle that was begun with some members and continued with others is the
  bundle of all of them;
* **`collections_keep_first_occurrences`** -- what this means for the two collections.
-/

namespace Isolation

/-! ## 1. First occurrences -/

section Lists

variable {α : Type} [DecidableEq α] {xs ys zs : List α}

/-- `ys` has the values of `xs`, each once, in the order in which they first occur in `xs`. -/
structure FirstOccurrences (xs ys : List α) : Prop where
  nodup : ys.Nodup
  mem_iff : ∀ x, x ∈ ys ↔ x ∈ xs
  ordered : ys.Pairwise fun a b => xs.idxOf a < xs.idxOf b

namespace FirstOccurrences

theorem nil : FirstOccurrences ([] : List α) [] :=
  ⟨.nil, fun _ => Iff.rfl, .nil⟩

/-- **One more value** goes to the end, if it did not occur before. -/
theorem pushNew (h : FirstOccurrences xs ys) (a : α) :
    FirstOccurrences (xs ++ [a]) (pushNew ys a) := by
  have hbefore : ∀ x ∈ ys, (xs ++ [a]).idxOf x = xs.idxOf x := fun x hx =>
    List.idxOf_append_of_mem ((h.mem_iff x).mp hx)
  have hordered : ys.Pairwise fun x y => (xs ++ [a]).idxOf x < (xs ++ [a]).idxOf y :=
    h.ordered.imp_of_mem fun hx hy hlt => by rwa [hbefore _ hx, hbefore _ hy]
  refine ⟨nodup_pushNew h.nodup a, fun x => ?_, ?_⟩
  · rw [mem_pushNew, h.mem_iff, List.mem_append, List.mem_singleton]
  · rw [Isolation.pushNew]
    split
    · exact hordered
    · rename_i ha
      have hlast : (xs ++ [a]).idxOf a = xs.length := by
        rw [List.idxOf_append_of_notMem (mt (h.mem_iff a).mpr ha), List.idxOf_cons_self]
        rfl
      refine List.pairwise_append.mpr ⟨hordered, List.pairwise_singleton _ _, fun x hx y hy => ?_⟩
      rw [List.mem_singleton.mp hy, hlast, hbefore x hx]
      exact List.idxOf_lt_length_of_mem ((h.mem_iff x).mp hx)

/-- **Any number of values more**, by induction on them. -/
theorem foldl_pushNew (h : FirstOccurrences xs ys) (zs : List α) :
    FirstOccurrences (xs ++ zs) (zs.foldl Isolation.pushNew ys) := by
  induction zs generalizing xs ys with
  | nil => rwa [List.append_nil]
  | cons a zs ih =>
    rw [List.append_cons]
    exact ih (h.pushNew a)

theorem distinct (xs : List α) : FirstOccurrences xs (distinct xs) :=
  nil.foldl_pushNew xs

/-- Two lists in the same strict order with the same members are one list. -/
theorem unique (h : FirstOccurrences xs ys) (h' : FirstOccurrences xs zs) : ys = zs := by
  have hperm : ys.Perm zs := (List.perm_ext_iff_of_nodup h.nodup h'.nodup).mpr fun x =>
    (h.mem_iff x).trans (h'.mem_iff x).symm
  exact hperm.eq_of_pairwise (fun a b _ _ hab hba => absurd hab (Nat.lt_asymm hba)) h.ordered
    h'.ordered

end FirstOccurrences

/-- **The first occurrences are what is collected.** -/
theorem firstOccurrences_iff : FirstOccurrences xs ys ↔ ys = distinct xs :=
  ⟨fun h => h.unique (.distinct xs), fun h => h ▸ .distinct xs⟩

end Lists

/-! ## 2. Bundles -/

namespace Bundle

/-- With one more member it is the bundle of all members so far. -/
theorem push_ofMembers (ids : List Identity) (name : Option String) (id : Identity) :
    (ofMembers ids name).push id = ofMembers (ids ++ [id]) name := by
  have hmembers : pushNew (distinct ids) id = distinct (ids ++ [id]) := by
    rw [distinct, distinct, List.foldl_concat]
  rw [push, ofMembers, ofMembers]
  congr

/-- **A bundle that is continued is the bundle of all its members.** -/
theorem foldl_push (ids pushed : List Identity) (name : Option String) :
    pushed.foldl push (ofMembers ids name) = ofMembers (ids ++ pushed) name := by
  induction pushed generalizing ids with
  | nil => rw [List.foldl_nil, List.append_nil]
  | cons id pushed ih =>
    rw [List.foldl_cons, push_ofMembers, ih, List.append_assoc, List.singleton_append]

/-- The members of a bundle make the same bundle again. -/
theorem ofMembers_members (b : Bundle) : ofMembers b.members b.name = b := by
  have hmembers : distinct b.members = b.members := distinct_of_nodup b.members_nodup
  rw [ofMembers]
  congr

end Bundle

/-! ## 3. Both collections -/

namespace Module

variable {id : Identity} {tier : Int} {ds : List Identity} {version : Option Version} {m : Module}

/-- The dependencies of a module make the same module again. -/
theorem declare_dependencies (h : declare id tier ds version = .ok m) :
    declare id tier m.dependencies version = .ok m := by
  obtain ⟨rfl, rfl, _, rfl, hkey⟩ := Declaration.of_declare h
  exact declare_of_ownKey m hkey

/-- A module is accepted if every dependency is, where it is taken. -/
theorem foldlM_takeDependency_of_declare (h : declare id tier ds version = .ok m) :
    ds.foldlM (takeDependency id) [] = .ok m.dependencies := by
  obtain ⟨hadmissible, _⟩ := exists_declare_iff.mp ⟨m, h⟩
  have hdefect : dependencyDefect? id ds = none := dependencyDefect?_eq_none_iff.mpr
    (sound_iff.mpr ⟨hadmissible.dependency_named, hadmissible.not_self⟩)
  rw [foldlM_takeDependency, hdefect, (Declaration.of_declare h).2.2.1]
  rfl

end Module

/-- **The dependencies of a module and the members of a bundle are first occurrences.** For every
    declaration that is accepted, taking its dependencies one after another leaves a list that has
    the declared ones, each once, in the order in which they first occur, and no other list is that;
    declared with this list the module is the same. For every bundle that is begun with some members
    and continued with others, one after another, its members are the first occurrences in both
    lists together; made of these members, or of both lists at once, the bundle is the same. -/
theorem collections_keep_first_occurrences :
    (∀ id tier ds version m, Module.declare id tier ds version = .ok m →
      ds.foldlM (Module.takeDependency id) [] = .ok m.dependencies ∧
      (∀ l, FirstOccurrences ds l ↔ l = m.dependencies) ∧
      Module.declare id tier m.dependencies version = .ok m) ∧
    ∀ ids pushed name,
      (∀ l, FirstOccurrences (ids ++ pushed) l ↔
        l = (pushed.foldl Bundle.push (Bundle.ofMembers ids name)).members) ∧
      Bundle.ofMembers (pushed.foldl Bundle.push (Bundle.ofMembers ids name)).members name =
        pushed.foldl Bundle.push (Bundle.ofMembers ids name) ∧
      Bundle.ofMembers (ids ++ pushed) name =
        pushed.foldl Bundle.push (Bundle.ofMembers ids name) := by
  refine ⟨fun id tier ds version m h => ⟨Module.foldlM_takeDependency_of_declare h, fun l => ?_,
    Module.declare_dependencies h⟩, fun ids pushed name => ?_⟩
  · rw [(Declaration.of_declare h).2.2.1]
    exact firstOccurrences_iff
  · rw [Bundle.foldl_push]
    exact ⟨fun l => firstOccurrences_iff, Bundle.ofMembers_members _, rfl⟩

/-- A module that lists one dependency twice, and a bundle that is named one member again after it
    was continued. -/
theorem first_occurrences_of_repeated_entries :
    (∃ m, Module.declare "app" 2 ["web", "lib", "web"] none = .ok m ∧
      m.dependencies = ["web", "lib"] ∧
      Module.declare "app" 2 ["web", "lib"] none = .ok m) ∧
    ((["api", "cli", "web"].foldl Bundle.push (Bundle.ofMembers ["web", "api", "web"])).members =
      ["web", "api", "cli"]) := by
  obtain ⟨m, hm⟩ : ∃ m, Module.declare "app" 2 ["web", "lib", "web"] none = .ok m :=
    Module.exists_declare_iff.mpr ⟨⟨by decide, by decide, by decide, by decide⟩, by decide⟩
  obtain ⟨_, hfirst, hagain⟩ := collections_keep_first_occurrences.1 _ _ _ _ _ hm
  have hlist : ["web", "lib"] = m.dependencies := (hfirst _).mp ⟨by decide, by grind, by decide⟩
  obtain ⟨hmembers, _⟩ :=
    collections_keep_first_occurrences.2 ["web", "api", "web"] ["api", "cli", "web"] none
  rw [← hlist] at hagain
  exact ⟨⟨m, hm, hlist.symm, hagain⟩, ((hmembers _).mp ⟨by decide, by grind, by decide⟩).symm⟩

end Isolation
