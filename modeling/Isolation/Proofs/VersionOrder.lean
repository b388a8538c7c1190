import Isolation.Version

/-!
# The order of versions is a total one

Versions are compared stage by stage: the numbers of the semantic versions that they denote, then
the pre-release and build identifiers one by one, and at last their texts. This file fixes that the
comparison of two identifiers is a total preorder, that putting stages one after another keeps it
one, and that the last stage tells all versions apart: **only equal versions compare as equal**
(`Version.compare_eq_iff`).
-/

namespace Isolation

theorem transCmp_comap {α β : Type} {cmp : β → β → Ordering} [Std.TransCmp cmp] (f : α → β) :
    Std.TransCmp fun a b => cmp (f a) (f b) where
  eq_swap := Std.OrientedCmp.eq_swap
  isLE_trans hab hbc := Std.TransCmp.isLE_trans hab hbc

namespace SemanticVersion

instance : Std.TransCmp compareIdentifier :=
  inferInstanceAs (Std.TransCmp (compareLex (compareOn fun s => !isNumeral s)
    (compareLex (compareOn numeralValue) (compareLex (compareOn numeralLength) Ord.compare))))

instance : Std.TransCmp SemanticVersion.compare :=
  have : Std.TransCmp fun a b => List.compareLex compareIdentifier (pre a) (pre b) :=
    transCmp_comap pre
  have : Std.TransCmp fun a b => List.compareLex compareIdentifier (build a) (build b) :=
    transCmp_comap build
  inferInstanceAs (Std.TransCmp (compareLex (compareOn major) <| compareLex (compareOn minor) <|
    compareLex (compareOn patch) <| compareLex (compareOn fun v => v.pre.isEmpty) <|
    compareLex (fun a b => List.compareLex compareIdentifier a.pre b.pre)
      (fun a b => List.compareLex compareIdentifier a.build b.build)))

instance : Std.TransOrd SemanticVersion := inferInstanceAs (Std.TransCmp SemanticVersion.compare)

end SemanticVersion

namespace Version

instance : Std.TransOrd Version :=
  inferInstanceAs (Std.TransCmp (compareLex (compareOn semantic?) (compareOn text)))

/-- **Only equal versions compare as equal.** -/
theorem compare_eq_iff {v w : Version} : v.compare w = .eq ↔ v = w := by
  unfold compare
  rw [compareLex_eq_eq]
  constructor
  · rintro ⟨_, ht⟩
    have htext : v.text = w.text := Std.LawfulEqCmp.eq_of_compare ht
    cases v
    cases w
    exact congrArg mk htext
  · rintro rfl
    exact ⟨Std.ReflCmp.compare_self, Std.ReflCmp.compare_self⟩

instance : Std.LawfulEqOrd Version where
  compare_self := compare_eq_iff.mpr rfl
  eq_of_compare h := compare_eq_iff.mp h

end Version

end Isolation
