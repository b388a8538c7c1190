import Isolation.Proofs.Ambiguity
import Isolation.Proofs.Manifests
import Isolation.Proofs.Texts
import Isolation.Proofs.VersionOrder

/-!
# The order of versions follows precedence

Precedence is stated here on its own, as a relation between semantic versions, and not as the way in
which the comparison goes about it.

* `Text.toDigits_decimalValue` -- a numeral without a leading zero is the usual one of its value, so
  that two such numerals of one value are the same text;
* `SemanticVersion.Precedes` -- precedence: the three numbers, a pre-release before its release, and
  pre-release identifiers one by one (`IdentifierPrecedes`);
* **`SemanticVersion.compare_of_precedes`** -- the comparison follows it, and
  **`SemanticVersion.precedes_total`** -- of two versions that were read, one precedes the other,
  unless they agree in everything that precedence looks at;
* `Version.ofText_text` -- a version is not changed by writing it out and reading it again, and so
  `version_of_mem_manifests`, that a module gets exactly the version that was selected for it;
* **`Version.order_of_texts`** -- what all of this comes to for the versions that texts declare.
-/

namespace Isolation

/-! ## 1. Numerals -/

namespace Text

theorem digitChar_digitValue {c : Char} (h : c.isDigit = true) :
    Nat.digitChar (digitValue c) = c ∧ digitValue c < 10 := by
  have hrange : 48 ≤ c.toNat ∧ c.toNat ≤ 57 := by
    simpa [Char.isDigit, UInt32.le_iff_toNat_le] using h
  have hvalue : digitValue c = c.toNat - 48 := rfl
  refine ⟨Char.toNat_inj.mp ?_, by omega⟩
  rw [Nat.toNat_digitChar_of_lt_ten (by omega)]
  omega

/-- Digits that are read behind a number other than zero are appended to its own. -/
theorem toDigits_foldl_digitValue {cs : List Char} (h : allDigits cs = true) {n : Nat}
    (hn : 0 < n) :
    Nat.toDigits 10 (cs.foldl (fun n c => 10 * n + digitValue c) n) = Nat.toDigits 10 n ++ cs := by
  induction cs generalizing n with
  | nil => rw [List.append_nil, List.foldl_nil]
  | cons c cs ih =>
    rw [allDigits, List.all_cons, Bool.and_eq_true] at h
    obtain ⟨hchar, hlt⟩ := digitChar_digitValue h.1
    have hdigit : Nat.toDigits 10 (10 * n + digitValue c) = Nat.toDigits 10 n ++ [c] := by
      rw [← Nat.toDigits_append_toDigits (by decide) hn hlt, Nat.toDigits_of_lt_base hlt, hchar]
    rw [List.foldl_cons, ih h.2 (by omega), hdigit, List.append_assoc, List.singleton_append]

/-- **A numeral without a leading zero is the usual numeral of its value.** -/
theorem toDigits_decimalValue {cs : List Char} (hne : cs ≠ []) (h : allDigits cs = true)
    (hzero : SemanticVersion.hasLeadingZero cs = false) :
    Nat.toDigits 10 (decimalValue cs) = cs := by
  cases cs with
  | nil => exact absurd rfl hne
  | cons c cs =>
    have hparts := h
    rw [allDigits, List.all_cons, Bool.and_eq_true] at hparts
    obtain ⟨hchar, hlt⟩ := digitChar_digitValue hparts.1
    have hfirst : Nat.toDigits 10 (digitValue c) = [c] := by
      rw [Nat.toDigits_of_lt_base hlt, hchar]
    rw [decimalValue, List.foldl_cons, Nat.mul_zero, Nat.zero_add]
    cases cs with
    | nil => exact hfirst
    | cons d cs =>
      have hc : c ≠ '0' := by
        rintro rfl
        simp [SemanticVersion.hasLeadingZero, h] at hzero
      have hpos : 0 < digitValue c := by
        refine Nat.pos_of_ne_zero fun hvalue => hc ?_
        rw [hvalue] at hchar
        exact hchar.symm
      rw [toDigits_foldl_digitValue hparts.2 hpos, hfirst, List.singleton_append]

end Text

/-! ## 2. Precedence -/

section Comparison

variable {α : Type} {cmp cmp' : α → α → Ordering} {a b : α}

theorem compareLex_lt_of_lt (h : cmp a b = .lt) : compareLex cmp cmp' a b = .lt :=
  Ordering.then_eq_lt.mpr (Or.inl h)

theorem compareLex_lt_of_eq (h : cmp a b = .eq) (h' : cmp' a b = .lt) :
    compareLex cmp cmp' a b = .lt :=
  Ordering.then_eq_lt.mpr (Or.inr ⟨h, h'⟩)

theorem compareOn_eq {β : Type} [Ord β] [Std.ReflOrd β] {f : α → β} (h : f a = f b) :
    compareOn f a b = .eq := by
  rw [compareOn, h]
  exact Std.ReflOrd.compare_self

theorem compareOn_lt {f : α → Nat} (h : f a < f b) : compareOn f a b = .lt :=
  Nat.compare_eq_lt.mpr h

end Comparison

namespace SemanticVersion

/-- One identifier precedes another: numerals by their values, a numeral before any other
    identifier, and the others by code points. -/
inductive IdentifierPrecedes (s t : String) : Prop where
  | values (hs : isNumeral s = true) (ht : isNumeral t = true) (h : numeralValue s < numeralValue t)
  | numeral (hs : isNumeral s = true) (ht : isNumeral t = false)
  | texts (hs : isNumeral s = false) (ht : isNumeral t = false) (h : s < t)

/-- The same major, minor and patch number. -/
def SameCore (v w : SemanticVersion) : Prop :=
  v.major = w.major ∧ v.minor = w.minor ∧ v.patch = w.patch

/-- The two agree in all that precedence looks at; their builds may differ. -/
def SamePrecedence (v w : SemanticVersion) : Prop := v.SameCore w ∧ v.pre = w.pre

/-- One version precedes another. -/
inductive Precedes (v w : SemanticVersion) : Prop where
  | major (h : v.major < w.major)
  | minor (hmajor : v.major = w.major) (h : v.minor < w.minor)
  | patch (hmajor : v.major = w.major) (hminor : v.minor = w.minor) (h : v.patch < w.patch)
  | release (hcore : v.SameCore w) (hv : v.pre ≠ []) (hw : w.pre = [])
  | preRelease (hcore : v.SameCore w) (hv : v.pre ≠ [])
    (h : List.Lex IdentifierPrecedes v.pre w.pre)

theorem compareIdentifier_of_precedes {s t : String} (h : IdentifierPrecedes s t) :
    compareIdentifier s t = .lt := by
  cases h with
  | values hs ht h =>
    refine compareLex_lt_of_eq (compareOn_eq ?_) (compareLex_lt_of_lt (compareOn_lt h))
    rw [hs, ht]
  | numeral hs ht =>
    refine compareLex_lt_of_lt ?_
    rw [compareOn, hs, ht]
    rfl
  | texts hs ht h =>
    have htexts : Ord.compare s t = .lt := compareOfLessAndEq_eq_lt.mpr h
    refine compareLex_lt_of_eq (compareOn_eq ?_) (compareLex_lt_of_eq (compareOn_eq ?_)
      (compareLex_lt_of_eq (compareOn_eq ?_) htexts))
    · rw [hs, ht]
    · rw [numeralValue, numeralValue, hs, ht]
      rfl
    · rw [numeralLength, numeralLength, hs, ht]
      rfl

theorem compareLex_of_lex {xs ys : List String} (h : List.Lex IdentifierPrecedes xs ys) :
    List.compareLex compareIdentifier xs ys = .lt := by
  induction h with
  | nil => rfl
  | rel h => rw [List.compareLex_cons_cons, compareIdentifier_of_precedes h]; rfl
  | @cons a _ _ _ ih =>
    have hsame : compareIdentifier a a = .eq := Std.ReflCmp.compare_self
    rw [List.compareLex_cons_cons, hsame, ih]
    rfl

/-- Versions with the same core compare by their pre-releases. -/
theorem compare_eq_lt_of_core {v w : SemanticVersion} (h : v.SameCore w)
    (hpre : compareLex (compareOn fun v => v.pre.isEmpty)
      (fun a b => List.compareLex compareIdentifier a.pre b.pre) v w = .lt) :
    v.compare w = .lt := by
  obtain ⟨hmajor, hminor, hpatch⟩ := h
  refine compareLex_lt_of_eq (compareOn_eq hmajor) (compareLex_lt_of_eq (compareOn_eq hminor)
    (compareLex_lt_of_eq (compareOn_eq hpatch) ?_))
  rcases Ordering.then_eq_lt.mp hpre with hlt | ⟨heq, hlt⟩
  · exact compareLex_lt_of_lt hlt
  · exact compareLex_lt_of_eq heq (compareLex_lt_of_lt hlt)

/-- **The comparison follows precedence.** -/
theorem compare_of_precedes {v w : SemanticVersion} (h : v.Precedes w) : v.compare w = .lt := by
  cases h with
  | major h => exact compareLex_lt_of_lt (compareOn_lt h)
  | minor hmajor h =>
    exact compareLex_lt_of_eq (compareOn_eq hmajor) (compareLex_lt_of_lt (compareOn_lt h))
  | patch hmajor hminor h =>
    exact compareLex_lt_of_eq (compareOn_eq hmajor) (compareLex_lt_of_eq (compareOn_eq hminor)
      (compareLex_lt_of_lt (compareOn_lt h)))
  | release hcore hv hw =>
    refine compare_eq_lt_of_core hcore (compareLex_lt_of_lt ?_)
    rw [compareOn, List.isEmpty_eq_false_iff.mpr hv, hw]
    rfl
  | preRelease hcore hv h =>
    have hw : w.pre ≠ [] := fun hw => List.not_lex_nil (hw ▸ h)
    refine compare_eq_lt_of_core hcore (compareLex_lt_of_eq (compareOn_eq ?_) (compareLex_of_lex h))
    rw [List.isEmpty_eq_false_iff.mpr hv, List.isEmpty_eq_false_iff.mpr hw]

/-! ## 3. Versions that were read -/

/-- An identifier as it is read in a pre-release: not empty, and without a leading zero if it is a
    numeral. -/
def Plain (s : String) : Prop := s.toList ≠ [] ∧ hasLeadingZero s.toList = false

/-- Numerals that are plain are the same where they have the same value. -/
theorem eq_of_numeralValue_eq {s t : String} (hs : Plain s) (ht : Plain t)
    (hns : isNumeral s = true) (hnt : isNumeral t = true) (h : numeralValue s = numeralValue t) :
    s = t := by
  rw [numeralValue, numeralValue, if_pos hns, if_pos hnt] at h
  have hdigits := congrArg (Nat.toDigits 10) h
  rw [Text.toDigits_decimalValue hs.1 hns hs.2, Text.toDigits_decimalValue ht.1 hnt ht.2] at hdigits
  exact String.toList_injective hdigits

/-- Of two plain identifiers one precedes the other, if they differ. -/
theorem identifierPrecedes_total {s t : String} (hs : Plain s) (ht : Plain t) :
    s = t ∨ IdentifierPrecedes s t ∨ IdentifierPrecedes t s := by
  by_cases hns : isNumeral s = true
  · by_cases hnt : isNumeral t = true
    · rcases Nat.lt_trichotomy (numeralValue s) (numeralValue t) with h | h | h
      · exact Or.inr (Or.inl (.values hns hnt h))
      · exact Or.inl (eq_of_numeralValue_eq hs ht hns hnt h)
      · exact Or.inr (Or.inr (.values hnt hns h))
    · exact Or.inr (Or.inl (.numeral hns (Bool.eq_false_iff.mpr hnt)))
  · rw [Bool.not_eq_true] at hns
    by_cases hnt : isNumeral t = true
    · exact Or.inr (Or.inr (.numeral hnt hns))
    · rw [Bool.not_eq_true] at hnt
      rcases Register.lt_or_eq_or_gt s t with h | h | h
      · exact Or.inr (Or.inl (.texts hns hnt h))
      · exact Or.inl h
      · exact Or.inr (Or.inr (.texts hnt hns h))

theorem lex_total {xs ys : List String} (hxs : ∀ s ∈ xs, Plain s) (hys : ∀ t ∈ ys, Plain t) :
    xs = ys ∨ List.Lex IdentifierPrecedes xs ys ∨ List.Lex IdentifierPrecedes ys xs := by
  induction xs generalizing ys with
  | nil =>
    cases ys with
    | nil => exact Or.inl rfl
    | cons t ys => exact Or.inr (Or.inl .nil)
  | cons s xs ih =>
    cases ys with
    | nil => exact Or.inr (Or.inr .nil)
    | cons t ys =>
      rw [List.forall_mem_cons] at hxs hys
      rcases identifierPrecedes_total hxs.1 hys.1 with rfl | h | h
      · exact (ih hxs.2 hys.2).imp (congrArg _) (Or.imp .cons .cons)
      · exact Or.inr (Or.inl (.rel h))
      · exact Or.inr (Or.inr (.rel h))

theorem SameCore.symm {v w : SemanticVersion} (h : v.SameCore w) : w.SameCore v :=
  ⟨h.1.symm, h.2.1.symm, h.2.2.symm⟩

theorem precedes_total_of_core {v w : SemanticVersion} (hcore : v.SameCore w)
    (hv : ∀ s ∈ v.pre, Plain s) (hw : ∀ s ∈ w.pre, Plain s) :
    v.SamePrecedence w ∨ v.Precedes w ∨ w.Precedes v := by
  by_cases hnv : v.pre = []
  · by_cases hnw : w.pre = []
    · exact Or.inl ⟨hcore, hnv.trans hnw.symm⟩
    · exact Or.inr (Or.inr (.release hcore.symm hnw hnv))
  · by_cases hnw : w.pre = []
    · exact Or.inr (Or.inl (.release hcore hnv hnw))
    · rcases lex_total hv hw with h | h | h
      · exact Or.inl ⟨hcore, h⟩
      · exact Or.inr (Or.inl (.preRelease hcore hnv h))
      · exact Or.inr (Or.inr (.preRelease hcore.symm hnw h))

/-- **Of two versions with plain pre-releases one precedes the other, or they have the same
    precedence.** -/
theorem precedes_total {v w : SemanticVersion} (hv : ∀ s ∈ v.pre, Plain s)
    (hw : ∀ s ∈ w.pre, Plain s) : v.SamePrecedence w ∨ v.Precedes w ∨ w.Precedes v := by
  rcases Nat.lt_trichotomy v.major w.major with h | hmajor | h
  · exact Or.inr (Or.inl (.major h))
  · rcases Nat.lt_trichotomy v.minor w.minor with h | hminor | h
    · exact Or.inr (Or.inl (.minor hmajor h))
    · rcases Nat.lt_trichotomy v.patch w.patch with h | hpatch | h
      · exact Or.inr (Or.inl (.patch hmajor hminor h))
      · exact precedes_total_of_core ⟨hmajor, hminor, hpatch⟩ hv hw
      · exact Or.inr (Or.inr (.patch hmajor.symm hminor.symm h))
    · exact Or.inr (Or.inr (.minor hmajor.symm h))
  · exact Or.inr (Or.inr (.major h))

theorem ne_nil_of_identifiers? {cs : List Char} {parts : List (List Char)}
    (h : identifiers? cs = some parts) : ∀ part ∈ parts, part ≠ [] := by
  obtain ⟨hall, hparts⟩ := Option.ite_none_right_eq_some.mp h
  cases hparts
  intro part hpart
  have hnonempty := List.all_eq_true.mp hall part hpart
  rw [Bool.and_eq_true, Bool.not_eq_true', List.isEmpty_eq_false_iff] at hnonempty
  exact hnonempty.1

/-- The identifiers of a pre-release are plain. -/
theorem plain_of_suffix? {cs : List Char} {pre build : List String}
    (h : suffix? cs = some (pre, build)) : ∀ s ∈ pre, Plain s := by
  -- the build is read after the pre-release, and leaves it alone
  have hread : ∀ {pre'} {rest : Option (List String)},
      (rest.bind fun build => some (pre', build)) = some (pre, build) → pre' = pre := by
    intro pre' rest h
    obtain ⟨_, _, heq⟩ := Option.bind_eq_some_iff.mp h
    exact congrArg Prod.fst (Option.some.inj heq)
  unfold suffix? at h
  simp only [Option.bind_eq_bind] at h
  split at h
  · rw [Option.bind_some] at h
    have hpre : [] = pre := by split at h <;> exact hread h
    rw [← hpre]
    exact fun _ hs => absurd hs List.not_mem_nil
  · obtain ⟨parts, hparts, h⟩ := Option.bind_eq_some_iff.mp h
    split at h
    · cases h
    · rename_i hzero
      rw [Option.bind_some] at h
      have hpre : parts.map String.ofList = pre := by split at h <;> exact hread h
      rw [← hpre]
      intro s hs
      obtain ⟨part, hpart, rfl⟩ := List.mem_map.mp hs
      rw [List.any_eq_true, not_exists] at hzero
      rw [Plain, String.toList_ofList]
      exact ⟨ne_nil_of_identifiers? hparts part hpart,
        Bool.eq_false_iff.mpr fun hfirst => hzero part ⟨hpart, hfirst⟩⟩
  · cases h

/-- The pre-release of a version that was read is plain. -/
theorem plain_of_parse? {cs : List Char} {v : SemanticVersion} (h : parse? cs = some v) :
    ∀ s ∈ v.pre, Plain s := by
  unfold parse? at h
  simp only [Option.bind_eq_bind, Option.bind_eq_some_iff] at h
  obtain ⟨_, _, _, _, _, _, _, _, _, _, ⟨pre, build⟩, hsuffix, heq⟩ := h
  cases heq
  exact plain_of_suffix? hsuffix

end SemanticVersion

/-! ## 4. Declared texts -/

theorem Text.trimmed_trimmed (s : String) : Text.trimmed (Text.trimmed s) = Text.trimmed s := by
  have hblank : Text.Blank [] := fun _ h => absurd h List.not_mem_nil
  have htrim := Text.trim_of_ends hblank hblank (Text.ends_trim s.toList)
  rw [List.nil_append, List.append_nil] at htrim
  rw [Text.trimmed, Text.trimmed, String.toList_ofList, htrim]

namespace Version

variable {v w : Version} {x y : SemanticVersion}

instance : Std.TransCmp Version.compare := inferInstanceAs (Std.TransOrd Version)

instance : Std.LawfulEqCmp Version.compare := inferInstanceAs (Std.LawfulEqOrd Version)

/-- **A version is not changed by writing it out and reading it again.** -/
theorem ofText_text (s : String) : ofText (ofText s).text = ofText s :=
  congrArg mk (Text.trimmed_trimmed s)

theorem ofText_eq_iff {a b : String} : ofText a = ofText b ↔ Text.trimmed a = Text.trimmed b :=
  ⟨congrArg text, congrArg mk⟩

theorem plain_of_semantic? (h : v.semantic? = some x) : ∀ s ∈ x.pre, SemanticVersion.Plain s :=
  SemanticVersion.plain_of_parse? h

/-- What denotes no semantic version lies below what denotes one. -/
theorem compare_of_not_semantic (hv : v.semantic? = none) (hw : w.semantic?.isSome) :
    v.compare w = .lt := by
  obtain ⟨y, hy⟩ := Option.isSome_iff_exists.mp hw
  refine compareLex_lt_of_lt ?_
  rw [compareOn, hv, hy]
  rfl

theorem compare_of_precedes (hv : v.semantic? = some x) (hw : w.semantic? = some y)
    (h : x.Precedes y) : v.compare w = .lt := by
  refine compareLex_lt_of_lt ?_
  rw [compareOn, hv, hw]
  exact SemanticVersion.compare_of_precedes h

/-- **Where two precedences differ, the order is that of precedence.** -/
theorem compare_eq_lt_iff (hv : v.semantic? = some x) (hw : w.semantic? = some y)
    (h : ¬ x.SamePrecedence y) : v.compare w = .lt ↔ x.Precedes y := by
  refine ⟨fun hlt => ?_, compare_of_precedes hv hw⟩
  rcases SemanticVersion.precedes_total (plain_of_semantic? hv) (plain_of_semantic? hw) with
    hsame | hxy | hyx
  · exact absurd hsame h
  · exact hxy
  · have hswap : v.compare w = (w.compare v).swap := Std.OrientedCmp.eq_swap
    rw [hlt, compare_of_precedes hw hv hyx] at hswap
    cases hswap

end Version

/-- Counting versions by comparing them is counting them by what they are. -/
theorem versionsDiffer_iff_compare {cs : List Candidate} : versionsDiffer cs = true ↔
    ∃ c ∈ cs, ∃ d ∈ cs, Ord.compare c.version d.version ≠ .eq := by
  simp only [versionsDiffer_iff, ne_eq, Std.compare_eq_iff_eq]

/-! ## 5. Versions of modules -/

section Manifests

variable {c : Config} {scanned : List ScannedModule} {ms : List Module}

theorem highest_cases (selected : Option Version) (v : Version) :
    highest selected v = v ∨ selected = some (highest selected v) := by
  cases selected with
  | none => exact Or.inl rfl
  | some s =>
    by_cases h : s.atLeast v = true
    · exact Or.inr (congrArg some (if_pos h).symm)
    · exact Or.inl (if_neg h)

/-- The version that is selected for an identity is one at which it is required. -/
theorem exists_requirement_of_selectVersions {id : Identity} {v : Version}
    (h : (selectVersions scanned).get? id = some v) :
    ∃ s ∈ scanned, ∃ r ∈ s.requires, r.id = id ∧ r.version = v := by
  have hselected : ∀ id v, (selectVersions scanned).get? id = some v →
      ∃ r ∈ scanned.flatMap ScannedModule.requires, r.id = id ∧ r.version = v := by
    refine List.foldlRecOn (motive := fun m : NameMap Version => ∀ id v, m.get? id = some v →
      ∃ r ∈ scanned.flatMap ScannedModule.requires, r.id = id ∧ r.version = v) _ _
      (fun _ _ h => nomatch h) fun m hm r hr id v h => ?_
    rw [NameMap.get?_put] at h
    split at h
    · rename_i hid
      cases h
      rcases highest_cases (m.get? r.id) r.version with hnew | hold
      · exact ⟨r, hr, hid, hnew.symm⟩
      · exact hm id _ (hid ▸ hold)
    · exact hm id v h
  obtain ⟨r, hr, hid, hv⟩ := hselected id v h
  obtain ⟨s, hs, hr⟩ := List.mem_flatMap.mp hr
  exact ⟨s, hs, r, hr, hid, hv⟩

/-- The field of what is declared of a module, if anything is. -/
theorem field_getD {α : Type} (field : Declaration → Option α) (h : field {} = none)
    (declared : Option Declaration) : field (declared.getD {}) = declared.bind field := by
  cases declared with
  | none => exact h
  | some d => rfl

/-- Versions that were read from texts are the same when they are read once more. -/
theorem map_ofText_selected
    (hread : ∀ s ∈ scanned, ∀ r ∈ s.requires, ∃ t, r.version = Version.ofText t) (id : Identity) :
    (((selectVersions scanned).get? id).map Version.text).map Version.ofText =
      (selectVersions scanned).get? id := by
  cases hv : (selectVersions scanned).get? id with
  | none => rfl
  | some v =>
    obtain ⟨s, hs, r, hr, _, rfl⟩ := exists_requirement_of_selectVersions hv
    obtain ⟨t, ht⟩ := hread s hs r hr
    rw [ht, Option.map_some, Option.map_some, Version.ofText_text]

/-- **The module of a scanned module has the version that is declared, or else the one that was
    selected**, where the required versions were read from texts. -/
theorem version_of_found
    (hread : ∀ s ∈ scanned, ∀ r ∈ s.requires, ∃ t, r.version = Version.ofText t)
    {s : ScannedModule} {m : Module} (h : foundModule c scanned s = .ok m) :
    m.version = (((c.modules.get? s.id).bind Declaration.version).map Version.ofText).or
      ((selectVersions scanned).get? s.id) := by
  rw [(Declaration.makes_of_toModule h).version_eq, field_getD Declaration.version rfl,
    Option.map_or, map_ofText_selected hread]

/-- A version that is written out in a declaration makes the same module. -/
theorem toModule_ofText_text (d : Declaration) (text : String) (id : Identity) (tier : Int64) :
    { d with version := some (Version.ofText text).text }.toModule id tier =
      { d with version := some text }.toModule id tier := by
  simp only [Declaration.toModule, Option.map_some, Version.ofText_text]

theorem version_of_mem_manifests
    (hread : ∀ s ∈ scanned, ∀ r ∈ s.requires, ∃ t, r.version = Version.ofText t)
    (h : manifests c scanned = .ok ms) {m : Module} (hm : m ∈ ms)
    (hscanned : m.id ∈ scanned.map ScannedModule.id) :
    m.version = (((c.modules.get? m.id).bind Declaration.version).map Version.ofText).or
      ((selectVersions scanned).get? m.id) := by
  have hne : scanned ≠ [] := by
    rintro rfl
    exact List.not_mem_nil hscanned
  rcases (mem_manifests hne h).mp hm with ⟨s, _, hf⟩ | ⟨p, _, hnew, hd⟩
  · rw [(of_found hf).1]
    exact version_of_found hread hf
  · obtain ⟨_, _, hmade⟩ := Config.makes_of_declaredModule hd
    exact absurd (hmade.id_eq ▸ hscanned) hnew

end Manifests

namespace Version

/-- **The versions that texts declare are totally ordered, by precedence first.** The comparison is
    antisymmetric and transitive. Equal are those versions whose texts are the same but for the
    white space around them: by comparison and by themselves, so that it makes no difference by
    which of the two versions are counted, nor in which order versions come to be sorted. What is
    not a semantic version lies below what is one, and of two semantic versions that differ in
    precedence the preceding one is the lower one. Reading a version from its own text gives it
    back, in a declaration as well, and so the module of a scanned module has just the version that
    is declared for it or, where none is, was selected. -/
theorem order_of_texts (a b c : String) :
    ((ofText b).compare (ofText a) = ((ofText a).compare (ofText b)).swap ∧
      (((ofText a).compare (ofText b)).isLE → ((ofText b).compare (ofText c)).isLE →
        ((ofText a).compare (ofText c)).isLE)) ∧
    (((ofText a).compare (ofText b) = .eq ↔ Text.trimmed a = Text.trimmed b) ∧
      (ofText a = ofText b ↔ Text.trimmed a = Text.trimmed b) ∧
      (∀ cs : List Candidate, versionsDiffer cs = true ↔
        ∃ p ∈ cs, ∃ q ∈ cs, Ord.compare p.version q.version ≠ .eq) ∧
      ∀ vs ws : List Version, vs.Perm ws →
        sortedBy Version.compare vs = sortedBy Version.compare ws) ∧
    ((ofText a).semantic? = none → (ofText b).semantic?.isSome →
      (ofText a).compare (ofText b) = .lt) ∧
    (∀ x y, (ofText a).semantic? = some x → (ofText b).semantic? = some y →
      ¬ x.SamePrecedence y → ((ofText a).compare (ofText b) = .lt ↔ x.Precedes y)) ∧
    ((ofText (ofText a).text).text = (ofText a).text ∧
      (ofText (ofText a).text).semantic? = (ofText a).semantic? ∧
      ∀ (d : Declaration) (id : Identity) (tier : Int64),
        { d with version := some (ofText a).text }.toModule id tier =
          { d with version := some a }.toModule id tier) ∧
    ∀ (config : Config) (scanned : List ScannedModule) (ms : List Module),
      (∀ s ∈ scanned, ∀ r ∈ s.requires, ∃ t, r.version = ofText t) →
      manifests config scanned = .ok ms →
      ∀ m ∈ ms, m.id ∈ scanned.map ScannedModule.id →
        m.version = (((config.modules.get? m.id).bind Declaration.version).map ofText).or
          ((selectVersions scanned).get? m.id) := by
  refine ⟨⟨Std.OrientedCmp.eq_swap, Std.TransCmp.isLE_trans⟩,
    ⟨compare_eq_iff.trans ofText_eq_iff, ofText_eq_iff, fun _ => versionsDiffer_iff_compare,
      fun _ _ => sortedBy_eq_of_perm⟩,
    compare_of_not_semantic, fun x y hx hy => compare_eq_lt_iff hx hy,
    ⟨?_, ?_, fun d => toModule_ofText_text d a⟩,
    fun config scanned ms hread h m hm => version_of_mem_manifests hread h hm⟩
  · rw [ofText_text]
  · rw [ofText_text]

/-- A hash lies below a pre-release, whose identifiers are compared as numbers where they are, and
    white space makes no difference. The library of a scanned pair has the version that is required
    of it. -/
theorem order_of_release_texts :
    (ofText "abc123").compare (ofText "v1.9.0-rc.2") = .lt ∧
    (ofText "v1.9.0-rc.2").compare (ofText " 1.9.0-rc.10 ") = .lt ∧
    (ofText "v1.9.0").compare (ofText " v1.9.0 ") = .eq ∧
    ∃ ms, manifests pinnedTooLow scannedPair = .ok ms ∧
      ∀ m ∈ ms, m.id = "lib" → m.version = some (ofText "v1.0.0") := by
  have hhash : (ofText "abc123").semantic? = none := by decide
  have hlow : (ofText "v1.9.0-rc.2").semantic? = some ⟨1, 9, 0, ["rc", "2"], []⟩ := by
    decide +kernel
  have hhigh : (ofText " 1.9.0-rc.10 ").semantic? = some ⟨1, 9, 0, ["rc", "10"], []⟩ := by
    decide +kernel
  have hprecedes : SemanticVersion.Precedes ⟨1, 9, 0, ["rc", "2"], []⟩
      ⟨1, 9, 0, ["rc", "10"], []⟩ :=
    .preRelease ⟨rfl, rfl, rfl⟩ (by decide) (.cons (.rel (.values rfl rfl (by decide))))
  have hdiffer : ¬ SemanticVersion.SamePrecedence ⟨1, 9, 0, ["rc", "2"], []⟩
      ⟨1, 9, 0, ["rc", "10"], []⟩ := fun h => absurd h.2 (by decide)
  have hread : ∀ s ∈ scannedPair, ∀ r ∈ s.requires, ∃ t, r.version = ofText t := by
    have hversions : ∀ s ∈ scannedPair, ∀ r ∈ s.requires, r.version = ofText "v1.0.0" := by decide
    exact fun s hs r hr => ⟨_, hversions s hs r hr⟩
  obtain ⟨_, _, hbelow, _, _, hmodules⟩ := order_of_texts "abc123" "v1.9.0-rc.2" ""
  obtain ⟨_, _, _, hfollows, _, _⟩ := order_of_texts "v1.9.0-rc.2" " 1.9.0-rc.10 " ""
  obtain ⟨_, ⟨hequal, _⟩, _⟩ := order_of_texts "v1.9.0" " v1.9.0 " ""
  refine ⟨hbelow hhash (by rw [hlow]; rfl), (hfollows _ _ hlow hhigh hdiffer).mpr hprecedes,
    hequal.mpr (by decide), pairOnOneTier, manifests_pinnedTooLow, fun m hm hid => ?_⟩
  rw [hmodules _ _ _ hread manifests_pinnedTooLow m hm (by rw [hid]; decide), hid]
  rfl

end Version

end Isolation
