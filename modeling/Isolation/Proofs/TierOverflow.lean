import Isolation.Proofs.GroundedTiers

/-!
# Tiers of 64 bits

Tiers are kept in 64 bits, and one above the highest of them is the lowest. What tiers mean is said
on the integers, where there is room above each of them. The walk is the same on both, and this file
fixes when it derives the same: when no tier that it derives on the integers leaves the 64 bits,
which is to say that nothing overflows on the way.

* `NameMap.mapValues`, `NameMap.ints` -- 64-bit tiers, read as integers;
* `Fits` -- no tier that is derived on the integers leaves the 64 bits;
* `ints_foldl_examine`, `ints_tierFrom` -- what one call derives, if what it files fits;
* **`fits_iff`** -- the 64-bit tiers are those of the integers if these fit, and only then;
* `fits_of_room` -- it is enough that every pin leaves room for the scanned modules above it.

NOT here: what the tiers are after an overflow.
-/

namespace Isolation

/-! ## 1. One above, and the higher of two -/

theorem max_eq_ite (a b : Int64) : max a b = if a ≤ b then b else a := rfl

instance lawfulOrderMax_int64 : Std.LawfulOrderMax Int64 where
  max_eq_or a b := by
    rw [max_eq_ite]
    split
    · exact Or.inr rfl
    · exact Or.inl rfl
  max_le_iff a b c := by
    rw [max_eq_ite]
    split
    · rename_i h
      exact ⟨fun hc => ⟨Int64.le_trans h hc, hc⟩, And.right⟩
    · rename_i h
      have hba := (Int64.le_total a b).resolve_left h
      exact ⟨fun hc => ⟨hc, Int64.le_trans hba hc⟩, And.left⟩

theorem toInt_max (a b : Int64) : (max a b).toInt = max a.toInt b.toInt := by
  rw [max_eq_ite, Int.max_def]
  simp only [Int64.le_iff_toInt_le]
  split <;> rfl

/-- One above a tier is one above it on the integers, if that fits. -/
theorem toInt_add_one {t : Int64} (h : t.toInt + 1 < 2 ^ 63) : (t + 1).toInt = t.toInt + 1 := by
  have hlow := Int64.le_toInt t
  have hone : (1 : Int64).toInt = 1 := rfl
  rw [Int64.toInt_add, hone]
  exact Int.bmod_eq_of_le (by omega) (by omega)

/-! ## 2. Maps of 64-bit tiers -/

namespace NameMap

section Values

variable {β γ : Type}

/-- The values of a map, each replaced by its image. -/
def mapValues (f : β → γ) (m : NameMap β) : NameMap γ where
  toList := m.toList.map fun p => (p.1, f p.2)
  ascending := List.pairwise_map.mpr m.ascending

theorem get?_mapValues (f : β → γ) (m : NameMap β) (n : String) :
    (m.mapValues f).get? n = (m.get? n).map f := by
  refine Option.ext fun c => ?_
  rw [get?_eq_some_iff, Option.map_eq_some_iff, Register.mem_def, mapValues, List.mem_map]
  simp only [get?_eq_some_iff]
  constructor
  · rintro ⟨⟨n', b⟩, hb, e⟩
    cases e
    exact ⟨b, hb, rfl⟩
  · rintro ⟨b, hb, rfl⟩
    exact ⟨(n, b), hb, rfl⟩

end Values

/-- The tiers of a map, read as integers. -/
def ints (m : NameMap Int64) : NameMap Int := m.mapValues Int64.toInt

variable {m : NameMap Int64}

theorem get?_ints (m : NameMap Int64) (n : String) :
    m.ints.get? n = (m.get? n).map Int64.toInt := get?_mapValues Int64.toInt m n

theorem get?_ints_eq_some_iff {n : String} {t : Int} :
    m.ints.get? n = some t ↔ ∃ u, m.get? n = some u ∧ u.toInt = t := by
  rw [get?_ints, Option.map_eq_some_iff]

theorem ints_put (m : NameMap Int64) (k : String) (t : Int64) :
    (m.put k t).ints = m.ints.put k t.toInt := by
  refine ext_get? fun n => ?_
  rw [get?_ints, get?_put, get?_put, get?_ints]
  split <;> rfl

theorem ints_putNew (m : NameMap Int64) (k : String) (t : Int64) :
    (m.putNew k t).ints = m.ints.putNew k t.toInt := by
  refine ext_get? fun n => ?_
  rw [get?_ints, get?_putNew, get?_putNew, get?_ints, get?_ints]
  split
  · rw [Option.map_some, Option.getD_map]
  · rfl

end NameMap

/-- What is derived from what does not depend on which tiers are pinned. -/
theorem derives_mapValues {β γ : Type} (f : β → γ) {requirements : NameMap (List Identity)}
    {pinned : NameMap β} :
    Derives requirements (pinned.mapValues f) = Derives requirements pinned := by
  funext a d
  rw [Derives, Derives, NameMap.get?_mapValues, Option.map_eq_none_iff]

theorem DerivationChain.of_ints {requirements : NameMap (List Identity)} {pinned : NameMap Int64}
    {a b : Identity} {n : Nat} (h : DerivationChain requirements pinned.ints a n b) :
    DerivationChain requirements pinned a n b := by
  induction h with
  | nil id => exact .nil id
  | cons hd _ ih => exact .cons (derives_mapValues Int64.toInt ▸ hd) ih

/-! ## 3. One call -/

section Call

/-- Every tier is less than `2 ^ 63`, and so is the best candidate. -/
structure Small (acc : Option Int × NameMap Int) : Prop where
  best : ∀ b ∈ acc.1, b < 2 ^ 63
  tiers : ∀ n t, acc.2.get? n = some t → t < 2 ^ 63

/-- The best candidate and the tiers derived so far, read as integers. -/
def readInts (acc : Option Int64 × NameMap Int64) : Option Int × NameMap Int :=
  (acc.1.map Int64.toInt, acc.2.ints)

theorem readInts_getD (acc : Option Int64 × NameMap Int64) :
    (readInts acc).1.getD 0 = (acc.1.getD 0).toInt := by
  rw [readInts]
  cases acc.1 <;> rfl

theorem toInt_higher (best : Option Int64) (t : Int64) :
    (higher best t).map Int64.toInt = higher (best.map Int64.toInt) t.toInt := by
  cases best with
  | none => rfl
  | some b => exact congrArg some (toInt_max b t)

theorem exists_higher (best : Option Int) (t : Int) :
    ∃ h, higher best t = some h ∧ t ≤ h ∧ ∀ b ∈ best, b ≤ h := by
  cases best with
  | none => exact ⟨t, rfl, Int.le_refl t, fun b hb => absurd hb (Option.not_mem_none b)⟩
  | some b =>
    refine ⟨max b t, rfl, Int.le_max_right b t, fun b' hb => ?_⟩
    cases hb
    exact Int.le_max_left b t

variable {requirements : NameMap (List Identity)} {pinned : NameMap Int64}

theorem or_ints (tiers : NameMap Int64) (id : Identity) :
    (pinned.ints.get? id).or (tiers.ints.get? id) =
      ((pinned.get? id).or (tiers.get? id)).map Int64.toInt := by
  rw [NameMap.get?_ints, NameMap.get?_ints, Option.map_or]

/-- One requirement is looked at with the same result if the candidate fits. -/
theorem ints_examine {visiting : List Identity} {acc : Option Int64 × NameMap Int64} {d : Identity}
    (hcall : tierFrom requirements pinned.ints visiting acc.2.ints d =
      ((tierFrom requirements pinned visiting acc.2 d).1.toInt,
        (tierFrom requirements pinned visiting acc.2 d).2.ints))
    (hsmall : Small (examine requirements pinned.ints visiting (readInts acc) d)) :
    examine requirements pinned.ints visiting (readInts acc) d =
      readInts (examine requirements pinned visiting acc d) := by
  obtain ⟨h, hh, hle, _⟩ := exists_higher (acc.1.map Int64.toInt)
    ((tierFrom requirements pinned visiting acc.2 d).1.toInt + 1)
  have hexamine : examine requirements pinned.ints visiting (readInts acc) d =
      (higher (acc.1.map Int64.toInt)
          ((tierFrom requirements pinned visiting acc.2 d).1.toInt + 1),
        (tierFrom requirements pinned visiting acc.2 d).2.ints) := by
    rw [examine, readInts, hcall]
  rw [hexamine] at hsmall ⊢
  have hlt : h < 2 ^ 63 := hsmall.best h hh
  rw [← toInt_add_one (by omega), ← toInt_higher]
  rfl

/-- What is small after a requirement was looked at was small before. -/
theorem Small.of_examine {pinned : NameMap Int} {visiting : List Identity}
    {acc : Option Int × NameMap Int} {d : Identity}
    (h : Small (examine requirements pinned visiting acc d))
    (hkept : NameMap.Extends acc.2 (tierFrom requirements pinned visiting acc.2 d).2) :
    Small acc := by
  obtain ⟨b', hb', _, hle⟩ := exists_higher acc.1
    ((tierFrom requirements pinned visiting acc.2 d).1 + 1)
  exact ⟨fun b hb => Int.lt_of_le_of_lt (hle b hb) (h.best b' hb'),
    fun n t ht => h.tiers n t (hkept n t ht)⟩

/-- What is small once the best candidate is filed was small before. -/
theorem Small.of_filed {acc : Option Int × NameMap Int} {id : Identity}
    (hnew : acc.2.get? id = none)
    (h : ∀ n t, (acc.2.put id (acc.1.getD 0)).get? n = some t → t < 2 ^ 63) : Small acc := by
  refine ⟨fun b hb => h id b ?_, fun n t ht => h n t ?_⟩
  · rw [NameMap.get?_put, if_pos rfl, Option.mem_def.mp hb, Option.getD_some]
  · rw [NameMap.get?_put, if_neg, ht]
    rintro rfl
    exact nomatch hnew.symm.trans ht

/-- All requirements are looked at with the same result if every candidate fits and every tier. -/
theorem ints_foldl_examine {visiting : List Identity} {tiers : NameMap Int64} {id : Identity}
    {required : List Identity}
    (hs : Standing requirements pinned.ints (fun _ => True) visiting tiers.ints)
    (hk : (pinned.ints.get? id).or (tiers.ints.get? id) = none)
    (hd : ∀ d ∈ required, Derives requirements pinned.ints id d)
    (hcall : ∀ tiers : NameMap Int64, ∀ d ∈ required,
      Standing requirements pinned.ints (fun _ => True) (id :: visiting) tiers.ints →
      (∀ n t, (tierFrom requirements pinned.ints (id :: visiting) tiers.ints d).2.get? n = some t →
        t < 2 ^ 63) →
      tierFrom requirements pinned.ints (id :: visiting) tiers.ints d =
        ((tierFrom requirements pinned (id :: visiting) tiers d).1.toInt,
          (tierFrom requirements pinned (id :: visiting) tiers d).2.ints))
    (hsmall : Small (required.foldl (examine requirements pinned.ints (id :: visiting))
      (none, tiers.ints))) :
    required.foldl (examine requirements pinned.ints (id :: visiting)) (none, tiers.ints) =
      readInts (required.foldl (examine requirements pinned (id :: visiting)) (none, tiers)) := by
  -- from the last requirement backwards: what is small in the end was small before
  induction required using List.reverseRecOn with
  | nil => rfl
  | append_singleton ds d ih =>
    have hds : ∀ e ∈ ds, e ∈ ds ++ [d] := fun e he => List.mem_append_left _ he
    have hlast : d ∈ ds ++ [d] := List.mem_append_right _ (List.mem_singleton_self d)
    have hexplored : ∀ tiers' e, Standing requirements pinned.ints (fun _ => True)
        (id :: visiting) tiers' → Explored requirements pinned.ints (fun _ => True)
          (id :: visiting) tiers' e (tierFrom requirements pinned.ints (id :: visiting) tiers' e) :=
      fun tiers' e hs' => explored_tierFrom (fun _ _ _ => trivial) _ tiers' e trivial hs'
    have hbefore := (hs.examined hk).foldl (fun e he => hd e (hds e he))
      fun tiers' e _ hs' => hexplored tiers' e hs'
    have hkept := (hexplored _ d hbefore.standing).kept
    rw [List.foldl_append, List.foldl_cons, List.foldl_nil] at hsmall ⊢
    rw [List.foldl_append, List.foldl_cons, List.foldl_nil]
    have hagree := ih (fun e he => hd e (hds e he)) (fun tiers' e he => hcall tiers' e (hds e he))
      (hsmall.of_examine hkept)
    rw [hagree] at hbefore hsmall ⊢
    exact ints_examine (hcall _ d hlast hbefore.standing hsmall.tiers) hsmall

/-- **One call derives the same if all that it files on the integers fits.** -/
theorem ints_tierFrom (visiting : List Identity) (tiers : NameMap Int64) (id : Identity)
    (hs : Standing requirements pinned.ints (fun _ => True) visiting tiers.ints)
    (hsmall : ∀ n t, (tierFrom requirements pinned.ints visiting tiers.ints id).2.get? n = some t →
      t < 2 ^ 63) :
    tierFrom requirements pinned.ints visiting tiers.ints id =
      ((tierFrom requirements pinned visiting tiers id).1.toInt,
        (tierFrom requirements pinned visiting tiers id).2.ints) := by
  induction visiting, tiers, id using tierFrom.induct requirements pinned with
  | case1 visiting tiers id t hk =>
    have hk' : (pinned.ints.get? id).or (tiers.ints.get? id) = some t.toInt := by
      rw [or_ints, hk, Option.map_some]
    rw [tierFrom_of_known hk, tierFrom_of_known hk', NameMap.ints_putNew]
  | case2 visiting tiers id hk hmem =>
    have hk' : (pinned.ints.get? id).or (tiers.ints.get? id) = none := by
      rw [or_ints, hk, Option.map_none]
    rw [tierFrom_of_open hk hmem, tierFrom_of_open hk' hmem]
    rfl
  | case3 visiting tiers id hk hmem hr =>
    have hk' : (pinned.ints.get? id).or (tiers.ints.get? id) = none := by
      rw [or_ints, hk, Option.map_none]
    rw [tierFrom_of_unscanned hk hmem hr, tierFrom_of_unscanned hk' hmem hr, NameMap.ints_put]
    rfl
  | case4 visiting tiers id hk hmem required hr ih =>
    have hk' : (pinned.ints.get? id).or (tiers.ints.get? id) = none := by
      rw [or_ints, hk, Option.map_none]
    have hd : ∀ d ∈ required, Derives requirements pinned.ints id d :=
      fun d hd => ⟨(Option.or_eq_none_iff.mp hk').1, required, hr, hd⟩
    rw [tierFrom_of_scanned hk' hmem hr] at hsmall ⊢
    rw [tierFrom_of_scanned hk hmem hr]
    have hexamined := (hs.examined hk').foldl hd fun tiers' d _ hs' =>
      explored_tierFrom (fun _ _ _ => trivial) _ tiers' d trivial hs'
    have hopen := hexamined.standing.opened id List.mem_cons_self
    have hwalked := Small.of_filed (Option.or_eq_none_iff.mp hopen).2 hsmall
    have hagree := ints_foldl_examine hs hk' hd (fun tiers' d _ => ih (none, tiers') d) hwalked
    dsimp only
    rw [hagree, readInts_getD, NameMap.ints_put]
    rfl

end Call

/-! ## 4. A whole scan -/

variable {scanned : List ScannedModule} {pinned : NameMap Int64}

/-- **Nothing overflows**: no tier that is derived on the integers leaves the 64 bits. -/
def Fits (scanned : List ScannedModule) (pinned : NameMap Int64) : Prop :=
  ∀ id t, (deriveTiers scanned pinned.ints).get? id = some t → t < 2 ^ 63

theorem ints_foldl_tierFrom {requirements : NameMap (List Identity)} (ss : List ScannedModule)
    (tiers : NameMap Int64)
    (hs : Standing requirements pinned.ints (fun _ => True) [] tiers.ints)
    (hsmall : ∀ n t, (ss.foldl
      (fun tiers s => (tierFrom requirements pinned.ints [] tiers s.id).2) tiers.ints).get? n =
        some t → t < 2 ^ 63) :
    (ss.foldl (fun tiers s => (tierFrom requirements pinned [] tiers s.id).2) tiers).ints =
      ss.foldl (fun tiers s => (tierFrom requirements pinned.ints [] tiers s.id).2) tiers.ints := by
  induction ss generalizing tiers with
  | nil => rfl
  | cons s ss ih =>
    have hasked : ∀ a d, Derives requirements pinned.ints a d → (fun _ => True) d :=
      fun _ _ _ => trivial
    have hcall := explored_tierFrom hasked [] tiers.ints s.id trivial hs
    have hkept := (standing_foldl_tierFrom hasked ss (fun _ _ => trivial) hcall.standing).2.1
    have hagree := ints_tierFrom [] tiers s.id hs fun n t ht => hsmall n t (hkept n t ht)
    rw [List.foldl_cons] at hsmall
    rw [List.foldl_cons, List.foldl_cons]
    have hstanding := hcall.standing
    rw [hagree] at hsmall hstanding ⊢
    exact ih _ hstanding hsmall

/-- **Where nothing overflows, the 64-bit tiers are those of the integers**, and only there. -/
theorem fits_iff :
    Fits scanned pinned ↔ (deriveTiers scanned pinned).ints = deriveTiers scanned pinned.ints := by
  constructor
  · exact ints_foldl_tierFrom scanned Register.empty standing_empty
  · intro h id t ht
    rw [← h, NameMap.get?_ints_eq_some_iff] at ht
    obtain ⟨u, _, rfl⟩ := ht
    exact u.toInt_lt

/-- What is true of every tier on the integers is true of every 64-bit tier, if these fit. -/
theorem Fits.get?_ints (h : Fits scanned pinned) {id : Identity} {t : Int64}
    (ht : (deriveTiers scanned pinned).get? id = some t) :
    (deriveTiers scanned pinned.ints).get? id = some t.toInt := by
  rw [← fits_iff.mp h, NameMap.get?_ints, ht, Option.map_some]

/-- So every 64-bit tier is a pin, or 0, raised by one in each step of a chain of derivations. -/
theorem Fits.exists_derivationChain (h : Fits scanned pinned) {id : Identity} {t : Int64}
    (ht : (deriveTiers scanned pinned).get? id = some t) :
    ∃ n b, n ≤ scanned.length ∧ DerivationChain (requirementMap scanned) pinned id n b ∧
      t.toInt = ((pinned.get? b).map Int64.toInt).getD 0 + n := by
  obtain ⟨n, b, hn, hc, htb⟩ := Isolation.exists_derivationChain (h.get?_ints ht)
  exact ⟨n, b, hn, hc.of_ints, by rw [htb, NameMap.get?_ints]⟩

/-- **Nothing overflows where every pin leaves room** for as many steps up as there are scanned
    modules. -/
theorem fits_of_room (hlen : scanned.length < 2 ^ 63)
    (hroom : ∀ b p, pinned.get? b = some p → p.toInt + scanned.length < 2 ^ 63) :
    Fits scanned pinned := by
  intro id t ht
  obtain ⟨n, b, hn, _, rfl⟩ := exists_derivationChain ht
  rw [NameMap.get?_ints]
  cases hb : pinned.get? b with
  | none =>
    rw [Option.map_none, Option.getD_none]
    omega
  | some p =>
    have hp := hroom b p hb
    rw [Option.map_some, Option.getD_some]
    omega

end Isolation
