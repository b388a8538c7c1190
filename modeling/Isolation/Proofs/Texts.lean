import Isolation.Text.Fields
import Mathlib.Data.List.Infix

/-!
# What is taken apart again

The readers of the library trim texts and cut them into words and lines. This file says what they
give on a text that was put together from parts: the parts, whatever white space lies between them.

* `Blank` -- a text of white space; `Solid` -- a text without any; `Trimmed` -- one without white
  space at its two ends;
* `trim_eq_iff` -- trimming takes off the white space at the two ends, and no more;
* `words_append`, `words_of_solid` -- a word ends where white space begins;
* `cut?_append`, `not_infix_of_cut?`, `cut?_eq_none_iff` -- a text is cut where the separator occurs
  first;
* `lines_append` -- a line ends with the first line feed.
-/

namespace Isolation.Text

/-- A text of white space, possibly empty. -/
def Blank (cs : List Char) : Prop := ∀ c ∈ cs, isBlank c = true

/-- A text without white space, possibly empty. -/
def Solid (cs : List Char) : Prop := ∀ c ∈ cs, isBlank c = false

/-- A text without white space at its two ends. -/
def Trimmed (cs : List Char) : Prop :=
  (∀ c ∈ cs.head?, isBlank c = false) ∧ ∀ c ∈ cs.getLast?, isBlank c = false

instance (cs : List Char) : Decidable (Blank cs) :=
  List.decidableBAll (fun c => isBlank c = true) cs

instance (cs : List Char) : Decidable (Solid cs) :=
  List.decidableBAll (fun c => isBlank c = false) cs

variable {cs pre post w gap r : List Char}

theorem Blank.append (h : Blank pre) (h' : Blank post) : Blank (pre ++ post) :=
  List.forall_mem_append.mpr ⟨h, h'⟩

/-- A text begins with as much white space as there is. -/
theorem exists_blank_append (cs : List Char) :
    ∃ gap rest, Blank gap ∧ (∀ c ∈ rest.head?, isBlank c = false) ∧ cs = gap ++ rest := by
  refine ⟨cs.takeWhile isBlank, cs.dropWhile isBlank, fun c hc => ?_, fun c hc => ?_,
    List.takeWhile_append_dropWhile.symm⟩
  · exact List.all_eq_true.mp List.all_takeWhile c hc
  · have hdrop := List.head?_dropWhile_not isBlank cs
    rw [show (cs.dropWhile isBlank).head? = some c from hc] at hdrop
    exact hdrop

/-- A text begins with as much as there is without white space. -/
theorem exists_solid_append (cs : List Char) :
    ∃ w rest, Solid w ∧ (∀ c ∈ rest.head?, isBlank c = true) ∧ cs = w ++ rest := by
  refine ⟨cs.takeWhile (!isBlank ·), cs.dropWhile (!isBlank ·), fun c hc => ?_, fun c hc => ?_,
    List.takeWhile_append_dropWhile.symm⟩
  · simpa using List.all_eq_true.mp List.all_takeWhile c hc
  · have hdrop := List.head?_dropWhile_not (!isBlank ·) cs
    rw [show (cs.dropWhile (!isBlank ·)).head? = some c from hc] at hdrop
    simpa using hdrop

/-! ## 1. Trimming -/

theorem trimStart_append (h : Blank pre) (cs : List Char) :
    trimStart (pre ++ cs) = trimStart cs := by
  unfold trimStart
  induction pre with
  | nil => rfl
  | cons c pre ih =>
    obtain ⟨hc, hpre⟩ := List.forall_mem_cons.mp h
    rw [List.cons_append, List.dropWhile_cons_of_pos hc]
    exact ih hpre

theorem trimEnd_append (h : Blank post) (cs : List Char) : trimEnd (cs ++ post) = trimEnd cs := by
  induction cs with
  | nil => exact trimEnd_eq_nil_iff.mpr h
  | cons c cs ih => rw [List.cons_append, trimEnd, trimEnd, ih]

theorem trimStart_of_head (h : ∀ c ∈ cs.head?, isBlank c = false) : trimStart cs = cs := by
  cases cs with
  | nil => rfl
  | cons c cs =>
    have hc : ¬ isBlank c = true := by
      rw [h c rfl]
      exact Bool.false_ne_true
    exact List.dropWhile_cons_of_neg hc

theorem trimEnd_of_last (h : ∀ c ∈ cs.getLast?, isBlank c = false) : trimEnd cs = cs := by
  induction cs with
  | nil => rfl
  | cons c cs ih =>
    cases cs with
    | nil =>
      have hc : isBlank c = false := h c rfl
      rw [trimEnd, trimEnd, hc]
      rfl
    | cons d cs =>
      rw [List.getLast?_cons_cons] at h
      rw [trimEnd, ih h]

/-- What trimming takes off is white space. -/
theorem exists_eq_trim (cs : List Char) :
    ∃ pre post, Blank pre ∧ Blank post ∧ cs = pre ++ trim cs ++ post := by
  have hend : ∀ l : List Char, ∃ post, Blank post ∧ l = trimEnd l ++ post := by
    intro l
    induction l with
    | nil => exact ⟨[], by simp [Blank], rfl⟩
    | cons c l ih =>
      obtain ⟨post, hpost, hl⟩ := ih
      rw [trimEnd]
      cases ht : trimEnd l with
      | nil =>
        rw [ht, List.nil_append] at hl
        by_cases hc : isBlank c = true
        · refine ⟨c :: post, List.forall_mem_cons.mpr ⟨hc, hpost⟩, ?_⟩
          rw [hl]
          simp [hc]
        · refine ⟨post, hpost, ?_⟩
          rw [hl]
          simp [hc]
      | cons d t =>
        rw [ht] at hl
        refine ⟨post, hpost, ?_⟩
        rw [List.cons_append, ← hl]
  obtain ⟨post, hpost, he⟩ := hend (trimStart cs)
  refine ⟨cs.takeWhile isBlank, post, fun c hc => ?_, hpost, ?_⟩
  · exact List.all_eq_true.mp List.all_takeWhile c hc
  · rw [List.append_assoc, trim, ← he]
    exact List.takeWhile_append_dropWhile.symm

theorem head?_of_head?_trimEnd {c : Char} (h : (trimEnd cs).head? = some c) :
    cs.head? = some c := by
  cases cs with
  | nil => cases h
  | cons d cs =>
    rw [trimEnd] at h
    split at h
    · split at h
      · cases h
      · exact h
    · exact h

/-- Trimming leaves no white space at the two ends. -/
theorem ends_trim (cs : List Char) : Trimmed (trim cs) := by
  constructor
  · intro c hc
    have hdrop := List.head?_dropWhile_not isBlank cs
    rw [show (cs.dropWhile isBlank).head? = some c from head?_of_head?_trimEnd hc] at hdrop
    exact hdrop
  · intro c hc
    have hne : trimEnd (trimStart cs) ≠ [] := by
      intro he
      rw [trim, he] at hc
      cases hc
    rw [trim, List.getLast?_eq_some_getLast hne] at hc
    cases hc
    exact isBlank_getLast_trimEnd hne

/-- White space at the end makes no difference to trimming. -/
theorem trim_append_blank (h : Blank post) (cs : List Char) : trim (cs ++ post) = trim cs := by
  rw [trim, trim, trimStart, trimStart, List.dropWhile_append]
  split
  · rename_i he
    rw [List.isEmpty_iff.mp he, trimEnd, trimEnd_eq_nil_iff]
    exact fun c hc => h c ((List.dropWhile_suffix _).subset hc)
  · exact trimEnd_append h _

/-- Trimming takes off white space at the ends, up to characters that are none. -/
theorem trim_of_ends (hpre : Blank pre) (hpost : Blank post) (h : Trimmed w) :
    trim (pre ++ w ++ post) = w := by
  obtain ⟨hhead, hlast⟩ := h
  rw [trim, List.append_assoc, trimStart_append hpre]
  cases w with
  | nil =>
    rw [List.nil_append, trimEnd_eq_nil_iff]
    exact fun c hc => hpost c ((List.dropWhile_suffix _).subset hc)
  | cons c w =>
    have hstart : trimStart (c :: w ++ post) = c :: w ++ post :=
      trimStart_of_head fun d hd => hhead d hd
    rw [hstart, trimEnd_append hpost, trimEnd_of_last hlast]

theorem Solid.trimmed (hw : Solid w) : Trimmed w :=
  ⟨fun c hc => hw c (List.mem_of_mem_head? hc), fun c hc => hw c (List.mem_of_getLast? hc)⟩

/-- **Trimming leaves a text** of exactly those texts that are this one with white space around
    it. -/
theorem trim_eq_iff (hw : Trimmed w) :
    trim cs = w ↔ ∃ pre post, Blank pre ∧ Blank post ∧ cs = pre ++ w ++ post := by
  constructor
  · rintro rfl
    exact exists_eq_trim cs
  · rintro ⟨pre, post, hpre, hpost, rfl⟩
    exact trim_of_ends hpre hpost hw

/-! ## 2. Words -/

theorem fields_append {sep : Char → Bool} (h : ∀ c ∈ w, sep c = false) {f : List Char}
    {fs : List (List Char)} (hr : fields sep r = f :: fs) :
    fields sep (w ++ r) = (w ++ f) :: fs := by
  induction w with
  | nil => exact hr
  | cons c w ih =>
    obtain ⟨hc, hw⟩ := List.forall_mem_cons.mp h
    rw [List.cons_append, fields, ih hw, hc]
    rfl

theorem fields_append_sep {sep : Char → Bool} (h : ∀ c ∈ w, sep c = false) {c : Char}
    (hc : sep c = true) (r : List Char) : fields sep (w ++ c :: r) = w :: fields sep r := by
  have hr : fields sep (c :: r) = [] :: fields sep r := by
    rw [fields, if_pos hc]
  rw [fields_append h hr, List.append_nil]

theorem fields_of_no_sep {sep : Char → Bool} (h : ∀ c ∈ w, sep c = false) : fields sep w = [w] := by
  have hw : fields sep (w ++ []) = [w ++ []] := fields_append h rfl
  rwa [List.append_nil] at hw

theorem words_nil : words [] = [] := rfl

theorem words_append_blank (h : Blank gap) (cs : List Char) : words (gap ++ cs) = words cs := by
  induction gap with
  | nil => rfl
  | cons c gap ih =>
    obtain ⟨hc, hgap⟩ := List.forall_mem_cons.mp h
    rw [← ih hgap, words, words, List.cons_append, fields, if_pos hc]
    exact List.filter_cons_of_neg (by simp)

theorem words_of_solid (hw : Solid w) (hne : w ≠ []) : words w = [w] := by
  rw [words, fields_of_no_sep hw]
  exact List.filter_cons_of_pos (by simpa using hne)

/-- **A word ends where white space begins.** -/
theorem words_append (hw : Solid w) (hne : w ≠ []) (hg : Blank gap) (hgne : gap ≠ [])
    (cs : List Char) : words (w ++ gap ++ cs) = w :: words cs := by
  cases gap with
  | nil => exact absurd rfl hgne
  | cons c gap =>
    obtain ⟨hc, hgap⟩ := List.forall_mem_cons.mp hg
    rw [← words_append_blank hgap cs, List.append_assoc, List.cons_append, words,
      fields_append_sep hw hc, words]
    exact List.filter_cons_of_pos (by simpa using hne)

theorem fields_concat_sep {sep : Char → Bool} {c : Char} (hc : sep c = true) (cs : List Char) :
    fields sep (cs ++ [c]) = fields sep cs ++ [[]] := by
  induction cs with
  | nil => simp [fields, hc]
  | cons d cs ih =>
    obtain ⟨f, fs, hf⟩ := List.exists_cons_of_ne_nil (fields_ne_nil sep cs)
    by_cases hd : sep d = true
    · simp [fields, hd, ih]
    · simp [fields, hd, ih, hf]

/-- White space at the end makes no difference to the words. -/
theorem words_concat_blank {c : Char} (hc : isBlank c = true) (cs : List Char) :
    words (cs ++ [c]) = words cs := by
  rw [words, words, fields_concat_sep hc, List.filter_append]
  simp

/-! ## 3. Cutting at a separator -/

variable {sep : List Char}

theorem after?_append (s r : List Char) : after? s (s ++ r) = some r :=
  after?_eq_some_iff.mpr rfl

/-- A text without the separator is not cut. -/
theorem cut?_eq_none_iff : cut? sep cs = none ↔ ¬ sep <:+: cs := by
  constructor
  · rintro h ⟨a, b, rfl⟩
    induction a with
    | nil =>
      rw [List.nil_append] at h
      cases hs : sep ++ b with
      | nil =>
        obtain ⟨rfl, rfl⟩ := List.append_eq_nil_iff.mp hs
        cases h
      | cons c t =>
        rw [hs, cut?, ← hs, after?_append] at h
        cases h
    | cons c a ih =>
      rw [List.cons_append, List.cons_append, cut?] at h
      split at h
      · cases h
      · exact ih (Option.map_eq_none_iff.mp h)
  · intro h
    cases hc : cut? sep cs with
    | none => rfl
    | some p =>
      refine absurd ?_ h
      exact ⟨p.1, p.2, (eq_of_cut? hc).symm⟩

/-- **A text is cut at the separator** where no other one begins before it. -/
theorem cut?_append {a : List Char} (b : List Char) (hne : sep ≠ [])
    (h : ¬ sep <:+: a ++ sep.dropLast) : cut? sep (a ++ sep ++ b) = some (a, b) := by
  induction a with
  | nil =>
    rw [List.nil_append]
    cases hs : sep ++ b with
    | nil => exact absurd (List.append_eq_nil_iff.mp hs).1 hne
    | cons c t => rw [cut?, ← hs, after?_append]
  | cons c a ih =>
    have hlater : ¬ sep <:+: a ++ sep.dropLast := fun hi =>
      h (hi.trans (List.suffix_cons c _).isInfix)
    have hnone : after? sep (c :: (a ++ sep ++ b)) = none := by
      cases ha : after? sep (c :: (a ++ sep ++ b)) with
      | none => rfl
      | some rest =>
        -- a separator that begins at `c` would end before the last character of the other one
        have hpre : sep <+: c :: (a ++ sep ++ b) := ⟨rest, (after?_eq_some_iff.mp ha).symm⟩
        have hlong : c :: a ++ sep.dropLast <+: c :: (a ++ sep ++ b) := by
          refine ⟨[sep.getLast hne] ++ b, ?_⟩
          rw [← List.append_assoc, List.append_assoc _ sep.dropLast,
            List.dropLast_append_getLast hne]
          simp
        refine absurd (List.prefix_of_prefix_length_le hpre hlong ?_).isInfix h
        have := List.length_pos_of_ne_nil hne
        simp
        omega
    rw [List.cons_append, List.cons_append, cut?, hnone, ih hlater]
    rfl

/-- No separator begins before the one at which a text is cut. -/
theorem not_infix_of_cut? {a b : List Char} (hne : sep ≠ []) (h : cut? sep cs = some (a, b)) :
    ¬ sep <:+: a ++ sep.dropLast := by
  induction cs generalizing a b with
  | nil =>
    obtain ⟨x, hx, _⟩ := Option.map_eq_some_iff.mp h
    exact absurd (List.append_eq_nil_iff.mp (after?_eq_some_iff.mp hx).symm).1 hne
  | cons c cs ih =>
    rw [cut?] at h
    split at h
    · cases h
      intro hi
      have hle := hi.length_le
      have hpos := List.length_pos_of_ne_nil hne
      rw [List.nil_append, List.length_dropLast] at hle
      omega
    · rename_i hnone
      obtain ⟨⟨a', b'⟩, hcut, e⟩ := Option.map_eq_some_iff.mp h
      cases e
      intro hi
      rcases List.infix_cons_iff.mp hi with hpre | hi
      · have hlong : c :: (a' ++ sep.dropLast) <+: c :: cs := by
          refine ⟨[sep.getLast hne] ++ b', ?_⟩
          rw [List.cons_append, ← List.append_assoc, List.append_assoc a',
            List.dropLast_append_getLast hne, ← eq_of_cut? hcut]
        obtain ⟨rest, hrest⟩ := hpre.trans hlong
        rw [← hrest, after?_append] at hnone
        cases hnone
      · exact ih hcut hi

/-- What is cut is cut at the same place when more follows. -/
theorem cut?_append_of_some {a b : List Char} (h : cut? sep cs = some (a, b)) (r : List Char) :
    cut? sep (cs ++ r) = some (a, b ++ r) := by
  induction cs generalizing a b with
  | nil =>
    rw [cut?, Option.map_eq_some_iff] at h
    obtain ⟨rest, hrest, e⟩ := h
    cases e
    obtain ⟨rfl, rfl⟩ := List.append_eq_nil_iff.mp (after?_eq_some_iff.mp hrest).symm
    cases r <;> rfl
  | cons c cs ih =>
    rw [cut?] at h
    split at h
    · rename_i rest hrest
      cases h
      rw [after?_eq_some_iff] at hrest
      rw [List.cons_append, cut?, ← List.cons_append, hrest, List.append_assoc, after?_append]
    · rename_i hnone
      obtain ⟨⟨a', b'⟩, hcut, e⟩ := Option.map_eq_some_iff.mp h
      cases e
      have hnone' : after? sep (c :: (cs ++ r)) = none := by
        cases ha : after? sep (c :: (cs ++ r)) with
        | none => rfl
        | some rest =>
          -- the separator fits into what is there already
          have hlen : sep.length ≤ (c :: cs).length := by
            rw [eq_of_cut? hcut]
            simp
            omega
          have hpre : sep <+: c :: cs := List.prefix_of_prefix_length_le
            ⟨rest, (after?_eq_some_iff.mp ha).symm⟩ (List.prefix_append (c :: cs) r) hlen
          obtain ⟨rest', hrest'⟩ := hpre
          rw [← hrest', after?_append] at hnone
          cases hnone
      rw [List.cons_append, cut?, hnone', ih hcut]
      rfl

/-! ## 4. Lines -/

theorem lines_nil : lines [] = [] := rfl

theorem beq_lineFeed_of_not_mem (h : '\n' ∉ cs) : ∀ c ∈ cs, (c == '\n') = false := by
  intro c hc
  rw [beq_eq_false_iff_ne]
  rintro rfl
  exact h hc

theorem lines_of_ne_nil (h : '\n' ∉ cs) (hne : cs ≠ []) : lines cs = [cs] := by
  have hf : fields (· == '\n') cs = [cs] := fields_of_no_sep (beq_lineFeed_of_not_mem h)
  cases cs with
  | nil => exact absurd rfl hne
  | cons c cs => rw [lines, hf]; rfl

/-- **A line ends with the first line feed.** -/
theorem lines_append (h : '\n' ∉ cs) (r : List Char) :
    lines (cs ++ '\n' :: r) = dropReturn cs :: lines r := by
  have hf : fields (· == '\n') (cs ++ '\n' :: r) = cs :: fields (· == '\n') r :=
    fields_append_sep (beq_lineFeed_of_not_mem h) rfl r
  obtain ⟨f, fs, hr⟩ := List.exists_cons_of_ne_nil (fields_ne_nil (· == '\n') r)
  rw [lines, lines, hf, hr, List.dropLast_cons_cons, List.getLast?_cons_cons, List.map_cons]
  split <;> rfl

/-- Only a carriage return is ever dropped from a line. -/
theorem dropReturn_cases (cs : List Char) :
    dropReturn cs = cs ∨ cs = dropReturn cs ++ ['\r'] := by
  induction cs using dropReturn.induct with
  | case1 => exact Or.inl rfl
  | case2 => exact Or.inr rfl
  | case3 c r hne ih =>
    rw [dropReturn]
    · rcases ih with ih | ih
      · exact Or.inl (by rw [ih])
      · exact Or.inr (by rw [List.cons_append, ← ih])
    · exact hne

/-- A carriage return at the end of a line is white space. -/
theorem words_dropReturn (cs : List Char) : words (dropReturn cs) = words cs := by
  rcases dropReturn_cases cs with h | h
  · rw [h]
  · have hwords : words (dropReturn cs ++ ['\r']) = words (dropReturn cs) :=
      words_concat_blank (by decide) _
    rw [← hwords, ← h]

end Isolation.Text
