import Isolation.Proofs.GoModLines
import Mathlib.Data.List.Forall2

/-!
# White space on the lines of a `go.mod` document

How much white space stands between the words of a line makes no difference, as long as there is
some. This file shows it for every line that does not name the module, at every place of a document,
in documents that are refused as well, and says what happens where there is none:

* `Layout.Line.line_eq` -- two lines with the same words and the same comment are read the same;
* `lines_eq_of_forall₂` -- so are two documents whose lines are pairwise so, by induction on them;
* `Layout.ofLine_unspaced` -- a line `require(` outside all blocks says nothing;
* **`parse_of_openers`** -- the white space between `require` and `(` may be any, but must not be
  missing: a line `require(` stands for a blank line, and opens no block.

NOT here: the path on a line that names the module, which may hold white space.
-/

namespace Isolation.GoMod

open Text (Blank)

namespace Layout

/-! ## 1. Openers -/

/-- A line with the word `require` and `(`, and `gap` between them; `tail` is the rest of it. -/
def opener (lead gap tail : List Char) : List Char :=
  lead ++ ("require".toList ++ gap ++ ['(']) ++ tail

/-- The second line is the first one, or both open a `require` block: the first with some white
    space between the word and `(`, the second with any that has at least `least` characters. -/
inductive Respaced (least : Nat) : List Char → List Char → Prop where
  | same (l : List Char) : Respaced least l l
  | opener {lead gap gap' tail : List Char} {comment : Option (List Char)} (hl : Blank lead)
    (hg : Blank gap) (hne : gap ≠ []) (hg' : Blank gap') (hleast : least ≤ gap'.length)
    (ht : Line [] comment tail) : Respaced least (opener lead gap tail) (opener lead gap' tail)

section Openers

variable {lead gap tail code l l' : List Char} {ws : List (List Char)}
  {comment : Option (List Char)}

theorem Spaced.of_nil (h : Spaced [] code) : code = [] := by
  cases h
  rfl

/-- Words after white space, and no words after them: the line has these words. -/
theorem Spaced.line_append (hs : Spaced ws code) (hlead : Blank lead)
    (hend : code.getLast? ≠ some '/') (hne : code ≠ []) (ht : Line [] comment tail) :
    Line ws comment (lead ++ code ++ tail) := by
  cases ht with
  | @plain lead' none trail' hl' hnone ht' =>
    rw [hnone.of_nil, List.append_nil]
    exact .plain hlead hs (hl'.append ht')
  | @commented lead' none gap' text hl' hnone hg' _ =>
    have hblank : Blank (lead' ++ gap') := hl'.append hg'
    have hend' : (lead ++ code ++ (lead' ++ gap')).getLast? ≠ some '/' := by
      by_cases hnil : lead' ++ gap' = []
      · rwa [hnil, List.append_nil, List.getLast?_append_of_ne_nil _ hne]
      · rw [List.getLast?_append_of_ne_nil _ hnil]
        intro hlast
        exact ne_slash_of_blank (hblank '/' (List.mem_of_getLast? hlast)) rfl
    have hline := Line.commented text hlead hs hblank hend'
    rw [hnone.of_nil, List.append_nil]
    simpa only [List.append_assoc] using hline

/-- An opener with white space has two words. -/
theorem line_opener (hl : Blank lead) (hg : Blank gap) (hne : gap ≠ [])
    (ht : Line [] comment tail) :
    Line ["require".toList, ['(']] comment (opener lead gap tail) := by
  have hs : Spaced ["require".toList, ['(']] ("require".toList ++ gap ++ ['(']) :=
    .more (by decide) hg hne (List.cons_ne_nil _ _) (.one (word_of_char (by decide)))
  have hlast : ("require".toList ++ gap ++ ['(']).getLast? = some '(' :=
    List.getLast?_append_of_ne_nil _ (List.cons_ne_nil _ _)
  exact hs.line_append hl (by rw [hlast]; decide) (hs.ne_nil (List.cons_ne_nil _ _)) ht

/-- An opener without white space has one. -/
theorem line_unspaced (hl : Blank lead) (ht : Line [] comment tail) :
    Line ["require(".toList] comment (opener lead [] tail) :=
  (Spaced.one (by decide)).line_append hl (by decide) (by decide) ht

/-! ## 2. Lines with the same words -/

/-- An entry says what its words say, however they are spaced. -/
theorem Spaced.requirement?_eq {code' : List Char} (h : Spaced ws code) (h' : Spaced ws code')
    (comment : Option (List Char)) : requirement? code comment = requirement? code' comment := by
  rw [requirement?, requirement?, h.words_eq, h'.words_eq]

/-- Entries with the same words do the same to a reading. -/
theorem Spaced.line_eq_of_entry {code' : List Char} {c : Option (List Char)} {r : Reading}
    (h : Spaced ws code) (h' : Spaced ws code') (hl : Statement.ofLine r.block l = .entry code c)
    (hl' : Statement.ofLine r.block l' = .entry code' c) (number : Nat) :
    r.line number l = r.line number l' := by
  rw [Reading.line, Reading.line, hl, hl']
  dsimp only
  rw [h.requirement?_eq h' c]
  cases hr : requirement? code' c with
  | some req => rfl
  | none =>
    -- the words of a refused entry are at most one, so that there is no white space between them
    have hcode : code = code' := by
      obtain ⟨ws', hs', hlt⟩ := (requirement?_eq_none_iff h').mp hr
      rw [← hs'.words_eq, h'.words_eq] at hlt
      rcases ws with _ | ⟨w, _ | ⟨w', ws⟩⟩
      · rw [h.of_nil, h'.of_nil]
      · rw [h.eq_of_one, h'.eq_of_one]
      · rw [List.length_cons, List.length_cons] at hlt
        omega
    rw [hcode]

/-- Lines with the same words and the same comment make the same statement, or are entries with the
    same words, unless they name the module. -/
theorem Line.ofLine_eq_or (h : Line ws comment l) (h' : Line ws comment l')
    (hm : ws.head? ≠ some "module".toList) (block : Option Block) :
    Statement.ofLine block l = Statement.ofLine block l' ∨
      ∃ ws' code code' c, Spaced ws' code ∧ Spaced ws' code' ∧
        Statement.ofLine block l = .entry code c ∧ Statement.ofLine block l' = .entry code' c := by
  cases ws with
  | nil => exact Or.inl ((h.ofLine_of_nil block).trans (h'.ofLine_of_nil block).symm)
  | cons w ws =>
    cases block with
    | none =>
      obtain ⟨rest, hs, hl⟩ := h.exists_ofLine_none
      obtain ⟨rest', hs', hl'⟩ := h'.exists_ofLine_none
      rw [if_neg fun hw => hm (congrArg some hw)] at hl hl'
      by_cases hw : w = "require".toList
      · rw [if_pos hw] at hl hl'
        by_cases hopen : ws = [['(']]
        · rw [if_pos hopen] at hl hl'
          exact Or.inl (hl.trans hl'.symm)
        · rw [if_neg hopen] at hl hl'
          exact Or.inr ⟨ws, rest, rest', _, hs, hs', hl, hl'⟩
      · rw [if_neg hw] at hl hl'
        exact Or.inl (hl.trans hl'.symm)
    | some b =>
      obtain ⟨code, hs, hl⟩ := h.exists_ofLine_some b
      obtain ⟨code', hs', hl'⟩ := h'.exists_ofLine_some b
      by_cases hclose : w :: ws = [[')']]
      · rw [if_pos hclose] at hl hl'
        exact Or.inl (hl.trans hl'.symm)
      · rw [if_neg hclose] at hl hl'
        by_cases hb : b = .require
        · rw [if_pos hb] at hl hl'
          exact Or.inr ⟨w :: ws, code, code', _, hs, hs', hl, hl'⟩
        · rw [if_neg hb] at hl hl'
          exact Or.inl (hl.trans hl'.symm)

/-- **Lines with the same words and the same comment are read the same**, unless they name the
    module. -/
theorem Line.line_eq (h : Line ws comment l) (h' : Line ws comment l')
    (hm : ws.head? ≠ some "module".toList) (r : Reading) (number : Nat) :
    r.line number l = r.line number l' := by
  rcases h.ofLine_eq_or h' hm r.block with hsame | ⟨_, _, _, _, hs, hs', hl, hl'⟩
  · rw [Reading.line, Reading.line, hsame]
  · exact hs.line_eq_of_entry hs' hl hl' number

theorem Respaced.line_eq (h : Respaced 1 l l') (r : Reading) (number : Nat) :
    r.line number l = r.line number l' := by
  cases h with
  | same => rfl
  | @opener lead gap gap' tail comment hl hg hne hg' hleast ht =>
    have hne' : gap' ≠ [] := List.length_pos_iff.mp hleast
    exact (line_opener hl hg hne ht).line_eq (line_opener hl hg' hne' ht) (by decide) r number

/-! ## 3. Openers without white space -/

/-- Outside all blocks, `require(` is the word of an unknown directive. -/
theorem ofLine_unspaced (hl : Blank lead) (ht : Line [] comment tail) :
    Statement.ofLine none (opener lead [] tail) = .silent := by
  obtain ⟨rest, hs, hline⟩ := (line_unspaced hl ht).exists_ofLine_none
  rwa [if_neg (by decide), if_neg (by decide), if_neg (by decide)] at hline

end Openers

end Layout

/-! ## 4. Documents -/

open Layout (TextOf Line Outside Respaced)

section Documents

variable {ls ls' before after : List (List Char)} {l l' : List Char} {text text' : String}

/-- Documents are read the same if their lines are, one by one. -/
theorem lines_eq_of_forall₂ (h : List.Forall₂ (fun l l' => ∀ (r : Reading) (number : Nat),
    r.line number l = r.line number l') ls ls') (r : Reading) (number : Nat) :
    r.lines number ls = r.lines number ls' := by
  induction h generalizing r number with
  | nil => rfl
  | @cons l l' ls ls' hl _ ih =>
    rw [Reading.lines, Reading.lines, hl]
    cases r.line number l' with
    | error d => rfl
    | ok r' => exact ih r' (number + 1)

/-- One line makes no difference if it makes none to what has been read before it. -/
theorem lines_append_cons_congr (after : List (List Char)) {number : Nat} {r : Reading}
    (h : ∀ r', r.lines number before = .ok r' → ∀ number',
      r'.line number' l = r'.line number' l') :
    r.lines number (before ++ l :: after) = r.lines number (before ++ l' :: after) := by
  induction before generalizing r number with
  | nil =>
    rw [List.nil_append, List.nil_append, Reading.lines, Reading.lines, h r rfl]
  | cons k before ih =>
    rw [List.cons_append, List.cons_append, Reading.lines, Reading.lines]
    cases hk : r.line number k with
    | error d => rfl
    | ok r' =>
      refine ih fun r'' hr'' => h r'' ?_
      rw [Reading.lines, hk]
      exact hr''

theorem parse_eq_of_lines_eq (ht : TextOf ls text.toList) (ht' : TextOf ls' text'.toList)
    (h : Reading.lines {} 1 ls = Reading.lines {} 1 ls') : parse text = parse text' := by
  unfold parse
  rw [Layout.lines_of_textOf ht, Layout.lines_of_textOf ht', h]

/-- What has been read of some lines knows that no block is open after them. -/
theorem block_eq_none_of_outside {r : Reading} (h : Outside before)
    (hr : Reading.lines {} 1 before = .ok r) : r.block = none := by
  rcases Layout.noneLacking_or_exists_first before with hnone | ⟨number, spec, hfirst⟩
  · obtain ⟨r', hr', htold⟩ := Layout.exists_told hnone
    rw [hr] at hr'
    cases hr'
    exact htold.placed.eq_none h
  · rw [hfirst.lines_eq] at hr
    cases hr

end Documents

/-- **White space before the parenthesis of a `require` block may be any, but must not be missing.**
    A document, accepted or refused, is read as before if some openers get other white space between
    the word and `(`. An opener that has none is read as a blank line in its place: it opens no
    block, and the lines after it are no entries of one. -/
theorem parse_of_openers {ls ls' : List (List Char)} {text text' : String}
    (ht : TextOf ls text.toList) (ht' : TextOf ls' text'.toList) :
    (List.Forall₂ (Respaced 1) ls ls' → parse text' = parse text) ∧
    ∀ before lead tail comment after, Outside before → Blank lead → Line [] comment tail →
      ls = before ++ Layout.opener lead [] tail :: after → ls' = before ++ [] :: after →
        parse text' = parse text := by
  constructor
  · intro h
    refine (parse_eq_of_lines_eq ht ht' (lines_eq_of_forall₂ (h.imp fun l l' hl => ?_) {} 1)).symm
    exact hl.line_eq
  · rintro before lead tail comment after hout hlead htail rfl rfl
    refine (parse_eq_of_lines_eq ht ht' (lines_append_cons_congr after ?_)).symm
    intro r hr number
    have hblock : r.block = none := block_eq_none_of_outside hout hr
    rw [line_of_silent, line_of_silent]
    · exact Layout.line_nil.ofLine_of_nil _
    · rw [hblock]
      exact Layout.ofLine_unspaced hlead htail

namespace Layout

/-- A document with one `require` block, whose opener has the white space that is given. -/
def blockLines (gap : List Char) : List (List Char) :=
  ["module m".toList, [], opener [] gap [], "\ta v1".toList, ")".toList]

/-- The text of that document. -/
def blockText (gap : List Char) : String := String.ofList ((blockLines gap).flatMap (· ++ ['\n']))

theorem textOf_blockLines {gap : List Char} (h : '\n' ∉ gap) :
    TextOf (blockLines gap) (blockText gap).toList := by
  rw [blockText, String.toList_ofList]
  refine textOf_flatMap fun l hl => ?_
  simp only [blockLines, List.mem_cons, List.not_mem_nil, or_false] at hl
  rcases hl with rfl | rfl | rfl | rfl | rfl
  · decide
  · decide
  · simp [opener, h]
  · decide
  · decide

theorem forall₂_blockLines {gap gap' : List Char} (hg : Blank gap) (hne : gap ≠ [])
    (hg' : Blank gap') {least : Nat} (hleast : least ≤ gap'.length) :
    List.Forall₂ (Respaced least) (blockLines gap) (blockLines gap') := by
  have hopener : Respaced least (opener [] gap []) (opener [] gap' []) :=
    .opener (by decide) hg hne hg' hleast line_nil
  exact .cons (.same _) (.cons (.same _) (.cons hopener (.cons (.same _) (.cons (.same _) .nil))))

theorem outside_blockLines : Outside ["module m".toList, []] := by
  have hmodule : ∀ w, ¬ Opens w "module m".toList := by
    intro w ho
    have hs := (opening_iff (.outside .start)).mpr ⟨.start, w, ho, rfl⟩
    rw [show Statement.ofLine none "module m".toList = .modulePath ['m'] by decide] at hs
    cases hs
  have hnone : ∀ w, ¬ Opens w [] := by
    intro w ho
    have hs := (opening_iff (.outside .start)).mpr ⟨.start, w, ho, rfl⟩
    cases hs
  exact .line (.line .start hmodule) hnone

end Layout

/-- Two tabs in place of the blank change nothing; without white space the entry is not read. -/
theorem parse_of_block_openers :
    parse (Layout.blockText ['\t', '\t']) = .ok ⟨"m", [⟨"a", "v1", false⟩]⟩ ∧
    parse (Layout.blockText []) = .ok ⟨"m", []⟩ := by
  have hblank : TextOf ["module m".toList, [], [], "\ta v1".toList, ")".toList]
      "module m\n\n\n\ta v1\n)\n".toList :=
    Layout.textOf_flatMap (by decide)
  have hspace := @Layout.textOf_blockLines [' '] (by decide)
  have htabs := @Layout.textOf_blockLines ['\t', '\t'] (by decide)
  have hnone := @Layout.textOf_blockLines [] (by decide)
  constructor
  · have hsame := (parse_of_openers hspace htabs).1
      (Layout.forall₂_blockLines (by decide) (by decide) (by decide) (by decide))
    exact hsame.trans (by decide)
  · have hsame := (parse_of_openers hnone hblank).2 ["module m".toList, []] [] [] none
      ["\ta v1".toList, ")".toList] Layout.outside_blockLines (by decide) Layout.line_nil rfl rfl
    exact hsame.symm.trans (by decide)

/-- White space before the parenthesis must not be missing: it is not so that a document is read as
    before whatever white space its openers get. -/
theorem parse_of_unspaced_opener :
    ¬ ∀ (ls ls' : List (List Char)) (text text' : String), TextOf ls text.toList →
      TextOf ls' text'.toList → List.Forall₂ (Respaced 0) ls ls' →
      (∃ document, parse text = .ok document) → parse text' = parse text := by
  intro h
  have hspace := @Layout.textOf_blockLines [' '] (by decide)
  have hnone := @Layout.textOf_blockLines [] (by decide)
  have hsame := h _ _ _ _ hspace hnone
    (Layout.forall₂_blockLines (by decide) (by decide) (by decide) (by decide))
    ⟨⟨"m", [⟨"a", "v1", false⟩]⟩, by decide⟩
  exact absurd hsame (by decide)

end Isolation.GoMod
