import Isolation.GoMod
import Isolation.Proofs.Texts
import Mathlib.Data.List.Chain
import Mathlib.Data.List.Infix
import Mathlib.Data.List.TakeWhile

/-!
# Well-formed `go.mod` documents are read back

A document says the same however it is laid out: how its lines are indented, what white space stands
between their words and at their ends, where blank lines and comments are, whether paths are quoted.
This file gives the layouts as relations between a text and what it says (`Layout`), built up from
words to lines, from lines to items and from items to documents, and shows that `GoMod.parse` finds
what is said.

* `Layout.Coded.splitComment_eq` -- a line is cut into its code and its comment;
* `Layout.exists_coded`, `Layout.exists_line` -- every line has a code, and the code is made up of
  words;
* `Layout.Requires.requirement?_eq`, `Layout.Entry.requires` -- an entry is read as what it
  requires, which its words give;
* `Reads` -- what some lines do to a reading, whatever their numbers are; one lemma for each kind of
  line;
* `Layout.Item.reads`, `Layout.Document.reads` -- an item adds what it says, a document what its
  items say;
* **`parse_of_layout`** -- every laid out document is read back.

NOT here: documents that break the layout, such as entries with one word.
-/

namespace Isolation.GoMod

open Text (Blank Solid Trimmed)

/-! ## 1. Layouts -/

namespace Layout

/-- No comment begins in a text. -/
def CommentFree (cs : List Char) : Prop := ¬ ['/', '/'] <:+: cs

instance (cs : List Char) : Decidable (CommentFree cs) :=
  inferInstanceAs (Decidable (¬ ['/', '/'] <:+: cs))

/-- A word: some characters without white space, in which no comment begins. -/
structure Word (w : List Char) : Prop where
  ne_nil : w ≠ []
  solid : Solid w
  commentFree : CommentFree w

/-- A path: a word that neither begins nor ends with a double quote. -/
structure Path (p : List Char) : Prop extends Word p where
  head_ne : p.head? ≠ some '"'
  last_ne : p.getLast? ≠ some '"'

instance (w : List Char) : Decidable (Word w) :=
  decidable_of_iff (w ≠ [] ∧ Solid w ∧ CommentFree w)
    ⟨fun h => ⟨h.1, h.2.1, h.2.2⟩, fun h => ⟨h.ne_nil, h.solid, h.commentFree⟩⟩

instance (p : List Char) : Decidable (Path p) :=
  decidable_of_iff (Word p ∧ p.head? ≠ some '"' ∧ p.getLast? ≠ some '"')
    ⟨fun h => ⟨h.1, h.2.1, h.2.2⟩, fun h => ⟨h.toWord, h.head_ne, h.last_ne⟩⟩

/-- A path is written as it is, or in double quotes. -/
inductive Written (p : List Char) : List Char → Prop where
  | bare : Written p p
  | quoted : Written p ('"' :: p ++ ['"'])

/-- Some words with white space between them, at least one character each time. -/
inductive Spaced : List (List Char) → List Char → Prop where
  | nil : Spaced [] []
  | one {w : List Char} (hw : Word w) : Spaced [w] w
  | more {w gap code : List Char} {ws : List (List Char)} (hw : Word w) (hg : Blank gap)
    (hne : gap ≠ []) (hws : ws ≠ []) (h : Spaced ws code) : Spaced (w :: ws) (w ++ gap ++ code)

/-- A line with some words and, if it has one, the text of its comment. White space may stand
    before the words and after them. What stands before a comment does not end in a slash: the
    comment would begin with that one. A line without words is a blank line or a comment. -/
inductive Line (ws : List (List Char)) : Option (List Char) → List Char → Prop where
  | plain {lead code trail : List Char} (hl : Blank lead) (h : Spaced ws code) (ht : Blank trail) :
    Line ws none (lead ++ code ++ trail)
  | commented {lead code gap : List Char} (text : List Char) (hl : Blank lead) (h : Spaced ws code)
    (hg : Blank gap) (hend : (lead ++ code ++ gap).getLast? ≠ some '/') :
    Line ws (some text) (lead ++ code ++ gap ++ ['/', '/'] ++ text)

/-- A code begins with the word `w`, and `rest` is what follows the white space after it. -/
structure Begins (w rest code : List Char) : Prop where
  solid : Solid w
  ne_nil : w ≠ []
  trimmed : Trimmed rest
  exists_gap : ∃ gap, Blank gap ∧ (gap = [] → rest = []) ∧ code = w ++ gap ++ rest

/-- The code of a line and, if it has one, the text of its comment. A comment begins at the first
    `//` of the line; the code is what stands before it, without the white space at its two ends. -/
inductive Coded (code : List Char) : Option (List Char) → List Char → Prop where
  | plain {lead trail : List Char} (hl : Blank lead) (h : Trimmed code) (ht : Blank trail)
    (hfree : CommentFree (lead ++ code ++ trail)) : Coded code none (lead ++ code ++ trail)
  | commented {lead trail : List Char} (text : List Char) (hl : Blank lead) (h : Trimmed code)
    (ht : Blank trail) (hfree : CommentFree (lead ++ code ++ trail ++ ['/'])) :
    Coded code (some text) (lead ++ code ++ trail ++ ['/', '/'] ++ text)

/-- The words of a `require` entry and its comment: a path, a version, and whatever else. The
    requirement is indirect if the comment is the one word `indirect`. -/
inductive Entry : List (List Char) → Option (List Char) → Requirement → Prop where
  | intro {path written version : List Char} {extra : List (List Char)}
    {comment : Option (List Char)} {indirect : Bool} (hp : Path path) (hw : Written path written)
    (hi : indirect = true ↔ ∃ text ∈ comment, ∃ pre post, Blank pre ∧ Blank post ∧
      text = pre ++ "indirect".toList ++ post) :
    Entry (written :: version :: extra) comment
      ⟨String.ofList path, String.ofList version, indirect⟩

/-- `inner` is what is left of a text without the double quotes at its two ends. -/
def Unquoted (inner w : List Char) : Prop :=
  inner.head? ≠ some '"' ∧ inner.getLast? ≠ some '"' ∧
    ∃ m n, w = List.replicate m '"' ++ inner ++ List.replicate n '"'

/-- What an entry requires: its first word without quotes is the path, its second word the version.
    It is indirect if the comment is the one word `indirect`. -/
inductive Requires (spec : List Char) (comment : Option (List Char)) : Requirement → Prop where
  | intro {path written version : List Char} {extra : List (List Char)} {indirect : Bool}
    (hs : Spaced (written :: version :: extra) spec) (hp : Unquoted path written)
    (hi : indirect = true ↔ ∃ text ∈ comment, ∃ pre post, Blank pre ∧ Blank post ∧
      text = pre ++ "indirect".toList ++ post) :
    Requires spec comment ⟨String.ofList path, String.ofList version, indirect⟩

/-- The lines inside a `require` block, and what they require. -/
inductive Entries : List (List Char) → List Requirement → Prop where
  | nil : Entries [] []
  | silent {comment : Option (List Char)} {l : List Char} {ls : List (List Char)}
    {rs : List Requirement} (hl : Line [] comment l) (h : Entries ls rs) : Entries (l :: ls) rs
  | entry {ws : List (List Char)} {comment : Option (List Char)} {l : List Char}
    {ls : List (List Char)} {r : Requirement} {rs : List Requirement} (hl : Line ws comment l)
    (he : Entry ws comment r) (h : Entries ls rs) : Entries (l :: ls) (r :: rs)

/-- The lines of an item at the top of a document, the path that it gives to the module if it does,
    and what it requires. -/
inductive Item : List (List Char) → Option (List Char) → List Requirement → Prop where
  | moduleLine {path written l : List Char} {comment : Option (List Char)} (hp : Path path)
    (hw : Written path written) (hl : Line ["module".toList, written] comment l) :
    Item [l] (some path) []
  | requireLine {ws : List (List Char)} {comment : Option (List Char)} {l : List Char}
    {r : Requirement} (hl : Line ("require".toList :: ws) comment l) (he : Entry ws comment r) :
    Item [l] none [r]
  | requireBlock {opening closing : List Char} {comment comment' : Option (List Char)}
    {body : List (List Char)} {rs : List Requirement}
    (ho : Line ["require".toList, ['(']] comment opening) (hb : Entries body rs)
    (hc : Line [[')']] comment' closing) : Item (opening :: (body ++ [closing])) none rs
  | otherLine {w l : List Char} {ws : List (List Char)} {comment : Option (List Char)}
    (hm : w ≠ "module".toList) (hr : w ≠ "require".toList) (hws : ws ≠ [['(']])
    (hl : Line (w :: ws) comment l) : Item [l] none []
  | otherBlock {w opening closing : List Char} {comment comment' : Option (List Char)}
    {body : List (List Char)} (hm : w ≠ "module".toList) (hr : w ≠ "require".toList)
    (ho : Line [w, ['(']] comment opening) (hb : ∀ l ∈ body, ∀ c, ¬ Line [[')']] c l)
    (hc : Line [[')']] comment' closing) : Item (opening :: (body ++ [closing])) none []
  | silent {l : List Char} {comment : Option (List Char)} (hl : Line [] comment l) :
    Item [l] none []

/-- The lines of a document, the path that the last module line gives to the module if there is one,
    and all that is required, in order. -/
inductive Document : List (List Char) → Option (List Char) → List Requirement → Prop where
  | nil : Document [] none []
  | cons {ls ls' : List (List Char)} {path path' : Option (List Char)} {rs rs' : List Requirement}
    (hi : Item ls path rs) (h : Document ls' path' rs') :
    Document (ls ++ ls') (path'.or path) (rs ++ rs')

/-- The text of some lines. No line holds a line feed, and each ends with one, but the last one need
    not. (A carriage return before it is white space at the end of the line.) -/
inductive TextOf : List (List Char) → List Char → Prop where
  | nil : TextOf [] []
  | last {l : List Char} (hl : '\n' ∉ l) : TextOf [l] l
  | cons {l t : List Char} {ls : List (List Char)} (hl : '\n' ∉ l) (h : TextOf ls t) :
    TextOf (l :: ls) (l ++ '\n' :: t)

/-- Lines that hold no line feed, each ended by one, are the lines of a text. -/
theorem textOf_flatMap {ls : List (List Char)} (h : ∀ l ∈ ls, '\n' ∉ l) :
    TextOf ls (ls.flatMap (· ++ ['\n'])) := by
  induction ls with
  | nil => exact .nil
  | cons l ls ih =>
    obtain ⟨hl, hls⟩ := List.forall_mem_cons.mp h
    have ht : TextOf (l :: ls) (l ++ '\n' :: ls.flatMap (· ++ ['\n'])) := .cons hl (ih hls)
    simpa using ht

/-! ## 2. Where comments begin -/

section Comments

variable {a b gap cs code : List Char} {ws : List (List Char)}

theorem commentFree_iff_isChain :
    CommentFree cs ↔ cs.IsChain fun c d => ¬ (c = '/' ∧ d = '/') := by
  rw [CommentFree, List.isChain_iff_forall_rel_of_append_cons_cons]
  constructor
  · rintro h c d l₁ l₂ rfl ⟨rfl, rfl⟩
    exact h ⟨l₁, l₂, by simp⟩
  · rintro h ⟨l₁, l₂, rfl⟩
    exact @h '/' '/' l₁ l₂ (by simp) ⟨rfl, rfl⟩

/-- No comment begins where two texts meet, unless a slash stands on both sides. -/
theorem CommentFree.append (ha : CommentFree a) (hb : CommentFree b)
    (h : a.getLast? = some '/' → b.head? ≠ some '/') : CommentFree (a ++ b) := by
  rw [commentFree_iff_isChain] at ha hb ⊢
  refine ha.append hb fun c hc d hd => ?_
  rintro ⟨rfl, rfl⟩
  exact h hc hd

theorem ne_slash_of_blank {c : Char} (h : Text.isBlank c = true) : c ≠ '/' := by
  rintro rfl
  exact absurd h (by decide)

theorem commentFree_of_blank (h : Blank gap) : CommentFree gap := by
  intro hi
  exact ne_slash_of_blank (h '/' (hi.subset List.mem_cons_self)) rfl

theorem CommentFree.append_blank (ha : CommentFree a) (hg : Blank gap) : CommentFree (a ++ gap) :=
  ha.append (commentFree_of_blank hg) fun _ hd =>
    ne_slash_of_blank (hg '/' (List.mem_of_mem_head? hd)) rfl

theorem CommentFree.blank_append (hb : CommentFree b) (hg : Blank gap) : CommentFree (gap ++ b) :=
  (commentFree_of_blank hg).append hb fun hl =>
    absurd rfl (ne_slash_of_blank (hg '/' (List.mem_of_getLast? hl)))

theorem Spaced.commentFree (h : Spaced ws code) : CommentFree code := by
  induction h with
  | nil => decide
  | one hw => exact hw.commentFree
  | @more w gap code ws hw hg hne _ _ ih =>
    refine (hw.commentFree.append_blank hg).append ih fun hl => ?_
    rw [List.getLast?_append_of_ne_nil _ hne] at hl
    exact absurd rfl (ne_slash_of_blank (hg '/' (List.mem_of_getLast? hl)))

end Comments

/-! ## 3. The words of a line -/

section Words

variable {w code : List Char} {ws : List (List Char)}

theorem Spaced.eq_of_one (h : Spaced [w] code) : code = w := by
  cases h with
  | one => rfl
  | more _ _ _ hws => exact absurd rfl hws

/-- The words between white space are the words that were put there. -/
theorem Spaced.words_eq (h : Spaced ws code) : Text.words code = ws := by
  induction h with
  | nil => rfl
  | one hw => exact Text.words_of_solid hw.solid hw.ne_nil
  | more hw hg hne _ _ ih => rw [Text.words_append hw.solid hw.ne_nil hg hne, ih]

theorem Spaced.ne_nil (h : Spaced ws code) (hws : ws ≠ []) : code ≠ [] := by
  rintro rfl
  exact hws h.words_eq.symm

theorem Spaced.trimmed (h : Spaced ws code) : Trimmed code := by
  induction h with
  | nil => exact ⟨fun _ hc => (nomatch hc), fun _ hc => (nomatch hc)⟩
  | one hw => exact hw.solid.trimmed
  | @more w gap code ws hw _ _ hws h ih =>
    constructor
    · intro c hc
      rw [List.append_assoc, List.head?_append_of_ne_nil _ hw.ne_nil] at hc
      exact hw.solid c (List.mem_of_mem_head? hc)
    · intro c hc
      rw [List.getLast?_append_of_ne_nil _ (h.ne_nil hws)] at hc
      exact ih.2 c hc

/-- A line is one word exactly if it has that word only. -/
theorem Spaced.eq_iff (h : Spaced ws code) (hw : Word w) : code = w ↔ ws = [w] := by
  constructor
  · rintro rfl
    rw [← h.words_eq, Text.words_of_solid hw.solid hw.ne_nil]
  · rintro rfl
    exact h.eq_of_one

/-- The first word is taken off, and the white space after it. -/
theorem Spaced.exists_begins (h : Spaced (w :: ws) code) :
    ∃ rest, Begins w rest code ∧ Spaced ws rest := by
  cases h with
  | one hw =>
    refine ⟨[], ⟨hw.solid, hw.ne_nil, Spaced.nil.trimmed, [], by decide, fun _ => rfl, ?_⟩, .nil⟩
    rw [List.append_nil, List.append_nil]
  | @more _ gap rest _ hw hg hne _ h =>
    exact ⟨rest, ⟨hw.solid, hw.ne_nil, h.trimmed, gap, hg, fun he => absurd he hne, rfl⟩, h⟩

theorem Begins.code_ne_nil {rest : List Char} (h : Begins w rest code) : code ≠ [] := by
  obtain ⟨gap, _, _, rfl⟩ := h.exists_gap
  rw [List.append_assoc]
  exact List.append_ne_nil_of_left_ne_nil h.ne_nil _

theorem Begins.splitDirective_eq {rest : List Char} (h : Begins w rest code) :
    splitDirective code = (w, rest) := by
  obtain ⟨gap, hg, hgap, rfl⟩ := h.exists_gap
  have hsolid : ∀ c ∈ w, (!Text.isBlank c) = true := by
    intro c hc
    rw [h.solid c hc]
    rfl
  have hafter : (gap ++ rest).takeWhile (!Text.isBlank ·) = [] ∧
      (gap ++ rest).dropWhile (!Text.isBlank ·) = gap ++ rest := by
    cases gap with
    | nil =>
      rw [hgap rfl]
      exact ⟨rfl, rfl⟩
    | cons c gap =>
      have hc : ¬ (!Text.isBlank c) = true := by
        rw [hg c List.mem_cons_self]
        exact Bool.false_ne_true
      exact ⟨List.takeWhile_cons_of_neg hc, List.dropWhile_cons_of_neg hc⟩
  have htrim : Text.trim (gap ++ rest ++ []) = rest :=
    Text.trim_of_ends hg (fun _ hd => nomatch hd) h.trimmed
  rw [List.append_nil] at htrim
  rw [splitDirective, List.append_assoc, List.takeWhile_append_of_pos hsolid,
    List.dropWhile_append_of_pos hsolid, hafter.1, hafter.2, List.append_nil, htrim]

end Words

section Codes

variable {code l : List Char} {ws : List (List Char)} {comment : Option (List Char)}

/-- **A line is cut into its code and its comment.** -/
theorem Coded.splitComment_eq (h : Coded code comment l) :
    Text.trim (splitComment l).1 = code ∧ (splitComment l).2 = comment.map Text.trim := by
  cases h with
  | plain hl h ht hfree =>
    rw [splitComment, Text.cut?_eq_none_iff.mpr hfree]
    exact ⟨Text.trim_of_ends hl ht h, rfl⟩
  | commented text hl h ht hfree =>
    rw [splitComment, Text.cut?_append text (List.cons_ne_nil _ _) hfree]
    exact ⟨Text.trim_of_ends hl ht h, rfl⟩

/-- Words with white space between them are a line. -/
theorem Spaced.line (h : Spaced ws code) : Line ws none code := by
  have hline : Line ws none ([] ++ code ++ []) :=
    .plain (List.forall_mem_nil _) h (List.forall_mem_nil _)
  rwa [List.nil_append, List.append_nil] at hline

theorem line_nil : Line [] none [] := Spaced.nil.line

/-- The words of a line make up its code. -/
theorem Line.exists_coded (h : Line ws comment l) :
    ∃ code, Coded code comment l ∧ Spaced ws code := by
  cases h with
  | @plain lead code trail hl h ht =>
    exact ⟨code, .plain hl h.trimmed ht ((h.commentFree.blank_append hl).append_blank ht), h⟩
  | @commented lead code gap text hl h hg hend =>
    have hfree : CommentFree (lead ++ code ++ gap ++ ['/']) :=
      ((h.commentFree.blank_append hl).append_blank hg).append (by decide) fun he =>
        absurd he hend
    exact ⟨code, .commented text hl h.trimmed hg hfree, h⟩

/-- The code of a line is made up of its words. -/
theorem Coded.line (h : Coded code comment l) (hs : Spaced ws code) : Line ws comment l := by
  cases h with
  | plain hl _ ht _ => exact .plain hl hs ht
  | commented text hl _ ht hfree =>
    refine .commented text hl hs ht fun he => hfree ?_
    obtain ⟨before, hbefore⟩ := List.getLast?_eq_some_iff.mp he
    exact ⟨before, [], by simp [hbefore]⟩

end Codes

/-! ## 4. Every line is laid out -/

theorem CommentFree.of_infix {a b : List Char} (hb : CommentFree b) (h : a <:+: b) :
    CommentFree a := fun hi => hb (hi.trans h)

theorem exists_spaced {code : List Char} (hfree : CommentFree code) (h : Trimmed code) :
    ∃ ws, Spaced ws code := by
  -- induction on the length: a word and the white space after it are taken off
  induction hn : code.length using Nat.strong_induction_on generalizing code with
  | _ n ih =>
    obtain ⟨hhead, hlast⟩ := h
    by_cases hne : code = []
    · exact ⟨[], hne ▸ .nil⟩
    obtain ⟨w, rest, hw, hrest, rfl⟩ := Text.exists_solid_append code
    obtain ⟨gap, code, hg, hcode, rfl⟩ := Text.exists_blank_append rest
    have hwne : w ≠ [] := by
      rintro rfl
      obtain ⟨c, cs, hcs⟩ := List.exists_cons_of_ne_nil hne
      rw [List.nil_append] at hhead hcs
      rw [hcs] at hhead hrest
      exact absurd (hrest c rfl) (by rw [hhead c rfl]; exact Bool.false_ne_true)
    have hword : Word w := ⟨hwne, hw, hfree.of_infix (List.prefix_append _ _).isInfix⟩
    by_cases hcodene : code = []
    · -- then nothing follows the word, since the text does not end in white space
      have hgnil : gap = [] := by
        by_contra hgne
        rw [hcodene, List.append_nil, List.getLast?_append_of_ne_nil _ hgne,
          List.getLast?_eq_some_getLast hgne] at hlast
        have hblank := hg _ (List.getLast_mem hgne)
        rw [hlast _ rfl] at hblank
        cases hblank
      rw [hcodene, hgnil, List.append_nil, List.append_nil]
      exact ⟨[w], .one hword⟩
    · have hgne : gap ≠ [] := by
        rintro rfl
        obtain ⟨e, cs, rfl⟩ := List.exists_cons_of_ne_nil hcodene
        have hblank := hrest e rfl
        rw [hcode e rfl] at hblank
        cases hblank
      have hlt : code.length < n := by
        have hpos := List.length_pos_of_ne_nil hwne
        rw [List.length_append, List.length_append] at hn
        omega
      rw [← List.append_assoc] at hlast hfree ⊢
      rw [List.getLast?_append_of_ne_nil _ hcodene] at hlast
      obtain ⟨ws, hws⟩ := ih code.length hlt (hfree.of_infix (List.suffix_append _ _).isInfix)
        ⟨hcode, hlast⟩ rfl
      refine ⟨w :: ws, .more hword hg hgne ?_ hws⟩
      rintro rfl
      exact hcodene (by cases hws; rfl)

/-- Every line has a code. -/
theorem exists_coded (l : List Char) : ∃ code comment, Coded code comment l := by
  cases hc : Text.cut? ['/', '/'] l with
  | none =>
    obtain ⟨pre, post, hpre, hpost, hl⟩ := Text.exists_eq_trim l
    have hfree : CommentFree (pre ++ Text.trim l ++ post) := by
      rw [← hl]
      exact Text.cut?_eq_none_iff.mp hc
    refine ⟨Text.trim l, none, ?_⟩
    have hcoded : Coded (Text.trim l) none (pre ++ Text.trim l ++ post) :=
      .plain hpre (Text.ends_trim l) hpost hfree
    rwa [← hl] at hcoded
  | some p =>
    obtain ⟨pre, post, hpre, hpost, hl⟩ := Text.exists_eq_trim p.1
    have hfree : CommentFree (pre ++ Text.trim p.1 ++ post ++ ['/']) := by
      rw [← hl]
      exact Text.not_infix_of_cut? (List.cons_ne_nil _ _) hc
    refine ⟨Text.trim p.1, some p.2, ?_⟩
    have hcoded : Coded (Text.trim p.1) (some p.2)
        (pre ++ Text.trim p.1 ++ post ++ ['/', '/'] ++ p.2) :=
      .commented p.2 hpre (Text.ends_trim p.1) hpost hfree
    rwa [← hl, ← Text.eq_of_cut? hc] at hcoded

theorem Coded.commentFree {code l : List Char} {comment : Option (List Char)}
    (h : Coded code comment l) : CommentFree code := by
  cases h with
  | @plain lead trail _ _ _ hfree => exact hfree.of_infix ⟨lead, trail, rfl⟩
  | @commented lead trail _ _ _ _ hfree =>
    exact hfree.of_infix ⟨lead, trail ++ ['/'], by simp⟩

theorem Coded.trimmed {code l : List Char} {comment : Option (List Char)}
    (h : Coded code comment l) : Trimmed code := by
  cases h with
  | plain _ h _ _ => exact h
  | commented _ _ h _ _ => exact h

/-- **Every line is laid out** as some words, or none, and perhaps a comment. -/
theorem exists_line (l : List Char) : ∃ ws comment, Line ws comment l := by
  obtain ⟨code, comment, hc⟩ := exists_coded l
  obtain ⟨ws, hws⟩ := exists_spaced hc.commentFree hc.trimmed
  exact ⟨ws, comment, hc.line hws⟩

/-! ## 5. Paths and requirements -/

section Requirements

variable {p w spec : List Char} {ws : List (List Char)} {comment : Option (List Char)}
  {r : Requirement}

theorem dropWhile_quotes (h : p.head? ≠ some '"') (n : Nat) :
    (List.replicate n '"' ++ p).dropWhile (· == '"') = p := by
  induction n with
  | zero =>
    cases p with
    | nil => rfl
    | cons c p =>
      refine List.dropWhile_cons_of_neg fun hc => h ?_
      rw [List.head?_cons, beq_iff_eq.mp hc]
  | succ n ih =>
    rw [List.replicate_succ, List.cons_append, List.dropWhile_cons_of_pos (by decide), ih]

/-- Double quotes at the two ends are taken off, and nothing else is. -/
theorem Unquoted.unquote_eq (h : Unquoted p w) : unquote w = p := by
  obtain ⟨hhead, hlast, m, n, rfl⟩ := h
  by_cases hp : p = []
  · have hall : List.replicate m '"' ++ p ++ List.replicate n '"' =
        List.replicate (m + n) '"' ++ [] := by
      rw [hp, List.append_nil, List.append_nil, List.replicate_append_replicate]
    rw [unquote, hall, dropWhile_quotes (by decide), hp]
    rfl
  · have hstart : (p ++ List.replicate n '"').head? ≠ some '"' := by
      rwa [List.head?_append_of_ne_nil _ hp]
    have hend : p.reverse.head? ≠ some '"' := by
      rwa [List.head?_reverse]
    rw [unquote, List.append_assoc, dropWhile_quotes hstart, List.reverse_append,
      List.reverse_replicate, dropWhile_quotes hend, List.reverse_reverse]

theorem Written.unquoted (hp : Path p) (hw : Written p w) : Unquoted p w := by
  refine ⟨hp.head_ne, hp.last_ne, ?_⟩
  cases hw with
  | bare => exact ⟨0, 0, by simp⟩
  | quoted => exact ⟨1, 1, rfl⟩

/-- **An entry is read as what it requires.** -/
theorem Requires.requirement?_eq (h : Requires spec comment r) :
    requirement? spec (comment.map Text.trim) = some r := by
  cases h with
  | @intro path written version extra indirect hs hp hi =>
    have htrimmed : Trimmed "indirect".toList := Solid.trimmed (by decide)
    have hindirect : (comment.map Text.trim == some "indirect".toList) = indirect := by
      rw [Bool.eq_iff_iff, hi, beq_iff_eq, Option.map_eq_some_iff]
      simp only [Text.trim_eq_iff htrimmed, Option.mem_def]
    rw [requirement?, hs.words_eq, hindirect, ← hp.unquote_eq]

/-- The words of an entry give its requirement. -/
theorem Entry.requires (he : Entry ws comment r) (hs : Spaced ws spec) :
    Requires spec comment r := by
  cases he with
  | intro hp hw hi => exact .intro hs (hw.unquoted hp) hi

theorem Entry.length (he : Entry ws comment r) : 2 ≤ ws.length := by
  cases he
  simp

end Requirements

end Layout

/-! ## 6. What lines do to a reading -/

/-- The reading after some lines, whatever their numbers are. -/
inductive Reads : Reading → List (List Char) → Reading → Prop where
  | nil (r : Reading) : Reads r [] r
  | cons {r r' r'' : Reading} {l : List Char} {ls : List (List Char)}
    (hl : ∀ number, r.line number l = .ok r') (h : Reads r' ls r'') : Reads r (l :: ls) r''

section Reading

variable {r r' r'' : Reading} {l : List Char} {ls ls' : List (List Char)}

theorem Reads.append (h : Reads r ls r') (h' : Reads r' ls' r'') : Reads r (ls ++ ls') r'' := by
  induction h with
  | nil => exact h'
  | cons hl _ ih => exact .cons hl (ih h')

theorem Reads.lines_eq (h : Reads r ls r') (number : Nat) : r.lines number ls = .ok r' := by
  induction h generalizing number with
  | nil => rfl
  | cons hl _ ih =>
    rw [Reading.lines, hl]
    exact ih (number + 1)

/-- White space at the end of a line, such as a carriage return, makes no difference to it. -/
theorem ofLine_append_blank {gap : List Char} (hg : Blank gap) (block : Option Block)
    (l : List Char) : Statement.ofLine block (l ++ gap) = Statement.ofLine block l := by
  have hsplit : Text.trim (splitComment (l ++ gap)).1 = Text.trim (splitComment l).1 ∧
      (splitComment (l ++ gap)).2 = (splitComment l).2 := by
    cases hc : Text.cut? ['/', '/'] l with
    | none =>
      have hfree : Layout.CommentFree (l ++ gap) :=
        Layout.CommentFree.append_blank (Text.cut?_eq_none_iff.mp hc) hg
      rw [splitComment, splitComment, hc, Text.cut?_eq_none_iff.mpr hfree]
      exact ⟨Text.trim_append_blank hg l, rfl⟩
    | some p =>
      rw [splitComment, splitComment, hc, Text.cut?_append_of_some hc]
      exact ⟨rfl, congrArg some (Text.trim_append_blank hg p.2)⟩
  unfold Statement.ofLine
  dsimp only
  rw [hsplit.1, hsplit.2]

theorem line_dropReturn (number : Nat) (r : Reading) (l : List Char) :
    r.line number (Text.dropReturn l) = r.line number l := by
  rcases Text.dropReturn_cases l with h | h
  · rw [h]
  · have hreturn : Blank ['\r'] := by decide
    have hl := ofLine_append_blank hreturn r.block (Text.dropReturn l)
    rw [← h] at hl
    rw [Reading.line, Reading.line, hl]

/-- **The lines of a text are read from the text.** -/
theorem Reads.of_textOf {text : List Char} (h : Reads r ls r') (ht : Layout.TextOf ls text) :
    Reads r (Text.lines text) r' := by
  induction ht generalizing r with
  | nil => exact h
  | @last l hl =>
    by_cases hne : l = []
    · subst hne
      -- an empty last line is no line, and would have said nothing
      cases h with
      | cons hl h =>
        cases h
        cases hl 0
        exact .nil _
    · rw [Text.lines_of_ne_nil hl hne]
      exact h
  | cons hl _ ih =>
    rw [Text.lines_append hl]
    cases h with
    | cons hl' h => exact .cons (fun number => by rw [line_dropReturn, hl']) (ih h)

/-- What a text holds, once its lines have been read. -/
theorem parse_of_lines {text : String} (h : Reading.lines {} 1 (Text.lines text.toList) = .ok r) :
    parse text = match r.modulePath with
      | some (c :: cs) => .ok ⟨String.ofList (c :: cs), r.requires⟩
      | _ => .error .missingModule := by
  unfold parse
  rw [h]
  rfl

/-- What is read of the lines of a text is what it holds, if a module line gave a path. -/
theorem parse_of_reads {text : String} (h : Reads {} (Text.lines text.toList) r)
    {path : List Char} (hp : r.modulePath = some path) (hne : path ≠ []) :
    parse text = .ok ⟨String.ofList path, r.requires⟩ := by
  obtain ⟨c, cs, rfl⟩ := List.exists_cons_of_ne_nil hne
  rw [parse_of_lines (h.lines_eq 1), hp]

theorem line_of_silent (h : Statement.ofLine r.block l = .silent) (number : Nat) :
    r.line number l = .ok r := by
  rw [Reading.line, h]

theorem line_of_opening {b : Block} (h : Statement.ofLine r.block l = .opening b) (number : Nat) :
    r.line number l = .ok { r with block := some b } := by
  rw [Reading.line, h]

theorem line_of_closing (h : Statement.ofLine r.block l = .closing) (number : Nat) :
    r.line number l = .ok { r with block := none } := by
  rw [Reading.line, h]

theorem line_of_modulePath {path : List Char} (h : Statement.ofLine r.block l = .modulePath path)
    (number : Nat) : r.line number l = .ok { r with modulePath := some path } := by
  rw [Reading.line, h]

theorem line_of_entry {spec : List Char} {comment : Option (List Char)} {req : Requirement}
    (h : Statement.ofLine r.block l = .entry spec comment)
    (hr : requirement? spec comment = some req) (number : Nat) :
    r.line number l = .ok { r with requires := r.requires ++ [req] } := by
  rw [Reading.line, h]
  dsimp only
  rw [hr]

end Reading

namespace Layout

/-! ## 7. What laid out lines say -/

section Statements

variable {w rest code l : List Char} {ws : List (List Char)} {comment : Option (List Char)}

theorem word_of_char {c : Char} (h : Text.isBlank c = false) : Word [c] where
  ne_nil := List.cons_ne_nil c []
  solid := fun d hd => List.mem_singleton.mp hd ▸ h
  commentFree := fun hi => absurd hi.length_le (by simp)

/-- A line without code says nothing. -/
theorem Coded.ofLine_nil (h : Coded [] comment l) (block : Option Block) :
    Statement.ofLine block l = .silent := by
  unfold Statement.ofLine
  dsimp only
  rw [h.splitComment_eq.1]
  rfl

/-- What a line with code says inside a block. -/
theorem Coded.ofLine_some (h : Coded code comment l) (hne : code ≠ []) (b : Block) :
    Statement.ofLine (some b) l =
      if code = [')'] then .closing
      else if b = .require then .entry code (comment.map Text.trim) else .silent := by
  have hempty : ¬ code.isEmpty = true := by
    rwa [List.isEmpty_iff]
  unfold Statement.ofLine
  dsimp only
  rw [h.splitComment_eq.1, h.splitComment_eq.2, if_neg hempty]

/-- What a line with a first word says outside all blocks. -/
theorem Coded.ofLine_none (h : Coded code comment l) (hb : Begins w rest code) :
    Statement.ofLine none l =
      if w = "module".toList then .modulePath (unquote rest)
      else if w = "require".toList then
        if rest = ['('] then .opening .require else .entry rest (comment.map Text.trim)
      else if rest = ['('] then .opening .other else .silent := by
  have hempty : ¬ code.isEmpty = true := by
    rw [List.isEmpty_iff]
    exact hb.code_ne_nil
  unfold Statement.ofLine
  dsimp only
  rw [h.splitComment_eq.1, h.splitComment_eq.2, if_neg hempty, hb.splitDirective_eq]

theorem Line.ofLine_of_nil (h : Line [] comment l) (block : Option Block) :
    Statement.ofLine block l = .silent := by
  obtain ⟨code, hc, hs⟩ := h.exists_coded
  cases hs
  exact hc.ofLine_nil block

/-- What a line with words says inside a block. -/
theorem Line.exists_ofLine_some (h : Line (w :: ws) comment l) (b : Block) :
    ∃ code, Spaced (w :: ws) code ∧ Statement.ofLine (some b) l =
      if w :: ws = [[')']] then .closing
      else if b = .require then .entry code (comment.map Text.trim) else .silent := by
  obtain ⟨code, hc, hs⟩ := h.exists_coded
  refine ⟨code, hs, ?_⟩
  rw [hc.ofLine_some (hs.ne_nil (List.cons_ne_nil w ws))]
  exact if_congr (hs.eq_iff (word_of_char (by decide))) rfl rfl

/-- What a line with words says outside all blocks. -/
theorem Line.exists_ofLine_none (h : Line (w :: ws) comment l) :
    ∃ rest, Spaced ws rest ∧ Statement.ofLine none l =
      if w = "module".toList then .modulePath (unquote rest)
      else if w = "require".toList then
        if ws = [['(']] then .opening .require else .entry rest (comment.map Text.trim)
      else if ws = [['(']] then .opening .other else .silent := by
  obtain ⟨code, hc, hs⟩ := h.exists_coded
  obtain ⟨rest, hb, hrest⟩ := hs.exists_begins
  have hopen : rest = ['('] ↔ ws = [['(']] := hrest.eq_iff (word_of_char (by decide))
  refine ⟨rest, hrest, ?_⟩
  rw [hc.ofLine_none hb]
  exact if_congr Iff.rfl rfl (if_congr Iff.rfl (if_congr hopen rfl rfl) (if_congr hopen rfl rfl))

/-- Inside the block of another directive only a line `)` says anything. -/
theorem ofLine_other_of_not_closing (h : ∀ c, ¬ Line [[')']] c l) :
    Statement.ofLine (some .other) l = .silent := by
  obtain ⟨code, comment, hc⟩ := exists_coded l
  by_cases hne : code = []
  · subst hne
    exact hc.ofLine_nil _
  · have hcode : code ≠ [')'] := by
      rintro rfl
      exact h comment (hc.line (.one (word_of_char (by decide))))
    rw [hc.ofLine_some hne, if_neg hcode]
    rfl

end Statements

/-! ## 8. What items and documents say -/

section Documents

variable {ls : List (List Char)} {path before : Option (List Char)} {rs : List Requirement}

theorem Entries.reads (h : Entries ls rs) (before : Option (List Char)) (reqs : List Requirement) :
    Reads ⟨some .require, before, reqs⟩ ls ⟨some .require, before, reqs ++ rs⟩ := by
  induction h generalizing reqs with
  | nil =>
    rw [List.append_nil]
    exact .nil _
  | silent hl _ ih => exact .cons (line_of_silent (hl.ofLine_of_nil _)) (ih reqs)
  | @entry ws comment l ls r rs hl he _ ih =>
    cases ws with
    | nil => cases he
    | cons w ws =>
      obtain ⟨code, hs, hline⟩ := hl.exists_ofLine_some .require
      have hclose : w :: ws ≠ [[')']] := by
        intro e
        have hlen := he.length
        rw [e] at hlen
        exact absurd hlen (by decide)
      rw [if_neg hclose, if_pos rfl] at hline
      have hread := ih (reqs ++ [r])
      rw [List.append_assoc, List.singleton_append] at hread
      exact .cons (line_of_entry hline (he.requires hs).requirement?_eq) hread

/-- The lines of a block of another directive say nothing. -/
theorem reads_other {body : List (List Char)} (hb : ∀ l ∈ body, ∀ c, ¬ Line [[')']] c l)
    (reqs : List Requirement) :
    Reads ⟨some .other, before, reqs⟩ body ⟨some .other, before, reqs⟩ := by
  induction body with
  | nil => exact .nil _
  | cons l body ih =>
    obtain ⟨hl, hbody⟩ := List.forall_mem_cons.mp hb
    exact .cons (line_of_silent (ofLine_other_of_not_closing hl)) (ih hbody)

theorem Line.reads_closing {comment : Option (List Char)} {l : List Char}
    (hc : Line [[')']] comment l) (b : Block) (reqs : List Requirement) :
    Reads ⟨some b, before, reqs⟩ [l] ⟨none, before, reqs⟩ := by
  obtain ⟨_, _, hline⟩ := hc.exists_ofLine_some b
  rw [if_pos rfl] at hline
  exact .cons (line_of_closing hline) (.nil _)

/-- **An item adds what it says**, and leaves no block open. -/
theorem Item.reads (h : Item ls path rs) (before : Option (List Char)) (reqs : List Requirement) :
    Reads ⟨none, before, reqs⟩ ls ⟨none, path.or before, reqs ++ rs⟩ := by
  cases h with
  | @moduleLine path written l comment hp hw hl =>
    obtain ⟨rest, hs, hline⟩ := hl.exists_ofLine_none
    rw [if_pos rfl, hs.eq_of_one, (hw.unquoted hp).unquote_eq] at hline
    rw [List.append_nil]
    exact .cons (line_of_modulePath hline) (.nil _)
  | @requireLine ws comment l r hl he =>
    obtain ⟨rest, hs, hline⟩ := hl.exists_ofLine_none
    have hopen : ws ≠ [['(']] := by
      intro e
      have hlen := he.length
      rw [e] at hlen
      exact absurd hlen (by decide)
    rw [if_neg (by decide), if_pos rfl, if_neg hopen] at hline
    exact .cons (line_of_entry hline (he.requires hs).requirement?_eq) (.nil _)
  | requireBlock ho hb hc =>
    obtain ⟨rest, _, hline⟩ := ho.exists_ofLine_none
    rw [if_neg (by decide), if_pos rfl, if_pos rfl] at hline
    exact .cons (line_of_opening hline) ((hb.reads before reqs).append (hc.reads_closing _ _))
  | otherLine hm hr hws hl =>
    obtain ⟨rest, _, hline⟩ := hl.exists_ofLine_none
    rw [if_neg hm, if_neg hr, if_neg hws] at hline
    rw [List.append_nil]
    exact .cons (line_of_silent hline) (.nil _)
  | otherBlock hm hr ho hb hc =>
    obtain ⟨rest, _, hline⟩ := ho.exists_ofLine_none
    rw [if_neg hm, if_neg hr, if_pos rfl] at hline
    rw [List.append_nil]
    exact .cons (line_of_opening hline) ((reads_other hb reqs).append (hc.reads_closing _ _))
  | silent hl =>
    rw [List.append_nil]
    exact .cons (line_of_silent (hl.ofLine_of_nil _)) (.nil _)

/-- **A document says what its items say**, the last module line counting. -/
theorem Document.reads (h : Document ls path rs) (before : Option (List Char))
    (reqs : List Requirement) :
    Reads ⟨none, before, reqs⟩ ls ⟨none, path.or before, reqs ++ rs⟩ := by
  induction h generalizing before reqs with
  | nil =>
    rw [List.append_nil]
    exact .nil _
  | @cons ls ls' path path' rs rs' hi _ ih =>
    rw [Option.or_assoc, ← List.append_assoc]
    exact (hi.reads before reqs).append (ih _ _)

/-- The module is given a path. -/
theorem Document.path_of_eq_some (h : Document ls path rs) : ∀ p ∈ path, Path p := by
  induction h with
  | nil => exact fun _ hp => (nomatch hp)
  | @cons ls ls' path path' rs rs' hi _ ih =>
    intro p hp
    rcases Option.or_eq_some_iff.mp hp with hp | ⟨_, hp⟩
    · exact ih p hp
    · cases hi with
      | moduleLine hpath => exact Option.some.inj hp ▸ hpath
      | _ => cases hp

end Documents

end Layout

/-! ## 9. Reading back -/

/-- **Every well-formed document is read back**, however it is laid out: parsing its text gives the
    path on its last module line and its requirements, in order. -/
theorem parse_of_layout {ls : List (List Char)} {path : List Char} {rs : List Requirement}
    {text : String} (hd : Layout.Document ls (some path) rs) (ht : Layout.TextOf ls text.toList) :
    parse text = .ok ⟨String.ofList path, rs⟩ := by
  have hread := ((hd.reads none []).of_textOf ht).lines_eq 1
  have hne := (hd.path_of_eq_some path rfl).ne_nil
  cases path with
  | nil => exact absurd rfl hne
  | cons c cs =>
    rw [parse]
    change (Reading.lines ⟨none, none, []⟩ 1 (Text.lines text.toList) >>= _) = _
    rw [hread]
    rfl

namespace Layout

theorem spaced_pair {w w' : List Char} (hw : Word w) (hw' : Word w') :
    Spaced [w, w'] (w ++ [' '] ++ w') :=
  .more hw (by decide) (List.cons_ne_nil _ _) (List.cons_ne_nil _ _) (.one hw')

/-- A document with a quoted module path, a carriage return, a requirement on a line of its own, the
    block of another directive and a block with an indirect requirement. -/
def mixedLines : List (List Char) :=
  ["module \"m\"\r".toList, "require y v2".toList, "replace (".toList, "\trequire z v3".toList,
    ")".toList, "require (".toList, "\t\"x\" v1 // indirect".toList, ")".toList]

theorem document_mixedLines : Document mixedLines (some "m".toList)
    [⟨"y", "v2", false⟩, ⟨"x", "v1", true⟩] := by
  have hclose : Line [[')']] none ")".toList :=
    @Line.plain _ [] [')'] [] (by decide) (.one (by decide)) (by decide)
  have hmodule : Line ["module".toList, "\"m\"".toList] none "module \"m\"\r".toList :=
    @Line.plain _ [] "module \"m\"".toList ['\r'] (by decide)
      (spaced_pair (by decide) (by decide)) (by decide)
  have hrest : Spaced ["y".toList, "v2".toList] "y v2".toList :=
    spaced_pair (by decide) (by decide)
  have hy : Line ["require".toList, "y".toList, "v2".toList] none "require y v2".toList :=
    @Line.plain _ [] ("require".toList ++ [' '] ++ "y v2".toList) [] (by decide)
      (.more (by decide) (by decide) (by decide) (by decide) hrest) (by decide)
  have hreplace : Line ["replace".toList, ['(']] none "replace (".toList :=
    @Line.plain _ [] "replace (".toList [] (by decide)
      (spaced_pair (by decide) (by decide)) (by decide)
  have hrequire : Line ["require".toList, ['(']] none "require (".toList :=
    @Line.plain _ [] "require (".toList [] (by decide)
      (spaced_pair (by decide) (by decide)) (by decide)
  have hx : Line ["\"x\"".toList, "v1".toList] (some " indirect".toList)
      "\t\"x\" v1 // indirect".toList :=
    @Line.commented _ ['\t'] "\"x\" v1".toList [' '] " indirect".toList (by decide)
      (spaced_pair (by decide) (by decide)) (by decide) (by decide)
  have hskipped : ∀ l ∈ ["\trequire z v3".toList], ∀ c, ¬ Line [[')']] c l := by
    intro l hl c hc
    obtain ⟨code, hcoded, hs⟩ := hc.exists_coded
    have hcode := hcoded.splitComment_eq.1
    rw [hs.eq_of_one, List.mem_singleton.mp hl] at hcode
    exact absurd hcode (by decide)
  have hindirect : Entry ["\"x\"".toList, "v1".toList] (some " indirect".toList)
      ⟨"x", "v1", true⟩ :=
    .intro (by decide) .quoted
      ⟨fun _ => ⟨_, rfl, [' '], [], by decide, by decide, by decide⟩, fun _ => rfl⟩
  have hblock := Item.requireBlock hrequire (.entry hx hindirect .nil) hclose
  have hother := Item.otherBlock (by decide) (by decide) hreplace hskipped hclose
  have hsingle : Item ["require y v2".toList] none [⟨"y", "v2", false⟩] :=
    .requireLine hy (.intro (by decide) .bare (by simp))
  have hpath : Item ["module \"m\"\r".toList] (some "m".toList) [] :=
    .moduleLine (by decide) .quoted hmodule
  exact .cons hpath (.cons hsingle (.cons hother (.cons hblock .nil)))

end Layout

/-- That document is read back. -/
theorem parse_of_mixed_layout :
    Layout.Document Layout.mixedLines (some "m".toList)
      [⟨"y", "v2", false⟩, ⟨"x", "v1", true⟩] ∧
    parse ("module \"m\"\r\nrequire y v2\nreplace (\n\trequire z v3\n)\nrequire (\n" ++
      "\t\"x\" v1 // indirect\n)") = .ok ⟨"m", [⟨"y", "v2", false⟩, ⟨"x", "v1", true⟩]⟩ := by
  refine ⟨Layout.document_mixedLines, parse_of_layout Layout.document_mixedLines ?_⟩
  exact .cons (by decide) (.cons (by decide) (.cons (by decide) (.cons (by decide)
    (.cons (by decide) (.cons (by decide) (.cons (by decide) (.last (by decide))))))))

end Isolation.GoMod
