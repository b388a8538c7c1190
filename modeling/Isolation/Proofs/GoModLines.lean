import Isolation.Proofs.GoModLayout

/-!
# A `go.mod` document is accepted or refused by its lines

Every text is a document with some lines, well-formed or not: blocks that are never closed, stray
parentheses, entries with one word. This file gives the rules for a single line, relative to the
lines before it, and shows that reading a document follows them:

* `Outside`, `Inside` -- whether a block is open after some lines, and the word that opened it; not
  both, and no two words (`Outside.not_inside`, `Inside.unique`);
* `EntryAfter`, `ModuleAfter` -- a line is a `require` entry, or names the module;
* `opening_iff`, `closing_iff`, `modulePath_iff`, `entry_iff` -- each statement that a line makes is
  made under one rule;
* `exists_told` -- the lines of a document are read up to the first entry that lacks a version, and
  what has been read is `Told` by the rules, by induction on the lines;
* **`parse_decides`** -- which documents are refused, for what reason and with what line number, and
  what is read of all others.

NOT here: how much white space stands where. That a document is the same in every layout is
`Isolation.Proofs.GoModLayout`.
-/

namespace Isolation.GoMod

open Text (Blank Solid Trimmed)

namespace Layout

/-! ## 1. The rules -/

section Rules

/-- The line opens a block of the word `w`: this word and `(` are all there is on it. A line that
    begins with `module` never does. -/
def Opens (w l : List Char) : Prop :=
  w ≠ "module".toList ∧ ∃ code comment, Coded code comment l ∧ Begins w ['('] code

/-- The line closes a block, if one is open: `)` is all there is on it. -/
def Closes (l : List Char) : Prop := ∃ comment, Coded [')'] comment l

/-- No block is open after the lines: some of them stand outside all blocks, the others are blocks
    that have been closed. -/
inductive Outside : List (List Char) → Prop where
  | start : Outside []
  | line {ls : List (List Char)} {l : List Char} (h : Outside ls) (hl : ∀ w, ¬ Opens w l) :
    Outside (ls ++ [l])
  | block {ls body : List (List Char)} {w opening closing : List Char} (h : Outside ls)
    (ho : Opens w opening) (hb : ∀ l ∈ body, ¬ Closes l) (hc : Closes closing) :
    Outside (ls ++ opening :: (body ++ [closing]))

/-- A block of the word `w` is open after the lines. -/
def Inside (w : List Char) (ls : List (List Char)) : Prop :=
  ∃ before opening body, ls = before ++ opening :: body ∧ Outside before ∧ Opens w opening ∧
    ∀ l ∈ body, ¬ Closes l

/-- The line after the lines `before` is a `require` entry, with what it says and its comment:
    inside a `require` block any line with code that does not close it, and outside all blocks a
    line that begins with `require` and opens none. -/
inductive EntryAfter (before : List (List Char)) (l : List Char) :
    List Char → Option (List Char) → Prop where
  | inside {code : List Char} {comment : Option (List Char)}
    (h : Inside "require".toList before) (hc : Coded code comment l) (hne : code ≠ [])
    (hclose : code ≠ [')']) : EntryAfter before l code comment
  | outside {code rest : List Char} {comment : Option (List Char)} (h : Outside before)
    (hc : Coded code comment l) (hb : Begins "require".toList rest code) (hopen : rest ≠ ['(']) :
    EntryAfter before l rest comment

/-- An entry lacks a word: it has fewer than two. -/
def Lacking (spec : List Char) : Prop := ∃ ws, Spaced ws spec ∧ ws.length < 2

/-- No entry on the lines lacks a word. -/
def NoneLacking (ls : List (List Char)) : Prop :=
  ∀ before l after, ls = before ++ l :: after →
    ∀ spec comment, EntryAfter before l spec comment → ¬ Lacking spec

/-- The first entry that lacks a word, and the number of its line, counted from 1. -/
def FirstLacking (ls : List (List Char)) (number : Nat) (spec : List Char) : Prop :=
  ∃ before l after comment, ls = before ++ l :: after ∧ number = before.length + 1 ∧
    NoneLacking before ∧ EntryAfter before l spec comment ∧ Lacking spec

/-- What the entries on the lines require, one after another. -/
inductive Required : List (List Char) → List Requirement → Prop where
  | start : Required [] []
  | entry {ls : List (List Char)} {l spec : List Char} {comment : Option (List Char)}
    {rs : List Requirement} {r : Requirement} (h : Required ls rs)
    (he : EntryAfter ls l spec comment) (hr : Requires spec comment r) :
    Required (ls ++ [l]) (rs ++ [r])
  | other {ls : List (List Char)} {l : List Char} {rs : List Requirement} (h : Required ls rs)
    (hl : ∀ spec comment, ¬ EntryAfter ls l spec comment) : Required (ls ++ [l]) rs

/-- The line after the lines `before` begins with `module`, outside all blocks, and names the module
    by what follows, without the quotes around it. -/
def ModuleAfter (before : List (List Char)) (l path : List Char) : Prop :=
  Outside before ∧ ∃ code comment rest, Coded code comment l ∧
    Begins "module".toList rest code ∧ Unquoted path rest

/-- The path on the last of the lines that name the module, if there is one. -/
inductive LastPath : List (List Char) → Option (List Char) → Prop where
  | start : LastPath [] none
  | here {ls : List (List Char)} {l path : List Char} (h : ModuleAfter ls l path) :
    LastPath (ls ++ [l]) (some path)
  | before {ls : List (List Char)} {l : List Char} {path : Option (List Char)}
    (h : LastPath ls path) (hl : ∀ p, ¬ ModuleAfter ls l p) : LastPath (ls ++ [l]) path

end Rules

/-! ## 2. Lines of a text -/

/-- Every text has lines. -/
theorem exists_textOf (text : List Char) : ∃ ls, TextOf ls text := by
  induction text with
  | nil => exact ⟨[], .nil⟩
  | cons c text ih =>
    obtain ⟨ls, ht⟩ := ih
    by_cases hc : c = '\n'
    · subst hc
      exact ⟨[] :: ls, .cons List.not_mem_nil ht⟩
    · -- the character is put before the first line, if there is one
      have hmem : ∀ {l : List Char}, '\n' ∉ l → '\n' ∉ c :: l := by
        intro l hl h
        rcases List.mem_cons.mp h with h | h
        · exact hc h.symm
        · exact hl h
      cases ht with
      | nil => exact ⟨[[c]], .last (hmem List.not_mem_nil)⟩
      | last hl => exact ⟨_, .last (hmem hl)⟩
      | cons hl ht => exact ⟨_, .cons (hmem hl) ht⟩

/-- The lines of a text are read from the text, whatever comes of it. -/
theorem lines_of_textOf {ls : List (List Char)} {text : List Char} (ht : TextOf ls text)
    (r : Reading) (number : Nat) : r.lines number (Text.lines text) = r.lines number ls := by
  induction ht generalizing r number with
  | nil => rfl
  | @last l hl =>
    by_cases hne : l = []
    · -- an empty last line is no line, and would have said nothing
      subst hne
      rfl
    · rw [Text.lines_of_ne_nil hl hne]
  | @cons l text ls hl _ ih =>
    rw [Text.lines_append hl, Reading.lines, Reading.lines, line_dropReturn]
    cases r.line number l with
    | error d => rfl
    | ok r' => exact ih r' (number + 1)

theorem lines_concat (r : Reading) (number : Nat) (ls : List (List Char)) (l : List Char) :
    r.lines number (ls ++ [l]) =
      (r.lines number ls).bind fun r' => r'.line (number + ls.length) l := by
  induction ls generalizing r number with
  | nil =>
    show r.lines number [l] = r.line number l
    rw [Reading.lines]
    cases r.line number l <;> rfl
  | cons k ls ih =>
    rw [List.cons_append, Reading.lines, Reading.lines]
    cases r.line number k with
    | error d => rfl
    | ok r' =>
      show r'.lines (number + 1) (ls ++ [l]) = _
      rw [ih, List.length_cons]
      congr 2
      funext r''
      congr 1
      omega

/-- Once a line is refused, the lines after it make no difference. -/
theorem lines_append_of_error {r : Reading} {number : Nat} {ls : List (List Char)} {d : Defect}
    (h : r.lines number ls = .error d) (ls' : List (List Char)) :
    r.lines number (ls ++ ls') = .error d := by
  induction ls generalizing r number with
  | nil => cases h
  | cons l ls ih =>
    rw [Reading.lines] at h
    rw [List.cons_append, Reading.lines]
    cases hl : r.line number l with
    | error e =>
      rw [hl] at h
      exact h
    | ok r' =>
      rw [hl] at h
      exact ih h

/-! ## 3. Codes, first words and quotes are unique -/

section Unique

variable {code code' l w w' rest rest' spec : List Char}
  {comment comment' : Option (List Char)}

theorem Coded.unique (h : Coded code comment l) (h' : Coded code' comment' l) :
    code = code' ∧ comment.map Text.trim = comment'.map Text.trim := by
  rw [← h.splitComment_eq.1, ← h.splitComment_eq.2]
  exact h'.splitComment_eq

theorem Begins.unique (h : Begins w rest code) (h' : Begins w' rest' code) :
    w = w' ∧ rest = rest' := by
  have he := h.splitDirective_eq
  rw [h'.splitDirective_eq] at he
  exact ⟨congrArg Prod.fst he.symm, congrArg Prod.snd he.symm⟩

/-- A code that is not empty begins with a word. -/
theorem exists_begins (h : Trimmed code) (hne : code ≠ []) : ∃ w rest, Begins w rest code := by
  obtain ⟨w, after, hw, hafter, rfl⟩ := Text.exists_solid_append code
  obtain ⟨gap, rest, hg, hrest, rfl⟩ := Text.exists_blank_append after
  obtain ⟨hhead, hlast⟩ := h
  have hwne : w ≠ [] := by
    rintro rfl
    obtain ⟨c, cs, hcs⟩ := List.exists_cons_of_ne_nil hne
    rw [List.nil_append] at hhead hcs
    rw [hcs] at hhead hafter
    exact absurd (hafter c rfl) (by rw [hhead c rfl]; exact Bool.false_ne_true)
  refine ⟨w, rest, hw, hwne, ⟨hrest, fun c hc => ?_⟩, gap, hg, fun hgap => ?_,
    (List.append_assoc w gap rest).symm⟩
  · refine hlast c ?_
    have hrestne : rest ≠ [] := by
      rintro rfl
      cases hc
    rwa [← List.append_assoc, List.getLast?_append_of_ne_nil _ hrestne]
  · -- what follows the word would begin both with white space and without
    subst hgap
    cases rest with
    | nil => rfl
    | cons c rest =>
      have hblank := hafter c rfl
      rw [hrest c rfl] at hblank
      cases hblank

theorem Begins.exists_spaced (h : Begins w rest code) (hfree : CommentFree code) :
    ∃ ws, Spaced ws rest := by
  obtain ⟨gap, _, _, rfl⟩ := h.exists_gap
  exact Layout.exists_spaced (hfree.of_infix (List.suffix_append _ _).isInfix) h.trimmed

theorem exists_replicate_append (cs : List Char) :
    ∃ n rest, cs = List.replicate n '"' ++ rest ∧ rest.head? ≠ some '"' := by
  induction cs with
  | nil => exact ⟨0, [], rfl, by decide⟩
  | cons c cs ih =>
    by_cases hc : c = '"'
    · obtain ⟨n, rest, hcs, hrest⟩ := ih
      exact ⟨n + 1, rest, by rw [hc, hcs, List.replicate_succ, List.cons_append], hrest⟩
    · exact ⟨0, c :: cs, rfl, fun h => hc (Option.some.inj h)⟩

/-- Quotes can be taken off every text. -/
theorem unquoted_unquote (cs : List Char) : Unquoted (unquote cs) cs := by
  obtain ⟨m, rest, rfl, hrest⟩ := exists_replicate_append cs
  obtain ⟨n, inner, hinner, hlast⟩ := exists_replicate_append rest.reverse
  have hrest' : rest = inner.reverse ++ List.replicate n '"' := by
    rw [← List.reverse_reverse rest, hinner, List.reverse_append, List.reverse_replicate]
  have hunquoted : Unquoted inner.reverse (List.replicate m '"' ++ rest) := by
    refine ⟨fun hhead => hrest ?_, ?_, m, n, by rw [hrest', List.append_assoc]⟩
    · have hne : inner.reverse ≠ [] := by
        intro he
        rw [he] at hhead
        cases hhead
      rw [hrest', List.head?_append_of_ne_nil _ hne, hhead]
    · rwa [List.getLast?_reverse]
  rwa [hunquoted.unquote_eq]

/-- An entry that has its words requires something, one that lacks a word does not. -/
theorem requirement?_eq_none_iff {ws : List (List Char)} (hs : Spaced ws spec) :
    requirement? spec comment = none ↔ Lacking spec := by
  have hlacking : Lacking spec ↔ ws.length < 2 := by
    constructor
    · rintro ⟨ws', hs', hlt⟩
      rwa [← hs.words_eq, hs'.words_eq]
    · exact fun hlt => ⟨ws, hs, hlt⟩
  rw [hlacking, requirement?, hs.words_eq]
  rcases ws with _ | ⟨written, _ | ⟨version, extra⟩⟩
  · simp
  · simp
  · simp

theorem requires_of_requirement? {ws : List (List Char)} (hs : Spaced ws spec) {r : Requirement}
    (h : requirement? spec (comment.map Text.trim) = some r) : Requires spec comment r := by
  rw [requirement?, hs.words_eq] at h
  rcases ws with _ | ⟨written, _ | ⟨version, extra⟩⟩
  · cases h
  · cases h
  · cases h
    refine .intro hs (unquoted_unquote written) ?_
    have htrimmed : Trimmed "indirect".toList := Solid.trimmed (by decide)
    rw [beq_iff_eq, Option.map_eq_some_iff]
    simp only [Text.trim_eq_iff htrimmed, Option.mem_def]

end Unique

/-! ## 4. One more line -/

section Concat

variable {ls before after : List (List Char)} {l k w w' spec spec' : List Char}
  {comment comment' : Option (List Char)}

theorem concat_eq_append_cons_iff : ls ++ [l] = before ++ k :: after ↔
    (after = [] ∧ ls = before ∧ l = k) ∨ ∃ after', after = after' ++ [l] ∧
      ls = before ++ k :: after' := by
  constructor
  · intro h
    rcases List.eq_nil_or_concat' after with rfl | ⟨after', last, rfl⟩
    · exact Or.inl ⟨rfl, List.append_singleton_inj.mp h⟩
    · rw [← List.cons_append, ← List.append_assoc] at h
      obtain ⟨hls, hl⟩ := List.append_singleton_inj.mp h
      exact Or.inr ⟨after', by rw [hl], hls⟩
  · rintro (⟨rfl, rfl, rfl⟩ | ⟨after', rfl, rfl⟩)
    · rfl
    · rw [List.append_assoc, List.cons_append]

theorem Opens.unique (h : Opens w l) (h' : Opens w' l) : w = w' := by
  obtain ⟨_, code, comment, hc, hb⟩ := h
  obtain ⟨_, code', comment', hc', hb'⟩ := h'
  rw [(hc'.unique hc).1] at hb'
  exact (hb.unique hb').1

/-- No block is open after a line that opens none where none was open, or that closes one. -/
theorem outside_concat_iff : Outside (ls ++ [l]) ↔
    (Outside ls ∧ ∀ w, ¬ Opens w l) ∨ ((∃ w, Inside w ls) ∧ Closes l) := by
  constructor
  · intro h
    generalize hk : ls ++ [l] = k at h
    cases h with
    | start => simp at hk
    | line h hl =>
      obtain ⟨rfl, rfl⟩ := List.append_singleton_inj.mp hk
      exact Or.inl ⟨h, hl⟩
    | @block ls' body w opening closing h ho hb hc =>
      rw [← List.cons_append, ← List.append_assoc] at hk
      obtain ⟨rfl, rfl⟩ := List.append_singleton_inj.mp hk
      exact Or.inr ⟨⟨w, ls', opening, body, rfl, h, ho, hb⟩, hc⟩
  · rintro (⟨h, hl⟩ | ⟨⟨w, before, opening, body, rfl, h, ho, hb⟩, hc⟩)
    · exact .line h hl
    · rw [List.append_assoc, List.cons_append]
      exact .block h ho hb hc

/-- A block is open after a line that opens it where none was open, or that does not close it. -/
theorem inside_concat_iff : Inside w (ls ++ [l]) ↔
    (Outside ls ∧ Opens w l) ∨ (Inside w ls ∧ ¬ Closes l) := by
  constructor
  · rintro ⟨before, opening, body, he, h, ho, hb⟩
    rcases concat_eq_append_cons_iff.mp he with ⟨rfl, rfl, rfl⟩ | ⟨body, rfl, rfl⟩
    · exact Or.inl ⟨h, ho⟩
    · obtain ⟨hb, hlast⟩ := List.forall_mem_append.mp hb
      exact Or.inr ⟨⟨before, opening, body, rfl, h, ho, hb⟩, hlast l List.mem_cons_self⟩
  · rintro (⟨h, ho⟩ | ⟨⟨before, opening, body, rfl, h, ho, hb⟩, hl⟩)
    · exact ⟨ls, l, [], rfl, h, ho, fun _ hm => absurd hm List.not_mem_nil⟩
    · refine ⟨before, opening, body ++ [l], by simp, h, ho, ?_⟩
      exact List.forall_mem_append.mpr ⟨hb, fun k hk => List.mem_singleton.mp hk ▸ hl⟩

/-- A line stands outside all blocks, or inside the block of one word. -/
theorem place_unique (ls : List (List Char)) :
    (Outside ls → ∀ w, ¬ Inside w ls) ∧ ∀ w w', Inside w ls → Inside w' ls → w = w' := by
  induction ls using List.reverseRecOn with
  | nil =>
    have hnil : ∀ w, ¬ Inside w [] := by
      rintro w ⟨before, opening, body, he, _⟩
      simp at he
    exact ⟨fun _ => hnil, fun w _ h => absurd h (hnil w)⟩
  | append_singleton ls l ih =>
    obtain ⟨hout, hin⟩ := ih
    simp only [outside_concat_iff, inside_concat_iff]
    constructor
    · rintro (⟨h, hl⟩ | ⟨⟨w', h⟩, hc⟩) w (⟨h', ho⟩ | ⟨h', hnc⟩)
      · exact hl w ho
      · exact hout h w h'
      · exact hout h' w' h
      · exact hnc hc
    · rintro w w' (⟨h, ho⟩ | ⟨h, _⟩) (⟨h', ho'⟩ | ⟨h', _⟩)
      · exact ho.unique ho'
      · exact absurd h' (hout h w')
      · exact absurd h (hout h' w)
      · exact hin w w' h h'

theorem Outside.not_inside (h : Outside ls) : ¬ Inside w ls := (place_unique ls).1 h w

theorem Inside.unique (h : Inside w ls) (h' : Inside w' ls) : w = w' :=
  (place_unique ls).2 w w' h h'

theorem EntryAfter.unique (h : EntryAfter ls l spec comment)
    (h' : EntryAfter ls l spec' comment') :
    spec = spec' ∧ comment.map Text.trim = comment'.map Text.trim := by
  cases h with
  | inside hin hc hne hclose =>
    cases h' with
    | inside _ hc' _ _ => exact hc.unique hc'
    | outside hout _ _ _ => exact absurd hin hout.not_inside
  | outside hout hc hb hopen =>
    cases h' with
    | inside hin _ _ _ => exact absurd hin hout.not_inside
    | outside _ hc' hb' _ =>
      obtain ⟨rfl, hcomment⟩ := hc.unique hc'
      exact ⟨(hb.unique hb').2, hcomment⟩

theorem noneLacking_nil : NoneLacking [] := by
  intro before l after he
  simp at he

theorem noneLacking_concat_iff : NoneLacking (ls ++ [l]) ↔
    NoneLacking ls ∧ ∀ spec comment, EntryAfter ls l spec comment → ¬ Lacking spec := by
  constructor
  · intro h
    refine ⟨fun before k after he => h before k (after ++ [l]) ?_, h ls l [] rfl⟩
    rw [he, List.append_assoc, List.cons_append]
  · rintro ⟨h, hl⟩ before k after he
    rcases concat_eq_append_cons_iff.mp he with ⟨_, rfl, rfl⟩ | ⟨after', _, rfl⟩
    · exact hl
    · exact h before k after' rfl

/-- If any entry lacks a word, one does so first. -/
theorem noneLacking_or_exists_first (ls : List (List Char)) :
    NoneLacking ls ∨ ∃ number spec, FirstLacking ls number spec := by
  induction ls using List.reverseRecOn with
  | nil => exact Or.inl noneLacking_nil
  | append_singleton ls l ih =>
    rcases ih with h | ⟨number, spec, before, k, after, comment, rfl, hfirst⟩
    · by_cases hl : ∀ spec comment, EntryAfter ls l spec comment → ¬ Lacking spec
      · exact Or.inl (noneLacking_concat_iff.mpr ⟨h, hl⟩)
      · push Not at hl
        obtain ⟨spec, comment, he, hlack⟩ := hl
        exact Or.inr ⟨_, spec, ls, l, [], comment, rfl, rfl, h, he, hlack⟩
    · refine Or.inr ⟨number, spec, before, k, after ++ [l], comment, ?_, hfirst⟩
      rw [List.append_assoc, List.cons_append]

theorem required_nil_iff {rs : List Requirement} : Required [] rs ↔ rs = [] := by
  constructor
  · intro h
    generalize hk : ([] : List (List Char)) = k at h
    cases h with
    | start => rfl
    | entry => simp at hk
    | other => simp at hk
  · rintro rfl
    exact .start

theorem required_concat_iff {rs : List Requirement} : Required (ls ++ [l]) rs ↔
    (∃ spec comment r rs', EntryAfter ls l spec comment ∧ Requires spec comment r ∧
      Required ls rs' ∧ rs = rs' ++ [r]) ∨
    (∀ spec comment, ¬ EntryAfter ls l spec comment) ∧ Required ls rs := by
  constructor
  · intro h
    generalize hk : ls ++ [l] = k at h
    cases h with
    | start => simp at hk
    | entry h he hr =>
      obtain ⟨rfl, rfl⟩ := List.append_singleton_inj.mp hk
      exact Or.inl ⟨_, _, _, _, he, hr, h, rfl⟩
    | other h hl =>
      obtain ⟨rfl, rfl⟩ := List.append_singleton_inj.mp hk
      exact Or.inr ⟨hl, h⟩
  · rintro (⟨_, _, _, _, he, hr, h, rfl⟩ | ⟨hl, h⟩)
    · exact .entry h he hr
    · exact .other h hl

theorem required_concat_of_entry {r : Requirement} {rs : List Requirement}
    (he : EntryAfter ls l spec comment) (hr : Requires spec comment r) :
    Required (ls ++ [l]) rs ↔ ∃ rs', Required ls rs' ∧ rs = rs' ++ [r] := by
  rw [required_concat_iff]
  constructor
  · rintro (⟨_, _, r', rs', he', hr', h, rfl⟩ | ⟨hl, _⟩)
    · obtain ⟨rfl, hcomment⟩ := he.unique he'
      have hreq := hr.requirement?_eq
      rw [hcomment, hr'.requirement?_eq] at hreq
      exact ⟨rs', h, by rw [Option.some.inj hreq]⟩
    · exact absurd he (hl spec comment)
  · rintro ⟨rs', h, rfl⟩
    exact Or.inl ⟨spec, comment, r, rs', he, hr, h, rfl⟩

theorem required_concat_of_other {rs : List Requirement}
    (hl : ∀ spec comment, ¬ EntryAfter ls l spec comment) :
    Required (ls ++ [l]) rs ↔ Required ls rs := by
  rw [required_concat_iff]
  constructor
  · rintro (⟨spec, comment, _, _, he, _⟩ | ⟨_, h⟩)
    · exact absurd he (hl spec comment)
    · exact h
  · exact fun h => Or.inr ⟨hl, h⟩

theorem ModuleAfter.unique {path path' : List Char} (h : ModuleAfter ls l path)
    (h' : ModuleAfter ls l path') : path = path' := by
  obtain ⟨_, code, comment, rest, hc, hb, hu⟩ := h
  obtain ⟨_, code', comment', rest', hc', hb', hu'⟩ := h'
  obtain ⟨rfl, _⟩ := hc.unique hc'
  obtain ⟨_, rfl⟩ := hb.unique hb'
  rw [← hu.unquote_eq, hu'.unquote_eq]

theorem lastPath_nil_iff {p : Option (List Char)} : LastPath [] p ↔ p = none := by
  constructor
  · intro h
    generalize hk : ([] : List (List Char)) = k at h
    cases h with
    | start => rfl
    | here => simp at hk
    | before => simp at hk
  · rintro rfl
    exact .start

theorem lastPath_concat_iff {p : Option (List Char)} : LastPath (ls ++ [l]) p ↔
    (∃ path, ModuleAfter ls l path ∧ p = some path) ∨
    (∀ path, ¬ ModuleAfter ls l path) ∧ LastPath ls p := by
  constructor
  · intro h
    generalize hk : ls ++ [l] = k at h
    cases h with
    | start => simp at hk
    | here hm =>
      obtain ⟨rfl, rfl⟩ := List.append_singleton_inj.mp hk
      exact Or.inl ⟨_, hm, rfl⟩
    | before h hl =>
      obtain ⟨rfl, rfl⟩ := List.append_singleton_inj.mp hk
      exact Or.inr ⟨hl, h⟩
  · rintro (⟨path, hm, rfl⟩ | ⟨hl, h⟩)
    · exact .here hm
    · exact .before h hl

theorem lastPath_concat_of_module {path : List Char} {p : Option (List Char)}
    (hm : ModuleAfter ls l path) : LastPath (ls ++ [l]) p ↔ p = some path := by
  rw [lastPath_concat_iff]
  constructor
  · rintro (⟨path', hm', rfl⟩ | ⟨hl, _⟩)
    · rw [hm.unique hm']
    · exact absurd hm (hl path)
  · exact fun hp => Or.inl ⟨path, hm, hp⟩

theorem lastPath_concat_of_other {p : Option (List Char)}
    (hl : ∀ path, ¬ ModuleAfter ls l path) : LastPath (ls ++ [l]) p ↔ LastPath ls p := by
  rw [lastPath_concat_iff]
  constructor
  · rintro (⟨path, hm, _⟩ | ⟨_, h⟩)
    · exact absurd hm (hl path)
    · exact h
  · exact fun h => Or.inr ⟨hl, h⟩

end Concat

/-! ## 5. What a line says -/

/-- The block of a word. -/
def blockOf (w : List Char) : Block := if w = "require".toList then .require else .other

/-- The block in which the line after some lines stands, if it stands in one. -/
inductive Placed (ls : List (List Char)) : Option Block → Prop where
  | outside (h : Outside ls) : Placed ls none
  | inside {w : List Char} (h : Inside w ls) : Placed ls (some (blockOf w))

section Statements

variable {ls : List (List Char)} {l w : List Char} {b : Option Block}

theorem Placed.eq_none (hp : Placed ls b) (h : Outside ls) : b = none := by
  cases hp with
  | outside => rfl
  | inside hin => exact absurd hin h.not_inside

theorem Placed.eq_some (hp : Placed ls b) (h : Inside w ls) : b = some (blockOf w) := by
  cases hp with
  | outside hout => exact absurd h hout.not_inside
  | inside hin => rw [h.unique hin]

theorem blockOf_eq_require_iff : blockOf w = .require ↔ w = "require".toList := by
  unfold blockOf
  split <;> simp_all

/-- The statements that a line can make after some lines, each under its rule. -/
inductive Says (ls : List (List Char)) (l : List Char) : Statement → Prop where
  | silent : Says ls l .silent
  | opening {w : List Char} (h : Outside ls) (ho : Opens w l) : Says ls l (.opening (blockOf w))
  | closing {w : List Char} (h : Inside w ls) (hc : Closes l) : Says ls l .closing
  | modulePath {path : List Char} (h : ModuleAfter ls l path) : Says ls l (.modulePath path)
  | entry {spec : List Char} {comment : Option (List Char)} (h : EntryAfter ls l spec comment) :
    Says ls l (.entry spec (comment.map Text.trim))

/-- **A line makes no statement but under its rule.** -/
theorem says_ofLine (hp : Placed ls b) (l : List Char) : Says ls l (Statement.ofLine b l) := by
  obtain ⟨code, comment, hc⟩ := exists_coded l
  by_cases hne : code = []
  · subst hne
    rw [hc.ofLine_nil]
    exact .silent
  cases hp with
  | outside h =>
    obtain ⟨v, rest, hb⟩ := exists_begins hc.trimmed hne
    rw [hc.ofLine_none hb]
    split
    · rename_i hv
      subst hv
      exact .modulePath ⟨h, code, comment, rest, hc, hb, unquoted_unquote rest⟩
    rename_i hm
    split
    · rename_i hv
      split
      · rename_i hopen
        have ho : Opens v l := ⟨hm, code, comment, hc, hopen ▸ hb⟩
        have hsays := Says.opening h ho
        rwa [blockOf_eq_require_iff.mpr hv] at hsays
      · rename_i hopen
        exact .entry (.outside h hc (hv ▸ hb) hopen)
    · rename_i hv
      split
      · rename_i hopen
        have ho : Opens v l := ⟨hm, code, comment, hc, hopen ▸ hb⟩
        have hsays := Says.opening h ho
        rwa [blockOf, if_neg hv] at hsays
      · exact .silent
  | @inside w h =>
    rw [hc.ofLine_some hne]
    split
    · rename_i hclose
      exact .closing h ⟨comment, hclose ▸ hc⟩
    rename_i hclose
    split
    · rename_i hw
      exact .entry (.inside (blockOf_eq_require_iff.mp hw ▸ h) hc hne hclose)
    · exact .silent

theorem opening_iff (hp : Placed ls b) {k : Block} :
    Statement.ofLine b l = .opening k ↔ Outside ls ∧ ∃ w, Opens w l ∧ blockOf w = k := by
  constructor
  · intro h
    have hsays := says_ofLine hp l
    rw [h] at hsays
    cases hsays with
    | opening hout ho => exact ⟨hout, _, ho, rfl⟩
  · rintro ⟨h, w, ⟨hm, code, comment, hc, hb⟩, rfl⟩
    rw [hp.eq_none h, hc.ofLine_none hb, if_neg hm, if_pos rfl, if_pos rfl, blockOf]
    split <;> rfl

theorem closing_iff (hp : Placed ls b) :
    Statement.ofLine b l = .closing ↔ (∃ w, Inside w ls) ∧ Closes l := by
  constructor
  · intro h
    have hsays := says_ofLine hp l
    rw [h] at hsays
    cases hsays with
    | closing hin hc => exact ⟨⟨_, hin⟩, hc⟩
  · rintro ⟨⟨w, h⟩, comment, hc⟩
    rw [hp.eq_some h, hc.ofLine_some (List.cons_ne_nil _ _), if_pos rfl]

theorem modulePath_iff (hp : Placed ls b) {path : List Char} :
    Statement.ofLine b l = .modulePath path ↔ ModuleAfter ls l path := by
  constructor
  · intro h
    have hsays := says_ofLine hp l
    rw [h] at hsays
    cases hsays with
    | modulePath hm => exact hm
  · rintro ⟨h, code, comment, rest, hc, hb, hu⟩
    rw [hp.eq_none h, hc.ofLine_none hb, if_pos rfl, hu.unquote_eq]

theorem entry_iff (hp : Placed ls b) {spec : List Char} {c : Option (List Char)} :
    Statement.ofLine b l = .entry spec c ↔
      ∃ comment, EntryAfter ls l spec comment ∧ comment.map Text.trim = c := by
  constructor
  · intro h
    have hsays := says_ofLine hp l
    rw [h] at hsays
    cases hsays with
    | entry he => exact ⟨_, he, rfl⟩
  · rintro ⟨comment, he, rfl⟩
    cases he with
    | inside h hc hne hclose =>
      rw [hp.eq_some h, hc.ofLine_some hne, if_neg hclose, if_pos (by decide)]
    | outside h hc hb hopen =>
      rw [hp.eq_none h, hc.ofLine_none hb, if_neg (by decide), if_pos rfl, if_neg hopen]

theorem Placed.concat_of_opening (hp : Placed ls b) {k : Block}
    (hs : Statement.ofLine b l = .opening k) : Placed (ls ++ [l]) (some k) := by
  obtain ⟨h, w, ho, rfl⟩ := (opening_iff hp).mp hs
  exact .inside (inside_concat_iff.mpr (Or.inl ⟨h, ho⟩))

theorem Placed.concat_of_closing (hp : Placed ls b) (hs : Statement.ofLine b l = .closing) :
    Placed (ls ++ [l]) none :=
  .outside (outside_concat_iff.mpr (Or.inr ((closing_iff hp).mp hs)))

/-- A line that neither opens nor closes a block leaves the block as it is. -/
theorem Placed.concat (hp : Placed ls b) (ho : ∀ k, Statement.ofLine b l ≠ .opening k)
    (hc : Statement.ofLine b l ≠ .closing) : Placed (ls ++ [l]) b := by
  cases hp with
  | outside h =>
    have hnone : ∀ w, ¬ Opens w l := fun w hw =>
      ho (blockOf w) ((opening_iff (.outside h)).mpr ⟨h, w, hw, rfl⟩)
    exact .outside (outside_concat_iff.mpr (Or.inl ⟨h, hnone⟩))
  | @inside w h =>
    have hnot : ¬ Closes l := fun hcl => hc ((closing_iff (.inside h)).mpr ⟨⟨w, h⟩, hcl⟩)
    exact .inside (inside_concat_iff.mpr (Or.inr ⟨h, hnot⟩))

end Statements

/-! ## 6. What is read of some lines -/

/-- A reading tells of the lines what the rules say of them. -/
structure Told (ls : List (List Char)) (r : Reading) : Prop where
  placed : Placed ls r.block
  path : ∀ p, LastPath ls p ↔ p = r.modulePath
  required : ∀ rs, Required ls rs ↔ rs = r.requires

section Told

variable {ls : List (List Char)} {l spec : List Char} {r : Reading} {number : Nat}

theorem told_start : Told [] {} where
  placed := .outside .start
  path _ := lastPath_nil_iff
  required _ := required_nil_iff

theorem Told.path_concat (h : Told ls r) (hs : ∀ p, Statement.ofLine r.block l ≠ .modulePath p)
    (p : Option (List Char)) : LastPath (ls ++ [l]) p ↔ p = r.modulePath := by
  rw [lastPath_concat_of_other fun p hm => hs p ((modulePath_iff h.placed).mpr hm)]
  exact h.path p

theorem Told.required_concat (h : Told ls r)
    (hs : ∀ spec c, Statement.ofLine r.block l ≠ .entry spec c) (rs : List Requirement) :
    Required (ls ++ [l]) rs ↔ rs = r.requires := by
  rw [required_concat_of_other fun spec comment he =>
    hs spec _ ((entry_iff h.placed).mpr ⟨comment, he, rfl⟩)]
  exact h.required rs

theorem EntryAfter.exists_spaced {comment : Option (List Char)} (h : EntryAfter ls l spec comment) :
    ∃ ws, Spaced ws spec := by
  cases h with
  | inside _ hc _ _ => exact Layout.exists_spaced hc.commentFree hc.trimmed
  | outside _ hc hb _ => exact hb.exists_spaced hc.commentFree

/-- **One line more is told**, unless it is an entry that lacks a word. -/
theorem Told.concat (h : Told ls r)
    (hl : ∀ spec comment, EntryAfter ls l spec comment → ¬ Lacking spec) :
    ∃ r', r.line number l = .ok r' ∧ Told (ls ++ [l]) r' := by
  cases hs : Statement.ofLine r.block l with
  | silent =>
    refine ⟨r, line_of_silent hs number, ?_, h.path_concat ?_, h.required_concat ?_⟩
    · exact h.placed.concat (by simp [hs]) (by simp [hs])
    · simp [hs]
    · simp [hs]
  | opening k =>
    refine ⟨{ r with block := some k }, line_of_opening hs number, ?_, h.path_concat ?_,
      h.required_concat ?_⟩
    · exact h.placed.concat_of_opening hs
    · simp [hs]
    · simp [hs]
  | closing =>
    refine ⟨{ r with block := none }, line_of_closing hs number, ?_, h.path_concat ?_,
      h.required_concat ?_⟩
    · exact h.placed.concat_of_closing hs
    · simp [hs]
    · simp [hs]
  | modulePath path =>
    have hm : ModuleAfter ls l path := (modulePath_iff h.placed).mp hs
    refine ⟨{ r with modulePath := some path }, line_of_modulePath hs number, ?_,
      fun p => lastPath_concat_of_module hm, h.required_concat ?_⟩
    · exact h.placed.concat (by simp [hs]) (by simp [hs])
    · simp [hs]
  | entry spec c =>
    obtain ⟨comment, he, rfl⟩ := (entry_iff h.placed).mp hs
    obtain ⟨ws, hws⟩ := he.exists_spaced
    cases hreq : requirement? spec (comment.map Text.trim) with
    | none => exact absurd ((requirement?_eq_none_iff hws).mp hreq) (hl spec comment he)
    | some req =>
      refine ⟨{ r with requires := r.requires ++ [req] }, line_of_entry hs hreq number, ?_,
        h.path_concat ?_, fun rs => ?_⟩
      · exact h.placed.concat (by simp [hs]) (by simp [hs])
      · simp [hs]
      · rw [required_concat_of_entry he (requires_of_requirement? hws hreq)]
        simp only [h.required]
        exact exists_eq_left

/-- An entry that lacks a word is refused, with the number of its line. -/
theorem Told.line_of_lacking (h : Told ls r) {comment : Option (List Char)}
    (he : EntryAfter ls l spec comment) (hlack : Lacking spec) :
    r.line number l = .error (.malformedRequire number (String.ofList spec)) := by
  obtain ⟨ws, hws⟩ := he.exists_spaced
  rw [Reading.line, (entry_iff h.placed).mpr ⟨comment, he, rfl⟩]
  dsimp only
  rw [(requirement?_eq_none_iff hws).mpr hlack]

/-- **Lines on which no entry lacks a word are read, and told.** By induction on the lines, from the
    first to the last. -/
theorem exists_told (h : NoneLacking ls) :
    ∃ r, Reading.lines {} 1 ls = .ok r ∧ Told ls r := by
  induction ls using List.reverseRecOn with
  | nil => exact ⟨{}, rfl, told_start⟩
  | append_singleton ls l ih =>
    obtain ⟨hls, hl⟩ := noneLacking_concat_iff.mp h
    obtain ⟨r, hr, htold⟩ := ih hls
    obtain ⟨r', hr', htold'⟩ := htold.concat hl
    refine ⟨r', ?_, htold'⟩
    rw [lines_concat, hr]
    exact hr'

/-- The first entry that lacks a word ends the reading. -/
theorem FirstLacking.lines_eq {ls : List (List Char)} (h : FirstLacking ls number spec) :
    Reading.lines {} 1 ls = .error (.malformedRequire number (String.ofList spec)) := by
  obtain ⟨before, l, after, comment, rfl, rfl, hnone, he, hlack⟩ := h
  obtain ⟨r, hr, htold⟩ := exists_told hnone
  rw [List.append_cons]
  refine lines_append_of_error ?_ after
  rw [lines_concat, hr, Nat.add_comm before.length 1]
  exact htold.line_of_lacking he hlack

end Told

end Layout

/-! ## 7. Accepted and refused documents -/

open Layout (TextOf NoneLacking FirstLacking LastPath Required)

section Parse

variable {text : String} {ls : List (List Char)}

theorem parse_of_firstLacking (ht : TextOf ls text.toList) {number : Nat} {spec : List Char}
    (h : FirstLacking ls number spec) :
    parse text = .error (.malformedRequire number (String.ofList spec)) := by
  unfold parse
  rw [Layout.lines_of_textOf ht, h.lines_eq]
  rfl

theorem parse_of_lines_eq (ht : TextOf ls text.toList) {r : Reading}
    (h : Reading.lines {} 1 ls = .ok r) :
    parse text = match r.modulePath with
      | some (c :: cs) => .ok ⟨String.ofList (c :: cs), r.requires⟩
      | _ => .error .missingModule :=
  parse_of_lines ((Layout.lines_of_textOf ht {} 1).trans h)

theorem parse_eq_malformedRequire_iff (ht : TextOf ls text.toList) {number : Nat}
    {spec : List Char} : parse text = .error (.malformedRequire number (String.ofList spec)) ↔
      FirstLacking ls number spec := by
  refine ⟨fun h => ?_, parse_of_firstLacking ht⟩
  rcases Layout.noneLacking_or_exists_first ls with hnone | ⟨number', spec', hfirst⟩
  · obtain ⟨r, hr, _⟩ := Layout.exists_told hnone
    rw [parse_of_lines_eq ht hr] at h
    split at h <;> cases h
  · rw [parse_of_firstLacking ht hfirst] at h
    simp only [Except.error.injEq, Defect.malformedRequire.injEq, String.ofList_inj] at h
    obtain ⟨rfl, rfl⟩ := h
    exact hfirst

/-- A document that is not refused for an entry has no entry that lacks a word. -/
theorem noneLacking_of_parse (ht : TextOf ls text.toList)
    (h : ∀ number entry, parse text ≠ .error (.malformedRequire number entry)) :
    NoneLacking ls := by
  rcases Layout.noneLacking_or_exists_first ls with hnone | ⟨number, spec, hfirst⟩
  · exact hnone
  · exact absurd (parse_of_firstLacking ht hfirst) (h number _)

theorem parse_eq_missingModule_iff (ht : TextOf ls text.toList) :
    parse text = .error .missingModule ↔
      NoneLacking ls ∧ (LastPath ls none ∨ LastPath ls (some [])) := by
  constructor
  · intro h
    have hnone : NoneLacking ls := noneLacking_of_parse ht (by simp [h])
    refine ⟨hnone, ?_⟩
    obtain ⟨r, hr, htold⟩ := Layout.exists_told hnone
    rw [parse_of_lines_eq ht hr] at h
    rw [htold.path, htold.path]
    match hp : r.modulePath, h with
    | none, _ => exact Or.inl rfl
    | some [], _ => exact Or.inr rfl
  · rintro ⟨hnone, hpath⟩
    obtain ⟨r, hr, htold⟩ := Layout.exists_told hnone
    rw [htold.path, htold.path] at hpath
    rw [parse_of_lines_eq ht hr]
    rcases hpath with hp | hp <;> rw [← hp]

theorem parse_eq_ok_iff (ht : TextOf ls text.toList) {path : List Char} {rs : List Requirement} :
    parse text = .ok ⟨String.ofList path, rs⟩ ↔
      NoneLacking ls ∧ path ≠ [] ∧ LastPath ls (some path) ∧ Required ls rs := by
  constructor
  · intro h
    have hnone : NoneLacking ls := noneLacking_of_parse ht (by simp [h])
    refine ⟨hnone, ?_⟩
    obtain ⟨r, hr, htold⟩ := Layout.exists_told hnone
    rw [parse_of_lines_eq ht hr] at h
    rw [htold.path, htold.required]
    match hp : r.modulePath, h with
    | some (c :: cs), h =>
      simp only [Except.ok.injEq, GoMod.mk.injEq, String.ofList_inj] at h
      obtain ⟨rfl, rfl⟩ := h
      exact ⟨List.cons_ne_nil c cs, rfl, rfl⟩
  · rintro ⟨hnone, hne, hpath, hrs⟩
    obtain ⟨r, hr, htold⟩ := Layout.exists_told hnone
    obtain ⟨c, cs, rfl⟩ := List.exists_cons_of_ne_nil hne
    rw [parse_of_lines_eq ht hr, ← (htold.path _).mp hpath, (htold.required rs).mp hrs]

end Parse

/-- **A document is accepted or refused by its lines.** Every text has lines, and whatever its lines
    are: it is refused for an entry exactly if some entry on them lacks a word, and then with the
    number of the first such line and with what that entry says; otherwise it is refused for want of
    a module exactly if no line names the module or the last one that does gives it an empty path;
    and otherwise its module has the path on the last line that names it, and what it requires is
    what its entries require, one requirement for each entry, in order. -/
theorem parse_decides (text : String) :
    (∃ ls, TextOf ls text.toList) ∧ ∀ ls, TextOf ls text.toList →
      (∀ number spec, parse text = .error (.malformedRequire number (String.ofList spec)) ↔
        FirstLacking ls number spec) ∧
      (parse text = .error .missingModule ↔
        NoneLacking ls ∧ (LastPath ls none ∨ LastPath ls (some []))) ∧
      ∀ path rs, parse text = .ok ⟨String.ofList path, rs⟩ ↔
        NoneLacking ls ∧ path ≠ [] ∧ LastPath ls (some path) ∧ Required ls rs := by
  refine ⟨Layout.exists_textOf text.toList, fun ls ht => ⟨fun number spec => ?_, ?_, ?_⟩⟩
  · exact parse_eq_malformedRequire_iff ht
  · exact parse_eq_missingModule_iff ht
  · exact fun path rs => parse_eq_ok_iff ht

namespace Layout

/-- A document with a stray parenthesis, the block of another directive and a `require` block that
    is never closed, in which the second entry has a comment and no version. -/
def unclosedLines : List (List Char) :=
  ["module m".toList, [], ")".toList, "exclude (".toList, "\tx".toList, ")".toList,
    "// required".toList, "require (".toList, "\ta v1".toList, [], "\tb // v2".toList]

end Layout

/-- It is refused for that entry, with the number of its line. -/
theorem parse_of_unclosed_lines :
    TextOf Layout.unclosedLines (Layout.unclosedLines.flatMap (· ++ ['\n'])) ∧
    parse (String.ofList (Layout.unclosedLines.flatMap (· ++ ['\n']))) =
      .error (.malformedRequire 11 "b") ∧
    FirstLacking Layout.unclosedLines 11 "b".toList := by
  have ht : TextOf Layout.unclosedLines (Layout.unclosedLines.flatMap (· ++ ['\n'])) :=
    Layout.textOf_flatMap (by decide)
  have hparse : parse (String.ofList (Layout.unclosedLines.flatMap (· ++ ['\n']))) =
      .error (.malformedRequire 11 "b") := by
    decide
  refine ⟨ht, hparse, ?_⟩
  rw [← @String.toList_ofList (Layout.unclosedLines.flatMap (· ++ ['\n']))] at ht
  exact (((parse_decides _).2 _ ht).1 11 _).mp hparse

end Isolation.GoMod
