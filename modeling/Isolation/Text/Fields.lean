import Isolation.Text.Blank

/-!
# Fields, words and lines

The ways in which a text is taken apart: at every character of a class (`fields`), into the words
between white space (`words`), into lines (`lines`), and at the first occurrence of a separator
(`cut?`). Each is a recursion on the characters, so that what a piece may hold can be read off the
definition.
-/

namespace Isolation.Text

/-! ## 1. Cutting at a class of characters -/

/-- The pieces between the characters of a class; there is always one piece more than there are
    such characters. -/
def fields (sep : Char → Bool) : List Char → List (List Char)
  | [] => [[]]
  | c :: r =>
    if sep c then [] :: fields sep r
    else
      match fields sep r with
      | [] => [[c]]
      | w :: ws => (c :: w) :: ws

/-- The words of a text: its maximal runs of characters that are not white space. -/
def words (cs : List Char) : List (List Char) := (fields isBlank cs).filter (!·.isEmpty)

theorem fields_ne_nil (sep : Char → Bool) (cs : List Char) : fields sep cs ≠ [] := by
  cases cs with
  | nil => simp [fields]
  | cons c r =>
    rw [fields]
    split
    · simp
    · split <;> simp

/-! ## 2. Lines -/

/-- A line without the carriage return that ends it. -/
def dropReturn : List Char → List Char
  | [] => []
  | ['\r'] => []
  | c :: r => c :: dropReturn r

/-- The lines of a text. A line feed ends a line, together with one carriage return before it; what
    follows the last line feed is a line only when it is not empty. -/
def lines (cs : List Char) : List (List Char) :=
  let pieces := fields (· == '\n') cs
  let ended := pieces.dropLast.map dropReturn
  match pieces.getLast? with
  | some (c :: r) => ended ++ [c :: r]
  | _ => ended

/-! ## 3. Cutting at a separator of several characters -/

/-- What follows `start` in a text that begins with it. -/
def after? : (start text : List Char) → Option (List Char)
  | [], t => some t
  | _ :: _, [] => none
  | c :: s, d :: t => if c = d then after? s t else none

/-- The parts of a text before and after the first occurrence of `sep`. -/
def cut? (sep : List Char) : List Char → Option (List Char × List Char)
  | [] => (after? sep []).map ([], ·)
  | c :: r =>
    match after? sep (c :: r) with
    | some rest => some ([], rest)
    | none => (cut? sep r).map fun p => (c :: p.1, p.2)

/-- Whether `part` occurs in a text. -/
def contains (text part : String) : Bool := (cut? part.toList text.toList).isSome

theorem after?_eq_some_iff {s t r : List Char} : after? s t = some r ↔ t = s ++ r := by
  induction s generalizing t with
  | nil => simp [after?, eq_comm]
  | cons c s ih =>
    cases t with
    | nil => simp [after?]
    | cons d t =>
      rw [after?]
      split
      · rename_i h
        subst h
        simp [ih]
      · rename_i h
        simp only [List.cons_append, List.cons.injEq, reduceCtorEq, false_iff, not_and]
        exact fun e => absurd e.symm h

/-- Cutting loses nothing: the text is the first part, the separator and the second part. -/
theorem eq_of_cut? {sep t a b : List Char} (h : cut? sep t = some (a, b)) : t = a ++ sep ++ b := by
  induction t generalizing a b with
  | nil =>
    rw [cut?, Option.map_eq_some_iff] at h
    obtain ⟨x, hx, e⟩ := h
    cases e
    simpa using after?_eq_some_iff.mp hx
  | cons c r ih =>
    rw [cut?] at h
    split at h
    · rename_i rest hr
      cases h
      simpa using after?_eq_some_iff.mp hr
    · rw [Option.map_eq_some_iff] at h
      obtain ⟨⟨x, y⟩, hx, e⟩ := h
      cases e
      rw [ih hx]
      simp

/-! ## 4. The same on strings -/

/-- What follows `start` in a string that begins with it. -/
def afterStart? (start text : String) : Option String :=
  (after? start.toList text.toList).map String.ofList

/-- Whether a string begins with `start`. -/
def startsWith (text start : String) : Bool := (after? start.toList text.toList).isSome

/-- Strings put after one another with `sep` between them. -/
def joined (sep : String) : List String → String
  | [] => ""
  | [s] => s
  | s :: t :: r => s ++ sep ++ joined sep (t :: r)

theorem startsWith_iff {text start : String} :
    startsWith text start = true ↔ start.toList <+: text.toList := by
  rw [startsWith, Option.isSome_iff_exists]
  constructor
  · rintro ⟨r, hr⟩
    exact ⟨r, (after?_eq_some_iff.mp hr).symm⟩
  · rintro ⟨r, hr⟩
    exact ⟨r, after?_eq_some_iff.mpr hr.symm⟩

end Isolation.Text
