/-!
# White space

Which characters count as white space, and what trimming a text means. The set is the Unicode
property `White_Space`: 25 characters, of which six are ASCII. Every rule of the library that speaks
of blank identities, of words on a line or of trimmed versions goes through this one set.

A text is a list of characters here; `trimmed` and `isBlankText` are the same notions on strings.
-/

namespace Isolation.Text

/-! ## 1. The characters -/

/-- The code points of the Unicode property `White_Space`. -/
def isBlankCode (n : Nat) : Bool :=
  (9 ≤ n && n ≤ 13) || n == 0x20 || n == 0x85 || n == 0xA0 || n == 0x1680
    || (0x2000 ≤ n && n ≤ 0x200A) || n == 0x2028 || n == 0x2029 || n == 0x202F || n == 0x205F
    || n == 0x3000

/-- The Unicode property `White_Space`. -/
def isBlank (c : Char) : Bool := isBlankCode c.toNat

/-- Eight of the members lie below U+0100, -/
example : (List.range 0x100).filter isBlankCode = [9, 10, 11, 12, 13, 0x20, 0x85, 0xA0] := by
  decide +kernel

/-- and fifteen among the general punctuation; the two left are U+1680 and U+3000. -/
example : ((List.range 0x70).filter fun n => isBlankCode (0x2000 + n)).length = 15 := by
  decide +kernel

/-! ## 2. Trimming -/

/-- A text without its leading white space. -/
def trimStart (cs : List Char) : List Char := cs.dropWhile isBlank

/-- A text without its trailing white space. -/
def trimEnd : List Char → List Char
  | [] => []
  | c :: r =>
    match trimEnd r with
    | [] => if isBlank c then [] else [c]
    | d :: t => c :: d :: t

/-- A text without the white space at its two ends. -/
def trim (cs : List Char) : List Char := trimEnd (trimStart cs)

/-- `trim` on strings. -/
def trimmed (s : String) : String := String.ofList (trim s.toList)

/-- `trimEnd` on strings. -/
def trimmedEnd (s : String) : String := String.ofList (trimEnd s.toList)

/-- A text that is empty or holds white space only. -/
def isBlankText (s : String) : Bool := s.toList.all isBlank

theorem trimEnd_eq_nil_iff {cs : List Char} : trimEnd cs = [] ↔ ∀ c ∈ cs, isBlank c = true := by
  induction cs with
  | nil => simp [trimEnd]
  | cons c r ih =>
    rw [trimEnd]
    cases h : trimEnd r with
    | nil =>
      rw [h] at ih
      by_cases hc : isBlank c = true <;> simp_all
    | cons d t =>
      rw [h] at ih
      simp_all

/-- The last character that trimming leaves is not white space. -/
theorem isBlank_getLast_trimEnd {cs : List Char} (h : trimEnd cs ≠ []) :
    isBlank ((trimEnd cs).getLast h) = false := by
  induction cs with
  | nil => exact absurd rfl h
  | cons c r ih =>
    have e : trimEnd (c :: r) =
        match trimEnd r with
        | [] => if isBlank c then [] else [c]
        | d :: t => c :: d :: t := rfl
    cases hr : trimEnd r with
    | nil =>
      rw [hr] at e
      by_cases hc : isBlank c = true
      · simp [e, hc] at h
      · simp only [e, hc]
        simpa using hc
    | cons d t =>
      rw [hr] at e
      have := ih (by simp [hr])
      simp only [e]
      simpa [hr] using this

end Isolation.Text
