import Isolation.Programs.Printf

/-!
# Translation of characters

The program `tr`. Its operands denote rows of characters: single ones, ranges, classes, and a
character so many times. A character of the first row becomes the one at its place in the second,
whose last character is repeated as often as it is needed; or the characters of a row are taken
out, or written once where they follow one another.
-/

namespace Isolation.Programs.Translation

open Machine

/-! ## 1. Rows -/

/-- A part of a row. -/
inductive Part where
  | char (c : Char)
  | range (low high : Char)
  | named (name : String) (holds : Char → Bool)
  | equals (c : Char)
  /-- A character so many times, or as often as is needed. -/
  | times (c : Char) (n : Option Nat)

/-- A character of an operand, with whether a backslash stood before it. -/
abbrev Mark := Char × Bool

/-- The characters of an operand, its escapes being read. -/
def marks : List Char → List Mark
  | [] => []
  | '\\' :: c :: r =>
    if Printf.isOctal c then
      let ds := ((c :: r).take 3).takeWhile Printf.isOctal
      let two := if Printf.octalValue ds < 256 then ds else ds.take 2
      (Printf.byteChar (Printf.octalValue two), true) :: marks ((c :: r).drop (max 1 two.length))
    else
      match c with
      | 'e' => ('e', true) :: marks r
      | _ => ((Printf.letterEscape? c).getD c, true) :: marks r
  | c :: r => (c, false) :: marks r
termination_by cs => cs.length
decreasing_by all_goals simp only [List.length_cons, List.length_drop]; omega

/-- The text of some marks. -/
def textOf (ms : List Mark) : String := String.ofList (ms.map Prod.fst)

/-- The marks before the sign that closes a class, and those behind it. -/
def closing? (sign : Char) : List Mark → Option (List Mark × List Mark)
  | (c, false) :: (']', false) :: r =>
    if c = sign then some ([], r)
    else (closing? sign ((']', false) :: r)).map fun p => ((c, false) :: p.1, p.2)
  | m :: r => (closing? sign r).map fun p => (m :: p.1, p.2)
  | [] => none

/-- A count behind a star: octal if it begins with a zero. -/
def timesOf? (digits : String) : Option Nat :=
  if Text.startsWith digits "0" then
    if digits.toList.all Printf.isOctal then some (Printf.octalValue digits.toList) else none
  else natural? digits

/-- Read a row. -/
def parts : Nat → List Mark → Except String (List Part)
  | 0, _ | _, [] => .ok []
  | n + 1, ms =>
    let plain (ms : List Mark) : Except String (List Part) :=
      match ms with
      | (low, _) :: ('-', false) :: (high, _) :: r =>
        if high < low then
          .error ("range-endpoints of '" ++ rangeText low high ++
            "' are in reverse collating sequence order")
        else (parts n r).map (.range low high :: ·)
      | (c, _) :: r => (parts n r).map (.char c :: ·)
      | [] => .ok []
    let repeated (ms : List Mark) : Except String (List Part) :=
      match ms with
      | ('[', false) :: (c, _) :: ('*', false) :: r =>
        let count := r.takeWhile (· != (']', false))
        if count.length = r.length then plain ms
        else
          let rest := r.drop (count.length + 1)
          if count.isEmpty then (parts n rest).map (.times c none :: ·)
          else
            match timesOf? (textOf count) with
            | none =>
              .error ("invalid repeat count " ++ quoted (textOf count) ++ " in [c*n] construct")
            | some 0 => (parts n rest).map (.times c none :: ·)
            | some k => (parts n rest).map (.times c (some k) :: ·)
      | _ => plain ms
    match ms with
    | ('[', false) :: (sign, false) :: r =>
      if sign = ':' || sign = '=' then
        match closing? sign r with
        | none => repeated ms
        | some (inner, rest) =>
          let name := textOf inner
          if sign = ':' then
            match Text.namedClass? name with
            | some holds => (parts n rest).map (.named name holds :: ·)
            | none =>
              .error (if name = "" then "missing character class name '[::]'"
                else "invalid character class " ++ quoted name)
          else
            match inner with
            | [(c, _)] => (parts n rest).map (.equals c :: ·)
            | [] => .error "missing equivalence class character '[==]'"
            | _ => .error (name ++ ": equivalence class operand must be a single character")
      else repeated ms
    | _ => repeated ms
where
  /-- The ends of a range, as they can be printed. -/
  rangeText (low high : Char) : String :=
    let one (c : Char) : String :=
      if Text.isPrintable c then String.singleton c else "\\" ++ octal c
    one low ++ "-" ++ one high

/-- The row of an operand. -/
def readRow (text : String) : Except String (List Part) :=
  let ms := marks text.toList
  parts (ms.length + 1) ms

/-- All bytes. -/
def allBytes : List Char := (List.range 256).map Char.ofNat

/-- The characters of a part; a character that is repeated as needed is repeated so many times. -/
def Part.chars (needed : Nat) : Part → List Char
  | char c | equals c => [c]
  | range low high => allBytes.filter fun c => low ≤ c && c ≤ high
  | named _ holds => allBytes.filter holds
  | times c n => List.replicate (n.getD needed) c

/-- Whether a part is repeated as needed. -/
def Part.isOpen : Part → Bool
  | times _ none => true
  | _ => false

/-- Whether a part is a class of letters of one case. -/
def Part.isCase : Part → Bool
  | named name _ => name == "upper" || name == "lower"
  | _ => false

/-- Whether a part is a class. -/
def Part.isClass : Part → Bool
  | named .. => true
  | _ => false

/-- Whether a part stands for what equals a character. -/
def Part.isEquals : Part → Bool
  | equals _ => true
  | _ => false

/-- The characters of a row that is to be so long. -/
def rowChars (length : Nat) (ps : List Part) : List Char :=
  let fixed := (ps.flatMap (Part.chars 0)).length
  ps.flatMap (Part.chars (length - fixed))

/-- The places at which classes of letters begin. -/
def caseStarts (length : Nat) (ps : List Part) : List Nat :=
  let fixed := (ps.flatMap (Part.chars 0)).length
  let step (acc : List Nat × Nat) (p : Part) : List Nat × Nat :=
    (if p.isCase then acc.2 :: acc.1 else acc.1, acc.2 + (p.chars (length - fixed)).length)
  (ps.foldl step ([], 0)).1

/-! ## 2. Changing texts -/

/-- A text in which characters of a set that follow one another are written once. -/
def squeezed (holds : Char → Bool) : Option Char → List Char → List Char
  | _, [] => []
  | before, c :: r =>
    if before == some c && holds c then squeezed holds before r
    else c :: squeezed holds (some c) r

/-- What characters of a row become. -/
def translation (source goal : List Char) : Array Char :=
  (source.zip goal).foldl (fun table p => table.setIfInBounds p.1.toNat p.2) allBytes.toArray

/-- The row of an operand that is there. -/
def row? : Option String → Act (Option (List Part))
  | none => return none
  | some text =>
    match readRow text with
    | .ok r => return some r
    | .error e => Act.fail 1 e

/-- Change, take out or squeeze the characters of the input. -/
def tr : Program := fun args => do
  let g : Grammar :=
    { Grammar.of "cCdst"
        [("complement", 'c'), ("delete", 'd'), ("squeeze-repeats", 's'), ("truncate-set1", 't')]
      with mixed := false }
  let p ← options g args
  let complement := p.has 'c' || p.has 'C'
  let deletes := p.has 'd'
  let squeezes := p.has 's'
  let two := deletes == squeezes
  let hint {α : Type} (message more : String) : Act α :=
    usage 1 (if more = "" then message else message ++ "\n" ++ more)
  match p.operands with
  | [] => missingOperand
  | [a] =>
    if two then
      hint ("missing operand after " ++ quoted a)
        (if deletes then "Two strings must be given when both deleting and squeezing repeats."
          else "Two strings must be given when translating.")
  | _ :: b :: more =>
    if deletes && !squeezes then
      hint ("extra operand " ++ quoted b)
        (if more.isEmpty then
          "Only one string may be given when deleting without squeezing repeats." else "")
    match more with
    | c :: _ => extraOperand c
    | [] => pure ()
  let firstRow := (← row? (p.operands[0]?)).getD []
  let second? ← row? (p.operands[1]?)
  if firstRow.any Part.isOpen then
    Act.fail 1 "the [c*] repeat construct may not appear in string1"
  let plainSource := rowChars 0 firstRow
  let source :=
    if complement then allBytes.filter fun c => !plainSource.contains c else plainSource
  let translates := second?.isSome && !deletes
  let second := second?.getD []
  if 1 < (second.filter Part.isOpen).length then
    Act.fail 1 "only one [c*] repeat construct may appear in string2"
  let goal := rowChars source.length second
  let goal ←
    if translates then do
      if second.any Part.isEquals then
        Act.fail 1 "[=c=] expressions may not appear in string2 when translating"
      if second.any fun q => q.isClass && !q.isCase then
        Act.fail 1 ("when translating, the only character classes that may appear in\n" ++
          "string2 are 'upper' and 'lower'")
      let starts := if complement then [] else caseStarts 0 firstRow
      if (caseStarts source.length second).any fun s => !starts.contains s then
        Act.fail 1 "misaligned [:upper:] and/or [:lower:] construct"
      if source.length ≤ goal.length || p.has 't' then pure goal
      else
        match goal.getLast? with
        | none => Act.fail 1 "when not truncating set1, string2 must be non-empty"
        | some last =>
          if second.getLast?.any Part.isClass then
            Act.fail 1 ("when translating with string1 longer than string2,\n" ++
              "the latter string must not end with a character class")
          pure (goal ++ List.replicate (source.length - goal.length) last)
    else if second.any Part.isOpen then
      Act.fail 1 "the [c*] construct may appear in string2 only when translating"
    else pure goal
  if translates && complement && firstRow.any Part.isClass && goal.eraseDups.length != 1 then
    Act.fail 1 ("when translating with complemented character classes,\n" ++
      "string2 must map all characters in the domain to one")
  match ← Act.input with
  | .error r => Act.fail 1 ("read error: " ++ r.text)
  | .ok text =>
    let cs := text.toList
    let cs := if deletes then cs.filter fun c => !source.contains c else cs
    let table := translation source goal
    let cs := if translates then cs.map fun c => (table[c.toNat]?).getD c else cs
    let squeezeSet := if second?.isSome then goal else source
    Act.print (String.ofList (if squeezes then squeezed squeezeSet.contains none cs else cs))
    return 0

end Isolation.Programs.Translation
