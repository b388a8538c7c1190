import Isolation.Programs.Moving
import Isolation.Regex.Reading
import Isolation.Shell.Wildcard

/-!
# Searching for patterns

The program `grep`: it writes the lines in which one of some patterns is found. What is written with
a line depends on options; lines around it may be written too. **The status tells whether any line
was selected**, and is 2 where something could not be read.
-/

namespace Isolation.Programs.Search

open Machine
open Files (Refusal Tree)
open Isolation.Regex

/-- What is looked for. -/
structure Matcher where
  patterns : List Pattern
  caseless : Bool := false
  /-- Only words of their own count. -/
  words : Bool := false
  /-- Only whole lines count. -/
  whole : Bool := false

/-- The subject of a line. -/
def Matcher.subject (m : Matcher) (line : String) : Subject :=
  { Subject.ofText line with caseless := m.caseless }

/-- The first place from a position on where a pattern is found; of several patterns the longest. -/
def Matcher.find? (m : Matcher) (s : Subject) (start : Nat) : Option Found :=
  let one (p : Pattern) : Option Found :=
    if m.whole then
      if start = 0 && standsFor s p then some ⟨0, s.size, []⟩ else none
    else if m.words then findWord? s p start
    else Regex.find? s p start
  (m.patterns.filterMap one).foldl
    (fun best f =>
      match best with
      | none => some f
      | some b =>
        if f.start < b.start || (f.start = b.start && b.stop < f.stop) then some f else best) none

/-- Whether anything is found in a line. -/
def Matcher.matches (m : Matcher) (line : String) : Bool := (m.find? (m.subject line) 0).isSome

/-- All places where something is found, one behind another; what is empty is passed over. -/
def Matcher.findAll (m : Matcher) (s : Subject) : Nat → Nat → List Found
  | 0, _ => []
  | n + 1, start =>
    if s.size < start then []
    else
      match m.find? s start with
      | none => []
      | some f =>
        if f.stop = f.start then m.findAll s n (f.start + 1)
        else f :: m.findAll s n f.stop

/-- How findings are reported. -/
structure Report where
  inverted : Bool := false
  count : Bool := false
  /-- Only the names of inputs that hold a selected line, or that hold none. -/
  names : Option Bool := none
  quiet : Bool := false
  /-- Only what was found of every line. -/
  parts : Bool := false
  numbered : Bool := false
  offsets : Bool := false
  /-- So many lines at most. -/
  most : Option Nat := none
  before : Nat := 0
  behind : Nat := 0
  /-- Whether groups of lines are divided. -/
  divided : Bool := false
  asText : Bool := false

/-- A line of an input. -/
structure Line where
  number : Nat
  offset : Nat
  text : String

/-- The lines of an input, numbered. -/
def numberedLines (text : String) : List Line :=
  let step (acc : List Line × Nat × Nat) (l : String) : List Line × Nat × Nat :=
    (⟨acc.2.1, acc.2.2, l⟩ :: acc.1, acc.2.1 + 1, acc.2.2 + l.length + 1)
  ((linesOf text).foldl step ([], 1, 0)).1.reverse

/-- What stands before the text of a line: the name of its input, its number and its offset. -/
def Report.lead (r : Report) (label : Option String) (mark : String) (number offset : Nat) :
    String :=
  (label.map (· ++ mark)).getD "" ++
    (if r.numbered then toString number ++ mark else "") ++
    (if r.offsets then toString offset ++ mark else "")

/-- The selected lines of an input. -/
def selected (m : Matcher) (r : Report) (ls : List Line) : List Line :=
  let all := ls.filter fun l => m.matches l.text != r.inverted
  match r.most with
  | some n => all.take n
  | none => all

/-- What is written of selected lines, and of the lines around them. -/
def Report.body (m : Matcher) (r : Report) (label : Option String) (ls chosen : List Line) :
    String :=
  if r.parts then
    if r.inverted then ""
    else
      String.join (chosen.flatMap fun l =>
        let s := m.subject l.text
        (m.findAll s (s.size + 2) 0).map fun f =>
          r.lead label ":" l.number (l.offset + f.start) ++
            String.ofList (s.between f.start f.stop) ++ "\n")
  else
    let last := (chosen.getLast?.map Line.number).getD 0
    let near (l : Line) : Bool :=
      chosen.any fun c =>
        c.number ≤ l.number + r.before && l.number ≤ c.number + r.behind
    let isChosen (l : Line) : Bool := chosen.any fun c => c.number = l.number
    let plain := r.before = 0 && r.behind = 0
    let rows := if plain then chosen else ls.filter fun l => near l && l.number ≤ last + r.behind
    let write (acc : List String × Nat) (l : Line) : List String × Nat :=
      let gap := if r.divided && acc.2 != 0 && acc.2 + 1 < l.number then "--\n" else ""
      let mark := if plain || isChosen l then ":" else "-"
      ((gap ++ r.lead label mark l.number l.offset ++ l.text ++ "\n") :: acc.1, l.number)
    String.join (rows.foldl write ([], 0)).1.reverse

/-- The words that tell how the program is called. -/
def usageText : String :=
  "Usage: grep [OPTION]... PATTERNS [FILE]...\nTry 'grep --help' for more information.\n"

/-- The pattern that stands for a text itself. -/
def literal (text : String) : Pattern :=
  text.toList.foldl (fun p c => match p with
    | .empty => .char c
    | p => .seq p (.char c)) .empty

/-- The parts of a text between the ends of its lines. -/
def patternLines (text : String) : List String :=
  (Text.fields (· == '\n') text.toList).map String.ofList

/-- The letters of a wildcard in which a backslash quotes what follows. -/
def wildLetters : List Char → List Shell.Letter
  | '\\' :: c :: r => ⟨c, true⟩ :: wildLetters r
  | c :: r => ⟨c, false⟩ :: wildLetters r
  | [] => []

/-- Whether a wildcard stands for a name. -/
def fitsWild (pattern name : String) : Bool :=
  Shell.Wild.fits (Shell.Wild.ofLetters (wildLetters pattern.toList)) name.toList

/-- The letters that set how patterns are written. -/
def kinds : List Char := ['E', 'F', 'G', 'P']

/-- The options of the program. -/
def grammar : Grammar :=
  let long : List (String × Char) :=
    [("extended-regexp", 'E'), ("fixed-strings", 'F'), ("basic-regexp", 'G'), ("perl-regexp", 'P'),
      ("regexp", 'e'), ("file", 'f'), ("ignore-case", 'i'), ("no-ignore-case", '\x01'),
      ("word-regexp", 'w'), ("line-regexp", 'x'), ("null-data", 'z'), ("no-messages", 's'),
      ("invert-match", 'v'), ("max-count", 'm'), ("byte-offset", 'b'), ("line-number", 'n'),
      ("line-buffered", '\x02'), ("with-filename", 'H'), ("no-filename", 'h'), ("label", '\x03'),
      ("only-matching", 'o'), ("quiet", 'q'), ("silent", 'q'), ("binary-files", '\x04'),
      ("text", 'a'), ("directories", 'd'), ("devices", 'D'), ("recursive", 'r'),
      ("dereference-recursive", 'R'), ("include", '\x05'), ("exclude", '\x06'),
      ("exclude-dir", '\x07'), ("files-without-match", 'L'), ("files-with-matches", 'l'),
      ("count", 'c'), ("initial-tab", 'T'), ("null", 'Z'), ("before-context", 'B'),
      ("after-context", 'A'), ("context", 'C'), ("color", '\x08'), ("colour", '\x08')]
  let marks : List (Char × Takes) :=
    [('\x01', .nothing), ('\x02', .nothing), ('\x03', .value), ('\x04', .value), ('\x05', .value),
      ('\x06', .value), ('\x07', .value), ('\x08', .attached)]
  { short := letters ("0123456789EFGPe:f:iywxzsvm:bnHhoqad:D:rRLlcTZB:A:C:UI".toList) ++ marks
    long }

/-- Understand the command line. -/
def readOptions (args : List String) : Act Parsed := do
  match grammar.parse args with
  | .ok p => return p
  | .error e =>
    Act.complain e
    Act.printError usageText
    Act.quit 2

/-- The length of a context that an option asks for. -/
def contextLength (text : String) : Act Nat :=
  match natural? text with
  | some n => return n
  | none => Act.fail 2 (text ++ ": invalid context length argument")

/-- Read patterns as options ask for, or end with a complaint. -/
def matcher (p : Parsed) (sources : List String) : Act Matcher := do
  let chosen := (p.options.map Prod.fst).filter kinds.contains
  if 1 < chosen.eraseDups.length then Act.fail 2 "conflicting matchers specified"
  let kind := chosen.head?.getD 'G'
  let one (source : String) : Act Pattern :=
    if kind == 'F' then return literal source
    else
      match readAll { extended := kind == 'E' || kind == 'P', lenient := true } source with
      | .error d => Act.fail 2 d.message
      | .ok (pattern, reading) => do
        reading.skipped.reverse.forM fun sign =>
          Act.complain ("warning: " ++ sign ++ " at start of expression")
        return pattern
  let patterns ← sources.mapM one
  return { patterns, caseless := p.has 'i' || p.has 'y', words := p.has 'w', whole := p.has 'x' }

/-- The inputs of a walk below a path, with names; the directories on the way are left out. -/
def inputsBelow (p : Parsed) (path : String) (place : List String) (t : Tree) : List String :=
  let included (name : String) : Bool :=
    let wanted := p.all '\x05'
    (wanted.isEmpty || wanted.any fun w => fitsWild w name) &&
      !(p.all '\x06').any fun w => fitsWild w name
  let hidden (q : List String) : Bool :=
    (q.drop place.length).any fun name => (p.all '\x07').any fun w => fitsWild w name
  (Moving.withAllBelow path place t).filterMap fun (path, q, t) =>
    match t with
    | .file .. =>
      if included (Paths.lastName path) && !hidden q.dropLast then some path else none
    | _ => none

/-- Search inputs for patterns. -/
def grep : Program := fun args => do
  let p ← readOptions args
  let operands := p.operands
  let fromFiles ← (p.all 'f').mapM fun path => do
    match ← Act.readOperand path with
    | .ok text => return linesOf text
    | .error r => Act.fail 2 (path ++ ": " ++ r.text)
  let given := p.has 'e' || p.has 'f'
  let (sources, operands) ←
    if given then pure ((p.all 'e').flatMap patternLines ++ fromFiles.flatten, operands)
    else
      match operands with
      | [] => do
        Act.printError usageText
        Act.quit 2
      | pattern :: rest => pure (patternLines pattern, rest)
  let digits := String.ofList ((p.options.map Prod.fst).filter Char.isDigit)
  let around ← match p.last? 'C' with
    | some text => contextLength text
    | none => pure ((natural? digits).getD 0)
  let before ← match p.last? 'B' with
    | some text => contextLength text
    | none => pure around
  let behind ← match p.last? 'A' with
    | some text => contextLength text
    | none => pure around
  let most ← match p.last? 'm' with
    | none => pure none
    | some text =>
      match quantity? text with
      | some n => pure (some n)
      | none => if Text.startsWith text "-" then pure none else Act.fail 2 "invalid max count"
  let m ← matcher p sources
  let r : Report :=
    { inverted := p.has 'v'
      count := p.has 'c'
      names := (p.lastOf? ['l', 'L']).map (· == 'l')
      quiet := p.has 'q'
      parts := p.has 'o'
      numbered := p.has 'n'
      offsets := p.has 'b'
      most, before, behind
      divided := !digits.isEmpty || p.has 'A' || p.has 'B' || p.has 'C'
      asText := p.has 'a' || p.last? '\x04' == some "text" }
  let deep := p.has 'r' || p.has 'R' || p.last? 'd' == some "recurse"
  let silent := p.has 's'
  let named (several : Bool) : Bool :=
    match p.lastOf? ['H', 'h'] with
    | some 'H' => true
    | some _ => false
    | none => several
  let labelled := named (1 < operands.length)
  let complain (path : String) (e : Refusal) : Act Unit := do
    if !silent then Act.complain (path ++ ": " ++ e.text)
  -- One input; whether a line was selected, and whether something went wrong.
  let search (path : String) (labelled : Bool) : Act (Bool × Bool) := do
    let name :=
      if path = "-" then (p.last? '\x03').getD "(standard input)" else path
    let out ← Act.targetOf? 1
    let place ← Act.placeOf path true
    match out, place with
    | some (.file goal), .ok (source, some (.file ..)) =>
      if goal == source && path != "-" && !r.quiet && !r.names.isSome && r.most.isNone then
        Act.complain (path ++ ": input file is also the output")
        return (false, true)
    | _, _ => pure ()
    let split (cs : List Char) : List Char × List Char :=
      match r.most with
      | none => (cs, [])
      | some n =>
        let ls := numberedLines (String.ofList cs)
        let chosen := selected m r ls
        if chosen.length < n then (cs, [])
        else
          let stop := match chosen.getLast? with
            | some l => l.offset + l.text.length + 1
            | none => 0
          let rest := (numberedLines (String.ofList (cs.drop stop))).take r.behind
          let size := stop + (rest.map fun l => l.text.length + 1).foldl (· + ·) 0
          (cs.take size, cs.drop size)
    match ← (if path = "-" then Act.inputUpTo split else Act.readFile path) with
    | .error e =>
      complain name e
      return (false, true)
    | .ok text =>
      let ls := numberedLines text
      let binary := !r.asText && text.toList.contains (Char.ofNat 0)
      let skips := p.has 'I' || p.last? '\x04' == some "without-match"
      let chosen := if binary && skips then [] else selected m r ls
      let found := !chosen.isEmpty
      let label := if labelled then some name else none
      if r.quiet then
        if found then Act.quit 0
      else
        if r.count && r.names.isNone then
          Act.print ((label.map (· ++ ":")).getD "" ++ toString chosen.length ++ "\n")
        match r.names with
        | some wanted =>
          if found == wanted then Act.print (name ++ if p.has 'Z' then "\x00" else "\n")
        | none =>
          if !r.count then
            if binary then
              if found then Act.complain (name ++ ": binary file matches")
            else Act.print (r.body m label ls chosen)
      return (found, false)
  let visit (acc : Bool × Bool) (path : String) : Act (Bool × Bool) := do
    match ← (if path = "-" then pure (.error .notFound) else Act.placeOf path true) with
    | .ok (place, some (.directory entries)) =>
      if deep then
        let inputs := inputsBelow p path place (.directory entries)
        inputs.foldlM (fun acc q => do
          let (found, wrong) ← search q (named true)
          return (acc.1 || found, acc.2 || wrong)) acc
      else if p.last? 'd' == some "skip" then return acc
      else
        complain path .isDirectory
        return (acc.1, true)
    | _ =>
      let (found, wrong) ← search path labelled
      return (acc.1 || found, acc.2 || wrong)
  let (found, wrong) ←
    if operands.isEmpty && deep then do
      let v ← Act.volume
      let here := (v.root.at? v.current).getD (.directory [])
      let inputs := inputsBelow p "" v.current here
      inputs.foldlM (fun acc q => do
        let (found, wrong) ← search (String.ofList (q.toList.dropWhile (· == '/'))) (named true)
        return (acc.1 || found, acc.2 || wrong)) (false, false)
    else (if operands.isEmpty then ["-"] else operands).foldlM visit (false, false)
  return if wrong then 2 else if found then 0 else 1

/-- The same with patterns written in some way. -/
def grepAs (option : String) : Program := fun args => do
  modify fun b => { b with name := "grep" }
  grep (option :: args)

end Isolation.Programs.Search
