import Isolation.Programs.Editor.Script
import Isolation.Programs.Paths

/-!
# The line editor

The program `sed`. It takes lines of its inputs one after another into the pattern space, carries
out the script on it, and prints what is left. **A line without an end is printed without one**, so
that every text carries whether its end belongs to it, and every output whether an end is missing.

Output is held back until the program ends. Inputs that are edited in place are written when they
end.
-/

namespace Isolation.Programs.Editor

open Machine
open Files (Refusal Tree)
open Isolation.Regex

/-! ## 1. States -/

/-- Where the lines of a command are that has two bounds. -/
inductive Span where
  | outside
  /-- Within, up to a line if that is known. -/
  | inside (stop : Option Nat)
deriving DecidableEq, Repr

/-- What is written behind the line that is worked on. -/
inductive Later where
  | text (s : String)
  | file (path : String)
  | line (s : String)

/-- How the editor is asked to work. -/
structure Manner where
  quiet : Bool := false
  separate : Bool := false
  /-- Inputs are replaced by what is printed; the ending of what is kept of them. -/
  inPlace : Option String := none
  ending : Char := '\n'
  width : Nat := 70

/-- The state of the editor. -/
structure Desk where
  manner : Manner
  lines : Array Line
  spans : Array Span
  /-- The pattern space, and whether an end belongs to it. -/
  pattern : String := ""
  ended : Bool := true
  kept : String := ""
  keptEnded : Bool := true
  /-- The number of the line. -/
  number : Nat := 0
  /-- What is left of the input, its name, and the inputs behind it. -/
  rest : List Char := []
  name : String := "-"
  inputs : List String := []
  /-- Whether an input is open. -/
  isOpen : Bool := false
  bad : Bool := false
  replaced : Bool := false
  later : List Later := []
  /-- The expression that was used last. -/
  last : Option Expression := none
  /-- The outputs on which the end of a line is missing. -/
  missing : List String := []
  /-- What was printed in place of the input, the last first. -/
  edited : List String := []
  /-- What is left of files that are read by lines. -/
  byLine : List (String × List Char) := []

/-- What the editor does. -/
abbrev Edits := StateT Desk Act

/-- What is done next. -/
inductive Flow where
  | go (place : Nat)
  /-- The end of the script: the pattern space is printed if that is asked for. -/
  | finish (prints : Bool)
  /-- The script from the start, with what the pattern space holds. -/
  | again
  | quit (prints : Bool) (status : Nat)

/-! ## 2. Output -/

/-- Write to an output: the standard output under the name of a dash. -/
def emit (path text : String) : Edits Unit := do
  let d ← get
  if path = "-" then
    if d.manner.inPlace.isSome && d.isOpen then set { d with edited := text :: d.edited }
    else (Act.hold text : Act Unit)
  else if path = "/dev/stdout" then (Act.hold text : Act Unit)
  else if path = "/dev/stderr" then (Act.printError text : Act Unit)
  else do
    let _ ← (Act.writeFile path text true : Act _)

/-- Write a text to an output, with the end of a line if it has one. An end that is missing there is
    written first. -/
def write (path text : String) (ended : Bool) : Edits Unit := do
  let d ← get
  let ending := String.singleton d.manner.ending
  if d.missing.contains path then
    emit path ending
    modify fun d => { d with missing := d.missing.filter (· != path) }
  emit path (if ended then text ++ ending else text)
  if !ended then modify fun d => { d with missing := path :: d.missing }

/-- Write the end of a line that is missing. -/
def writeMissing : Edits Unit := do
  let d ← get
  if d.missing.contains "-" then
    emit "-" (String.singleton d.manner.ending)
    modify fun d => { d with missing := d.missing.filter (· != "-") }

/-- Note what comes behind the line. -/
def writeBehind (l : Later) : Edits Unit := modify fun d => { d with later := d.later ++ [l] }

/-- Write what comes behind the line. -/
def writeLater : Edits Unit := do
  let later := (← get).later
  modify fun d => { d with later := [] }
  later.forM fun l => do
    match l with
    | .text s =>
      writeMissing
      emit "-" s
    | .line s => write "-" s true
    | .file path =>
      let read ← (if path = "/dev/stdin" then Act.input else Act.readFile path : Act _)
      match read with
      | .ok "" | .error _ => pure ()
      | .ok text =>
        writeMissing
        emit "-" text

/-! ## 3. Input -/

/-- Put the input that was edited in the place of the one that was read. -/
def closeInput : Edits Unit := do
  let d ← get
  match d.manner.inPlace with
  | none => set { d with isOpen := false }
  | some kept =>
    if d.isOpen then
      let text := String.join d.edited.reverse
      if kept != "" then
        match ← (Act.placeOf d.name true : Act _) with
        | .ok (place, some t) =>
          let backup :=
            if kept.toList.contains '*' then
              String.join (kept.toList.map fun c =>
                if c = '*' then Paths.lastName d.name else String.singleton c)
            else Paths.lastName d.name ++ kept
          (Act.putAt (place.dropLast ++ [Text.textOfOctets backup]) t : Act Unit)
        | _ => pure ()
      let _ ← (Act.writeFile d.name text : Act _)
      modify fun d => { d with
        isOpen := false, edited := [], missing := d.missing.filter (· != "-") }

/-- Open the next input that can be read. -/
def openNext : Nat → Edits Bool
  | 0 => return false
  | n + 1 => do
    let d ← get
    match d.inputs with
    | [] => return false
    | path :: inputs =>
      set { d with inputs }
      let refused (message : String) : Edits Bool := do
        Act.complain message
        modify fun d => { d with bad := true }
        openNext n
      if path = "-" && d.manner.inPlace.isNone then
        match ← (Act.input : Act _) with
        | .ok text =>
          modify fun d => { d with rest := text.toList, name := "-", isOpen := true }
          return true
        | .error r =>
          (Act.flush : Act Unit)
          Act.fail 4 ("read error on stdin: " ++ r.text)
      else
        match ← (Act.readFile path : Act _) with
        | .error .isDirectory =>
          if d.manner.inPlace.isSome then
            Act.complain ("couldn't edit " ++ path ++ ": not a regular file")
            Act.quit 4
          else
            -- A directory opens, and is refused when it is read.
            Act.fail 4 ("read error on " ++ path ++ ": Is a directory")
        | .error r => refused ("can't read " ++ path ++ ": " ++ r.text)
        | .ok text =>
          modify fun d => { d with
            rest := text.toList
            name := path
            isOpen := true
            number := if d.manner.separate then 0 else d.number }
          return true

/-- Take the next line into the pattern space, if there is one. -/
def readNext : Nat → Edits Bool
  | 0 => return false
  | n + 1 => do
    let d ← get
    if d.rest.isEmpty then
      if d.isOpen then closeInput
      if ← openNext ((← get).inputs.length + 1) then readNext n else return false
    else
      let (line, rest) := World.lineSplit d.manner.ending d.rest
      let ended := line.getLast? == some d.manner.ending
      set { d with
        pattern := String.ofList (if ended then line.dropLast else line)
        ended
        rest
        number := d.number + 1
        replaced := false }
      return true

/-- Whether any of some inputs holds anything. -/
def anyFilled : List String → Act Bool
  | [] => return false
  | path :: paths => do
    if path = "-" then return true
    match ← Act.readFile path with
    | .ok "" | .error _ => anyFilled paths
    | .ok _ => return true

/-- Whether no line follows. -/
def isLast : Edits Bool := do
  let d ← get
  if !d.rest.isEmpty then return false
  if d.manner.separate then return true
  return !(← (anyFilled d.inputs : Act Bool))

/-! ## 4. Finding -/

/-- The expression that is meant, which becomes the one used last. -/
def expressionOf (e : Option Expression) : Edits Expression := do
  match e with
  | some e =>
    modify fun d => { d with last := some e }
    return e
  | none =>
    match (← get).last with
    | some e => return e
    | none => Act.fail 1 "-e expression #1, char 0: no previous regular expression"

/-- The pattern space as the subject of an expression. -/
def subject (e : Expression) (text : String) : Subject :=
  { Subject.ofText text with caseless := e.caseless, lines := e.lines }

/-- Whether an expression is found in the pattern space. -/
def isFound (e : Option Expression) : Edits Bool := do
  let e ← expressionOf e
  return (Regex.find? (subject e (← get).pattern) e.pattern).isSome

/-- Whether the line is at a first bound. -/
def isAt : Address → Edits Bool
  | .line n => return (← get).number = n
  | .step start width => do
    let n := (← get).number
    return start ≤ n && (n - start) % width = 0
  | .last => isLast
  | .found e => isFound e

/-- Whether a command is carried out on the line, negation aside. -/
def isSelected (place : Nat) (s : Selector) : Edits Bool := do
  let setSpan (span : Span) : Edits Unit :=
    modify fun d => { d with spans := d.spans.setIfInBounds place span }
  match s.first, s.second with
  | none, _ => return true
  | some a, none => isAt a
  | some a, some b =>
    let d ← get
    let n := d.number
    match d.spans.getD place .outside with
    | .inside stop =>
      match stop, b with
      | some stop, _ =>
        if stop ≤ n then setSpan .outside
        return n ≤ stop
      | none, .last =>
        if ← isLast then setSpan .outside
        return true
      | none, .found e =>
        if ← isFound e then setSpan .outside
        return true
      | none, _ => return true
    | .outside =>
      if !(← isAt a) then return false
      let stop : Option Nat := match b with
        | .line m => some m
        | .more m => some (n + m)
        | .multiple m => some (if m = 0 then n else (n / m + 1) * m)
        | .last | .found _ => none
      match stop with
      | some m => if n < m then setSpan (.inside (some m))
      | none =>
        match b with
        | .last => if !(← isLast) then setSpan (.inside none)
        | _ => setSpan (.inside none)
      return true

/-- Whether a command stands within its lines, and not at their end. -/
def isWithin (place : Nat) : Edits Bool := do
  match (← get).spans.getD place .outside with
  | .inside _ => return true
  | .outside => return false

/-! ## 5. Substitution -/

/-- A text with a change of letters, which may concern the first alone; and the change that is left
    for what follows. -/
def recased (lasting : Case) (once : Option Case) (cs : List Char) : List Char :=
  let all : List Char := match lasting with
    | .upper => cs.map Char.toUpper
    | .lower => cs.map Char.toLower
    | _ => cs
  match once, all with
  | some .upperNext, c :: r => c.toUpper :: r
  | some .lowerNext, c :: r => c.toLower :: r
  | _, all => all

/-- The text of a replacement. -/
def replacement (s : Subject) (f : Found) : Case → Option Case → List Piece → List Char
  | _, _, [] => []
  | lasting, once, p :: ps =>
    let write (cs : List Char) : List Char :=
      recased lasting once cs ++
        replacement s f lasting (if cs.isEmpty then once else none) ps
    match p with
    | .text t => write t.toList
    | .group n => write (f.group s n)
    | .cased .upperNext => replacement s f lasting (some .upperNext) ps
    | .cased .lowerNext => replacement s f lasting (some .lowerNext) ps
    | .cased .plain => replacement s f .plain none ps
    | .cased c => replacement s f c once ps

/-- A text with what is found replaced, from a position on and from some occurrence on, and whether
    anything was replaced. What is empty is not found right behind what was found before. -/
def substituted (s : Subject) (e : Expression) (sub : Substitution) :
    Nat → (start count : Nat) → (before : Option Nat) → List (List Char) → List Char × Bool
  | 0, start, _, _, out => ((s.between start s.size :: out).reverse.flatten, false)
  | n + 1, start, count, before, out =>
    match Regex.find? s e.pattern start with
    | none => ((s.between start s.size :: out).reverse.flatten, false)
    | some f =>
      let lead := s.between start f.start
      if f.stop = f.start && before == some f.start then
        -- An empty finding behind another one counts for nothing.
        if s.size ≤ f.start then ((lead :: out).reverse.flatten, false)
        else
          substituted s e sub n (f.start + 1) count none
            (s.between f.start (f.start + 1) :: lead :: out)
      else
        let counts := sub.number ≤ count
        let body :=
          if counts then replacement s f .plain none sub.pieces else s.between f.start f.stop
        let out := body :: lead :: out
        if counts && !sub.global then ((s.between f.stop s.size :: out).reverse.flatten, true)
        else if f.stop = f.start then
          if s.size ≤ f.start then (out.reverse.flatten, counts)
          else
            let (text, more) := substituted s e sub n (f.start + 1) (count + 1) none
              (s.between f.start (f.start + 1) :: out)
            (text, counts || more)
        else
          let (text, more) := substituted s e sub n f.stop (count + 1) (some f.stop) out
          (text, counts || more)

/-- What a command of the shell prints. -/
def outputOf (spawn : Spawn) (command : String) : Act String := do
  Act.flush
  let b ← get
  let ((r, w), world) := b.world.addChannel
  let descriptors := (1, w) :: b.process.descriptors.filter fun d => d.1 != 1
  set { b with world, process := { b.process with descriptors } }
  let _ ← spawn ["sh", "-c", command]
  modify fun c => { c with process := b.process }
  let c ← get
  let (text, world) := c.world.drain r
  set { c with world }
  return text

/-! ## 6. Commands -/

/-- A text in which nothing but what can be printed stands for itself, broken into lines. -/
def listing (width : Nat) (text : String) : String :=
  let shownChar (c : Char) : String :=
    if c = '\\' then "\\\\"
    else if c = '\n' then "\\n"
    else if Text.isPrintable c then String.singleton c
    else escapedText c
  let step (acc : List String × Nat) (c : Char) : List String × Nat :=
    let s := shownChar c
    if 0 < width && width - 1 < acc.2 + s.length then (s :: "\\\n" :: acc.1, s.length)
    else (s :: acc.1, acc.2 + s.length)
  String.join ((text.toList.foldl step ([], 0)).1.reverse) ++ "$\n"

/-- A text up to the end of its first line, and what follows if there is an end. -/
def firstLine (ending : Char) (text : String) : String × Option String :=
  match Text.cut? [ending] text.toList with
  | some (a, b) => (String.ofList a, some (String.ofList b))
  | none => (text, none)

/-- Print the pattern space. -/
def printPattern : Edits Unit := do
  let d ← get
  write "-" d.pattern d.ended

/-- Carry out a substitution. -/
def substitute (spawn : Spawn) (sub : Substitution) : Edits Unit := do
  let e ← expressionOf sub.expression
  let d ← get
  let s := subject e d.pattern
  let (cs, changed) := substituted s e sub (2 * s.size + 4) 0 1 none []
  if !changed then return
  modify fun d => { d with pattern := String.ofList cs, replaced := true }
  if sub.run then
    let text ← (outputOf spawn (String.ofList cs) : Act String)
    let cs := text.toList
    let text := if cs.getLast? == some '\n' then String.ofList cs.dropLast else text
    modify fun d => { d with pattern := text }
  if sub.printed then printPattern
  match sub.file with
  | none => return
  | some path =>
    let d ← get
    write path d.pattern d.ended

/-- Carry out one command; the place behind it is given. -/
def carryOut (spawn : Spawn) (place : Nat) (l : Line) : Edits Flow := do
  let behind : Flow := .go (place + 1)
  let d ← get
  let ending := String.singleton d.manner.ending
  match l.command with
  | .block _ | .nothing => return behind
  | .number =>
    writeMissing
    emit "-" (toString d.number ++ "\n")
    return behind
  | .insert text =>
    writeMissing
    emit "-" text
    return behind
  | .append text =>
    writeBehind (.text text)
    return behind
  | .change text =>
    let within := l.selector.second.isSome && (← isWithin place)
    if !within then
      writeMissing
      emit "-" text
    return .finish false
  | .jump replaced target =>
    let goes := match replaced with
      | none => true
      | some wanted => d.replaced == wanted
    if replaced.isSome then set { d with replaced := false }
    if goes then
      match target with
      | some t => return .go t
      | none => return .finish true
    return behind
  | .delete => return .finish false
  | .deleteFirst =>
    match firstLine d.manner.ending d.pattern with
    | (_, none) => return .finish false
    | (_, some rest) =>
      set { d with pattern := rest }
      return .again
  | .print =>
    printPattern
    return behind
  | .printFirst =>
    write "-" (firstLine d.manner.ending d.pattern).1 true
    return behind
  | .next =>
    if ← isLast then return .quit true 0
    if !d.manner.quiet then printPattern
    writeLater
    let replaced := (← get).replaced
    if ← readNext (d.inputs.length + 2) then
      modify fun d => { d with replaced }
      return behind
    return .quit false 0
  | .join =>
    if ← isLast then return .quit true 0
    writeLater
    let old := d.pattern
    let replaced := d.replaced
    if ← readNext (d.inputs.length + 2) then
      modify fun d => { d with pattern := old ++ ending ++ d.pattern, replaced }
      return behind
    return .quit true 0
  | .get =>
    set { d with pattern := d.kept, ended := d.keptEnded }
    return behind
  | .getBehind =>
    set { d with pattern := d.pattern ++ ending ++ d.kept, ended := d.keptEnded }
    return behind
  | .keep =>
    set { d with kept := d.pattern, keptEnded := d.ended }
    return behind
  | .keepBehind =>
    set { d with kept := d.kept ++ ending ++ d.pattern, keptEnded := d.ended }
    return behind
  | .exchange =>
    set { d with pattern := d.kept, ended := d.keptEnded, kept := d.pattern, keptEnded := d.ended }
    return behind
  | .list width =>
    writeMissing
    let width := width.getD d.manner.width
    emit "-" (listing width d.pattern)
    return behind
  | .quit prints status => return .quit prints status
  | .readFile path =>
    writeBehind (.file path)
    return behind
  | .readLine path =>
    let rest ←
      match d.byLine.lookup path with
      | some rest => pure rest
      | none =>
        match ← (Act.readOperand (if path = "/dev/stdin" then "-" else path) : Act _) with
        | .ok text => pure text.toList
        | .error _ => pure []
    if !rest.isEmpty then
      let (line, rest) := World.lineSplit d.manner.ending rest
      let body := if line.getLast? == some d.manner.ending then line.dropLast else line
      writeBehind (.line (String.ofList body))
      modify fun d => { d with
        byLine := (path, rest) :: d.byLine.filter fun e => e.1 != path }
    else modify fun d => { d with byLine := (path, []) :: d.byLine.filter fun e => e.1 != path }
    return behind
  | .writeFile path =>
    write (if path = "/dev/stdout" && d.manner.inPlace.isNone then "-" else path) d.pattern d.ended
    return behind
  | .writeFirst path =>
    write (if path = "/dev/stdout" && d.manner.inPlace.isNone then "-" else path)
      (firstLine d.manner.ending d.pattern).1 true
    return behind
  | .substitute sub =>
    let file := sub.file.map fun p =>
      if p = "/dev/stdout" && d.manner.inPlace.isNone then "-" else p
    substitute spawn { sub with file }
    return behind
  | .translate table =>
    set { d with
      pattern := String.ofList (d.pattern.toList.map fun c => (table.lookup c).getD c) }
    return behind
  | .clear =>
    set { d with pattern := "" }
    return behind
  | .fileName =>
    writeMissing
    emit "-" (d.name ++ "\n")
    return behind
  | .execute command =>
    let text ← (outputOf spawn (if command = "" then d.pattern else command) : Act String)
    if command = "" then
      let text :=
        if text.toList.getLast? == some '\n' then String.ofList text.toList.dropLast else text
      modify fun d => { d with pattern := text }
    else
      writeMissing
      emit "-" text
    return behind

/-- Carry out the commands from a place on, so many at most. -/
def carryOutFrom (spawn : Spawn) : Nat → Nat → Edits Flow
  | 0, _ => throw (.killed 9)
  | n + 1, place => do
    match (← get).lines[place]? with
    | none => return .finish true
    | some l =>
      let selected ← isSelected place l.selector
      if selected == l.selector.negated then
        match l.command with
        | .block stop => carryOutFrom spawn n stop
        | _ => carryOutFrom spawn n (place + 1)
      else
        match ← carryOut spawn place l with
        | .go place => carryOutFrom spawn n place
        | flow => return flow

/-- The most commands that are carried out on one line, and the most lines. -/
def roundLimit : Nat := 10000000

/-- Work on the lines that are left; `fresh` tells whether a line is to be taken. -/
def cycles (spawn : Spawn) : Nat → (fresh : Bool) → Edits Nat
  | 0, _ => throw (.killed 9)
  | n + 1, fresh => do
    let there ← if fresh then readNext ((← get).inputs.length + 2) else pure true
    if !there then return 0
    let flow ← carryOutFrom spawn roundLimit 0
    let close (prints : Bool) : Edits Unit := do
      if prints && !(← get).manner.quiet then printPattern
      writeLater
    match flow with
    | .go _ => return 0
    | .finish prints =>
      close prints
      cycles spawn n true
    | .again =>
      writeLater
      cycles spawn n false
    | .quit prints status =>
      close prints
      return status

/-! ## 7. The program -/

/-- The words that tell how the program is called. -/
def usageText : String :=
  "Usage: sed [OPTION]... \x7bscript-only-if-no-other-script\x7d [input-file]...\n"

/-- The options of the program. -/
def grammar : Grammar :=
  Grammar.of "bsnrzuEe:f:l:i::V:\x01\x02\x03"
    [("binary", 'b'), ("regexp-extended", 'r'), ("null-data", 'z'), ("zero-terminated", 'z'),
      ("quiet", 'n'), ("silent", 'n'), ("expression", 'e'), ("file", 'f'), ("in-place", 'i'),
      ("line-length", 'l'), ("separate", 's'), ("unbuffered", 'u'), ("posix", '\x01'),
      ("debug", '\x02'), ("follow-symlinks", '\x03'), ("sandbox", '\x03')]

/-- The files that a script writes. -/
def filesWritten (lines : Array Line) : List String :=
  lines.toList.filterMap fun l =>
    match l.command with
    | .writeFile path | .writeFirst path => some path
    | .substitute s => s.file
    | _ => none

/-- End with the words that tell how the program is called. -/
def fullUsage {α : Type} : Act α := do
  Act.printError usageText
  Act.quit 1

/-- Edit inputs line by line. -/
def sed (spawn : Spawn) : Program := fun args => do
  let p ← match grammar.parse args with
    | .ok p => pure p
    | .error e => do
      Act.complain e
      fullUsage
  let scripts := p.options.filter fun o => o.1 == 'e' || o.1 == 'f'
  let source (o : Char × String) : Act Source := do
    if o.1 = 'e' then return { text := o.2 }
    match ← Act.readOperand o.2 with
    | .ok text =>
      let cs := text.toList
      let text := if cs.getLast? == some '\n' then String.ofList cs.dropLast else text
      return { file := some o.2, text }
    | .error r => Act.fail 4 ("couldn't open file " ++ o.2 ++ ": " ++ r.text)
  let (sources, inputs) ←
    if scripts.isEmpty then
      match p.operands with
      | [] => fullUsage
      | text :: inputs => pure ([({ text } : Source)], inputs)
    else do pure (← scripts.mapM source, p.operands)
  match readScript (p.has 'r' || p.has 'E') sources with
  | .error (message, status) => Act.fail status message
  | .ok script =>
    let kept := p.last? 'i'
    if kept.isSome && inputs.isEmpty then Act.fail 4 "no input files"
    (filesWritten script.lines).forM fun path => do
      if path = "/dev/stdout" || path = "/dev/stderr" then return
      match ← Act.writeFile path "" with
      | .ok () => return
      | .error r => Act.fail 4 ("couldn't open file " ++ path ++ ": " ++ r.text)
    let manner : Manner :=
      { quiet := p.has 'n' || script.quiet
        separate := p.has 's' || kept.isSome
        inPlace := kept
        ending := if p.has 'z' then Char.ofNat 0 else '\n'
        width := ((p.last? 'l').bind natural?).getD 70 }
    let opening (l : Line) : Span :=
      match l.selector.first, l.selector.second with
      | some (.line 0), some _ => .inside none
      | _, _ => .outside
    let desk : Desk :=
      { manner
        lines := script.lines
        spans := script.lines.map opening
        inputs := if inputs.isEmpty then ["-"] else inputs }
    let work : Edits Nat := do
      let status ← cycles spawn roundLimit true
      let d ← get
      -- What is left of an input in place stays as it is.
      if d.isOpen then
        if manner.inPlace.isSome then emit "-" (String.ofList d.rest)
        closeInput
      return status
    let (status, d) ← work.run desk
    -- What was not used of the input stays to be read.
    if d.name = "-" then Act.giveBackInput d.rest.length
    return if d.bad then 2 else status

end Isolation.Programs.Editor
