import Isolation.Programs.Options

/-!
# Whole texts

The programs that pass texts on, one after another: as they are or made visible (`cat`), to several
files (`tee`), or counted (`wc`).
-/

namespace Isolation.Programs.Texts

open Machine
open Files (Refusal)

/-- A text at the right end of a column. -/
def atRight (width : Nat) (s : String) : String :=
  String.ofList (List.replicate (width - s.length) ' ') ++ s

/-! ## 1. Passing on -/

/-- How lines are passed on. -/
structure Manner where
  numbers : Bool := false
  /-- Empty lines have no numbers. -/
  filled : Bool := false
  ends : Bool := false
  /-- Of several empty lines one is passed on. -/
  squeezed : Bool := false
  tabs : Bool := false
  visible : Bool := false

/-- Whether a text is passed on as it is. -/
def Manner.isPlain (m : Manner) : Bool :=
  !(m.numbers || m.filled || m.ends || m.squeezed || m.tabs || m.visible)

/-- A character as it is passed on. -/
def Manner.char (m : Manner) (c : Char) : String :=
  let low (n : Nat) : String :=
    if n < 32 then "^" ++ String.singleton (Char.ofNat (n + 64))
    else if n = 127 then "^?"
    else String.singleton (Char.ofNat n)
  if c = '\t' then if m.tabs then "^I" else "\t"
  else if !m.visible then String.singleton c
  else if c.toNat < 128 then low c.toNat
  else "M-" ++ low (c.toNat - 128)

/-- Where a text that is passed on has got to. -/
structure Passing where
  line : Nat := 1
  atStart : Bool := true
  /-- Whether the line before was empty. -/
  afterEmpty : Bool := false

/-- A text as it is passed on, the last part first, and where that leads. -/
def Manner.pass (m : Manner) : Passing → List Char → List String → Passing × List String
  | p, [], out => (p, out)
  | p, c :: r, out =>
    let label := atRight 6 (toString p.line) ++ "\t"
    if c = '\n' then
      let ending := if m.ends then "$\n" else "\n"
      if p.atStart then
        if m.squeezed && p.afterEmpty then m.pass p r out
        else if m.numbers && !m.filled then
          m.pass { p with line := p.line + 1, afterEmpty := true } r ((label ++ ending) :: out)
        else m.pass { p with afterEmpty := true } r (ending :: out)
      else m.pass { p with atStart := true, afterEmpty := false } r (ending :: out)
    else
      let shown :=
        if c = '\r' && m.ends && r.head? == some '\n' then "^M" else m.char c
      if p.atStart && (m.numbers || m.filled) then
        m.pass ⟨p.line + 1, false, false⟩ r ((label ++ shown) :: out)
      else m.pass { p with atStart := false, afterEmpty := false } r (shown :: out)

/-- The manner that letters ask for. -/
def Manner.ofOptions (p : Parsed) : Manner :=
  { numbers := p.has 'n'
    filled := p.has 'b'
    ends := p.has 'E' || p.has 'e' || p.has 'A'
    squeezed := p.has 's'
    tabs := p.has 'T' || p.has 't' || p.has 'A'
    visible := p.has 'v' || p.has 'e' || p.has 't' || p.has 'A' }

/-- Whether an operand is the file that the output goes to, and is filled. -/
def feedsItself (path : String) : Act Bool := do
  let source : Option (List String) ←
    if path = "-" then
      match ← Act.targetOf? 0 with
      | some (.file place) => pure (some place)
      | _ => pure none
    else
      match ← Act.placeOf path true with
      | .ok (place, some (.file ..)) => pure (some place)
      | _ => pure none
  match ← Act.targetOf? 1, source with
  | some (.file goal), some place =>
    return place == goal && ((← get).world.bytesAt place).size != 0
  | _, _ => return false

/-- Pass texts on. -/
def cat : Program := fun args => do
  let g := Grammar.of "AbeEnstTuv"
    [("number-nonblank", 'b'), ("number", 'n'), ("squeeze-blank", 's'),
      ("show-nonprinting", 'v'), ("show-ends", 'E'), ("show-tabs", 'T'), ("show-all", 'A')]
  let p ← options g args
  let m := Manner.ofOptions p
  let one (acc : Passing × Nat) (path : String) : Act (Passing × Nat) := do
    if ← feedsItself path then
      Act.complain (shown path ++ ": input file is output file")
      return (acc.1, 1)
    match ← textOf? (fun path r => Act.complainOf (shown path) r) path with
    | none => return (acc.1, 1)
    | some text =>
      if m.isPlain then
        Act.print text
        return acc
      else
        let (passing, out) := m.pass acc.1 text.toList []
        Act.print (String.join out.reverse)
        return (passing, acc.2)
  let operands := if p.operands.isEmpty then ["-"] else p.operands
  let (_, status) ← operands.foldlM one ({}, 0)
  if operands.contains "-" && (← Act.targetOf? 0).isNone then
    Act.complain ("closing standard input: " ++ Refusal.text .badDescriptor)
    return 1
  return status

/-! ## 2. Several files -/

/-- Write the input to the output and to files. -/
def tee : Program := fun args => do
  let p ← options (Grammar.of "aip" [("append", 'a'), ("ignore-interrupts", 'i')]) args
  let appends := p.has 'a'
  let prepare (path : String) : Act (Nat × List String) := do
    match ← Act.writeFile path "" appends with
    | .ok () => return (0, [path])
    | .error r =>
      Act.complainOf (shown path) r
      return (1, [])
  let made ← p.operands.mapM prepare
  match ← Act.input with
  | .error r =>
    Act.complain ("read error: " ++ r.text)
    return 1
  | .ok text =>
    Act.print text
    (made.flatMap Prod.snd).forM fun path => do
      let _ ← Act.writeFile path text true
    return (made.map Prod.fst).foldl max 0

/-! ## 3. Counting -/

/-- What is counted in a text. -/
structure Counts where
  lines : Nat := 0
  words : Nat := 0
  bytes : Nat := 0
  /-- The width of the widest line. -/
  widest : Nat := 0

/-- Count a text. -/
def countsOf (text : String) : Counts :=
  let cs := text.toList
  let column (n : Nat) (c : Char) : Nat :=
    if c = '\t' then n / 8 * 8 + 8 else if Text.isPrintable c then n + 1 else n
  { lines := cs.count '\n'
    words := ((Text.fields Text.isSpace cs).filter (!·.isEmpty)).length
    bytes := cs.length
    widest :=
      ((Text.fields (fun c => c == '\n' || c == '\r' || c.toNat == 12) cs).map
        (·.foldl column 0)).foldl max 0 }

/-- The counts of two texts together. -/
def Counts.add (a b : Counts) : Counts :=
  ⟨a.lines + b.lines, a.words + b.words, a.bytes + b.bytes, max a.widest b.widest⟩

/-- The counts that are asked for. -/
def Counts.chosen (c : Counts) (p : Parsed) : List Nat :=
  let usual := !(['l', 'w', 'c', 'm', 'L'].any p.has)
  (if usual || p.has 'l' then [c.lines] else []) ++
    (if usual || p.has 'w' then [c.words] else []) ++
    (if p.has 'm' then [c.bytes] else []) ++
    (if usual || p.has 'c' then [c.bytes] else []) ++
    (if p.has 'L' then [c.widest] else [])

/-- The size of a file among operands, or nothing if it is no file. What is not there has no part in
    the width of columns. -/
def sizeOf (path : String) : Act (Option (Option Nat)) := do
  let sized : Files.Tree → Option Nat
    | .file bytes _ => some bytes.size
    | _ => none
  if path = "-" then
    match ← Act.targetOf? 0 with
    | some (.file place) => return some (some ((← get).world.bytesAt place).size)
    | some (.nameless bytes) => return some (some bytes.size)
    | _ => return some none
  else
    match ← Act.find? path true with
    | .ok t => return some (sized t)
    | .error _ => return none

/-- Count texts. -/
def wc : Program := fun args => do
  let g := Grammar.of "clLmwT:"
    [("bytes", 'c'), ("chars", 'm'), ("lines", 'l'), ("max-line-length", 'L'), ("words", 'w'),
      ("total", 'T')]
  let p ← options g args
  let named := !p.operands.isEmpty
  let operands := if named then p.operands else ["-"]
  let columns := (({} : Counts).chosen p).length
  let sizes ← operands.mapM sizeOf
  let total := (sizes.filterMap fun s => s.join).foldl (· + ·) 0
  let least := if sizes.any fun s => s == some none then 7 else 1
  let width :=
    if operands.length = 1 && columns = 1 then 1 else max least (toString total).length
  let row (c : Counts) (name : String) : String :=
    Text.joined " " ((c.chosen p).map fun n => atRight width (toString n)) ++
      (if name = "" then "" else " " ++ name) ++ "\n"
  let one (acc : Counts × Nat) (path : String) : Act (Counts × Nat) := do
    let name := if named then path else ""
    match ← Act.readOperand path with
    | .ok text =>
      let c := countsOf text
      Act.print (row c name)
      return (acc.1.add c, acc.2)
    | .error r =>
      Act.complainOf (if named then shown path else "'standard input'") r
      if r = .isDirectory then Act.print (row {} name)
      return (acc.1, 1)
  let (all, status) ← operands.foldlM one ({}, 0)
  let wanted :=
    match p.last? 'T' with
    | some "never" => false
    | some "always" | some "only" => true
    | _ => operands.length > 1
  if wanted then Act.print (row all "total")
  return status

end Isolation.Programs.Texts
