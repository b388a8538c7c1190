import Std.Data.HashMap
import Isolation.Programs.Awk.Reader
import Isolation.Programs.Awk.Value

/-!
# Running scripts of `awk`

A script works on a store of names, arrays and fields. Names hold values or arrays; an array is
known by its number, so that a function that is given one changes it for its caller.

The arrays of the language have no order, but going through one takes its indices in the order of
the buckets that a hash puts them in (`bucket`), the ones touched last before others in the same.
Expressions and statements are carried out through a record that is built up level by level
(`runner`).
-/

namespace Isolation.Programs.Awk

open Machine
open Files (Refusal)
open Isolation.Regex

/-! ## 1. The store -/

/-- An array: values by their indices, with the time at which each was touched last. -/
abbrev Table := Std.HashMap String (Value × Nat)

/-- What a name holds. -/
inductive Cell where
  | value (v : Value)
  | array (number : Nat)

/-- What is left of something that is read by lines, and the status of the command that wrote it. -/
structure Source where
  rest : List Char
  status : Nat := 0

/-- The state of a script. -/
structure Store where
  functions : List (String × Function) := []
  globals : Std.HashMap String Cell := {}
  arrays : Array Table := #[]
  /-- The names of functions that are running, the last first. -/
  frames : List (Std.HashMap String Cell) := []
  record : String := ""
  fields : Array Value := #[]
  /-- What is left of the input that is being read, and whether one is open. -/
  rest : List Char := []
  isOpen : Bool := false
  /-- The place of the next operand. -/
  operand : Nat := 1
  /-- Whether an operand was read as an input. -/
  anyInput : Bool := false
  sources : List (String × Source) := []
  /-- The files that were written, and the texts for commands. -/
  written : List String := []
  piped : List (String × String) := []
  /-- The rules that lie between two records, by their places. -/
  within : List Nat := []
  clock : Nat := 0
  seed : Nat := 1
  status : Nat := 0

/-- What leaves a statement early. -/
inductive Leave where
  | loop
  | round
  | record
  | file
  | script
  | function (v : Value)

/-- What a script does. -/
abbrev Does := ExceptT Leave (StateT Store Act)

/-- Do something to the world. -/
def act {α : Type} (a : Act α) : Does α := fun s => do
  let x ← a
  return (.ok x, s)

/-- What carries out parts that hold one another. -/
structure Runner where
  value : Expr → Does Value
  run : Statement → Does Unit

/-! ## 2. Names -/

/-- The name of the innermost function, if it has it. -/
def local? (n : String) : Does (Option Cell) := do
  match (← get).frames with
  | [] => return none
  | f :: _ => return f[n]?

/-- Set what a name holds. -/
def setCell (n : String) (c : Cell) : Does Unit := do
  let isLocal := (← local? n).isSome
  modify fun s =>
    match s.frames, isLocal with
    | f :: fs, true => { s with frames := f.insert n c :: fs }
    | _, _ => { s with globals := s.globals.insert n c }

/-- What a name holds. -/
def cell (n : String) : Does Cell := do
  match ← local? n with
  | some c => return c
  | none => return ((← get).globals[n]?).getD (.value .unset)

/-- The number of the array of a name, which becomes one if it holds nothing. -/
def arrayOf (n : String) : Does Nat := do
  match ← cell n with
  | .array k => return k
  | .value _ =>
    let k := (← get).arrays.size
    modify fun s => { s with arrays := s.arrays.push {} }
    setCell n (.array k)
    return k

/-- The value of a global name. -/
def special (n : String) : Does Value := do
  match (← get).globals[n]? with
  | some (.value v) => return v
  | _ => return .unset

/-- Set a global name. -/
def setSpecial (n : String) (v : Value) : Does Unit :=
  modify fun s => { s with globals := s.globals.insert n (.value v) }

/-- The text of a value. -/
def textOf (v : Value) : Does String := do
  match v with
  | .number x =>
    match ← special "CONVFMT" with
    | .text f => return numberText f x
    | _ => return numberText "%.6g" x
  | v => return v.string "%.6g"

/-- The text of a global name. -/
def specialText (n : String) : Does String := do textOf (← special n)

/-- The value of an array at an index; an index that is used is there from then on. -/
def elementAt (k : Nat) (index : String) : Does Value := do
  let s ← get
  let table := s.arrays.getD k {}
  let v := ((table[index]?).map Prod.fst).getD .unset
  set { s with
    arrays := s.arrays.setIfInBounds k (table.insert index (v, s.clock))
    clock := s.clock + 1 }
  return v

/-- Set an element. -/
def setElement (k : Nat) (index : String) (v : Value) : Does Unit := modify fun s =>
  let table := s.arrays.getD k {}
  { s with
    arrays := s.arrays.setIfInBounds k (table.insert index (v, s.clock))
    clock := s.clock + 1 }

/-- The hash of an index: a byte at a time, by exclusive or and a multiplication modulo 2 ^ 32. -/
def hash (index : String) : Nat :=
  index.toList.foldl (fun h c => (h ^^^ c.toNat) * 16777619 % 4294967296) 2166136261

/-- The bucket of an index in a table of so many. -/
def bucket (size : Nat) (index : String) : Nat :=
  let rec buckets : Nat → Nat → Nat
    | 0, n => n
    | k + 1, n => if n * 12 < size then buckets k (2 * n) else n
  hash index % buckets 40 64

/-- The indices of an array in the order in which they are gone through. -/
def indices (t : Table) : List String :=
  let es := t.toList.map fun e => (bucket t.size e.1, e.2.2, e.1)
  let before (a b : Nat × Nat × String) : Bool :=
    a.1 < b.1 || (a.1 = b.1 && b.2.1 ≤ a.2.1)
  (es.mergeSort before).map fun e => e.2.2

/-! ## 3. Records -/

/-- Set the record, and split it. -/
def setRecord (text : String) : Does Unit := do
  let separator ← specialText "FS"
  let separator := if (← specialText "RS") = "" && separator = " " then " " else separator
  let fields := (fieldsOf separator text).map readValue
  modify fun s => { s with record := text, fields := fields.toArray }
  setSpecial "NF" (.number (Float.ofNat fields.length))

/-- Make the record of its fields. -/
def rebuild : Does Unit := do
  let separator ← specialText "OFS"
  let texts ← (← get).fields.toList.mapM textOf
  modify fun s => { s with record := Text.joined separator texts }
  setSpecial "NF" (.number (Float.ofNat texts.length))

/-- End with a complaint about what cannot be done, and where. -/
def runtimeError {α : Type} (message : String) : Does α := do
  let file ← specialText "FILENAME"
  let fnr ← specialText "FNR"
  let nr ← specialText "NR"
  act (Act.fail 2 ("run time error: " ++ message ++ "\n\tFILENAME=\"" ++ file ++ "\" FNR=" ++ fnr ++
    " NR=" ++ nr))

/-- The number of a field. -/
def fieldNumber (v : Value) : Does Nat := do
  let n := integerPart v.number'
  if n < 0 then runtimeError ("negative field index $" ++ toString n)
  return n.toNat

/-- A field, or the record. -/
def fieldAt (n : Nat) : Does Value := do
  let s ← get
  if n = 0 then return readValue s.record
  return (s.fields[n - 1]?).getD .unset

/-- Set a field, or the record. -/
def setField (n : Nat) (v : Value) : Does Unit := do
  if n = 0 then setRecord (← textOf v)
  else
    modify fun s =>
      let missing := n - s.fields.size
      let fields := s.fields ++ Array.replicate missing (Value.text "")
      { s with fields := fields.setIfInBounds (n - 1) v }
    rebuild

/-- Set the number of fields. -/
def setFieldCount (v : Value) : Does Unit := do
  let n := (integerPart v.number').toNat
  modify fun s =>
    { s with fields := (s.fields.toList.take n).toArray ++
        Array.replicate (n - s.fields.size) (Value.text "") }
  rebuild

/-! ## 4. Input -/

/-- The record at the front of a text, and what follows. -/
def takeRecord (separator : String) (cs : List Char) : Option (List Char × List Char) :=
  if cs.isEmpty then none
  else
    match separator.toList with
    | [] =>
      -- Empty lines divide records.
      let cs := cs.dropWhile (· == '\n')
      if cs.isEmpty then none
      else
        match Text.cut? ['\n', '\n'] cs with
        | some (a, b) => some (a, b.dropWhile (· == '\n'))
        | none => some (if cs.getLast? == some '\n' then cs.dropLast else cs, [])
    | [c] =>
      let line := cs.takeWhile (· != c)
      some (line, cs.drop (line.length + 1))
    | _ =>
      match patternOf separator with
      | .error _ => some (cs, [])
      | .ok p =>
        let s := Subject.ofText (String.ofList cs)
        match Regex.find? s p with
        | some f =>
          if f.stop = f.start then some (cs, [])
          else some (cs.take f.start, cs.drop f.stop)
        | none => some (if cs.getLast? == some '\n' then cs.dropLast else cs, [])

/-- The name and the value of an operand that is an assignment. -/
def assignmentOf? (operand : String) : Option (String × String) :=
  match Text.cut? ['='] operand.toList with
  | some (c :: name, value) =>
    if (c.isAlpha || c == '_') && name.all Text.isWordChar then
      some (String.ofList (c :: name), String.ofList value)
    else none
  | _ => none

/-- Give a name the value of an assignment outside the script. -/
def assignText (n value : String) : Does Unit := do
  let v := readValue (readEscapes value)
  if n = "NF" then setFieldCount v else setSpecial n v

/-- Open the next input, if there is one. -/
def openNext : Nat → Does Bool
  | 0 => return false
  | n + 1 => do
    let s ← get
    let count := (integerPart (← special "ARGC").number').toNat
    let openInput (path : String) : Does Bool := do
      match ← act (Act.readOperand (if path = "/dev/stdin" then "-" else path)) with
      | .ok text =>
        modify fun s => { s with rest := text.toList, isOpen := true, anyInput := true }
        setSpecial "FILENAME" (readValue path)
        setSpecial "FNR" (.number 0)
        return true
      | .error .isDirectory => act (Act.fail 2 "read error (Is a directory)")
      | .error r => act (Act.fail 2 ("cannot open " ++ path ++ " (" ++ r.text ++ ")"))
    if count ≤ s.operand then
      if s.anyInput then return false
      modify fun s => { s with anyInput := true }
      let opened ← openInput "-"
      setSpecial "FILENAME" (.text "")
      return opened
    else
      let k ← arrayOf "ARGV"
      let operand ← textOf (← elementAt k (toString s.operand))
      modify fun s => { s with operand := s.operand + 1 }
      if operand = "" then openNext n
      else
        match assignmentOf? operand with
        | some (name, value) =>
          assignText name value
          openNext n
        | none => openInput operand

/-- Take the next record of the input. -/
def nextRecord : Nat → Does (Option String)
  | 0 => return none
  | n + 1 => do
    let s ← get
    let separator ← specialText "RS"
    match if s.isOpen then takeRecord separator s.rest else none with
    | some (record, rest) =>
      modify fun s => { s with rest }
      let count (n : String) : Does Unit := do
        setSpecial n (.number ((← special n).number' + 1))
      count "NR"
      count "FNR"
      return some (String.ofList record)
    | none =>
      modify fun s => { s with isOpen := false }
      if ← openNext ((integerPart (← special "ARGC").number').toNat + 2) then nextRecord n
      else return none

/-- The bound on the inputs of a run. -/
def inputLimit : Nat := 100000

/-! ## 5. Output -/

/-- What a command of the shell does with an input; what it prints is kept if that is asked for. -/
def shellRun (spawn : Spawn) (command : String) (input : Option String) (kept : Bool) :
    Act (Nat × String) := do
  Act.flush
  let b ← get
  let old := b.process.descriptors
  let mut descriptors := old
  let mut reader : Option Nat := none
  match input with
  | some text =>
    let ((r, w), world) := (← get).world.addChannel
    modify fun c => { c with world := (world.write w text).toOption.getD world }
    descriptors := (0, r) :: descriptors.filter fun d => d.1 != 0
  | none => pure ()
  if kept then
    let ((r, w), world) := (← get).world.addChannel
    modify fun c => { c with world }
    descriptors := (1, w) :: descriptors.filter fun d => d.1 != 1
    reader := some r
  modify fun c => { c with process := { c.process with descriptors } }
  let ended ← spawn ["sh", "-c", command]
  modify fun c => { c with process := { c.process with descriptors := old } }
  let text ← match reader with
    | none => pure ""
    | some r =>
      let c ← get
      let (text, world) := c.world.drain r
      set { c with world }
      pure text
  let status := match ended with
    | .ok (.exited n) => n
    | .ok (.killed n) => 256 + n
    | .error _ => 127
  return (status, text)

/-- Print a text to a file or for a command. -/
def printTo (goal : Option (String × Bool)) (command : Option String) (text : String) :
    Does Unit := do
  match goal, command with
  | some (path, appends), _ =>
    if path = "-" || path = "/dev/stdout" then act (Act.hold text)
    else if path = "/dev/stderr" then act (Act.printError text)
    else
      let known := (← get).written.contains path
      match ← act (Act.writeFile path text (known || appends)) with
      | .ok () => if !known then modify fun s => { s with written := path :: s.written }
      | .error r =>
        act (Act.fail 2 ("cannot open \"" ++ path ++ "\" for output (" ++ r.text ++ ")"))
  | none, some c =>
    let s ← get
    if !s.piped.any (fun (p : String × String) => p.1 == c) then act Act.flush
    let old := (s.piped.lookup c).getD ""
    let others := s.piped.filter fun (p : String × String) => p.1 != c
    set { s with piped := others ++ [(c, old ++ text)] }
  | none, none => act (Act.hold text)

/-- Let a command have what was printed for it. -/
def closePipe (spawn : Spawn) (command text : String) : Does Nat := do
  modify fun s => { s with piped := s.piped.filter fun (p : String × String) => p.1 != command }
  return (← act (shellRun spawn command (some text) false)).1

/-! ## 6. Expressions -/

/-- The text of indices: several are joined. -/
def indexText (r : Runner) (es : List Expr) : Does String := do
  let texts ← es.mapM fun e => do textOf (← r.value e)
  match texts with
  | [t] => return t
  | ts => return Text.joined (← specialText "SUBSEP") ts

/-- Give a target a value. -/
def assign (r : Runner) (target : Expr) (v : Value) : Does Unit := do
  match target with
  | .name n =>
    if n = "NF" && (← local? n).isNone then setFieldCount v else setCell n (.value v)
  | .field e => setField (← fieldNumber (← r.value e)) v
  | .element a index =>
    let i ← indexText r index
    setElement (← arrayOf a) i v
  | .group [e] =>
    match e with
    | .name n => setCell n (.value v)
    | _ => return
  | _ => return

/-- The pattern that an expression means. -/
def patternFor (r : Runner) (e : Expr) : Does Pattern := do
  let source ←
    match e with
    | .pattern source => pure source
    | e => textOf (← r.value e)
  match patternOf source with
  | .ok p => return p
  | .error d =>
    act (Act.fail 2 ("regular expression compile failed (" ++ d.message ++ ")\n" ++ source))

/-- Whether a pattern is found in a text. -/
def isFound (p : Pattern) (text : String) : Bool :=
  (Regex.find? (Subject.ofText text) p).isSome

/-- The truth of something as a value. -/
def truth (b : Bool) : Value := .number (if b then 1 else 0)

/-- Read a line of a file or of what a command prints. -/
def readLineOf (spawn : Spawn) (isCommand : Bool) (name : String) :
    Does (Option (Option String)) := do
  let key := (if isCommand then "|" else "<") ++ name
  let known := (← get).sources.lookup key
  let source? : Option Source ←
    match known with
    | some s => pure (some s)
    | none =>
      if isCommand then
        let (status, text) ← act (shellRun spawn name none true)
        pure (some { rest := text.toList, status })
      else
        match ← act (Act.readOperand (if name = "/dev/stdin" then "-" else name)) with
        | .ok text => pure (some { rest := text.toList })
        | .error _ => pure none
  match source? with
  | none => return none
  | some source =>
    let separator ← specialText "RS"
    let keep (rest : List Char) : Does Unit := modify fun s => { s with
      sources := (key, { source with rest }) :: s.sources.filter fun e => e.1 != key }
    match takeRecord separator source.rest with
    | some (record, rest) =>
      keep rest
      return some (some (String.ofList record))
    | none =>
      keep []
      return some none

/-- Read the next line, and say how that went. -/
def nextLine (spawn : Spawn) (r : Runner) (target : Option Expr) (source : Option (Bool × Expr)) :
    Does Value := do
  let count (n : String) : Does Unit := do
    setSpecial n (.number ((← special n).number' + 1))
  let store (line : String) : Does Unit :=
    match target with
    | none => setRecord line
    | some t => assign r t (readValue line)
  match source with
  | none =>
    match ← nextRecord inputLimit with
    | some line =>
      store line
      return .number 1
    | none => return .number 0
  | some (isCommand, e) =>
    match ← readLineOf spawn isCommand (← textOf (← r.value e)) with
    | none => return .number (-1)
    | some none => return .number 0
    | some (some line) =>
      store line
      if isCommand then
        count "NR"
      return .number 1

/-- The part of a text from a place on, counted from one, both bounds being rounded. -/
def partOf (text : String) (start : Float) (count : Option Float) : String :=
  let rounded (x : Float) : Int := integerPart (Float.floor (x + 0.5))
  let first := rounded start
  let stop : Int := match count with
    | some n => rounded (start + n)
    | none => text.length + 1
  let low := max first 1
  let high := min stop (text.length + 1)
  if high ≤ low then ""
  else String.ofList ((text.toList.drop (low.toNat - 1)).take (high - low).toNat)

/-- Substitute in a target. -/
def substituteIn (r : Runner) (all : Bool) (args : List Expr) : Does Value := do
  match args with
  | pattern :: new :: rest =>
    let p ← patternFor r pattern
    let new ← textOf (← r.value new)
    let target := rest.head?.getD (.field (.number "0"))
    let text ← textOf (← r.value target)
    let s := Subject.ofText text
    let (cs, n) := replaced s p new.toList all (2 * s.size + 4) 0 none
    if 0 < n then assign r target (.text (String.ofList cs))
    return .number (Float.ofNat n)
  | _ => return .number 0

/-- Split a text into an array. -/
def splitInto (r : Runner) (args : List Expr) : Does Value := do
  match args with
  | text :: .name a :: rest =>
    let text ← textOf (← r.value text)
    let parts ←
      match rest.head? with
      | none => do pure (fieldsOf (← specialText "FS") text)
      | some (.pattern source) =>
        match patternOf source with
        | .ok p =>
          let s := Subject.ofText text
          pure (if text = "" then [] else splitBy s p (s.size + 1) 0 0)
        | .error _ => pure [text]
      | some e => do pure (fieldsOf (← textOf (← r.value e)) text)
    let k ← arrayOf a
    modify fun s => { s with arrays := s.arrays.setIfInBounds k {} }
    parts.zipIdx.forM fun (part, i) => setElement k (toString (i + 1)) (readValue part)
    return .number (Float.ofNat parts.length)
  | _ => return .number 0

/-- What a format makes of the values behind it. -/
def formattedText (vs : List Value) : Does String := do
  match vs with
  | [] => return ""
  | f :: vs =>
    let format ← textOf f
    let conversion ← specialText "CONVFMT"
    let made :=
      formatted (Value.string conversion) Value.number' (format.length + 1) 1 [] format.toList
      vs
    match made with
    | .text s => return s
    | .tooFew before =>
      act (Act.hold before)
      runtimeError ("not enough arguments passed to printf(\"" ++ format ++ "\")")
    | .improper n =>
      runtimeError
        ("improper conversion(number " ++ toString n ++ ") in printf(\"" ++ format ++ "\")")

/-- The next number of a row that looks random. -/
def random : Does Float := do
  let s ← get
  let next := (s.seed * 6364136223846793005 + 1442695040888963407) % Nat.pow 2 64
  set { s with seed := next }
  return Float.ofNat (next / 2048) / Float.ofNat (Nat.pow 2 53)

/-- The function of numbers of a name. -/
def numeric? : String → Option (Float → Float)
  | "sin" => some Float.sin
  | "cos" => some Float.cos
  | "exp" => some Float.exp
  | "log" => some Float.log
  | "sqrt" => some Float.sqrt
  | "int" => some fun x =>
    match (partsOf x).2 with
    | .finite _ => ofInt (integerPart x)
    | _ => x
  | _ => none

/-- The value of a function that comes with the language. -/
def builtin (spawn : Spawn) (r : Runner) (name : String) (args : List Expr) : Does Value := do
  let valueAt (i : Nat) : Does Value :=
    match args[i]? with
    | some e => r.value e
    | none => return .unset
  let textAt (i : Nat) : Does String := do textOf (← valueAt i)
  let numberAt (i : Nat) : Does Float := return (← valueAt i).number'
  match numeric? name with
  | some f => return .number (f (← numberAt 0))
  | none =>
    match name with
    | "length" =>
      match args with
      | [] => return .number (Float.ofNat (← get).record.length)
      | [.name a] =>
        match ← cell a with
        | .array k => return .number (Float.ofNat ((← get).arrays.getD k {}).size)
        | .value v => return .number (Float.ofNat (← textOf v).length)
      | _ => return .number (Float.ofNat (← textAt 0).length)
    | "substr" =>
      let text ← textAt 0
      let start ← numberAt 1
      if args.length < 3 then return .text (partOf text start none)
      return .text (partOf text start (some (← numberAt 2)))
    | "index" =>
      let text ← textAt 0
      let part ← textAt 1
      match Text.cut? part.toList text.toList with
      | some (before, _) => return .number (Float.ofNat (before.length + 1))
      | none => return .number 0
    | "split" => splitInto r args
    | "sub" => substituteIn r false args
    | "gsub" => substituteIn r true args
    | "match" =>
      let text ← textAt 0
      let p ← patternFor r ((args[1]?).getD (.text ""))
      let (start, size) : Float × Float :=
        match Regex.find? (Subject.ofText text) p with
        | some f => (Float.ofNat (f.start + 1), Float.ofNat (f.stop - f.start))
        | none => (0, -1)
      setSpecial "RSTART" (.number start)
      setSpecial "RLENGTH" (.number size)
      return .number start
    | "sprintf" =>
      let vs ← args.mapM r.value
      return .text (← formattedText vs)
    | "atan2" =>
      let y ← numberAt 0
      return .number (Float.atan2 y (← numberAt 1))
    | "tolower" => return .text (← textAt 0).toLower
    | "toupper" => return .text (← textAt 0).toUpper
    | "rand" => return .number (← random)
    | "srand" =>
      let old := (← get).seed
      let seed := (integerPart (← numberAt 0)).natAbs
      modify fun s => { s with seed }
      return .number (Float.ofNat old)
    | "system" =>
      let command ← textAt 0
      let (status, _) ← act (shellRun spawn command none false)
      return .number (Float.ofNat status)
    | "close" =>
      let name ← textAt 0
      let s ← get
      match s.piped.lookup name with
      | some text => return .number (Float.ofNat (← closePipe spawn name text))
      | none =>
        let known := s.sources.find? fun e => e.1 == "|" ++ name || e.1 == "<" ++ name
        set { s with
          sources := s.sources.filter fun e => e.1 != "|" ++ name && e.1 != "<" ++ name
          written := s.written.filter (· != name) }
        match known with
        | some e => return .number (Float.ofNat e.2.status)
        | none => return .number (if s.written.contains name then 0 else -1)
    | _ =>
      act Act.flush
      return .number 0

mutual

/-- Whether an expression uses a name as an array. -/
def usesArray (n : String) : Expr → Bool
  | .element a is => a == n || usesArrayAny n is
  | .contains is a => a == n || usesArrayAny n is
  | .builtin f args =>
    (f == "split" && match args with
      | _ :: .name a :: _ => a == n
      | _ => false) || usesArrayAny n args
  | .call _ args => usesArrayAny n args
  | .field e | .minus e | .plus e | .not e | .step _ _ e => usesArray n e
  | .assign _ a b | .and a b | .or a b | .found _ a b | .compare _ a b | .join a b
  | .reckon _ a b => usesArray n a || usesArray n b
  | .choice a b c => usesArray n a || usesArray n b || usesArray n c
  | .line t s =>
    (match t with
      | some e => usesArray n e
      | none => false) ||
    (match s with
      | some (_, e) => usesArray n e
      | none => false)
  | .group es => usesArrayAny n es
  | .number _ | .text _ | .pattern _ | .name _ => false

/-- Whether one of some expressions uses a name as an array. -/
def usesArrayAny (n : String) : List Expr → Bool
  | [] => false
  | e :: es => usesArray n e || usesArrayAny n es

end

/-- Whether where something is printed to uses a name as an array. -/
def Goal.usesArray (n : String) : Goal → Bool
  | .output => false
  | .file path _ => Awk.usesArray n path
  | .command text => Awk.usesArray n text

mutual

/-- Whether a statement uses a name as an array. -/
def Statement.usesArray (n : String) : Statement → Bool
  | .nothing | .leave | .skip | .next | .nextFile => false
  | .block ss => Statement.usesArrayAny n ss
  | .expr e => Awk.usesArray n e
  | .print es g | .format es g => Awk.usesArrayAny n es || g.usesArray n
  | .branch c a b => Awk.usesArray n c || a.usesArray n || b.usesArray n
  | .loop c b => Awk.usesArray n c || b.usesArray n
  | .loopBehind b c => b.usesArray n || Awk.usesArray n c
  | .count a c s b =>
    a.usesArray n || c.any (Awk.usesArray n) || s.usesArray n || b.usesArray n
  | .each _ a b => a == n || b.usesArray n
  | .exit e | .give e => e.any (Awk.usesArray n)
  | .remove a is => a == n || Awk.usesArrayAny n is

/-- Whether one of some statements uses a name as an array. -/
def Statement.usesArrayAny (n : String) : List Statement → Bool
  | [] => false
  | s :: ss => s.usesArray n || Statement.usesArrayAny n ss

end

/-- Call a function. Arrays are handed over as they are, and a name that holds nothing becomes an
    array if the function uses it as one. -/
def call (r : Runner) (name : String) (args : List Expr) : Does Value := do
  match (← get).functions.lookup name with
  | none => act (Act.fail 2 ("line 1: function " ++ name ++ " never defined"))
  | some f =>
    let pass (p : String × Option Expr) : Does (String × Cell) := do
      match p.2 with
      | none => return (p.1, .value .unset)
      | some (.name n) =>
        match ← cell n with
        | .array k => return (p.1, .array k)
        | .value .unset =>
          if f.body.usesArray p.1 then return (p.1, .array (← arrayOf n))
          else return (p.1, .value .unset)
        | c => return (p.1, c)
      | some e => return (p.1, .value (← r.value e))
    let given : List (Option Expr) := args.map some
    let padded := given ++ List.replicate (f.params.length - args.length) none
    let cells ← (f.params.zip padded).mapM pass
    modify fun s => { s with frames := Std.HashMap.ofList cells :: s.frames }
    let body : Does Value := do
      r.run f.body
      return .unset
    let v ← tryCatch body fun
      | .function v => return v
      | l => do
        modify fun s => { s with frames := s.frames.drop 1 }
        throw l
    modify fun s => { s with frames := s.frames.drop 1 }
    return v

/-- The value of an expression. -/
def valueBody (spawn : Spawn) (r : Runner) (e : Expr) : Does Value := do
  match e with
  | .number d => return .number (numberOf d)
  | .text s => return .text s
  | .pattern source => return truth (isFound (← patternFor r (.pattern source)) (← get).record)
  | .name n =>
    match ← cell n with
    | .value v => return v
    | .array _ => act (Act.fail 2 ("line 1: illegal reference to array " ++ n))
  | .field e => fieldAt (← fieldNumber (← r.value e))
  | .element a index =>
    let i ← indexText r index
    elementAt (← arrayOf a) i
  | .assign op target value =>
    let v ← r.value value
    let v ←
      match op with
      | none => pure v
      | some op => do pure (.number (reckoned op (← r.value target).number' v.number'))
    assign r target v
    return v
  | .choice c a b => if (← r.value c).holds then r.value a else r.value b
  | .and a b => if (← r.value a).holds then return truth (← r.value b).holds else return truth false
  | .or a b => if (← r.value a).holds then return truth true else return truth (← r.value b).holds
  | .contains index a =>
    let i ← indexText r index
    let k ← arrayOf a
    return truth (((← get).arrays.getD k {}).contains i)
  | .found negated text pattern =>
    let s ← textOf (← r.value text)
    let p ← patternFor r pattern
    return truth (isFound p s != negated)
  | .compare op a b =>
    let x ← r.value a
    let y ← r.value b
    return truth (compared (← specialText "CONVFMT") op x y)
  | .join a b =>
    let x ← textOf (← r.value a)
    return .text (x ++ (← textOf (← r.value b)))
  | .reckon op a b =>
    let x := (← r.value a).number'
    return .number (reckoned op x (← r.value b).number')
  | .minus a => return .number (-(← r.value a).number')
  | .plus a => return .number (← r.value a).number'
  | .not a => return truth (!(← r.value a).holds)
  | .step first up target =>
    let old := (← r.value target).number'
    let new := if up then old + 1 else old - 1
    assign r target (.number new)
    return .number (if first then new else old)
  | .call name args => call r name args
  | .builtin name args => builtin spawn r name args
  | .line target source => nextLine spawn r target source
  | .group [e] => r.value e
  | .group es => return .text (← indexText r es)

/-! ## 7. Statements -/

/-- The most rounds of a loop. -/
def roundLimit : Nat := 10000000

/-- Carry out the body of a loop once; whether the loop goes on is given. -/
def once (body : Does Unit) : Does Bool :=
  tryCatch
    (do
      body
      return true)
    fun
    | .loop => return false
    | .round => return true
    | l => throw l

/-- Carry out a loop: what is asked before every round, and what is done behind it. -/
def looping (before : Does Bool) (body behind : Does Unit) : Nat → Does Unit
  | 0 => act (throw (.killed 9))
  | n + 1 => do
    if ← before then
      if ← once body then
        behind
        looping before body behind n

/-- Print to where a statement says. -/
def printGoal (r : Runner) (g : Goal) (text : String) : Does Unit := do
  match g with
  | .output => printTo none none text
  | .file path appends => printTo (some (← textOf (← r.value path), appends)) none text
  | .command c => printTo none (some (← textOf (← r.value c))) text

/-- The text of a value that is printed. -/
def printedText (v : Value) : Does String := do
  match v with
  | .number x => return numberText (← specialText "OFMT") x
  | v => textOf v

/-- Carry out a statement. -/
def runBody (r : Runner) (s : Statement) : Does Unit := do
  let holds (e : Expr) : Does Bool := return (← r.value e).holds
  match s with
  | .nothing => return
  | .block ss => ss.forM r.run
  | .expr e =>
    let _ ← r.value e
  | .print es g =>
    let vs ← if es.isEmpty then do pure [Value.text (← get).record] else es.mapM r.value
    let texts ← vs.mapM printedText
    printGoal r g (Text.joined (← specialText "OFS") texts ++ (← specialText "ORS"))
  | .format es g =>
    let vs ← es.mapM r.value
    printGoal r g (← formattedText vs)
  | .branch c a b => if ← holds c then r.run a else r.run b
  | .loop c b => looping (holds c) (r.run b) (pure ()) roundLimit
  | .loopBehind b c =>
    if ← once (r.run b) then looping (holds c) (r.run b) (pure ()) roundLimit
  | .count first c step b =>
    r.run first
    let before : Does Bool := match c with
      | some c => holds c
      | none => return true
    looping before (r.run b) (r.run step) roundLimit
  | .each n a b =>
    let k ← arrayOf a
    let is := indices ((← get).arrays.getD k {})
    let rec rounds : List String → Does Unit
      | [] => return
      | i :: is => do
        setCell n (.value (.text i))
        if ← once (r.run b) then rounds is
    rounds is
  | .leave => throw .loop
  | .skip => throw .round
  | .next => throw .record
  | .nextFile => throw .file
  | .exit e =>
    match e with
    | some e =>
      let status := (integerPart (← r.value e).number') % 256
      modify fun s => { s with status := status.toNat }
    | none => pure ()
    throw .script
  | .give e =>
    match e with
    | some e => throw (.function (← r.value e))
    | none => throw (.function .unset)
  | .remove a index =>
    let k ← arrayOf a
    if index.isEmpty then modify fun s => { s with arrays := s.arrays.setIfInBounds k {} }
    else
      let i ← indexText r index
      modify fun s => { s with
        arrays := s.arrays.setIfInBounds k ((s.arrays.getD k {}).erase i) }

/-- What carries out parts that hold one another so deep at most. -/
def runner (spawn : Spawn) : Nat → Runner
  | 0 => { value := fun _ => act (throw (.killed 11)), run := fun _ => act (throw (.killed 11)) }
  | n + 1 =>
    { value := fun e => valueBody spawn (runner spawn n) e
      run := fun s => runBody (runner spawn n) s }

/-- How deep expressions, statements and calls may stand in one another. -/
def depthLimit : Nat := 20000

/-! ## 8. Scripts -/

/-- Whether a rule applies to the record. -/
def applies (r : Runner) (place : Nat) (t : Trigger) : Does Bool := do
  match t with
  | .start | .finish => return false
  | .always => return true
  | .whenever e => return (← r.value e).holds
  | .range first last =>
    let inside := (← get).within.contains place
    if !inside && !(← r.value first).holds then return false
    let stops := (← r.value last).holds
    modify fun s => { s with
      within := if stops then s.within.filter (· != place)
        else if inside then s.within else place :: s.within }
    return true

/-- Carry out the rules for every record. -/
def records (r : Runner) (rules : List (Nat × Trigger × Statement)) : Nat → Does Unit
  | 0 => return
  | n + 1 => do
    match ← nextRecord inputLimit with
    | none => return
    | some text =>
      setRecord text
      let all : Does Unit := rules.forM fun (place, t, s) => do
        if ← applies r place t then r.run s
      tryCatch all fun
        | .record => return
        | .file => modify fun s => { s with isOpen := false, rest := [] }
        | l => throw l
      records r rules n

/-- Carry out a script up to its end. -/
def runScript (r : Runner) (script : Script) : Does Unit := do
  let rules := script.rules.zipIdx.map fun (rule, i) => (i, rule.1, rule.2)
  let starts := script.rules.filterMap fun
    | (.start, s) => some s
    | _ => none
  let finishes := script.rules.filterMap fun
    | (.finish, s) => some s
    | _ => none
  let between := rules.filter fun
    | (_, .start, _) => false
    | (_, .finish, _) => false
    | _ => true
  let main : Does Unit := do
    starts.forM r.run
    if !between.isEmpty || !finishes.isEmpty then records r between roundLimit
  let ended ← tryCatch
    (do
      main
      return true)
    fun
    | .script => return !(starts.isEmpty && between.isEmpty)
    | _ => return true
  if ended then
    tryCatch (finishes.forM r.run) fun _ => return

/-! ## 9. The program -/

/-- The command line: the separator, the assignments, the files of scripts, and what follows. -/
structure Call where
  separator : Option String := none
  settings : List String := []
  files : List String := []
  operands : List String := []

/-- Understand the command line. -/
def readCall : List String → Call → Except String Call
  | [], c => .ok c
  | arg :: rest, c =>
    let value (name : String) (attached : List Char) (k : String → Call) : Except String Call :=
      match attached, rest with
      | [], v :: rest => readCall rest (k v)
      | [], [] => .error ("no argument for option: -" ++ name)
      | cs, rest => readCall rest (k (String.ofList cs))
    match arg.toList with
    | ['-', '-'] => .ok { c with operands := rest }
    | '-' :: 'F' :: cs => value "F" cs fun v => { c with separator := some v }
    | '-' :: 'v' :: cs => value "v" cs fun v => { c with settings := c.settings ++ [v] }
    | '-' :: 'f' :: cs => value "f" cs fun v => { c with files := c.files ++ [v] }
    | '-' :: 'W' :: cs => value "W" cs fun _ => c
    | '-' :: _ :: _ => .error ("not an option: " ++ arg)
    | _ => .ok { c with operands := arg :: rest }

/-- Work on records by a script. -/
def awk (spawn : Spawn) : Program := fun args => do
  match readCall args {} with
  | .error e => Act.fail 2 e
  | .ok c =>
    let file (path : String) : Act String := do
      match ← Act.readOperand (if path = "/dev/stdin" then "-" else path) with
      | .ok text => return text
      | .error r => Act.fail 2 ("cannot open " ++ path ++ " (" ++ r.text ++ ")")
    let (text, operands) ←
      if c.files.isEmpty then
        match c.operands with
        | [] => do
          Act.printError "Usage: mawk [Options] [Program] [file ...]\n"
          Act.quit 2
        | text :: operands => pure (text, operands)
      else do
        let texts ← c.files.mapM file
        pure (Text.joined "\n" texts, c.operands)
    match readScript text with
    | .error (line, e) => Act.fail 2 ("line " ++ toString line ++ ": " ++ e)
    | .ok script =>
      let name := (← get).name
      let environment := (← Act.process).environment
      let r := runner spawn depthLimit
      let body : Does Unit := do
        let settings : List (String × Value) :=
          [("FS", .text " "), ("OFS", .text " "), ("ORS", .text "\n"), ("RS", .text "\n"),
            ("NR", .number 0), ("FNR", .number 0), ("NF", .number 0), ("SUBSEP", .text "\x1c"),
            ("CONVFMT", .text "%.6g"), ("OFMT", .text "%.6g"), ("FILENAME", .text ""),
            ("RSTART", .number 0), ("RLENGTH", .number (-1)),
            ("ARGC", .number (Float.ofNat (operands.length + 1)))]
        settings.forM fun s => setSpecial s.1 s.2
        let argv ← arrayOf "ARGV"
        (name :: operands).zipIdx.forM fun (a, i) => setElement argv (toString i) (readValue a)
        let env ← arrayOf "ENVIRON"
        environment.forM fun e => setElement env e.1 (readValue e.2)
        match c.separator with
        | some s => setSpecial "FS" (.text (readEscapes s))
        | none => pure ()
        c.settings.forM fun s => do
          match assignmentOf? s with
          | some (n, v) => assignText n v
          | none => act (Act.fail 2 ("improper assignment: -v " ++ s))
        runScript r script
        let rec finish : Nat → Does Unit
          | 0 => return
          | n + 1 => do
            match (← get).piped with
            | [] => return
            | (command, text) :: _ =>
              let _ ← closePipe spawn command text
              finish n
        finish ((← get).piped.length + 1)
      let (_, s) ← (ExceptT.run body).run { functions := script.functions }
      return s.status

end Isolation.Programs.Awk
