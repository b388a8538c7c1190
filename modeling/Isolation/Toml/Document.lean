import Isolation.Toml.Scalar

/-!
# TOML documents

From the text of a document to its table. A document is a row of lines: headers, which open a table
or a further element of an array of tables, and key-value pairs, which belong to the table opened
last. Values nest, and what a table may be extended by depends on how it came about (`Origin`):

* a table that only headers below it mention may still be opened, once;
* a table that came about through a dotted key may be extended by dotted keys only;
* a table that was opened or written in braces is extended by its own lines only.

A key is given at most one value. `Document.parse?` is total, and refuses what breaks a rule without
saying which.
-/

namespace Isolation.Toml

/-! ## 1. Tables under construction -/

/-- How a table came about. -/
inductive Origin where
  /-- By a header of its own. -/
  | opened
  /-- By a header of a table below it. -/
  | implied
  /-- By a dotted key. -/
  | dotted
deriving DecidableEq, Repr

/-- What a key stands for while a document is read. -/
inductive Node where
  | value (v : Value)
  | table (origin : Origin) (entries : List (String × Node))
  /-- An array of tables, one for each of its headers. -/
  | tables (items : List (List (String × Node)))

/-- The entries of a table. -/
abbrev Entries := List (String × Node)

/-- The entries with the value of a key replaced. -/
def replace (k : String) (n : Node) : Entries → Entries
  | [] => []
  | (k', n') :: r => if k' = k then (k, n) :: r else (k', n') :: replace k n r

/-- Change the table at the end of a header's path. Tables that are missing on the way are implied,
    and of an array of tables the last element is meant. -/
def within (change : Entries → Option Entries) : List String → Entries → Option Entries
  | [], es => change es
  | k :: ks, es =>
    match es.lookup k with
    | none => (within change ks []).map fun sub => es ++ [(k, .table .implied sub)]
    | some (.table o sub) => (within change ks sub).map fun sub => replace k (.table o sub) es
    | some (.tables items) =>
      match items.getLast? with
      | none => none
      | some last =>
        (within change ks last).map fun sub => replace k (.tables (items.dropLast ++ [sub])) es
    | some (.value _) => none

/-- Open the table of a key: it is new, or was only implied so far. -/
def openTable (k : String) (es : Entries) : Option Entries :=
  match es.lookup k with
  | none => some (es ++ [(k, .table .opened [])])
  | some (.table .implied sub) => some (replace k (.table .opened sub) es)
  | some _ => none

/-- Add an element to the array of tables of a key. -/
def openElement (k : String) (es : Entries) : Option Entries :=
  match es.lookup k with
  | none => some (es ++ [(k, .tables [[]])])
  | some (.tables items) => some (replace k (.tables (items ++ [[]])) es)
  | some _ => none

/-- Give a key a value it does not have yet. -/
def assign (k : String) (v : Value) (es : Entries) : Option Entries :=
  if (es.lookup k).isSome then none else some (es ++ [(k, .value v)])

/-- Give a dotted key a value. The tables on its way are new, or neither opened nor written in
    braces, and the last of them came about through a dotted key. -/
def assignDotted (v : Value) (origin : Origin) : List String → Entries → Option Entries
  | [], _ => none
  | [k], es => if origin = .dotted then assign k v es else none
  | k :: ks, es =>
    match es.lookup k with
    | none => (assignDotted v .dotted ks []).map fun sub => es ++ [(k, .table .dotted sub)]
    | some (.table o sub) =>
      if o = .opened then none
      else (assignDotted v o ks sub).map fun sub => replace k (.table o sub) es
    | some (.tables items) =>
      match items.getLast? with
      | none => none
      | some last =>
        (assignDotted v .opened ks last).map fun sub =>
          replace k (.tables (items.dropLast ++ [sub])) es
    | some (.value _) => none

/-- Give a key, dotted or not, a value. -/
def assignPath (v : Value) : List String → Entries → Option Entries
  | [k], es => assign k v es
  | path, es => assignDotted v .opened path es

mutual

/-- The value of a node, once the document is read. -/
def Node.toValue : Node → Value
  | .value v => v
  | .table _ es => .table (entryValues es)
  | .tables items => .array (tableValues items)

/-- The values of a table's entries. -/
def entryValues : List (String × Node) → List (String × Value)
  | [] => []
  | (k, n) :: r => (k, n.toValue) :: entryValues r

/-- The values of an array of tables. -/
def tableValues : List (List (String × Node)) → List Value
  | [] => []
  | es :: r => .table (entryValues es) :: tableValues r

end

/-! ## 2. Values -/

/-- The items of an array up to its closing bracket, commas between them and layout around them.
    Each takes at least one character, so the length of the text bounds their number. -/
def arrayItems (item : Reader Value) : Nat → Reader (List Value)
  | 0, _ => none
  | n + 1, cs =>
    match skipLayout false cs with
    | some (']' :: r) => some ([], r)
    | some cs =>
      (item cs).bind fun p =>
        match skipLayout false p.2 with
        | some (',' :: r) => (arrayItems item n r).map fun q => (p.1 :: q.1, q.2)
        | some (']' :: r) => some ([p.1], r)
        | _ => none
    | none => none

/-- A key-value pair, up to the end of the value. -/
def keyValue (item : Reader Value) : Reader (List String × Value) := fun cs => do
  let (path, r) ← keyPath cs
  let (_, r) ← char '=' r
  let (v, r) ← item (skipSpaces r)
  return ((path, v), r)

/-- The pairs of a table in braces from the first on, commas between them. -/
def inlinePairs (item : Reader Value) : Nat → Entries → Reader Entries
  | 0, _, _ => none
  | n + 1, es, cs =>
    (keyValue item cs).bind fun p =>
      (assignPath p.1.2 p.1.1 es).bind fun es =>
        match skipSpaces p.2 with
        | ',' :: r => inlinePairs item n es r
        | '\x7d' :: r => some (es, r)
        | _ => none

/-- A table in braces behind its opening brace. -/
def inlineTable (item : Reader Value) (cs : List Char) : Option (Value × List Char) :=
  match skipSpaces cs with
  | '\x7d' :: r => some (.table [], r)
  | cs => (inlinePairs item cs.length [] cs).map fun p => (.table (entryValues p.1), p.2)

/-- A value that nests at most so many arrays and tables in braces. -/
def value : Nat → Reader Value
  | depth, cs =>
    match cs, depth with
    | '"' :: _, _ | '\'' :: _, _ => (string cs).map fun p => (.text (String.ofList p.1), p.2)
    | '[' :: r, depth + 1 =>
      (arrayItems (value depth) (r.length + 1) r).map fun p => (.array p.1, p.2)
    | '\x7b' :: r, depth + 1 => inlineTable (value depth) r
    | '[' :: _, 0 | '\x7b' :: _, 0 => none
    | _, _ => scalar cs

/-! ## 3. Lines -/

/-- What has been read of a document: its table, and the path of the table opened last. -/
structure Reading where
  entries : Entries := []
  path : List String := []

/-- A header up to its closing brackets: the path and what follows it. -/
def header (close : List Char) (cs : List Char) : Option (List String × List Char) :=
  (keyPath cs).bind fun p =>
    if close.isPrefixOf p.2 then some (p.1, p.2.drop close.length) else none

/-- The reading with something opened at the last key of a path. -/
def Reading.opening (r : Reading) (change : String → Entries → Option Entries)
    (path : List String) : Option Reading :=
  match path.getLast? with
  | none => none
  | some k => (within (change k) path.dropLast r.entries).map fun es => ⟨es, path⟩

/-- The reading after one line with something on it, and what follows the line. -/
def Reading.line (r : Reading) (cs : List Char) : Option (Reading × List Char) :=
  match cs with
  | '[' :: '[' :: rest => do
    let (path, rest) ← header [']', ']'] rest
    return (← r.opening openElement path, ← restOfLine? rest)
  | '[' :: rest => do
    let (path, rest) ← header [']'] rest
    return (← r.opening openTable path, ← restOfLine? rest)
  | _ => do
    let ((path, v), rest) ← keyValue (value nestingLimit) cs
    let es ← within (assignPath v path) r.path r.entries
    return ({ r with entries := es }, ← restOfLine? rest)

/-- The reading after the rest of a document, which has at most so many lines. -/
def Reading.lines (r : Reading) : Nat → List Char → Option Reading
  | 0, _ => none
  | n + 1, cs =>
    match skipLayout false cs with
    | none => none
    | some [] => some r
    | some cs => (r.line cs).bind fun p => p.1.lines n p.2

/-- A text without the byte order mark at its front. -/
def dropMark : List Char → List Char
  | c :: r => if c.toNat = 0xFEFF then r else c :: r
  | [] => []

/-- The table that a document holds. -/
def parse? (text : String) : Option (List (String × Value)) :=
  let cs := dropMark text.toList
  (Reading.lines {} (cs.length + 1) cs).map fun r => entryValues r.entries

end Isolation.Toml
