import Isolation.Programs.Moving
import Isolation.Programs.Permissions
import Isolation.Programs.Texts

/-!
# Listing directories

The program `ls`. Names come one on a line in the order of their bytes, unless options ask for
something else. Operands that are no directories come first.
-/

namespace Isolation.Programs.Listing

open Machine
open Files (Refusal Tree)

/-- A name with what it stands for. -/
abbrev Entry := String × Tree

/-- The size of a thing. -/
def sizeOf : Tree → Nat
  | .file bytes _ => bytes.size
  | .directory _ => 4096
  | .link target => target.utf8ByteSize
  | .program _ | .device _ => 0

/-- The blocks that a thing takes. -/
def blocksOf : Tree → Nat
  | .file bytes _ => (bytes.size + 4095) / 4096 * 4
  | .directory _ => 4
  | _ => 0

/-- The order in which entries come. -/
def arranged (p : Parsed) (es : List Entry) : List Entry :=
  let byName := es.mergeSort fun a b => a.1 ≤ b.1
  let sorted :=
    if p.has 'U' || p.has 'f' then es
    else if p.has 'S' || p.last? '\n' == some "size" then
      byName.mergeSort fun a b => sizeOf b.2 ≤ sizeOf a.2
    else byName
  if p.has 'r' then sorted.reverse else sorted

/-- The sign behind a name that tells its kind. -/
def kindMark (p : Parsed) : Tree → String
  | .directory _ => if p.has 'F' || p.has 'p' then "/" else ""
  | .file _ true | .program _ => if p.has 'F' then "*" else ""
  | .link _ => if p.has 'F' && !p.has 'l' then "@" else ""
  | _ => ""

/-- A name as it is written. -/
def written (p : Parsed) (name : String) : String :=
  let escape (sign : Char) (c : Char) : String :=
    if c == '\\' || c == sign then "\\" ++ String.singleton c
    else if Text.isPrintable c then String.singleton c
    else escapedText c
  if p.has 'Q' then "\"" ++ String.join (name.toList.map (escape '"')) ++ "\""
  else if p.has 'b' then String.join (name.toList.map (escape ' '))
  else if p.has 'q' then
    String.ofList (name.toList.map fun c => if Text.isPrintable c then c else '?')
  else name

/-- The line of an entry in a long listing. -/
def longLine (p : Parsed) (width : Nat) (e : Entry) : String :=
  let links := match e.2 with
    | .directory _ => "2"
    | _ => "1"
  let owner := (if p.has 'g' then "" else if p.has 'n' then "0 " else "root ") ++
    (if p.has 'o' || p.has 'G' then "" else if p.has 'n' then "0 " else "root ")
  let target := match e.2 with
    | .link t => " -> " ++ Text.octetsOf t
    | _ => ""
  let mode := Permissions.signs (Permissions.modeOf e.2)
  String.singleton (Permissions.kindSign e.2) ++ mode ++ " " ++ links ++ " " ++
    owner ++ Texts.atRight width (toString (sizeOf e.2)) ++ " Jan  1  1970 " ++ written p e.1 ++
    kindMark p e.2 ++ target

/-- Whether a listing is long. -/
def isLong (p : Parsed) : Bool := p.has 'l' || p.has 'n' || p.has 'g' || p.has 'o'

/-- Entries as they are written. -/
def listed (p : Parsed) (es : List Entry) : String :=
  let sizes := es.map fun e => (toString (sizeOf e.2)).length
  let width := sizes.foldl max 1
  let blocks := (es.map fun e => (toString (blocksOf e.2)).length).foldl max 1
  let lead (e : Entry) : String :=
    (if p.has 'i' then "1 " else "") ++
      (if p.has 's' then Texts.atRight blocks (toString (blocksOf e.2)) ++ " " else "")
  let row (e : Entry) : String :=
    lead e ++ if isLong p then longLine p width e else written p e.1 ++ kindMark p e.2
  if es.isEmpty then ""
  else if isLong p then unlines (es.map row)
  else
    match p.lastOf? ['m', 'x', 'C', '1'] with
    | some 'm' => Text.joined ", " (es.map row) ++ "\n"
    | some 'x' | some 'C' => Text.joined "  " (es.map row) ++ "\n"
    | _ => unlines (es.map row)

/-- The entries of a directory that are shown. -/
def shownEntries (p : Parsed) (t : Tree) : List Entry :=
  match t with
  | .directory entries =>
    let named := entries.map fun e => (Text.octetsOf e.1, e.2)
    let dots := if p.has 'a' || p.has 'f' then [(".", t), ("..", t)] else []
    let kept := named.filter fun e =>
      p.has 'a' || p.has 'A' || p.has 'f' || !Text.startsWith e.1 "."
    arranged p (dots ++ kept)
  | _ => []

/-- The listing of a directory, without its heading. -/
def body (p : Parsed) (t : Tree) : String :=
  let es := shownEntries p t
  let total := (es.map fun e => blocksOf e.2).foldl (· + ·) 0
  (if isLong p || p.has 's' then "total " ++ toString total ++ "\n" else "") ++ listed p es

/-- The listings of directories inside a directory, with their headings, up to some depth. -/
def nested (p : Parsed) : Nat → String → Tree → String
  | 0, _, _ => ""
  | n + 1, path, t =>
    let inner := (shownEntries p t).filter fun e =>
      Permissions.kindSign e.2 == 'd' && e.1 != "." && e.1 != ".."
    String.join (inner.map fun e =>
      let there := Moving.below path e.1
      "\n" ++ there ++ ":\n" ++ body p e.2 ++ nested p n there e.2)

/-- List directories. -/
def ls : Program := fun args => do
  let short := letters "1aAbBcCdDfFgGhHiI:klLmnNopqQrRsStT:uUvw:xXZ".toList ++
    [('\t', .attached), ('\n', .value)]
  let g : Grammar :=
    { short
      long := [("all", 'a'), ("almost-all", 'A'), ("escape", 'b'), ("directory", 'd'),
        ("classify", 'F'), ("human-readable", 'h'), ("inode", 'i'), ("dereference", 'L'),
        ("numeric-uid-gid", 'n'), ("quote-name", 'Q'), ("reverse", 'r'), ("recursive", 'R'),
        ("size", 's'), ("color", '\t'), ("sort", '\n'), ("literal", 'N')] }
  let p ← options g args 2
  let operands := if p.operands.isEmpty then ["."] else p.operands
  let followed := !(p.has 'd' || isLong p || p.has 'F') || p.has 'L' || p.has 'H'
  let look (path : String) : Act (Option Entry) := do
    let found ← Act.find? path followed
    let found ←
      match found with
      | .ok t => pure (.ok t)
      | .error r => if followed then Act.find? path false else pure (.error r)
    match found with
    | .ok t => return some (path, t)
    | .error r =>
      Act.complain ("cannot access " ++ quoted path ++ ": " ++ r.text)
      return none
  let found ← operands.mapM look
  let entries := arranged p (found.filterMap id)
  let isListed (e : Entry) : Bool := Permissions.kindSign e.2 == 'd' && !p.has 'd'
  let files := entries.filter fun e => !isListed e
  let directories := entries.filter isListed
  Act.print (listed p files)
  let headed := 1 < operands.length || p.has 'R'
  let texts := directories.map fun e =>
    (if headed then e.1 ++ ":\n" else "") ++ body p e.2 ++
      (if p.has 'R' then nested p 100 e.1 e.2 else "")
  let gap := if files.isEmpty || texts.isEmpty then "" else "\n"
  Act.print (gap ++ Text.joined "\n" texts)
  return if found.any Option.isNone then 2 else 0

end Isolation.Programs.Listing
