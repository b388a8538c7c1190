import Isolation.Text.Fields

/-!
# `go.mod` documents

What the library needs of a `go.mod` document: the path of its module and its `require` entries, in
order. The document is read line by line. On a line everything from the first `//` on is a comment,
and what is left is trimmed; an empty rest says nothing. A line whose first word is followed by `(`
alone opens a block, except that a `module` line never does, and a line `)` closes one. Inside a
`require` block every other line is an entry; inside the block of another directive nothing is.

* `Statement.ofLine` is the meaning of one line, given the block it stands in;
* `GoMod.parse` gathers the statements of a document;
* `GoMod.render` writes a document that requires some paths at one version.

Other directives are skipped, whatever they say.
-/

namespace Isolation

/-- One `require` entry. -/
structure Requirement where
  path : String
  version : String
  /-- Its comment is the single word `indirect`. -/
  indirect : Bool
deriving DecidableEq, Repr

/-- What is read of a `go.mod` document. -/
structure GoMod where
  /-- The path of the module. -/
  modulePath : String
  requires : List Requirement
deriving DecidableEq, Repr

namespace GoMod

/-- What is wrong with a document. -/
inductive Defect where
  /-- The entry on a line, counted from 1, has fewer than two words. -/
  | malformedRequire (line : Nat) (entry : String)
  /-- No module path is given, or the last one is empty. -/
  | missingModule
deriving DecidableEq, Repr

/-- The wording of a defect. -/
def Defect.message : Defect → String
  | .malformedRequire line entry => s!"line {line}: malformed require entry '{entry}'"
  | .missingModule => "missing module directive"

/-! ## 1. Lines -/

/-- A line without its comment, and the comment's text, trimmed. -/
def splitComment (line : List Char) : List Char × Option (List Char) :=
  match Text.cut? ['/', '/'] line with
  | some (code, comment) => (code, some (Text.trim comment))
  | none => (line, none)

/-- A text without the double quotes at its two ends. -/
def unquote (cs : List Char) : List Char :=
  ((cs.dropWhile (· == '"')).reverse.dropWhile (· == '"')).reverse

/-- The first word of a trimmed line and what follows it, trimmed. -/
def splitDirective (line : List Char) : List Char × List Char :=
  (line.takeWhile (!Text.isBlank ·), Text.trim (line.dropWhile (!Text.isBlank ·)))

/-- The block that a line stands in. -/
inductive Block where
  | require
  | other
deriving DecidableEq, Repr

/-- What a line says. -/
inductive Statement where
  /-- Nothing. -/
  | silent
  /-- It opens a block. -/
  | opening (block : Block)
  /-- It closes the block. -/
  | closing
  /-- It names the module. -/
  | modulePath (path : List Char)
  /-- It is a `require` entry, with its comment. -/
  | entry (spec : List Char) (comment : Option (List Char))
deriving DecidableEq, Repr

/-- What a line says in a block, or outside all blocks. -/
def Statement.ofLine (block : Option Block) (line : List Char) : Statement :=
  let (code, comment) := splitComment line
  let code := Text.trim code
  if code.isEmpty then .silent
  else
    match block with
    | some b =>
      if code = [')'] then .closing
      else if b = .require then .entry code comment
      else .silent
    | none =>
      let (directive, rest) := splitDirective code
      if directive = "module".toList then .modulePath (unquote rest)
      else if directive = "require".toList then
        if rest = ['('] then .opening .require else .entry rest comment
      else if rest = ['('] then .opening .other
      else .silent

/-- The requirement that an entry states; it needs a path and a version, and more is ignored. -/
def requirement? (spec : List Char) (comment : Option (List Char)) : Option Requirement :=
  match Text.words spec with
  | path :: version :: _ => some
    { path := String.ofList (unquote path)
      version := String.ofList version
      indirect := comment == some "indirect".toList }
  | _ => none

/-! ## 2. Documents -/

/-- What has been read so far. -/
structure Reading where
  /-- The block that the next line stands in. -/
  block : Option Block := none
  /-- The path on the last module line. -/
  modulePath : Option (List Char) := none
  requires : List Requirement := []

/-- The reading after one more line, whose number is given. -/
def Reading.line (r : Reading) (number : Nat) (line : List Char) : Except Defect Reading :=
  match Statement.ofLine r.block line with
  | .silent => .ok r
  | .opening b => .ok { r with block := some b }
  | .closing => .ok { r with block := none }
  | .modulePath path => .ok { r with modulePath := some path }
  | .entry spec comment =>
    match requirement? spec comment with
    | some req => .ok { r with requires := r.requires ++ [req] }
    | none => .error (.malformedRequire number (String.ofList spec))

/-- The reading after some more lines, the first of which has the given number. -/
def Reading.lines (r : Reading) (number : Nat) : List (List Char) → Except Defect Reading
  | [] => .ok r
  | l :: ls =>
    match r.line number l with
    | .ok r => r.lines (number + 1) ls
    | .error d => .error d

/-- The document that a text holds. -/
def parse (text : String) : Except Defect GoMod := do
  let r ← Reading.lines {} 1 (Text.lines text.toList)
  match r.modulePath with
  | some (c :: cs) => return ⟨String.ofList (c :: cs), r.requires⟩
  | _ => .error .missingModule

/-! ## 3. Writing -/

/-- A document of module `name` that requires every path at one version: a single path on a line of
    its own, several in a block. -/
def render (name : String) (paths : List String) (version : String) : String :=
  s!"module {name}\n\ngo 1.24.0\n" ++
    match paths with
    | [] => ""
    | [path] => s!"\nrequire {path} {version}\n"
    | paths =>
      "\nrequire (\n" ++ String.join (paths.map fun path => s!"\t{path} {version}\n") ++ ")\n"

end GoMod

end Isolation
