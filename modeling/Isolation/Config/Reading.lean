import Isolation.Config
import Isolation.Failure
import Isolation.Toml.Document

/-!
# Reading configurations

How a configuration is written as a TOML document. Types are strict: no value is converted into one
of another type. Keys that mean nothing here are passed over. Where a record is expected (the
workspace, a module, a bound, a bundle, the toolchain), an array is a record too, its items being
the fields in order and the missing ones absent; and a moment is a table of one entry, `momentKey`.
-/

namespace Isolation.Config

open Toml (Value)

/-! ## 1. Values of a type -/

/-- The key of the one entry of a moment that is read as a table. -/
def momentKey : String := "$__toml_private_datetime"

/-- A text. -/
def text? : Value → Option String
  | .text s => some s
  | _ => none

/-- An integer. No text writes one that 64 bits do not hold. -/
def integer? : Value → Option Int64
  | .integer n => some (.ofInt n)
  | _ => none

/-- An integer that is not negative. -/
def natural? : Value → Option Nat
  | .integer n => if 0 ≤ n then some n.toNat else none
  | _ => none

/-- An array of values of a type. -/
def list? {α : Type} (item? : Value → Option α) : Value → Option (List α)
  | .array items => items.mapM item?
  | _ => none

/-- The entries of a table. -/
def entries? : Value → Option (List (String × Value))
  | .table es => some es
  | .moment written => some [(momentKey, .text written)]
  | _ => none

/-- A table of values of a type, by key. -/
def map? {α : Type} (value? : Value → Option α) (v : Value) : Option (NameMap α) := do
  let es ← entries? v
  es.foldlM (fun m e => (value? e.2).map (NameMap.put m e.1)) Register.empty

/-- The fields of a record whose fields have the given names, in order. -/
def fields? (names : List String) : Value → Option (List (String × Value))
  | .array items => some (names.zip items)
  | v => entries? v

/-- A field that may be absent. -/
def optional {α : Type} (fields : List (String × Value)) (name : String)
    (value? : Value → Option α) : Option (Option α) :=
  match fields.lookup name with
  | some v => (value? v).map some
  | none => some none

/-- A field with a default. -/
def withDefault {α : Type} (fields : List (String × Value)) (name : String)
    (value? : Value → Option α) (default : α) : Option α :=
  (optional fields name value?).map (·.getD default)

/-! ## 2. The records -/

/-- The workspace settings. -/
def workspace? (v : Value) : Option Workspace := do
  let fs ← fields? ["namespace", "include", "exclude"] v
  return {
    space := ← optional fs "namespace" text?
    included := ← withDefault fs "include" (list? text?) []
    excluded := ← withDefault fs "exclude" (list? text?) [] }

/-- A module declaration. -/
def declaration? (v : Value) : Option Declaration := do
  let fs ← fields? ["tier", "dependencies", "version", "resolution-key"] v
  return {
    tier := ← optional fs "tier" integer?
    dependencies := ← withDefault fs "dependencies" (list? text?) []
    version := ← optional fs "version" text?
    key := ← optional fs "resolution-key" text? }

/-- A bound. -/
def bound? (v : Value) : Option Bound := do
  let fs ← fields? ["max", "namespace", "expected"] v
  return {
    max := ← (← optional fs "max" natural?)
    space := ← optional fs "namespace" text?
    expected := (← optional fs "expected" (list? text?)).map Register.ofList }

/-- A bundle. -/
def bundle? (v : Value) : Option BundleDeclaration := do
  let fs ← fields? ["name", "members"] v
  return {
    name := ← optional fs "name" text?
    members := ← (← optional fs "members" (list? text?)) }

/-- The toolchain settings. -/
def toolchain? (v : Value) : Option ToolchainSettings := do
  let fs ← fields? ["program", "version", "env"] v
  let usual : ToolchainSettings := {}
  return {
    program := ← withDefault fs "program" text? usual.program
    version := ← withDefault fs "version" text? usual.version
    env := ← withDefault fs "env" (map? text?) usual.env }

/-- The configuration that a document holds. -/
def ofEntries? (fs : List (String × Value)) : Option Config := do
  return {
    workspace := ← withDefault fs "workspace" workspace? {}
    modules := ← withDefault fs "modules" (map? declaration?) Register.empty
    bounds := ← withDefault fs "bounds" (map? bound?) Register.empty
    bundles := ← withDefault fs "bundles" (list? bundle?) []
    toolchain := ← withDefault fs "oracle" toolchain? {} }

/-! ## 3. Texts and files -/

/-- The configuration that a text holds. -/
def parse (text : String) : Except Failure Config :=
  match (Toml.parse? text).bind ofEntries? with
  | some c => .ok c
  | none => .error (.config .malformed)

/-- The configuration in a file. -/
def load (v : Files.Volume) (path : String) : Except Failure Config :=
  match v.readText path with
  | .ok text => parse text
  | .error r => .error (.config (.unreadable path r))

/-- The nearest configuration from a directory upwards, with the directory that holds it. -/
def discover (v : Files.Volume) (start : String) : Except Failure (String × Config) :=
  match v.ancestorWith? configName start with
  | some dir => (load v (Files.Path.join dir configName)).map (dir, ·)
  | none => .error (.config (.nowhere start))

end Isolation.Config
