import Isolation.Programs.Awk.Run
import Isolation.Programs.Columns
import Isolation.Programs.Condition
import Isolation.Programs.Editor.Run
import Isolation.Programs.Ends
import Isolation.Programs.Listing
import Isolation.Programs.Numbers
import Isolation.Programs.Search
import Isolation.Programs.Sorting
import Isolation.Programs.Starters
import Isolation.Programs.Translation

/-!
# The catalogue of programs

The programs that come with a system, by their names. Every program is given what starts others.
-/

namespace Isolation.Programs

open Machine

/-- The programs that start no others. -/
def plainPrograms : List (String × Program) :=
  [("true", fun _ => return 0), ("false", fun _ => return 1),
    ("echo", Printf.echo), ("printf", Printf.printf),
    ("test", Condition.test false), ("[", Condition.test true),
    ("cat", Texts.cat), ("tee", Texts.tee), ("wc", Texts.wc),
    ("head", Ends.head), ("tail", Ends.tail), ("cut", Columns.cut), ("tr", Translation.tr),
    ("sort", Sorting.sort), ("uniq", Sorting.uniq),
    ("grep", Search.grep), ("egrep", Search.grepAs "-E"), ("fgrep", Search.grepAs "-F"),
    ("expr", Numbers.expr), ("seq", Numbers.seq),
    ("basename", Paths.basename), ("dirname", Paths.dirname), ("pwd", Paths.pwd),
    ("mkdir", Moving.mkdir), ("rm", Moving.rm), ("touch", Moving.touch), ("cp", Moving.cp),
    ("mv", Moving.mv), ("ls", Listing.ls), ("sleep", Starters.sleep)]

/-- The programs that start others. -/
def startingPrograms : List (String × (Spawn → Program)) :=
  [("env", Starters.env), ("sed", Editor.sed), ("awk", Awk.awk)]

/-- The program of a name. -/
def program? (name : String) : Option (Spawn → Program) :=
  match startingPrograms.lookup name with
  | some p => some p
  | none => (plainPrograms.lookup name).map fun p _ => p

/-- The names under which programs are found. -/
def names : List String := plainPrograms.map Prod.fst ++ startingPrograms.map Prod.fst

/-- The directory of programs. -/
def directory : Files.Tree :=
  .directory (names.map (fun n => (n, .program n)) ++
    [("dash", .program "sh"), ("bash", .program "sh"), ("sh", .link "dash")])

/-- A file system with the programs and devices of a system. -/
def equip (root : Files.Tree) : Files.Tree :=
  let devices : Files.Tree := .directory
    [("null", .device .null), ("zero", .device .zero), ("full", .device .full),
      ("stdin", .device (.descriptor 0)), ("stdout", .device (.descriptor 1)),
      ("stderr", .device (.descriptor 2)),
      ("fd", .directory ((List.range 10).map fun n => (toString n, .device (.descriptor n))))]
  let empty : List (List String) :=
    [["boot"], ["etc"], ["home"], ["media"], ["mnt"], ["opt"], ["proc"], ["root"], ["run"], ["srv"],
      ["sys"], ["tmp"], ["usr", "lib"], ["usr", "local", "bin"], ["usr", "sbin"], ["usr", "share"],
      ["var", "tmp"]]
  let make (t : Files.Tree) (place : List String) : Files.Tree :=
    if (t.at? place).isSome then t else Files.Tree.put (.directory []) place t
  let root := empty.foldl make root
  let root := Files.Tree.put directory ["usr", "bin"] root
  let root := Files.Tree.put devices ["dev"] root
  let root := Files.Tree.put (.link "usr/bin") ["bin"] root
  let root := Files.Tree.put (.link "usr/sbin") ["sbin"] root
  Files.Tree.put (.link "usr/lib") ["lib"] root

end Isolation.Programs
