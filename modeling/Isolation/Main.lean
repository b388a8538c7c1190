import Isolation.CommandLine.Run
import Isolation.Shell.Launch

/-!
# The program

Reads the part of the file system that a run looks at, hands it over with the arguments, and prints
what comes back. Nothing is decided here. What runs the toolchain is left open, as it is in the rest
of the library (`runWith`); `main` takes the launcher of `Isolation.Shell`, so its toolchain has to
be a script. A file counts as executable when it begins with the mark of a script.
-/

namespace Isolation

/-- Whether the bytes of a file begin with the mark of a script. -/
def isScript (bytes : ByteArray) : Bool := (bytes.toList.take 2) == "#!".toUTF8.toList

/-- A directory entry as a tree. Hidden directories are left out. -/
partial def readEntry (e : IO.FS.DirEntry) : IO (Option (String × Files.Tree)) := do
  let info ← e.path.symlinkMetadata
  match info.type with
  | .file =>
    let bytes ← IO.FS.readBinFile e.path
    return some (e.fileName, .file bytes (isScript bytes))
  | .symlink =>
    try
      let target ← IO.FS.realPath e.path
      return some (e.fileName, .link target.toString)
    catch _ => return some (e.fileName, .link e.fileName)
  | .dir =>
    if Text.startsWith e.fileName "." then return none
    else
      let entries ← e.path.readDir
      let read ← entries.toList.filterMapM readEntry
      return some (e.fileName, .directory read)
  | .other => return none

/-- The file system with what lies in a directory. -/
def withDirectory (root : Files.Tree) (path : String) : IO Files.Tree := do
  let here ← IO.currentDir
  let entries ← (here / path).readDir
  let read ← entries.toList.filterMapM readEntry
  let absolute := Files.Path.join here.toString path
  let names := (Files.Volume.steps absolute).filter (· != "")
  return Files.Tree.put (.directory read) names root

/-- The directories of a path, from the inmost outwards. -/
def outwards (path : String) : List String :=
  let names := (Files.Volume.steps path).filter (· != "")
  (List.range (names.length + 1)).reverse.map fun k => "/" ++ Files.slashed (names.take k)

/-- The directory that a run looks at: that of the named configuration, or the nearest that holds
    one. -/
def lookedAt (config : Option String) (here : String) : IO (Option String) :=
  match config with
  | some path => return Files.Path.parent? (Files.Path.join here path)
  | none =>
    (outwards here).findM? fun dir => do
      try
        let _ ← IO.FS.readBinFile (Files.Path.join dir configName)
        return true
      catch _ => return false

/-- The part of the file system that an invocation looks at, seen from the current directory, beside
    what a system has anyway. -/
def volumeFor (system : Files.Tree) (i : CommandLine.Invocation) : IO Files.Volume := do
  let here := (← IO.currentDir).toString
  let names := (Files.Volume.steps here).filter (· != "")
  let empty := Files.Tree.put (.directory []) names system
  match ← lookedAt i.config here with
  | none => return ⟨empty, names⟩
  | some dir =>
    try return ⟨← withDirectory empty dir, names⟩
    catch _ => return ⟨empty, names⟩

/-- What is printed for a command line that asks for no run. -/
def usageText (u : CommandLine.Usage) : String :=
  if u = .version then CommandLine.versionText
  else
    "Usage: modguard [OPTIONS] <COMMAND>\n\n" ++
      "Commands: verify, list, tree, crosscheck, help\n" ++
      "Options: -c, --config <CONFIG>; -v, --verbose; -h, --help; -V, --version"

/-- Run a command line on a system, with what runs commands there. -/
def runWith (launch : Launcher (StateM Files.Volume)) (system : Files.Tree) (args : List String) :
    IO UInt32 := do
  match CommandLine.Invocation.ofArguments (← IO.getEnv "MODGUARD_CONFIG") args with
  | .error u =>
    if u.exitCode = 0 then IO.println (usageText u) else IO.eprintln (usageText u)
    return UInt32.ofNat u.exitCode
  | .ok i =>
    let (f, _) := (i.run launch).run (← volumeFor system i)
    IO.print f.printed.out
    IO.eprint f.printed.err
    match f.failure with
    | some failure => IO.eprintln ("Error: " ++ failure.message)
    | none => pure ()
    return UInt32.ofNat f.exitCode

end Isolation

open Isolation in
/-- Run a command line, with scripts for a toolchain. -/
def main (args : List String) : IO UInt32 :=
  runWith Shell.launcher (Programs.equip (.directory [])) args
