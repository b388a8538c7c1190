import Isolation.Process
import Isolation.Shell.Run

/-!
# Launching commands

A launcher for toolchains that are scripts. The library asks for no particular `Launcher`, and what
it proves of a toolchain it proves of all of them, so that nothing depends on this one; it is what a
cross-check is run with where the `go` command is not at hand. It goes as far as such scripts do:
the shell, and the programs that they call.

Commands run on a file system that has the programs of `Isolation.Programs`. A command is looked for
in the directories of its own `PATH`, after it has gone to its own directory. Its input is empty,
and what it changes in the file system stays changed; a command that is refused changes nothing
(`launch_of_refused`), and none leaves the caller in another directory (`current_launch`).
-/

namespace Isolation.Shell

open Machine

/-- The environment that commands inherit. -/
def inherited : List (String × String) := [("HOME", "/root"), ("PATH", usualPath)]

/-- The environment of a command. -/
def environmentOf (c : Isolation.Command) : List (String × String) :=
  let own := c.env.toList.map fun p => (Text.octetsOf p.1, Text.octetsOf p.2)
  (inherited.filter fun p => (own.lookup p.1).isNone) ++ own

/-- Whether a text holds the character that ends texts. -/
def endsEarly (s : String) : Bool := s.toList.contains (Char.ofNat 0)

/-- Whether a command can be handed over at all. -/
def isWhole (c : Isolation.Command) : Bool :=
  !(endsEarly c.program || c.args.any endsEarly || c.directory.any endsEarly
    || c.env.toList.any fun p => endsEarly p.1 || endsEarly p.2)

/-- The bench of a command in a directory, with the openings for what it writes. -/
def benchOf (c : Isolation.Command) (v : Files.Volume) : Nat × Nat × Bench :=
  let world : World := { root := v.root }
  let (input, world) := world.addOpening { target := .device .null, reads := true }
  let ((out, outEnd), world) := world.addChannel
  let ((err, errEnd), world) := world.addChannel
  let process : Process :=
    { current := v.current
      descriptors := [(0, input), (1, outEnd), (2, errEnd)]
      environment := environmentOf c }
  (out, err, { world := { world with nextProcess := 4243 }, process })

/-- How a process that has ended is reported. -/
def ended (ending : Ending) (out err : String) : Ended :=
  { status := match ending with
      | .exited status => some (status % 256)
      | .killed _ => none
    out := Text.bytesOfOctets out
    err := Text.bytesOfOctets err }

/-- Run a command on a file system. -/
def launch (c : Isolation.Command) (v : Files.Volume) :
    Except Files.Refusal Ended × Files.Volume :=
  if !isWhole c then (.error (.stated "nul byte found in provided data"), v)
  else
    match c.directory.elim (.ok v) v.enter with
    | .error r => (.error r, v)
    | .ok there =>
      let (out, err, bench) := benchOf c there
      let name := Text.octetsOf c.program
      let args := c.args.map Text.octetsOf
      let path := (bench.process.environment.lookup "PATH").getD usualPath
      match firstImage there name args .notFound (candidates path name) with
      | .error (r, _) => (.error r, v)
      | .ok image =>
        let (ending, world) := perform (runner nestingLimit) image bench
        let (outText, world) := world.drain out
        let (errText, world) := world.drain err
        (.ok (ended ending outText errText), { v with root := world.root })

/-- A command is refused, and then nothing has happened; or it ends, and may have changed files. -/
theorem launch_cases (c : Isolation.Command) (v : Files.Volume) :
    (∃ r, launch c v = (.error r, v)) ∨ ∃ e root, launch c v = (.ok e, { v with root }) := by
  unfold launch
  split
  · exact Or.inl ⟨_, rfl⟩
  · cases c.directory.elim (.ok v) v.enter with
    | error r => exact Or.inl ⟨r, rfl⟩
    | ok there =>
      dsimp only
      split
      · exact Or.inl ⟨_, rfl⟩
      · exact Or.inr ⟨_, _, rfl⟩

/-- A command that cannot be started leaves the file system as it was. -/
theorem launch_of_refused {c : Isolation.Command} {v v' : Files.Volume} {r : Files.Refusal}
    (h : launch c v = (.error r, v')) : v' = v := by
  rcases launch_cases c v with ⟨_, hr⟩ | ⟨_, _, he⟩
  · exact (Prod.mk.inj (h.symm.trans hr)).2
  · cases h.symm.trans he

/-- A command changes the files, and not where its caller is. -/
theorem current_launch (c : Isolation.Command) (v : Files.Volume) :
    (launch c v).2.current = v.current := by
  rcases launch_cases c v with ⟨_, hr⟩ | ⟨_, _, he⟩
  · rw [hr]
  · rw [he]

/-- What runs commands with the programs of this library. -/
def launcher : Launcher (StateM Files.Volume) := launch

end Isolation.Shell
