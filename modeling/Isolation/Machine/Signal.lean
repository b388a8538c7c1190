/-!
# Signals

The signals by their numbers, with their names and with the words for a process that was killed by
one. Number 0 stands for the end of a process.
-/

namespace Isolation.Machine.Signal

/-- The names of the signals, by their numbers. -/
def names : List String :=
  ["EXIT", "HUP", "INT", "QUIT", "ILL", "TRAP", "ABRT", "BUS", "FPE", "KILL", "USR1", "SEGV",
    "USR2", "PIPE", "ALRM", "TERM", "16", "CHLD", "CONT", "STOP", "TSTP", "TTIN", "TTOU", "URG",
    "XCPU", "XFSZ", "VTALRM", "PROF", "WINCH", "IO", "PWR", "SYS", "32", "33", "RTMIN"] ++
    (List.range 15).map (fun n => "RTMIN+" ++ toString (n + 1)) ++
    ((List.range 14).reverse.map fun n => "RTMAX-" ++ toString (n + 1)) ++ ["RTMAX"]

/-- The words for a process that was killed by a signal. -/
def words : List String :=
  ["", "Hangup", "Interrupt", "Quit", "Illegal instruction", "Trace/breakpoint trap", "Aborted",
    "Bus error", "Floating point exception", "Killed", "User defined signal 1",
    "Segmentation fault", "User defined signal 2", "Broken pipe", "Alarm clock", "Terminated",
    "Stack fault", "Child exited", "Continued", "Stopped (signal)", "Stopped",
    "Stopped (tty input)", "Stopped (tty output)", "Urgent I/O condition",
    "CPU time limit exceeded", "File size limit exceeded", "Virtual timer expired",
    "Profiling timer expired", "Window changed", "I/O possible", "Power failure",
    "Bad system call"]

/-- The name of a signal. -/
def name (n : Nat) : String := (names[n]?).getD (toString n)

/-- The words for a signal. -/
def description (n : Nat) : String :=
  (words[n]?).getD (if n < 34 then "Unknown signal " ++ toString n
    else "Real-time signal " ++ toString (n - 34))

/-- The number of a name, letters of either case being the same. -/
def number? (s : String) : Option Nat := names.findIdx? fun n => n == s.toUpper

/-- The signal that cannot be withstood. -/
def kill : Nat := 9

/-- The signal for a process whose output is not read. -/
def pipe : Nat := 13

/-- The signals that do nothing to a process that is not prepared for them. -/
def harmless : List Nat := [17, 18, 19, 20, 21, 22, 23, 28]

end Isolation.Machine.Signal
