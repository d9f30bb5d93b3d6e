import ScriptBundle.Workspace

/-! # Programs

A compiler may be a program of its own. Such a program is no part of this library: what it does is
given from outside, for every program at once, as `Programs`. All that is said here is what is known
of a run of one: how it ended, what it wrote, and the files it left.

* **`Ending`** — how a run ended;
* **`Finished`** — a run that came to its end;
* **`Programs`** — what starting a program leads to;
* **`Programs.LeaveFiles`** — says that no program changes a file. -/

namespace ScriptBundle

/-- **How a run ended.** -/
inductive Ending
  /-- By itself, with a status; zero is success. -/
  | exited (status : Nat)
  /-- By a signal, with or without an image of its memory left. -/
  | killed (signal : Nat) (isDumped : Bool)
deriving DecidableEq, Repr, Inhabited

/-- The names of the signals, from the first one on. -/
def Ending.signalNames : List String :=
  ["HUP", "INT", "QUIT", "ILL", "TRAP", "ABRT", "BUS", "FPE", "KILL", "USR1", "SEGV", "USR2", "PIPE",
    "ALRM", "TERM", "STKFLT", "CHLD", "CONT", "STOP", "TSTP", "TTIN", "TTOU", "URG", "XCPU", "XFSZ",
    "VTALRM", "PROF", "WINCH", "IO", "PWR", "SYS"]

/-- The wording of how a run ended. A signal without a name is told by its number. -/
def Ending.message : Ending → String
  | exited status => "exit status: " ++ toString status
  | killed signal isDumped =>
    let name :=
      match if signal = 0 then none else signalNames[signal - 1]? with
      | some name => " (SIG" ++ name ++ ")"
      | none => ""
    "signal: " ++ toString signal ++ name ++ if isDumped then " (core dumped)" else ""

/-- **A run that came to its end.** -/
structure Finished where
  /-- How it ended. -/
  ending : Ending
  /-- What it wrote to the channel of results. -/
  results : List UInt8
  /-- What it wrote to the channel of reports. -/
  reports : List UInt8
deriving DecidableEq, Repr, Inhabited

/-- **The programs a run can start**: what a program of some name does with some arguments over some
files, and the files behind it, or why it cannot be started. -/
abbrev Programs := Workspace → String → List String → Except AccessError (Finished × Workspace)

/-- **Programs that leave all files as they are.** -/
def Programs.LeaveFiles (programs : Programs) : Prop :=
  ∀ w name arguments finished after,
    programs w name arguments = .ok (finished, after) → after = w

end ScriptBundle
