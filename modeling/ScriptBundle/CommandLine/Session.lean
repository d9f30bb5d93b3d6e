import ScriptBundle.CommandLine.Sink
import ScriptBundle.Settings.Layers

/-! # Sessions

What a run of the command line is given beside its arguments and the files, and what it leaves. What
is not made by the library comes from the session: the programs that can be started, the variables,
the user's folder for configurations, the texts of the reader of arguments, and the time.

Results go to a channel. As a rule that is no file; but it may have been opened as one of the files of
the run, and then what is written there can be seen.

* **`Session`** — what a run is given;
* **`Destination`** — where an artifact goes, and `Destination.deliver`, what is then in the files;
* **`LogLine`** — a line for the log;
* **`Outcome`** — what a run leaves. -/

namespace ScriptBundle

/-! ## Destinations -/

/-- **Where an artifact goes.** -/
inductive Destination
  /-- To something that is none of the files. -/
  | channel
  /-- Into one of the files, from a position in it on. -/
  | file (place : Place) (position : Nat)
deriving DecidableEq, Repr, Inhabited

/-- **The files when more has reached a destination**, given what had reached it before and what has
reached it by now. -/
def Destination.deliver (destination : Destination) (before now : List UInt8) (w : Workspace) :
    Workspace :=
  match destination with
  | channel => w
  | file place position =>
    let piece := now.drop before.length
    { w with tree := w.tree.overwrite place (position + before.length) piece }

/-! ## Sessions -/

/-- **What a run of the command line is given** beside its `arguments` and the files. -/
structure Session where
  /-- The programs that can be started. -/
  programs : Programs
  /-- The variables. -/
  environment : Environment
  /-- The user's folder for configurations, if there is one. -/
  configurations? : Option Path
  /-- Where results go. -/
  results : Destination
  /-- The text about the use of the program. -/
  help : String
  /-- What is said about arguments that cannot be used. -/
  complaint : List String → String
  /-- The time the run has taken in the end, in words. -/
  elapsed : String

/-! ## Outcomes -/

/-- **How much a line for the log matters.** -/
inductive LogLevel
  /-- A warning. -/
  | warn
  /-- News of the run. -/
  | info
deriving DecidableEq, Repr

/-- **A line for the log.** -/
structure LogLine where
  /-- How much it matters. -/
  level : LogLevel
  /-- Where it comes from. -/
  source : String
  /-- What it says. -/
  text : String
deriving DecidableEq, Repr

/-- **What a run of the command line leaves.** -/
structure Outcome where
  /-- The status. -/
  status : Nat
  /-- What was written to the channel of results. -/
  results : List UInt8
  /-- The warnings and the news, in the order they were given. The log decides which of them it shows;
  what a developer asks for by more verbosity is left out. -/
  log : List LogLine
  /-- What is said last in the channel of reports, if anything. -/
  complaint : Option String
  /-- The files as they are then. -/
  files : Workspace
deriving Repr, Inhabited

end ScriptBundle
