import Clausal.CommandLine.Manual
import Clausal.CommandLine.Menu

/-!
# The program

Everything the program does between its arguments and its end: it reads the settings and the
arguments, runs the command, and writes the log. Warnings about the settings come before the log is
set up and are written without their source.
-/

namespace Clausal.CommandLine

/-- What the program has written when it ends, and the number with which it ends. -/
structure Outcome where
  stdout : String
  stderr : String
  result : Except Error Nat

/-- Events as they are written before the log is set up. -/
def bareLines (events : List Event) : String :=
  String.join (events.map fun e => e.message ++ "\n")

/-- The lines of the log from a level on. -/
def logLines (level : Level) (events : List Event) : String :=
  String.join ((events.filter fun e => level.weight ≤ e.level.weight).map fun e => e.render ++ "\n")

/-- Runs a command. -/
def Command.run {m : Type → Type} [Monad m] (fetch : Path → m Content) (input : String) :
    Command → m (Transcript Nat)
  | .check file values => do
    return withFormula file (← loadAt fetch file) exitError fun W => sayCheckWords W.toCnf values
  | .classify method file => do
    return withFormula file (← loadAt fetch file) exitError fun W => sayShape W.toCnf method
  | .solve file (some algorithm) => do
    return withFormula file (← loadAt fetch file) exitError fun W => saySolution W algorithm
  | .solve file none => do
    return withFormula file (← loadAt fetch file) exitError fun _ =>
      ⟨"", [], .error (.misfit (.kind .algorithm .list))⟩
  | .menu => Menu.run fetch input

/-- The level from which on the log is written, with a warning if the one asked for does not exist.
-/
def Invocation.level (inv : Invocation) : Except Error (List Event × Level) :=
  if inv.verbose then .ok ([], .debug)
  else match inv.levelName with
    | some name => .ok (Settings.levelOf name)
    | none => .error .noLevelName

/-- Runs the program on an environment, arguments and the text of its input. Files are read by
`fetch`. -/
def run {m : Type → Type} [Monad m] (environment : String → Option String)
    (fetch : Path → m Content) (args : List String) (input : String) : m Outcome := do
  let settings := Settings.ofEnvironment environment
  let (warnings, default) := settings.defaultAlgorithm
  match parseArguments settings default args with
  | .error (.help page) =>
    return ⟨page.help settings.levelName default, bareLines warnings, .ok exitOk⟩
  | .error (.misuse page e) =>
    return ⟨"", bareLines warnings ++ page.complaint e, .ok exitError⟩
  | .ok inv =>
    match inv.level with
    | .error e => return ⟨"", bareLines warnings, .error e⟩
    | .ok (warnings', level) =>
      let written := bareLines (warnings ++ warnings')
      match inv.command with
      | none => return ⟨Page.help settings.levelName default none, written, .ok exitOk⟩
      | some command => do
        let t ← command.run fetch input
        return ⟨t.output, written ++ logLines level t.events, t.result⟩

end Clausal.CommandLine
