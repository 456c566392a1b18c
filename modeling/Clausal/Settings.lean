import Clausal.Event
import Clausal.Text.Blank
import Clausal.Text.Upper

/-!
# Settings

The defaults of the command line, which the environment can override, and the words that stand for
the value true. A setting that does not exist is reported and replaced.
-/

namespace Clausal

/-- The defaults of the command line. -/
structure Settings where
  /-- The name of the least important level to show, in upper case. -/
  levelName : String
  algorithmName : String
  deriving DecidableEq, Repr

namespace Settings

/-- The settings of an environment. -/
def ofEnvironment (lookup : String → Option String) : Settings where
  levelName := Text.upper ((lookup "CNFSAT_LOG_LEVEL").getD "WARNING")
  algorithmName := (lookup "CNFSAT_DEFAULT_ALGORITHM").getD "auto"

/-- The algorithm to use when none is asked for. -/
def defaultAlgorithm (s : Settings) : List Event × Algorithm :=
  match Algorithm.ofName? s.algorithmName with
  | some a => ([], a)
  | none => ([.unrecognizedAlgorithm s.algorithmName], .auto)

/-- The level with a given name, in any case. -/
def levelOf (name : String) : List Event × Level :=
  match Level.ofName? (Text.upper name) with
  | some level => ([], level)
  | none => ([.unrecognizedLevel name], .warning)

/-- The words for the value true. -/
def trueWords : List String := ["1", "true", "t", "yes", "y"]

/-- The value that a word stands for, white space around it and the case of ASCII letters aside.
Letters beyond ASCII are in no word for true, whatever their case. -/
def valueOf (word : String) : Bool :=
  trueWords.contains (String.ofList ((Text.strip word.toList).map Char.toLower))

end Settings

end Clausal
