import Clausal.Argument
import Clausal.Method
import Clausal.Text.Integer
import Clausal.Text.Quoted
import Clausal.Text.Utf8

/-!
# Errors

Every cause for which an operation is refused or ends without an answer, and the wording of each. A
broken precondition has no wording of its own.
-/

namespace Clausal

/-- What is wrong with a line of a formula file. -/
inductive FormatFault where
  | missingSize
  | invalidSize (text : String)
  | negativeSize
  | invalidLiteral (text : String)
  | literalOutOfRange (value : Int) (numVariables : Nat)
  deriving DecidableEq, Repr

/-- Wording of a fault. -/
def FormatFault.message : FormatFault → String
  | .missingSize => "missing number of variables"
  | .invalidSize text => "invalid number of variables " ++ Text.quote text
  | .negativeSize => "negative number of variables"
  | .invalidLiteral text => "invalid literal " ++ Text.quote text
  | .literalOutOfRange value n =>
    "literal " ++ Text.showInt value ++ " outside of variables 1.." ++ Nat.repr n

/-- The sentence for a formula that no assignment satisfies. -/
def unsatisfiableMessage (problem : String) : String :=
  "No satisfying assignment exists for the " ++ problem ++ "formula."

/-- Why an operation on formulas is refused or gives no answer. -/
inductive Error where
  /-- Zero is given where a variable or a literal is wanted. -/
  | zeroLiteral
  /-- A formula has at least zero variables. -/
  | negativeSize
  /-- A literal has a variable above those of the formula. -/
  | variableOutOfRange
  /-- A clause of an implication graph has exactly two literals. -/
  | clauseNotBinary
  /-- An assignment has a value for each variable. -/
  | assignmentTooShort
  /-- The search has an undetermined clause but no variable left to decide. -/
  | noVariableLeft
  /-- A solution that does not satisfy the formula it was found for. -/
  | solutionRejected
  /-- Two methods that disagree on whether a formula can be satisfied. -/
  | verdictsDiffer
  /-- No assignment satisfies the formula, as the given method found out. -/
  | unsatisfiable (method : Method)
  /-- There is no algorithm of this name. -/
  | unknownAlgorithm (name : String)
  /-- The formula does not have the shape that the method asks for. -/
  | wrongShape (method : Method)
  /-- A formula file is malformed at a line, counted from one. -/
  | format (line : Nat) (fault : FormatFault)
  /-- An assignment of the given size is used at a place beyond its end. -/
  | outOfBounds (place size : Nat)
  /-- An assignment is used at a place that fits a word only without a sign. -/
  | placeUnsigned
  /-- An assignment is used at a place that fits no word. -/
  | placeUnfit
  /-- A list is used at a place beyond its end. -/
  | pastEnd
  /-- A list is used at a place that does not fit a word with a sign. -/
  | listPlaceUnfit
  /-- There is no forced variable to take from the queue. -/
  | emptyQueue
  /-- A fraction of no formulas at all. -/
  | noFormulas
  /-- There is no random draw left. -/
  | drawsExhausted
  /-- Infinity is used as an integer. -/
  | infinityAsInteger
  /-- What is no number is used as an integer. -/
  | undefinedAsInteger
  /-- A size is beyond all numbers that are kept in binary. -/
  | sizeBeyondBinary
  /-- A file is not text. -/
  | undecodable (fault : Text.Utf8.Fault)
  /-- A path holds a zero character. -/
  | zeroInPath
  /-- The name of a level is asked for and left out. -/
  | noLevelName
  /-- A value of the wrong kind is given. -/
  | misfit (misfit : Misfit)
  deriving DecidableEq, Repr

namespace Error

/-- The least number that does not fit a word with a sign. -/
def signedLimit : Nat := 9223372036854775808

/-- The least number that does not fit a word. -/
def wordLimit : Nat := 18446744073709551616

/-- Why an assignment of the given size has no value at a place beyond its end. -/
def beyondAssignment (place size : Nat) : Error :=
  if place < signedLimit then .outOfBounds place size
  else if place < wordLimit then .placeUnsigned
  else .placeUnfit

/-- Why a list has no element at an index, which counts from the end if it is negative. -/
def beyondList (index : Int) : Error :=
  if -signedLimit ≤ index && index < signedLimit then .pastEnd else .listPlaceUnfit

/-- Wording of an error. -/
def message : Error → String
  | .zeroLiteral | .negativeSize | .variableOutOfRange | .clauseNotBinary | .assignmentTooShort
  | .noVariableLeft | .solutionRejected | .verdictsDiffer => ""
  | .unsatisfiable m => unsatisfiableMessage (m.problem ++ " ")
  | .unknownAlgorithm name => "unknown algorithm " ++ Text.quote name
  | .wrongShape m => "the formula is not " ++ m.problem
  | .format line fault => "line " ++ Nat.repr line ++ ": " ++ fault.message
  | .outOfBounds place size =>
    "index " ++ Nat.repr place ++ " is out of bounds for axis 0 with size " ++ Nat.repr size
  | .placeUnsigned => "Python int too large to convert to C long"
  | .placeUnfit =>
    "only integers, slices (`:`), ellipsis (`...`), numpy.newaxis (`None`) and integer or boolean "
      ++ "arrays are valid indices"
  | .pastEnd => "list index out of range"
  | .listPlaceUnfit => "cannot fit 'int' into an index-sized integer"
  | .emptyQueue => "pop from an empty deque"
  | .noFormulas => "division by zero"
  | .drawsExhausted => "pop from empty list"
  | .infinityAsInteger => "cannot convert float infinity to integer"
  | .undefinedAsInteger => "cannot convert float NaN to integer"
  | .sizeBeyondBinary => "int too large to convert to float"
  | .undecodable fault => fault.message
  | .zeroInPath => "embedded null byte"
  | .noLevelName => "'list' object has no attribute 'upper'"
  | .misfit m => m.message

end Error

end Clausal
