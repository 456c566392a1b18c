import Clausal.Clause
import Clausal.OrderedMap

/-!
# Models

A model is a partial assignment of truth values to variables. Under a model a clause is true, false
or still undetermined; the value is exact, in that an undetermined clause can be made true and can
be made false by assigning further variables.
-/

namespace Clausal

/-- A partial assignment of truth values to variables. -/
abbrev Model := OrderedMap Variable Bool

namespace Model

/-- The value of a literal, if its variable is assigned. -/
def literalValue? (m : Model) (l : Literal) : Option Bool :=
  (m.find? l.var).map (· != l.negated)

/-- The value of a clause, if it is determined. The empty clause is false, and a tautology is true
whatever is assigned. Otherwise a true literal makes the clause true, and an unassigned one keeps it
from being false. -/
def clauseValue? (m : Model) (c : Clause) : Option Bool :=
  if c.literals.isEmpty then some false
  else if c.isTautology then some true
  else if c.literals.any fun l => m.literalValue? l == some true then some true
  else if c.literals.any fun l => (m.literalValue? l).isNone then none
  else some false

/-- A truth value with a capital letter. -/
def renderBool (b : Bool) : String := if b then "True" else "False"

/-- The entries by increasing variable. -/
def sorted (m : Model) : List (Variable × Bool) :=
  m.entries.mergeSort fun a b => a.1.index ≤ b.1.index

/-- The form of a model that tells how it is built. -/
def describe (m : Model) : String :=
  "Model(\x7b" ++ ", ".intercalate
    (m.sorted.map fun e => Nat.repr e.1.index ++ ": " ++ renderBool e.2) ++ "\x7d)"

end Model

/-- The decision to give a variable a value. -/
structure Move where
  var : Variable
  value : Bool
  deriving DecidableEq, Repr

namespace Move

/-- The written form of a move, such as `x4: False`. -/
def render (m : Move) : String := m.var.render ++ ": " ++ Model.renderBool m.value

/-- The form of a move that tells how it is built. -/
def describe (m : Move) : String :=
  "VariableAssignment(variable=" ++ m.var.describe ++ ", value=" ++ Model.renderBool m.value ++ ")"

end Move

end Clausal
