import Clausal.Binary
import Clausal.Format
import Clausal.Solver.Dispatch

/-!
# Operations on values of unknown kind

The operations of the library for callers whose values are not known to fit. A text is also a list
of texts of one character, and a record a list of its keys. Literals are only looked at one after
the other, so a clause may be refused for its first bad literal after its good ones were accepted.
-/

namespace Clausal

/-- A value of a kind that is known at run time only. -/
inductive Datum where
  | null
  | bool (value : Bool)
  | int (value : Int)
  /-- A number that is no integer by its notation. -/
  | real (value : Binary)
  | text (value : String)
  | list (items : List Datum)
  | record (fields : List (String × Datum))

namespace Datum

/-- The kind of a value. -/
def kind : Datum → Kind
  | .null => .null
  | .bool _ => .bool
  | .int _ => .int
  | .real _ => .real
  | .text _ => .text
  | .list _ => .list
  | .record _ => .record

/-- Whether a value counts as true: what is zero or empty does not. -/
def truth : Datum → Bool
  | .null => false
  | .bool b => b
  | .int i => i != 0
  | .real x => !x.isZero
  | .text s => !s.isEmpty
  | .list items => !items.isEmpty
  | .record fields => !fields.isEmpty

/-- The elements of a value, if it has elements. -/
def elements? : Datum → Option (List Datum)
  | .text s => some (s.toList.map fun c => .text (String.singleton c))
  | .list items => some items
  | .record fields => some (fields.map fun (key, _) => .text key)
  | _ => none

/-- The text that a value is. -/
def asText (p : Parameter) : Datum → Except Error String
  | .text s => .ok s
  | d => .error (.misfit (.kind p d.kind))

/-- The integer that a value is; a truth value counts as one or zero. -/
def asInt? : Datum → Option Int
  | .int i => some i
  | .bool b => some (if b then 1 else 0)
  | _ => none

/-- The literal that a value writes. -/
def asLiteral (d : Datum) : Except Error Literal :=
  match d.asInt? with
  | none => .error (.misfit (.literal d.kind))
  | some i =>
    match Literal.ofInt? i with
    | none => .error .zeroLiteral
    | some l => .ok l

/-- The clause of the literals that the elements of a value write. -/
def asClause (d : Datum) : Except Error Clause :=
  match d.elements? with
  | none => .error (.misfit (.kind .clause d.kind))
  | some items => Clause.ofList <$> items.mapM asLiteral

/-- Adds the clauses that values stand for, as long as none is refused. -/
def addClauses (W : Workspace) : List Datum → Except Error Workspace
  | [] => .ok W
  | d :: rest => do
    let c ← d.asClause
    match W.add c with
    | (W', .ok _) => addClauses W' rest
    | (_, .error e) => .error e

/-- The formula without clauses over as many variables as a value says. -/
def emptyFormula (d : Datum) : Except Error Workspace :=
  match d.asInt? with
  | none => .error (.misfit (.kind .numVariables d.kind))
  | some n => Workspace.ofClauses n []

/-- The formula over `n` variables with the clauses that the elements of a value stand for. -/
def formulaOver (n : Nat) (d : Datum) : Except Error Workspace :=
  match d.elements? with
  | none => .error (.misfit (.kind .clauses d.kind))
  | some items => addClauses ⟨Arena.empty, Formula.empty n⟩ items

/-- Reads a formula from the text that a value is. -/
def parseFormula (d : Datum) : Report Workspace :=
  match d.asText .text with
  | .ok s => Format.parse s.toList
  | .error e => .silent (.error e)

/-- Solves by the algorithm that a value names. -/
def solveBy (W : Workspace) (d : Datum) : Workspace × Report Assignment :=
  match d.asText .algorithm with
  | .ok name => Solver.solve W name
  | .error e => (W, .silent (.error e))

/-- Whether each of several values counts as true when they are stored side by side as values of one
kind. Next to a text, truth values and numbers are stored as their texts, which are not empty. -/
def uniformTruths (items : List Datum) : Assignment :=
  let plain (d : Datum) : Bool := d.kind != .null && d.kind != .list && d.kind != .record
  if items.all plain && items.any (·.kind == .text) then
    items.map fun d => d.kind != .text || d.truth
  else items.map truth

/-- The assignment that a value lists. Only the first element has to be a truth value; the others
count by their truth. -/
def asAssignment : Datum → Except Error Assignment
  | .list [] => .ok []
  | .list (.bool b :: rest) => .ok (b :: rest.map truth)
  | .list _ => .error (.misfit (.element .list))
  | .text s => if s.isEmpty then .ok [] else .error (.misfit (.element .text))
  | d => .error (.misfit (.kind .assignment d.kind))

end Datum

namespace Cnf

/-- Whether an assignment in a list satisfies the formula. -/
def checkList (f : Cnf) (a : Assignment) : Except Error Bool :=
  match f.check a with
  | .error (.outOfBounds _ _) => .error .pastEnd
  | .error .placeUnsigned | .error .placeUnfit => .error .listPlaceUnfit
  | result => result

/-- Whether the assignment that a value lists satisfies the formula. -/
def checkDatum (f : Cnf) (d : Datum) : Except Error Bool := do
  let a ← d.asAssignment
  f.checkList a

end Cnf

end Clausal
