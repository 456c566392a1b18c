import Clausal.Cnf
import Clausal.Event
import Clausal.Graph.Traversal

/-!
# Two literals per clause

A clause of two literals says that if one of them is false then the other is true. These
implications form a graph over the literals, and the formula can be satisfied exactly if no variable
lies in one strongly connected component with its negation. A solution makes, of each variable and
its negation, the one true that comes first in the order of the components, which is the one closer
to the sinks.
-/

namespace Clausal.Solver.TwoSat

/-- Both literals of each variable. -/
def literals (f : Cnf) : List Literal :=
  f.vars.flatMap fun v => [⟨v, false⟩, ⟨v, true⟩]

/-- Adds the two implications of each clause, which must have exactly two literals. -/
def addImplications (g : Graph Literal) : List Clause → Except Error (Graph Literal)
  | [] => .ok g
  | c :: rest =>
    match c.literals with
    | [a, b] => addImplications ((g.addEdge a.complement b).addEdge b.complement a) rest
    | _ => .error .clauseNotBinary

/-- The implications between the literals of a formula. -/
def implicationGraph (f : Cnf) : Except Error (Graph Literal) :=
  addImplications ((literals f).foldl Graph.addVertex (Graph.empty true)) f.clauses

/-- Whether a variable and its negation have the same number. -/
def clashes (labels : OrderedMap Literal Nat) (v : Variable) : Bool :=
  labels.find? ⟨v, false⟩ == labels.find? ⟨v, true⟩

/-- The value of a variable as the component numbers tell it: the literal with the smaller number is
true. -/
def componentValue (labels : OrderedMap Literal Nat) (v : Variable) : Bool :=
  match labels.find? ⟨v, false⟩, labels.find? ⟨v, true⟩ with
  | some i, some j => i < j
  | _, _ => false

/-- Makes one literal after the other true; for each variable the last one counts. -/
def writeLiterals (a : Assignment) : List Literal → Except Error Assignment
  | [] => .ok a
  | l :: rest => do
    let a' ← a.write l.var.place l.value
    writeLiterals a' rest

/-- An assignment that satisfies the formula, or the error that none exists. -/
def solve (f : Cnf) : Report Assignment :=
  match implicationGraph f with
  | .error e => .silent (.error e)
  | .ok g =>
    let t := g.components
    let size := t.labels.values.foldl max 0
    .after (.implicationGraph g.vertices.length g.numEdges size) <|
      if f.vars.any (clashes t.labels) then .silent (.error (.unsatisfiable .twoSat))
      else .silent (writeLiterals (Assignment.allFalse f.numVariables) t.finished.reverse)

end Clausal.Solver.TwoSat
