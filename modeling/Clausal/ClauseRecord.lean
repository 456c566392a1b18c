import Clausal.Model

/-!
# Clause records

A clause that is changed literal by literal keeps with its literals what follows from them: the set
of the variables that occur without negation, the set of those that occur negated, and whether it is
a tautology, once this was asked. A change of the literals changes the sets with them and forgets the
answer. The value under a model is found from the sets and the answer, without the literals.
-/

namespace Clausal

/-- A clause with the sets of its positive and of its negative variables, and with the answer to
whether it is a tautology, if it was asked for since the last change. -/
structure ClauseRecord extends Clause where
  positiveVars : List Variable
  negativeVars : List Variable
  remembered : Option Bool
  deriving DecidableEq

namespace ClauseRecord

/-- The record of the clause without literals. -/
def empty : ClauseRecord := ⟨Clause.empty, [], [], none⟩

/-- Adds a literal at the end, unless the clause has it. -/
def add (r : ClauseRecord) (l : Literal) : ClauseRecord :=
  if l ∈ r.toClause then r
  else if l.negated then
    ⟨r.toClause.insert l, r.positiveVars, r.negativeVars.insert l.var, none⟩
  else
    ⟨r.toClause.insert l, r.positiveVars.insert l.var, r.negativeVars, none⟩

/-- Removes a literal, and tells whether the clause had it. -/
def remove (r : ClauseRecord) (l : Literal) : ClauseRecord × Bool :=
  if l ∉ r.toClause then (r, false)
  else if l.negated then
    (⟨r.toClause.erase l, r.positiveVars, r.negativeVars.erase l.var, none⟩, true)
  else
    (⟨r.toClause.erase l, r.positiveVars.erase l.var, r.negativeVars, none⟩, true)

/-- The record of the clause of a list of literals, which are added one after the other. -/
def ofList (ls : List Literal) : ClauseRecord := ls.foldl add empty

/-- The number of variables that occur without negation. -/
def positiveCount (r : ClauseRecord) : Nat := r.positiveVars.length

/-- Tells whether some variable occurs with and without negation, and remembers the answer. -/
def askTautology (r : ClauseRecord) : ClauseRecord × Bool :=
  match r.remembered with
  | some b => (r, b)
  | none =>
    let b := r.positiveVars.any (r.negativeVars.contains ·)
    ({ r with remembered := some b }, b)

end ClauseRecord

namespace Model

/-- Looks through variables for one with the value `b`. There is no result if one is found, and
otherwise the result is whether an open variable was seen, now or before. -/
def seek (m : Model) (b : Bool) (seen : Bool) : List Variable → Option Bool
  | [] => some seen
  | v :: rest =>
    match m.find? v with
    | none => seek m b true rest
    | some x => if x = b then none else seek m b seen rest

/-- The value of the clause of a record, if it is determined, and the record, which remembers whether
the clause is a tautology unless the clause is empty. -/
def recordValue? (m : Model) (r : ClauseRecord) : ClauseRecord × Option Bool :=
  if r.literals.isEmpty then (r, some false)
  else
    match r.askTautology with
    | (r', true) => (r', some true)
    | (r', false) =>
      match m.seek true false r.positiveVars with
      | none => (r', some true)
      | some seen =>
        match m.seek false seen r.negativeVars with
        | none => (r', some true)
        | some true => (r', none)
        | some false => (r', some false)

end Model

end Clausal
