import Clausal.Model
import Clausal.Error

/-!
# Formulas in conjunctive normal form

A formula is a conjunction of clauses over the variables from 1 to some number. This module says
what it means for an assignment to satisfy a formula, checks it, and recognises the two shapes that
have a decision procedure of their own.
-/

namespace Clausal

/-- A conjunction of clauses over the variables from 1 to `numVariables`. -/
structure Cnf where
  numVariables : Nat
  clauses : List Clause
  deriving DecidableEq

/-- The values of the variables from 1 on. -/
abbrev Assignment := List Bool

namespace Assignment

/-- The assignment that makes every variable false. -/
def allFalse (n : Nat) : Assignment := List.replicate n false

/-- The value at a place. -/
def read (a : Assignment) (place : Nat) : Except Error Bool :=
  match a[place]? with
  | some b => .ok b
  | none => .error (.beyondAssignment place a.length)

/-- Replaces the value at a place. -/
def write (a : Assignment) (place : Nat) (b : Bool) : Except Error Assignment :=
  if place < a.length then .ok (a.set place b) else .error (.beyondAssignment place a.length)

/-- The written form of an assignment, such as `[true, false]`. -/
def render (a : Assignment) : String :=
  "[" ++ ", ".intercalate (a.map fun b => if b then "true" else "false") ++ "]"

end Assignment

/-- A total valuation of the variables. -/
abbrev Valuation := Variable → Bool

/-- A valuation makes a literal true. -/
def Literal.Holds (σ : Valuation) (l : Literal) : Prop := σ l.var = l.value

instance (σ : Valuation) (l : Literal) : Decidable (l.Holds σ) :=
  inferInstanceAs (Decidable (_ = _))

/-- A valuation makes some literal of the clause true. -/
def Clause.Holds (σ : Valuation) (c : Clause) : Prop := ∃ l ∈ c, l.Holds σ

namespace Cnf

/-- A valuation makes every clause true. -/
def Holds (σ : Valuation) (f : Cnf) : Prop := ∀ c ∈ f.clauses, c.Holds σ

/-- Some valuation makes every clause true. -/
def Satisfiable (f : Cnf) : Prop := ∃ σ : Valuation, f.Holds σ

/-- Every clause keeps to the variables of the formula. -/
def InRange (f : Cnf) : Prop := ∀ c ∈ f.clauses, ∀ l ∈ c, l.var.index ≤ f.numVariables

/-- The variables of the formula. -/
def vars (f : Cnf) : List Variable := Variable.upTo f.numVariables

/-- Every clause has exactly two literals. -/
def isTwoSat (f : Cnf) : Bool := f.clauses.all fun c => c.size == 2

/-- Every clause has at most one positive literal. -/
def isHorn (f : Cnf) : Bool := f.clauses.all fun c => c.positives.length ≤ 1

/-- Whether some literal has the value that the assignment gives its variable, from left to right.
-/
def someHolds (a : Assignment) : List Literal → Except Error Bool
  | [] => .ok false
  | l :: rest => do
    let b ← a.read l.var.place
    if b != l.negated then .ok true else someHolds a rest

/-- Whether each clause has such a literal, up to the first that has none. -/
def allHold (a : Assignment) : List Clause → Except Error Bool
  | [] => .ok true
  | c :: rest => do
    if ← someHolds a c.literals then allHold a rest else .ok false

/-- Whether an assignment satisfies the formula. It must give each variable a value; what it has
beyond them does not count. -/
def check (f : Cnf) (a : Assignment) : Except Error Bool :=
  if f.numVariables ≤ a.length then allHold a f.clauses else .error .assignmentTooShort

/-- The written form of a formula, such as `(x1 | ~x2) & (x2)`. -/
def render (f : Cnf) : String := " & ".intercalate (f.clauses.map Clause.render)

/-- The form of a formula that tells how it is built. -/
def describe (f : Cnf) : String :=
  "Formula(" ++ Nat.repr f.numVariables ++ ", ["
    ++ ", ".intercalate (f.clauses.map fun c => Clause.renderInts c.toInts) ++ "])"

end Cnf

end Clausal
