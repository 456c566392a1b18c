import Clausal.Arena
import Clausal.Cnf

/-!
# Indexed formulas

A formula over the clauses of an arena that is prepared for propagating facts. Beside its clauses it
keeps a queue of the variables that are forced to be true by a clause with a single positive
literal, and a register of the clauses in which each variable was negated when they were added. The
register is not revised when a clause changes later.
-/

namespace Clausal

/-- A formula over the variables from 1 to `numVariables`, whose clauses stand in an arena. -/
structure Formula where
  numVariables : Nat
  refs : List ClauseRef
  /-- The forced variables that are still to be propagated, the next one first. -/
  queue : List Variable
  /-- The clauses registered for the negation of a variable, in the order of registration. -/
  register : List (Variable × ClauseRef)
  deriving DecidableEq

namespace Formula

/-- The formula without clauses. -/
def empty (n : Nat) : Formula := ⟨n, [], [], []⟩

/-- The formula without clauses over an asked number of variables, which cannot be negative. -/
def ofSize (n : Int) : Except Error Formula :=
  if n < 0 then .error .negativeSize else .ok (empty n.toNat)

/-- Puts a variable at the end of the queue, unless it is waiting there. -/
def enqueue (F : Formula) (v : Variable) : Formula :=
  if v ∈ F.queue then F else { F with queue := F.queue ++ [v] }

/-- Takes the next variable from the queue. -/
def dequeue (F : Formula) : Except Error (Variable × Formula) :=
  match F.queue with
  | [] => .error .emptyQueue
  | v :: rest => .ok (v, { F with queue := rest })

/-- The clauses that are registered for the negation of a variable. -/
def withNegation (F : Formula) (v : Variable) : List ClauseRef :=
  (F.register.filter (·.1 = v)).map (·.2)

/-- The variables for whose negation some clause is registered, in increasing order. -/
def registered (F : Formula) : List Variable :=
  (F.register.map (·.1)).eraseDups.mergeSort fun v w => v.index ≤ w.index

/-- Registers a clause for its negated literals, from left to right. It stops at the first literal
whose variable is not one of the formula, and tells whether it came to the end. -/
def registerAll (F : Formula) (r : ClauseRef) : List Literal → Formula × Bool
  | [] => (F, true)
  | l :: rest =>
    if F.numVariables < l.var.index then (F, false)
    else if l.negated then
      registerAll { F with register := F.register ++ [(l.var, r)] } r rest
    else registerAll F r rest

/-- Adds a clause of the arena. A clause with a variable out of range is refused, but its negated
literals before that variable stay registered. A clause that is a fact puts its variable on the
queue. -/
def attach (A : Arena) (F : Formula) (r : ClauseRef) : Formula × Except Error Unit :=
  match F.registerAll r (A.get r).literals with
  | (F', false) => (F', .error .variableOutOfRange)
  | (F', true) =>
    let F'' := { F' with refs := F'.refs ++ [r] }
    match (A.get r).fact? with
    | some v => (F''.enqueue v, .ok ())
    | none => (F'', .ok ())

/-- The clauses of the formula. -/
def clauses (A : Arena) (F : Formula) : List Clause := F.refs.map A.get

/-- The formula as a plain conjunction of clauses. -/
def toCnf (A : Arena) (F : Formula) : Cnf := ⟨F.numVariables, F.clauses A⟩

end Formula

/-- A formula together with the arena of its clauses. -/
structure Workspace where
  arena : Arena
  formula : Formula
  deriving DecidableEq

namespace Workspace

/-- The formula as a plain conjunction of clauses. -/
def toCnf (W : Workspace) : Cnf := W.formula.toCnf W.arena

/-- Adds a new clause and tells its reference. -/
def add (W : Workspace) (c : Clause) : Workspace × Except Error ClauseRef :=
  let (A, r) := W.arena.alloc c
  let (F, result) := W.formula.attach A r
  (⟨A, F⟩, result.map fun _ => r)

/-- Adds new clauses, as long as none is refused. -/
def addAll (W : Workspace) : List Clause → Except Error Workspace
  | [] => .ok W
  | c :: rest =>
    match W.add c with
    | (W', .ok _) => W'.addAll rest
    | (_, .error e) => .error e

/-- A new formula with the given clauses. -/
def ofClauses (n : Int) (cs : List Clause) : Except Error Workspace := do
  let F ← Formula.ofSize n
  (⟨Arena.empty, F⟩ : Workspace).addAll cs

/-- A separate formula with the same queue and with new clauses that have the literals which the
clauses have at present. -/
def copy (W : Workspace) : Except Error Workspace := do
  let start : Workspace := ⟨W.arena, Formula.empty W.formula.numVariables⟩
  let W' ← start.addAll (W.formula.clauses W.arena)
  return { W' with formula := { W'.formula with queue := W.formula.queue } }

end Workspace

end Clausal
