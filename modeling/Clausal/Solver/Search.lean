import Clausal.Cnf
import Clausal.Event

/-!
# Backtracking search

Satisfiability of formulas of any shape. The search keeps a stack of pending branches, each with the
variables that it has not decided and the model that it has built. A branch in which all clauses are
true is a solution, and one in which some clause is false is given up. Otherwise a move that cannot
lose a solution is followed if there is one: a variable that occurs with one sign only, or the last
open literal of a clause. If there is none, the first variable is decided, true before false.

The search ends because every move leaves a branch with fewer undecided variables and fewer open
occurrences of variables in clauses: a branch counts for three times as much as one of less weight,
so for more than both branches that it is split into.
-/

namespace Clausal.Solver.Search

/-- The clauses that are not yet true. -/
def openClauses (clauses : List Clause) (m : Model) : List Clause :=
  clauses.filter fun c => m.clauseValue? c != some true

/-- Whether `v` occurs in the clauses without negation. -/
def occursPositively (clauses : List Clause) (v : Variable) : Bool :=
  clauses.any fun c => c.positives.contains v

/-- Whether `v` occurs in the clauses negated. -/
def occursNegatively (clauses : List Clause) (v : Variable) : Bool :=
  clauses.any fun c => c.negatives.contains v

/-- The first listed variable that occurs in the open clauses without negation only, to be made
true; if there is none, the first that occurs there negated only, to be made false. -/
def pureMove? (clauses : List Clause) (vars : List Variable) (m : Model) : Option Move :=
  let pending := openClauses clauses m
  match vars.find? fun v => occursPositively pending v && !occursNegatively pending v with
  | some v => some ⟨v, true⟩
  | none =>
    (vars.find? fun v => occursNegatively pending v && !occursPositively pending v).map
      fun v => ⟨v, false⟩

/-- The literals whose variable the model does not assign. -/
def openLiterals (m : Model) (c : Clause) : List Literal :=
  c.literals.filter fun l => (m.find? l.var).isNone

/-- The literal that an undetermined clause needs, if only one of its literals is open. -/
def unitLiteral? (m : Model) (c : Clause) : Option Literal :=
  if (m.clauseValue? c).isSome then none
  else match openLiterals m c with
    | [l] => some l
    | _ => none

/-- The move that makes the first clause with a single open literal true. -/
def unitMove? (clauses : List Clause) (m : Model) : Option Move :=
  (clauses.findSome? (unitLiteral? m)).map fun l => ⟨l.var, l.value⟩

/-- A list of variables without all occurrences of one of them. -/
def without (vars : List Variable) (v : Variable) : List Variable :=
  vars.filter (· != v)

/-- A part of the search that is still to be done. -/
structure Branch where
  /-- The variables to decide, in this order. -/
  vars : List Variable
  /-- The values decided so far. -/
  model : Model

/-- The branch after a forced move. -/
def Branch.follow (b : Branch) (move : Move) : Branch :=
  ⟨without b.vars move.var, b.model.insert move.var move.value⟩

/-- What to do with a branch. -/
inductive Step where
  /-- All clauses are true. -/
  | solved
  /-- Some clause is false. -/
  | failed
  /-- There is a move that loses no solution. -/
  | forced (move : Move)
  /-- A variable has to be tried with both values. -/
  | branch (v : Variable) (rest : List Variable)
  /-- A clause is undetermined, but no variable is left. -/
  | stuck

/-- Decides what to do with a branch. -/
def step (clauses : List Clause) (b : Branch) : Step :=
  let values := clauses.map b.model.clauseValue?
  if values.all (· == some true) then .solved
  else if values.any (· == some false) then .failed
  else match pureMove? clauses b.vars b.model with
    | some move => .forced move
    | none =>
      match unitMove? clauses b.model with
      | some move => .forced move
      | none =>
        match b.vars with
        | [] => .stuck
        | v :: rest => .branch v rest

/-- The number of moves made. -/
structure Counts where
  decisions : Nat
  forced : Nat
  deriving DecidableEq, Repr

/-! ### Termination -/

/-- The occurrences of variables in clauses that the model leaves open. -/
def openOccurrences (clauses : List Clause) (m : Model) : List Variable :=
  (clauses.flatMap Clause.vars).filter fun v => (m.find? v).isNone

/-- How much is left to do in a branch. -/
def Branch.weight (clauses : List Clause) (b : Branch) : Nat :=
  b.vars.length + (openOccurrences clauses b.model).length

/-- Taking a variable out of a list does not make the list longer. -/
theorem length_without_le (vs : List Variable) (v : Variable) : (without vs v).length ≤ vs.length :=
  List.length_filter_le _ _

/-- Taking a listed variable out makes the list shorter. -/
theorem length_without_lt {vs : List Variable} {v : Variable} (h : v ∈ vs) :
    (without vs v).length < vs.length := by
  apply List.length_filter_lt_length_iff_exists.mpr
  exact ⟨v, h, by simp⟩

/-- Assigning a variable closes its own occurrences. -/
theorem openOccurrences_insert (clauses : List Clause) (m : Model) (v : Variable) (b : Bool) :
    openOccurrences clauses (m.insert v b) = without (openOccurrences clauses m) v := by
  simp only [openOccurrences, without, List.filter_filter]
  congr 1
  funext w
  rw [OrderedMap.find?_insert]
  by_cases h : w = v <;> simp [h]

/-- The variable of a unit move occurs in the clauses and is not assigned. -/
theorem mem_openOccurrences_of_unitMove? {clauses : List Clause} {m : Model} {move : Move}
    (h : unitMove? clauses m = some move) : move.var ∈ openOccurrences clauses m := by
  simp only [unitMove?, Option.map_eq_some_iff] at h
  obtain ⟨l, hl, rfl⟩ := h
  obtain ⟨c, hc, hcl⟩ := List.exists_of_findSome?_eq_some hl
  simp only [unitLiteral?] at hcl
  split at hcl
  · cases hcl
  · split at hcl
    · next l' hl' =>
      cases hcl
      have hmem : l ∈ openLiterals m c := by simp [hl']
      simp only [openLiterals, List.mem_filter] at hmem
      simp only [openOccurrences, List.mem_filter, List.mem_flatMap, Clause.vars, List.mem_map]
      exact ⟨⟨c, hc, l, hmem.1, rfl⟩, hmem.2⟩
    · cases hcl

/-- The variable of a pure move is one of those to decide. -/
theorem mem_of_pureMove? {clauses : List Clause} {vs : List Variable} {m : Model} {move : Move}
    (h : pureMove? clauses vs m = some move) : move.var ∈ vs := by
  simp only [pureMove?] at h
  split at h
  · next v hv =>
    cases h
    exact List.mem_of_find?_eq_some hv
  · simp only [Option.map_eq_some_iff] at h
    obtain ⟨v, hv, rfl⟩ := h
    exact List.mem_of_find?_eq_some hv

/-- A forced move leaves less to do. -/
theorem weight_follow_lt {clauses : List Clause} {b : Branch} {move : Move}
    (h : step clauses b = .forced move) : (b.follow move).weight clauses < b.weight clauses := by
  have hle := length_without_le b.vars move.var
  have hle' := length_without_le (openOccurrences clauses b.model) move.var
  simp only [Branch.weight, Branch.follow, openOccurrences_insert]
  simp only [step] at h
  split at h
  · cases h
  split at h
  · cases h
  split at h
  · next hp =>
    cases h
    have := length_without_lt (mem_of_pureMove? hp)
    omega
  · split at h
    · next hu =>
      cases h
      have := length_without_lt (mem_openOccurrences_of_unitMove? hu)
      omega
    · split at h <;> cases h

/-- A decision leaves less to do, whichever value is tried. -/
theorem weight_branch_lt {clauses : List Clause} {b : Branch} {v : Variable} {rest : List Variable}
    (h : step clauses b = .branch v rest) (value : Bool) :
    (Branch.mk rest (b.model.insert v value)).weight clauses < b.weight clauses := by
  have hle := length_without_le (openOccurrences clauses b.model) v
  simp only [Branch.weight, openOccurrences_insert]
  simp only [step] at h
  split at h
  · cases h
  split at h
  · cases h
  split at h
  · cases h
  · split at h
    · cases h
    · split at h
      · cases h
      · next hv =>
        cases h
        simp only [hv, List.length_cons]
        omega

/-- What a stack of branches counts for, each three times as much as one of the next lower weight. -/
def totalWorth (clauses : List Clause) : List Branch → Nat
  | [] => 0
  | b :: work => Nat.pow 3 (b.weight clauses) + totalWorth clauses work

/-- A power of three is more than two lower ones together. -/
theorem three_pow_add_lt {i j k : Nat} (hi : i < k) (hj : j < k) :
    Nat.pow 3 i + Nat.pow 3 j < Nat.pow 3 k := by
  cases k with
  | zero => omega
  | succ k =>
    have h₁ : Nat.pow 3 i ≤ Nat.pow 3 k := Nat.pow_le_pow_right (by decide) (by omega)
    have h₂ : Nat.pow 3 j ≤ Nat.pow 3 k := Nat.pow_le_pow_right (by decide) (by omega)
    have h₃ : 0 < Nat.pow 3 k := Nat.pow_pos (by decide)
    have h₄ : Nat.pow 3 (k + 1) = Nat.pow 3 k * 3 := Nat.pow_succ 3 k
    omega

/-! ### The search -/

/-- Works off a stack of branches, the top one first, until one is solved. The counts cover all
moves made, those in branches given up included. -/
def run (clauses : List Clause) (counts : Counts) :
    List Branch → Except Error (Model × Counts)
  | [] => .error (.unsatisfiable .general)
  | b :: work =>
    match _h : step clauses b with
    | .solved => .ok (b.model, counts)
    | .failed => run clauses counts work
    | .forced move =>
      run clauses { counts with forced := counts.forced + 1 } (b.follow move :: work)
    | .branch v rest =>
      run clauses { counts with decisions := counts.decisions + 1 }
        (⟨rest, b.model.insert v true⟩ :: ⟨rest, b.model.insert v false⟩ :: work)
    | .stuck => .error .noVariableLeft
termination_by work => totalWorth clauses work
decreasing_by
  · have : 0 < Nat.pow 3 (b.weight clauses) := Nat.pow_pos (by decide)
    simp only [totalWorth]
    omega
  · have : Nat.pow 3 ((b.follow move).weight clauses) < Nat.pow 3 (b.weight clauses) :=
      Nat.pow_lt_pow_right (by decide) (weight_follow_lt _h)
    simp only [totalWorth]
    omega
  · have := three_pow_add_lt (weight_branch_lt _h true) (weight_branch_lt _h false)
    simp only [totalWorth]
    omega

/-- Writes the values of a model into an assignment, in the order of the model. -/
def writeAll (a : Assignment) : List (Variable × Bool) → Except Error Assignment
  | [] => .ok a
  | (v, b) :: rest => do
    let a' ← a.write v.place b
    writeAll a' rest

/-- An assignment that satisfies the formula, or the error that none exists. Variables that the
model found does not assign are false. -/
def solve (f : Cnf) : Report Assignment :=
  match run f.clauses ⟨0, 0⟩ [⟨f.vars, OrderedMap.empty⟩] with
  | .error e => .silent (.error e)
  | .ok (m, counts) =>
    match writeAll (Assignment.allFalse f.numVariables) m.entries with
    | .error e => .silent (.error e)
    | .ok a => ⟨[.modelFound counts.decisions counts.forced], .ok a⟩

end Clausal.Solver.Search
