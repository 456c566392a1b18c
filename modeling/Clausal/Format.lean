import Clausal.Event
import Clausal.Formula
import Clausal.Text.Blank
import Clausal.Text.Lines

/-!
# Formula files

The text format of formulas: the number of variables on the first line, a second line that does not
count, then a clause on each line as signed integers with commas between them. Blank lines after the
second are skipped, and white space around a number does not matter. The first offending line is
reported, with the first offending number on it.
-/

namespace Clausal.Format

/-- Reads the number of variables off the first line. -/
def readSize (line : List Char) : Except Error Nat :=
  let text := Text.strip line
  if text.isEmpty then .error (.format 1 .missingSize)
  else match Text.parseInt? text with
    | none => .error (.format 1 (.invalidSize (String.ofList text)))
    | some n => if n < 0 then .error (.format 1 .negativeSize) else .ok n.toNat

/-- Reads a literal over the variables from 1 to `n` on the given line. -/
def readLiteral (n line : Nat) (field : List Char) : Except Error Literal :=
  let text := Text.strip field
  match Text.parseInt? text with
  | none => .error (.format line (.invalidLiteral (String.ofList text)))
  | some i =>
    match Literal.ofInt? i with
    | none => .error (.format line (.literalOutOfRange i n))
    | some l =>
      if n < l.var.index then .error (.format line (.literalOutOfRange i n)) else .ok l

/-- Reads literals into a clause, from left to right. -/
def readLiterals (n line : Nat) (c : Clause) : List (List Char) → Except Error Clause
  | [] => .ok c
  | field :: rest => do
    let l ← readLiteral n line field
    readLiterals n line (c.insert l) rest

/-- Reads the clauses of the lines from the given one on. -/
def readClauses (n line : Nat) : List (List Char) → Except Error (List Clause)
  | [] => .ok []
  | text :: rest =>
    if (Text.strip text).isEmpty then readClauses n (line + 1) rest
    else do
      let c ← readLiterals n line .empty (Text.fields ',' text)
      let cs ← readClauses n (line + 1) rest
      return c :: cs

/-- Reads a formula from a text. -/
def read (text : List Char) : Except Error Cnf :=
  match Text.lines text with
  | [] => .error (.format 1 .missingSize)
  | first :: rest => do
    let n ← readSize first
    let cs ← readClauses n 3 (rest.drop 1)
    return ⟨n, cs⟩

/-- Reads a formula from a text and prepares it for solving. -/
def parse (text : List Char) : Report Workspace :=
  match read text with
  | .error e => .silent (.error e)
  | .ok f =>
    match Workspace.ofClauses f.numVariables f.clauses with
    | .error e => .silent (.error e)
    | .ok W => ⟨[.parsed f.numVariables f.clauses.length], .ok W⟩

/-- A clause as a line of a formula file. -/
def renderClause (c : Clause) : List Char :=
  Text.join [','] (c.toInts.map fun i => (Text.showInt i).toList)

/-- The lines of a formula file. -/
def renderLines (f : Cnf) : List (List Char) :=
  (Nat.repr f.numVariables).toList :: (Nat.repr f.clauses.length).toList
    :: f.clauses.map renderClause

/-- A formula as the text of a formula file. -/
def render (f : Cnf) : List Char :=
  (renderLines f).flatMap (· ++ ['\n'])

end Clausal.Format
