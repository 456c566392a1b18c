import Clausal.Text.Digit

/-!
# Integers in texts

Reading an integer: an optional sign, then decimal digits of any script, where a single underscore
may stand between two digits. A text with more than 4300 digits is refused.
-/

namespace Clausal.Text

/-- Reads digits into their values. An underscore is taken only directly after a digit, as told by
`afterDigit`, and must be followed by one. -/
def digitsFrom (afterDigit : Bool) : List Char → Option (List Nat)
  | [] => if afterDigit then some [] else none
  | c :: rest =>
    if c = '_' then if afterDigit then digitsFrom false rest else none
    else match digitValue? c with
      | some d => (d :: ·) <$> digitsFrom true rest
      | none => none

/-- The largest number of digits that are read. -/
def maxDigits : Nat := 4300

/-- The number that a list of digits spells. -/
def ofDigits (digits : List Nat) : Nat :=
  digits.foldl (fun n d => 10 * n + d) 0

/-- Reads an unsigned number. -/
def parseNat? (s : List Char) : Option Nat := do
  let digits ← digitsFrom false s
  if digits.length ≤ maxDigits then some (ofDigits digits) else none

/-- Reads an integer; white space around it must have been taken off. -/
def parseInt? : List Char → Option Int
  | '-' :: rest => (fun n => -(n : Int)) <$> parseNat? rest
  | '+' :: rest => (fun n => (n : Int)) <$> parseNat? rest
  | s => (fun n => (n : Int)) <$> parseNat? s

/-- The decimal text of an integer. -/
def showInt (i : Int) : String :=
  if i < 0 then "-" ++ Nat.repr i.natAbs else Nat.repr i.natAbs

end Clausal.Text
