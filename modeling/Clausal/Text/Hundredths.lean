import Clausal.Binary

/-!
# Numbers in hundredths

Writing a binary number with two decimal places. The nearest multiple of a hundredth is taken, and
of two equally near ones the even one.
-/

namespace Clausal.Text

/-- The integer nearest to a quotient; halfway between two integers, the even one. -/
def roundDiv (num den : Nat) : Nat :=
  let q := num / den
  let twice := 2 * (num % den)
  if twice < den then q
  else if den < twice then q + 1
  else if q % 2 = 0 then q else q + 1

/-- The number `mantissa * 2 ^ exponent` in hundredths. -/
def hundredths (mantissa : Nat) (exponent : Int) : Nat :=
  roundDiv ((100 * mantissa) <<< exponent.toNat) (1 <<< (-exponent).toNat)

/-- A number with two decimal places. -/
def showHundredths : Binary → String
  | .undefined => "nan"
  | .infinite negative => (if negative then "-" else "") ++ "inf"
  | .finite negative mantissa exponent =>
    let n := hundredths mantissa exponent
    (if negative then "-" else "") ++ Nat.repr (n / 100) ++ "." ++ Nat.repr (n % 100 / 10)
      ++ Nat.repr (n % 10)

end Clausal.Text
