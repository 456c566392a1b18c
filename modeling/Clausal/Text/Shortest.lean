import Clausal.Binary

/-!
# Shortest decimal numbers

Writing a binary number in decimal with as few digits as tell it from all others, and of the ways to
do so with the one that is nearest to it.
-/

namespace Clausal.Text

/-- A range of numbers around another one, all over one denominator. -/
structure Neighbourhood where
  low : Nat
  middle : Nat
  high : Nat
  denominator : Nat
  /-- Whether the ends belong to the range. -/
  closed : Bool

namespace Neighbourhood

/-- The numbers for which `mantissa * 2 ^ exponent` is the nearest binary number. Below the least
full mantissa binary numbers are twice as dense. The number halfway between two belongs to the one
with the even mantissa. -/
def ofBinary (mantissa : Nat) (exponent : Int) : Neighbourhood :=
  let scaled (n : Nat) := n <<< (exponent - 2).toNat
  let denser := mantissa == Binary.leastFull && Binary.leastExponent < exponent
  { low := scaled (4 * mantissa - if denser then 1 else 2)
    middle := scaled (4 * mantissa)
    high := scaled (4 * mantissa + 2)
    denominator := 1 <<< (2 - exponent).toNat
    closed := mantissa % 2 == 0 }

/-- The multiple of `10 ^ place` in the range that is nearest to the middle, by its factor; of two
equally near ones that with the even factor. -/
def multiple? (r : Neighbourhood) (place : Int) : Option Nat :=
  let scale := Nat.pow 10 (-place).toNat
  let step := r.denominator * Nat.pow 10 place.toNat
  let inside (factor : Nat) : Bool :=
    let n := factor * step
    if r.closed then r.low * scale ≤ n && n ≤ r.high * scale
    else r.low * scale < n && n < r.high * scale
  let below := r.middle * scale / step
  let twice := 2 * (r.middle * scale % step)
  let nearer := twice < step || (twice == step && below % 2 == 0)
  let candidates := if nearer then [below, below + 1] else [below + 1, below]
  candidates.find? inside

/-- The place of the first digit of the middle, counted from the units. No binary number but zero is
below `10 ^ -324`. -/
def leadingPlace (r : Neighbourhood) : Int :=
  (Nat.toDigits 10 (r.middle * Nat.pow 10 324 / r.denominator)).length - 325

/-- A multiple of a power of ten in the range, of the highest power for which there is one, by its
factor and the place of the power. Seventeen digits always suffice. -/
def shortest (r : Neighbourhood) : Nat × Int :=
  ((List.range 17).findSome? fun (i : Nat) =>
    (r.multiple? (r.leadingPlace - i)).map fun factor => (factor, r.leadingPlace - i)).getD (0, 0)

end Neighbourhood

/-- A number by its digits, where the decimal point is `point` digits after the first of them. From
`0.0001` to below `10 ^ 16` it is written with the point in place, otherwise with a power of ten. -/
def showDigits (digits : List Char) (point : Int) : String :=
  let zeros (n : Int) := List.replicate n.toNat '0'
  if -4 < point && point ≤ 16 then
    let shown := if point ≤ 0 then zeros (1 - point) ++ digits else digits
    let whole := max 1 point.toNat
    let fraction := shown.drop whole
    String.ofList (shown.take whole ++ zeros (point - digits.length) ++ '.' ::
      (if fraction.isEmpty then ['0'] else fraction))
  else
    let rest := if 1 < digits.length then '.' :: digits.drop 1 else []
    let power := Nat.toDigits 10 (point - 1).natAbs
    String.ofList (digits.take 1 ++ rest ++ 'e' :: (if point < 1 then '-' else '+')
      :: zeros (2 - power.length) ++ power)

/-- The decimal text of a binary number. -/
def showBinary : Binary → String
  | .undefined => "nan"
  | .infinite negative => (if negative then "-" else "") ++ "inf"
  | .finite negative 0 _ => (if negative then "-" else "") ++ "0.0"
  | .finite negative mantissa exponent =>
    let (factor, place) := (Neighbourhood.ofBinary mantissa exponent).shortest
    let digits := Nat.toDigits 10 factor
    let significant := (digits.reverse.dropWhile (· == '0')).reverse
    (if negative then "-" else "") ++ showDigits significant (place + digits.length)

end Clausal.Text
