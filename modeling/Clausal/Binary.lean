/-!
# Binary numbers

Numbers with a fraction as they are kept in memory: a sign and an integer of up to 53 binary digits
that is scaled by a power of two. Two more values stand for infinity and for what is no number.
-/

namespace Clausal

/-- A number that is kept in binary. -/
inductive Binary where
  /-- The number `mantissa * 2 ^ exponent` with a sign; zero has one too. -/
  | finite (negative : Bool) (mantissa : Nat) (exponent : Int)
  | infinite (negative : Bool)
  /-- No number. -/
  | undefined
  deriving DecidableEq, Repr

namespace Binary

/-- The least mantissa with all 53 binary digits. -/
def leastFull : Nat := 4503599627370496

/-- The exponent of the numbers nearest to zero. -/
def leastExponent : Int := -1074

/-- The number that a word of 64 bits encodes. -/
def ofBits (bits : UInt64) : Binary :=
  let n := bits.toNat
  let negative := n >>> 63 == 1
  let scale := n / leastFull % 2048
  let fraction := n % leastFull
  if scale = 2047 then if fraction = 0 then .infinite negative else .undefined
  else if scale = 0 then .finite negative fraction leastExponent
  else .finite negative (leastFull + fraction) (leastExponent + (scale - 1))

/-- The number that the processor works with. -/
def ofFloat (x : Float) : Binary := ofBits x.toBits

/-- Whether a number is zero, with either sign. -/
def isZero : Binary → Bool
  | .finite _ m _ => m == 0
  | _ => false

/-- The integer that is left of `mantissa * 2 ^ exponent` without its fraction. -/
def wholePart (mantissa : Nat) (exponent : Int) : Nat :=
  if 0 ≤ exponent then mantissa <<< exponent.toNat else mantissa >>> (-exponent).toNat

end Binary

end Clausal
