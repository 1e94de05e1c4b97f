/-! # Numbers in JSON

    A number is kept as it was written: sign, digits before and after the
    point, and exponent. It is read as an integer or as a real where it is
    used.

    An integer has neither point nor exponent, and `-0` is none.

    A real is read in double precision from the digits that fit a 64-bit
    significand. Digits before the point that do not fit count towards the
    exponent, and digits after it are left out. The significand is then
    multiplied or divided once by a power of ten; exponents below `-308` are
    worked off by dividing by `10 ^ 308` first.
-/

namespace PushDown.Json

/-- A number as it was written. Digits are the numbers 0 to 9. -/
structure Number where
  negative : Bool
  /-- The digits before the point. -/
  whole    : List Nat
  /-- The digits after the point, if there is one. -/
  fraction : Option (List Nat)
  /-- Whether the exponent is negative, and its digits, if there is one. -/
  exponent : Option (Bool × List Nat)
  deriving DecidableEq, Repr

namespace Number

/-! ## §1. Integers -/

/-- The natural number with the given decimal digits. -/
def ofDigits (digits : List Nat) : Nat :=
  digits.foldl (fun acc d => acc * 10 + d) 0

/-- The number as an integer. -/
def int? (n : Number) : Option Int :=
  match n.fraction, n.exponent with
  | none, none =>
    let magnitude := ofDigits n.whole
    if n.negative then
      if magnitude = 0 then none else some (-(magnitude : Int))
    else
      some magnitude
  | _, _ => none

/-! ## §2. Reals -/

/-- What a 64-bit significand stays below. -/
def significandBound : Nat := 18446744073709551616

/-- Takes digits into a 64-bit significand up to the first that does not fit; answers the significand
    and the number of digits that are left. -/
def absorb (significand : Nat) : List Nat → Nat × Nat
  | [] => (significand, 0)
  | d :: ds =>
    if significand * 10 + d < significandBound then absorb (significand * 10 + d) ds
    else (significand, ds.length + 1)

/-- The power of ten with the given exponent, for exponents to 308. -/
def tenTo (n : Nat) : Float :=
  Float.ofScientific 1 false n

/-- The value of `x · 10 ^ exponent`, unless it is too large for a double. Three divisions by
    `10 ^ 308` leave nothing of a 64-bit significand. -/
def scale (divisions : Nat) (x : Float) (exponent : Int) : Option Float :=
  if exponent.natAbs ≤ 308 then
    if 0 ≤ exponent then
      let y := x * tenTo exponent.toNat
      if y.isInf then none else some y
    else
      some (x / tenTo exponent.natAbs)
  else if x == 0.0 then some x
  else if 0 ≤ exponent then none
  else
    match divisions with
    | 0 => some 0.0
    | divisions + 1 => scale divisions (x / tenTo 308) (exponent + 308)

/-- The greatest size of an exponent that is worked out. -/
def greatestExponent : Nat := 2147483647

/-- The magnitude of the number as a real, unless it is too large for a double. -/
def magnitude? (n : Number) : Option Float :=
  let (significand, dropped) := absorb 0 n.whole
  let fraction := n.fraction.getD []
  let (significand, ignored) := absorb significand fraction
  let exponent : Int := (dropped : Int) - (fraction.length - ignored : Nat)
  let x := significand.toUInt64.toFloat
  match n.exponent with
  | none => scale 3 x exponent
  | some (negative, digits) =>
    let written := ofDigits digits
    if greatestExponent < written then
      if significand ≠ 0 ∧ !negative then none else some 0.0
    else
      scale 3 x (if negative then exponent - written else exponent + written)

/-- The number as a real, unless it is too large for a double. -/
def real? (n : Number) : Option Float :=
  n.magnitude?.map fun x => if n.negative then -x else x

end Number

end PushDown.Json
