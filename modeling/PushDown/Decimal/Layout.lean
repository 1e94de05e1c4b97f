import PushDown.Decimal.Shortest

/-! # Writing reals

    A layout says how the shortest decimal of a double is set out: which of two
    equally near decimals is taken, between which exponents the digits are
    written positionally, what follows a whole number, how an exponent is
    marked, and what stands for the values that are no numbers.
-/

namespace PushDown.Decimal

/-- How reals are written. The exponent of a number is the power of ten of its first digit. -/
structure Layout where
  tie         : Tie
  /-- The least exponent that is written positionally. -/
  least       : Int
  /-- The greatest exponent that is written positionally. -/
  greatest    : Int
  /-- What follows the digits of a whole number in positional form. -/
  wholeSuffix : String
  /-- What stands between digits and exponent. -/
  mark        : String
  infinite    : String
  notANumber  : String

/-- `count` zeros. -/
def zeros (count : Nat) : String :=
  String.ofList (List.replicate count '0')

/-- Digits with the point where the exponent of the first digit puts it. -/
def Layout.positional (layout : Layout) (digits : List Char) (exponent : Int) : String :=
  if exponent < 0 then
    "0." ++ zeros ((-exponent).toNat - 1) ++ String.ofList digits
  else
    let whole := exponent.toNat + 1
    if digits.length ≤ whole then
      String.ofList digits ++ zeros (whole - digits.length) ++ layout.wholeSuffix
    else
      String.ofList (digits.take whole) ++ "." ++ String.ofList (digits.drop whole)

/-- Digits with the point after the first one, and the exponent. -/
def Layout.scientific (layout : Layout) (digits : List Char) (exponent : Int) : String :=
  String.ofList (digits.take 1) ++
    (if digits.length ≤ 1 then "" else "." ++ String.ofList (digits.drop 1)) ++
    layout.mark ++ toString exponent

/-- The text of a decimal. -/
def Layout.writeDigits (layout : Layout) (d : Digits) : String :=
  let digits := Nat.toDigits 10 d.digits
  let exponent := d.exponent + (digits.length - 1 : Nat)
  if layout.least ≤ exponent ∧ exponent ≤ layout.greatest then
    layout.positional digits exponent
  else
    layout.scientific digits exponent

/-- The text of a double. -/
def Layout.write (layout : Layout) (x : Float) : String :=
  let sign := if isNegative x.toBits then "-" else ""
  match Magnitude.ofBits x.toBits with
  | .finite m q => sign ++ layout.writeDigits (shortest layout.tie m q)
  | .infinite => sign ++ layout.infinite
  | .notANumber => layout.notANumber

end PushDown.Decimal
