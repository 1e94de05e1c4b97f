/-! # Shortest decimals

    A double is a sign and a number `m · 2 ^ q`. The reals that round to it
    form an interval around it, ends included exactly when `m` is even. The
    shortest decimal of the double is the one with the fewest significant
    digits in that interval; of several it is the nearest. Of two equally near
    the greater is taken, or the one with an even last digit, as the tie rule
    has it.

    A decimal with `n` digits lies on the grid of multiples of a power of ten.
    If any point of a grid is in the interval then so is one of the two grid
    points next to the double, so it is enough to test these two on each grid,
    coarsest first. All arithmetic is exact.
-/

namespace PushDown.Decimal

/-! ## §1. Doubles -/

/-- What a double stands for, sign apart. -/
inductive Magnitude
  /-- The number `m · 2 ^ q`. -/
  | finite (m : Nat) (q : Int)
  | infinite
  | notANumber

/-- The leading bit of a significand of full length, `2 ^ 52`. -/
def hiddenBit : Nat := 4503599627370496

/-- The magnitude with the given bits: 52 bits of fraction below 11 bits of exponent. -/
def Magnitude.ofBits (bits : UInt64) : Magnitude :=
  let fraction : Nat := bits.toNat % hiddenBit
  let exponent : Nat := bits.toNat / hiddenBit % 2048
  if exponent = 2047 then
    if fraction = 0 then .infinite else .notANumber
  else if exponent = 0 then
    .finite fraction (-1074)
  else
    .finite (hiddenBit + fraction) ((exponent : Int) - 1075)

/-- Whether the sign bit is set. -/
def isNegative (bits : UInt64) : Bool :=
  bits.toNat / (hiddenBit * 2048) % 2 == 1

/-! ## §2. Decimals -/

/-- The number `digits · 10 ^ exponent`. -/
structure Digits where
  digits   : Nat
  exponent : Int
  deriving DecidableEq, Repr

/-- The decimal without zeros at the end of its digits. -/
def Digits.trim (d : Digits) : Digits :=
  if h : d.digits ≠ 0 ∧ d.digits % 10 = 0 then
    Digits.trim ⟨d.digits / 10, d.exponent + 1⟩
  else
    d
termination_by d.digits
decreasing_by exact Nat.div_lt_self (Nat.pos_of_ne_zero h.1) (by decide)

/-- The decimal equal to `m · 2 ^ q`. -/
def exact (m : Nat) (q : Int) : Digits :=
  if 0 ≤ q then ⟨m * Nat.pow 2 q.toNat, 0⟩ else ⟨m * Nat.pow 5 (-q).toNat, q⟩

/-! ## §3. The interval of a double -/

/-- A double and the ends of its interval, as multiples of `2 ^ unit`. -/
structure Interval where
  low    : Nat
  middle : Nat
  high   : Nat
  unit   : Int
  closed : Bool

/-- The interval of the reals that round to `m · 2 ^ q`. Below a power of two the doubles are twice as
    dense, so the lower end is nearer there. -/
def Interval.of (m : Nat) (q : Int) : Interval :=
  { low := if m = hiddenBit ∧ -1074 < q then 4 * m - 1 else 4 * m - 2
    middle := 4 * m
    high := 4 * m + 2
    unit := q - 2
    closed := m % 2 = 0 }

/-- Numerator and denominator of the unit of the interval over the grid `10 ^ grid`. -/
def Interval.ratio (i : Interval) (grid : Int) : Nat × Nat :=
  (Nat.pow 2 i.unit.toNat * Nat.pow 10 (-grid).toNat,
    Nat.pow 2 (-i.unit).toNat * Nat.pow 10 grid.toNat)

/-- Whether the grid point `point · 10 ^ grid` lies in the interval. -/
def Interval.holds (i : Interval) (grid : Int) (point : Nat) : Bool :=
  let (num, den) := i.ratio grid
  if i.closed then
    i.low * num ≤ point * den && point * den ≤ i.high * num
  else
    i.low * num < point * den && point * den < i.high * num

/-- Which of two decimals that are equally near is taken. -/
inductive Tie
  | greater
  | even
  deriving DecidableEq, Repr

/-- Whether `below` is taken when the middle is halfway between `below` and `below + 1`. -/
def Tie.takesLower (tie : Tie) (below : Nat) : Bool :=
  match tie with
  | greater => false
  | even => below % 2 == 0

/-- Whether the grid point `below` is nearer to the middle `num / den` than the next one, or is taken
    before it on a tie. -/
def Tie.prefersLower (tie : Tie) (num den below : Nat) : Bool :=
  match compare (2 * num) ((2 * below + 1) * den) with
  | .lt => true
  | .eq => tie.takesLower below
  | .gt => false

/-- The point of the grid in the interval that is nearest to its middle, if there is one. -/
def Interval.point? (i : Interval) (tie : Tie) (grid : Int) : Option Digits :=
  let (num, den) := i.ratio grid
  let below := i.middle * num / den
  match i.holds grid below, i.holds grid (below + 1) with
  | true, true =>
    if tie.prefersLower (i.middle * num) den below then some ⟨below, grid⟩
    else some ⟨below + 1, grid⟩
  | true, false => some ⟨below, grid⟩
  | false, true => some ⟨below + 1, grid⟩
  | false, false => none

/-- The greatest `k` with `10 ^ k` at most the middle of the interval, for a middle that is not 0. -/
def Interval.scale (i : Interval) : Int :=
  let (num, den) := i.ratio 0
  if den ≤ i.middle * num then
    (Nat.toDigits 10 (i.middle * num / den)).length - 1
  else
    match (List.range 400).find? fun j => den ≤ i.middle * num * Nat.pow 10 j with
    | some j => -j
    | none => -400

/-! ## §4. The search -/

/-- The shortest decimal that rounds to `m · 2 ^ q`. Seventeen digits are always enough; the exact
    value closes the search. -/
def shortest (tie : Tie) (m : Nat) (q : Int) : Digits :=
  if m = 0 then
    ⟨0, 0⟩
  else
    let i := Interval.of m q
    let k := i.scale
    (((List.range 17).findSome? fun (n : Nat) => i.point? tie (k - n)).getD (exact m q)).trim

end PushDown.Decimal
