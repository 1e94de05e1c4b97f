import PushDown.Expr.Basic

/-! # Type inference

    The attributes of a call follow from its function and from the attributes
    of its arguments. Three rules give length and scale.

    - Real: the widest integer part and the widest scale. Once a scale that is
      not fixed has been met, the widest length.
    - Decimal: the same, with lengths cut at 65 digits and scales at 30.
    - Text: the sum of the lengths, or the greatest, as the function has it.

    A length that would leave its range, and an argument that is not there, are
    faults: no call that a registry makes has either.
-/

namespace PushDown

/-! ## §1. Checked lengths -/

namespace Length

/-- The sum of two lengths. -/
def add (a b : Nat) : Except Fault Nat :=
  if a + b ≤ maxFieldLength then .ok (a + b) else .error .lengthTooGreat

/-- The difference of two lengths. -/
def sub (a b : Nat) : Except Fault Nat :=
  if b ≤ a then .ok (a - b) else .error .lengthBelowZero

/-- The sum of two lengths, or the greatest length where the sum is above it. -/
def saturatingAdd (a b : Nat) : Nat :=
  min (a + b) maxFieldLength

end Length

/-! ## §2. Real, decimal and text rules -/

namespace Attributes

/-- What the real rule knows after some arguments. -/
structure RealExtent where
  intPart   : Nat
  scale     : Scale
  maxLength : Nat

/-- The extent of no arguments. -/
def RealExtent.start : RealExtent := ⟨0, .fixed 0, 0⟩

/-- The extent after one more argument. Integer parts count while every scale before is fixed. -/
def RealExtent.step (extent : RealExtent) (arg : Attributes) : RealExtent :=
  let maxLength := Nat.max extent.maxLength arg.maxLength
  match extent.scale, arg.scale with
  | .fixed s, .fixed t =>
    ⟨Nat.max extent.intPart (arg.maxLength - t), .fixed (Nat.max t s), maxLength⟩
  | _, _ => ⟨extent.intPart, .notFixed, maxLength⟩

/-- The extent of a list of arguments. -/
def realExtent (args : List Attributes) : RealExtent :=
  args.foldl RealExtent.step .start

/-- The length of an extent: integer part and scale together when the scale is fixed, and the greatest
    length otherwise. -/
def RealExtent.length (extent : RealExtent) : Nat :=
  match extent.scale with
  | .fixed s => Length.saturatingAdd extent.intPart s
  | .notFixed => extent.maxLength

/-- Length and scale by the real rule. -/
def withReal (args : List Attributes) (a : Attributes) : Attributes :=
  let extent := realExtent args
  { a with maxLength := extent.length, scale := extent.scale }

/-- The widest scale of the arguments as fixed-point values. -/
def widestScale (args : List Attributes) : Nat :=
  args.foldl (fun acc arg => Nat.max acc arg.scale.fixedPoint) 0

/-- The widest integer part of the arguments as fixed-point values. -/
def widestIntPart (args : List Attributes) : Nat :=
  args.foldl (fun acc arg => Nat.max acc arg.intPart) 0

/-- Length and scale by the decimal rule. -/
def withDecimal (args : List Attributes) (a : Attributes) : Except Fault Attributes := do
  let scale := widestScale args
  let maxLength ← Length.add (widestIntPart args) scale
  return { a with maxLength, scale := .fixed scale }

/-- The sum of the lengths. -/
def totalLength (args : List Attributes) : Nat :=
  args.foldl (fun acc arg => Length.saturatingAdd acc arg.maxLength) 0

/-- The greatest of the lengths. -/
def greatestLength (args : List Attributes) : Nat :=
  args.foldl (fun acc arg => Nat.max acc arg.maxLength) 0

/-- A text of the given length. -/
def withText (maxLength : Nat) (a : Attributes) : Attributes :=
  { a with maxLength, scale := .notFixed, fieldType := .varstring }

/-- A truth value. -/
def withTruth (a : Attributes) : Attributes :=
  { a with fieldType := .longlong, maxLength := 1, scale := .fixed 0 }

/-! ## §3. Domains -/

/-- The domain of arithmetic on the arguments. Arguments of type `NULL` have no say. -/
def numericDomain (args : List Attributes) : Domain :=
  ((args.filter fun arg => arg.fieldType != .null).map domain).foldl Domain.merge .int

/-- The domain of a choice between the arguments: text when all of them are texts, and otherwise as in
    arithmetic. Arguments of type `NULL` have no say. -/
def mergedDomain (args : List Attributes) : Domain :=
  if (args.filter fun arg => arg.fieldType != .null).all fun arg => arg.domain == .string then
    .string
  else
    numericDomain args

/-- Length, scale and type of a number in the given domain. -/
def withNumeric (domain : Domain) (args : List Attributes) (a : Attributes) :
    Except Fault Attributes := do
  let a ← if domain = .real then pure (withReal args a) else withDecimal args a
  return { a with fieldType := domain.fieldType }

/-- How many digits a division adds to the scale of a fixed-point value. -/
def divisionScale : Nat := 4

/-- A fixed-point value with the digits that a division adds, as far as the greatest scale goes. -/
def withQuotient (args : List Attributes) (a : Attributes) : Except Fault Attributes := do
  let a ← withDecimal args a
  let scale := a.scale.digits?.getD 0
  let intPart ← Length.sub a.maxLength scale
  let widened := min (← Length.add scale divisionScale) decimalMaxScale
  let maxLength ← Length.add intPart widened
  return { a with maxLength, scale := .fixed widened, fieldType := .newdecimal }

end Attributes

/-! ## §4. What depends on more than attributes -/

namespace Expr

/-- The argument at a position. -/
def argument (args : List Expr) (i : Nat) : Except Fault Expr :=
  match args[i]? with
  | some arg => .ok arg
  | none => .error (.noSuchArgument i)

/-- Whether the second argument is a constant zero or `NULL`. -/
def dividesByNull (args : List Expr) : Bool :=
  match args[1]? with
  | some (literal v) => v.isNull || v.isZero
  | _ => false

/-- The attributes of a quotient: it is `NULL` when the divisor is a constant zero or `NULL`. -/
def asQuotient (args : List Expr) (a : Attributes) : Attributes :=
  let a := { a with maybeNull := true }
  if dividesByNull args then a.divideByNull else a

/-- Whether some argument is a bound column whose type passes the test. The types are there only once
    the arguments are fixed. -/
def anyColumn (args : List Expr) (test : FieldType → Bool) : Except Fault Bool :=
  if args.all isFixed then
    .ok (args.any fun
      | field f => test f.column.fieldType
      | _ => false)
  else
    .error .unfixedArgument

/-- Whether some argument is a column of timestamps. -/
def anyTimestamp (args : List Expr) : Except Fault Bool :=
  anyColumn args (· == .timestamp)

/-- Whether some argument is a column of dates, with or without a time. -/
def anyDate (args : List Expr) : Except Fault Bool :=
  anyColumn args fun t => t == .date || t == .datetime

/-- Whether some argument is a column of times, with or without a date. -/
def anyTime (args : List Expr) : Except Fault Bool :=
  anyColumn args fun t => t == .time || t == .datetime

/-- Whether some argument is a column of dates with a time. -/
def anyDatetime (args : List Expr) : Except Fault Bool :=
  anyColumn args (· == .datetime)

/-- The type of the latest or earliest of the arguments, when columns among them are points in time. -/
def temporalType? (args : List Expr) : Except Fault (Option FieldType) := do
  let datetime ← anyDatetime args
  let date ← anyDate args
  let time ← anyTime args
  let timestamp ← anyTimestamp args
  return if datetime || (date && time) then some .datetime
    else if date then some .date
    else if time then some .time
    else if timestamp then some .timestamp
    else none

/-- The digits of a second that the current time is asked for: 0 to 6, as the first argument says. -/
def secondDigits (args : List Expr) : Nat :=
  match args[0]? with
  | some (literal (.int n)) => min n.toNat 6
  | _ => 0

/-- The length of so many digits of a second and the point before them. -/
def fractionLength (digits : Nat) : Except Fault Nat :=
  if 0 < digits then Length.add digits 1 else .ok 0

/-! ## §5. Functions -/

/-- The attributes of the arguments. -/
def attributesOf (args : List Expr) : List Attributes :=
  args.map attributes

/-- The text rule of a function. Functions without one leave the attributes as they are. -/
def inferText (f : Func) (args : List Expr) (a : Attributes) : Attributes :=
  match f with
  | .builtin .concat => a.withText (Attributes.totalLength (attributesOf args))
  | .builtin .castChar | .builtin .coalesce | .builtin .ifNull | .builtin .greatest
  | .builtin .least => a.withText (Attributes.greatestLength (attributesOf args))
  | _ => a

/-- A choice between the arguments. -/
def inferChoice (f : Func) (args : List Expr) (a : Attributes) : Except Fault Attributes :=
  match Attributes.mergedDomain (attributesOf args) with
  | .string => .ok (inferText f args a)
  | domain => Attributes.withNumeric domain (attributesOf args) a

/-- The attributes of a call of a built-in function, from those that it has so far. -/
def inferBuiltin (f : Builtin) (args : List Expr) (a : Attributes) : Except Fault Attributes :=
  let attrs := attributesOf args
  let domain := Attributes.numericDomain attrs
  match f with
  | .eq | .ne | .lt | .le | .gt | .ge | .like | .and | .or | .xor | .not | .between | .inList
  | .stContains | .stIntersects | .stWithin => .ok a.withTruth
  | .nullSafeEq | .isNull | .isNotNull => .ok { a.withTruth with maybeNull := false }
  | .plus | .minus | .mul => a.withNumeric domain attrs
  | .div => do
    let a ← if domain = .real then a.withNumeric domain attrs else a.withQuotient attrs
    return asQuotient args a
  | .intDiv => do
    let a ← a.withDecimal attrs
    let maxLength ← Length.sub a.maxLength (a.scale.digits?.getD 0)
    return asQuotient args { a with maxLength, scale := .fixed 0, fieldType := .longlong }
  | .mod => do
    let a ← a.withNumeric domain attrs
    return asQuotient args a
  | .neg | .abs =>
    let maxLength := (attrs.head?.map (·.maxLength)).getD 0
    let scale := (attrs.head?.map (·.scale)).getD (.fixed 0)
    let maxLength := if f = .neg then Length.saturatingAdd maxLength 1 else maxLength
    .ok { a with maxLength, scale, fieldType := domain.fieldType }
  | .concat | .castChar => .ok (inferText (.builtin f) args a)
  | .coalesce => do
    let a ← inferChoice (.builtin f) args a
    return { a with maybeNull := attrs.all (·.maybeNull) }
  | .ifNull => do
    let a ← inferChoice (.builtin f) args a
    let second ← argument args 1
    return { a with maybeNull := second.attributes.maybeNull }
  | .greatest | .least => do
    match ← temporalType? args with
    | some fieldType =>
      return { a with fieldType, maxLength := fieldType.defaultLength, scale := .fixed 0 }
    | none => inferChoice (.builtin f) args a
  | .now => do
    let digits := secondDigits args
    let maxLength ← Length.add FieldType.datetime.defaultLength (← fractionLength digits)
    return { a with fieldType := .datetime, maxLength, scale := .fixed digits, maybeNull := false }
  | .rand =>
    .ok { a with
      fieldType := .double, maxLength := FieldType.double.defaultLength, scale := .notFixed
      maybeNull := false }
  | .uuid =>
    .ok { a with fieldType := .varstring, maxLength := 36, scale := .notFixed, maybeNull := false }
  | .userVar | .sysVar =>
    .ok { a with
      fieldType := .varstring, maxLength := FieldType.varstring.defaultLength, scale := .notFixed
      maybeNull := true }
  | .sum => do
    let a ← a.withNumeric (if domain = .real then .real else .decimal) attrs
    return { a with maybeNull := true }
  | .avg => do
    let a ← if domain = .real then a.withNumeric domain attrs else a.withQuotient attrs
    return { a with maybeNull := true }
  | .count =>
    .ok { a with fieldType := .longlong, maxLength := 21, scale := .fixed 0, maybeNull := false }
  | .min | .max => do
    let first := (← argument args 0).attributes
    return { a with
      fieldType := first.fieldType, maxLength := first.maxLength, scale := first.scale
      maybeNull := true }

/-- The attributes of a call, from those that it has so far. -/
def infer (f : Func) (args : List Expr) (a : Attributes) : Except Fault Attributes :=
  match f with
  | .builtin b => inferBuiltin b args a
  | .user declaration => do
    let a ← match declaration.rule with
      | .real => pure (a.withReal (attributesOf args))
      | .decimal => a.withDecimal (attributesOf args)
      | .string => pure (inferText f args a)
    return { a with fieldType := declaration.fieldType }

end Expr

end PushDown
