import PushDown.Scalar.FieldType

/-! # Result attributes

    What is inferred about the values of an expression: type, display length,
    scale and nullability. They hold once the expression is fixed.
-/

namespace PushDown

/-- The attributes of the result of an expression. -/
structure Attributes where
  /-- Whether the other attributes are settled. -/
  fixed     : Bool
  maybeNull : Bool
  /-- Whether the value is known to be `NULL`. -/
  nullValue : Bool
  maxLength : Nat
  scale     : Scale
  fieldType : FieldType
  deriving DecidableEq, Repr

namespace Attributes

/-- The attributes of a call before anything is inferred. -/
def unfixed : Attributes where
  fixed     := false
  maybeNull := false
  nullValue := false
  maxLength := 0
  scale     := .fixed 0
  fieldType := .null

/-- The attributes of a column reference that is bound to no table. -/
def unbound : Attributes where
  fixed     := false
  maybeNull := true
  nullValue := false
  maxLength := 0
  scale     := .notFixed
  fieldType := .null

/-- The domain the values are evaluated in. -/
def domain (a : Attributes) : Domain :=
  a.fieldType.domain

/-- The number of digits as a fixed-point value. -/
def precision (a : Attributes) : Nat :=
  min a.maxLength decimalMaxPrecision

/-- The number of digits before the point as a fixed-point value. -/
def intPart (a : Attributes) : Nat :=
  a.precision - a.scale.fixedPoint

/-- Marks the value as `NULL`: a division by zero or by `NULL`. -/
def divideByNull (a : Attributes) : Attributes :=
  { a with nullValue := true, maybeNull := true }

end Attributes

end PushDown
