import PushDown.Scalar.FieldType

/-! # Columns -/

namespace PushDown

/-- A column of a table: all that type inference starts from. -/
structure Column where
  name      : String
  fieldType : FieldType
  maxLength : Nat
  scale     : Scale
  nullable  : Bool
  deriving DecidableEq, Repr

namespace Column

/-- A nullable column with the length and scale that its type has by default. -/
def ofType (name : String) (fieldType : FieldType) : Column :=
  { name, fieldType
    maxLength := fieldType.defaultLength
    scale := fieldType.defaultScale
    nullable := true }

/-- The column with another display length. -/
def withLength (column : Column) (maxLength : Nat) : Column :=
  { column with maxLength }

/-- The column with another scale. It goes through its number on the wire, so a fixed scale of 31 or
    more is stored as not fixed. -/
def withScale (column : Column) (scale : Scale) : Column :=
  { column with scale := .ofRaw scale.raw }

/-- The column without `NULL`. -/
def notNull (column : Column) : Column :=
  { column with nullable := false }

end Column

end PushDown
