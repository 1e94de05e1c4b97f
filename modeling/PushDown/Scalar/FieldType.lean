import PushDown.Scalar.Domain
import PushDown.Scalar.Scale

/-! # Column types

    The types a column or a result can have, with their numbers on the wire,
    their names, the domain their values are evaluated in, and the display
    length and scale they have when the catalog gives none.
-/

namespace PushDown

/-- The type of a column or of a result. -/
inductive FieldType
  | decimal
  | tiny
  | short
  | long
  | float
  | double
  | null
  | timestamp
  | longlong
  | int24
  | date
  | time
  | datetime
  | year
  | varchar
  | bit
  | newdecimal
  | enum
  | set
  | blob
  | varstring
  | string
  | geometry
  deriving DecidableEq, Repr

namespace FieldType

/-! ## §1. Codes and names -/

/-- Every type, in the order of the codes. -/
def all : List FieldType :=
  [decimal, tiny, short, long, float, double, null, timestamp, longlong, int24, date, time,
    datetime, year, varchar, bit, newdecimal, enum, set, blob, varstring, string, geometry]

/-- The number of the type on the wire. -/
def code : FieldType → Nat
  | decimal => 0
  | tiny => 1
  | short => 2
  | long => 3
  | float => 4
  | double => 5
  | null => 6
  | timestamp => 7
  | longlong => 8
  | int24 => 9
  | date => 10
  | time => 11
  | datetime => 12
  | year => 13
  | varchar => 15
  | bit => 16
  | newdecimal => 246
  | enum => 247
  | set => 248
  | blob => 252
  | varstring => 253
  | string => 254
  | geometry => 255

/-- The name of the type in a scenario. -/
def name : FieldType → String
  | decimal => "decimal"
  | tiny => "tiny"
  | short => "short"
  | long => "long"
  | float => "float"
  | double => "double"
  | null => "null"
  | timestamp => "timestamp"
  | longlong => "longlong"
  | int24 => "int24"
  | date => "date"
  | time => "time"
  | datetime => "datetime"
  | year => "year"
  | varchar => "varchar"
  | bit => "bit"
  | newdecimal => "newdecimal"
  | enum => "enum"
  | set => "set"
  | blob => "blob"
  | varstring => "varstring"
  | string => "string"
  | geometry => "geometry"

/-- The type with a given number, if there is one. -/
def ofCode? (code : Nat) : Option FieldType :=
  all.find? (·.code == code)

/-- The type with a given name, if there is one. -/
def ofName? (name : String) : Option FieldType :=
  all.find? (·.name == name)

@[simp] theorem ofCode?_code (t : FieldType) : ofCode? t.code = some t := by
  cases t <;> rfl

@[simp] theorem ofName?_name (t : FieldType) : ofName? t.name = some t := by
  cases t <;> decide

/-! ## §2. Classes -/

/-- The domain values of the type are evaluated in. -/
def domain : FieldType → Domain
  | tiny | short | long | longlong | int24 | year | bit => .int
  | float | double => .real
  | decimal | newdecimal => .decimal
  | null | timestamp | date | time | datetime | varchar | enum | set | blob | varstring | string
  | geometry => .string

/-- Whether values are points in time. -/
def isTemporal : FieldType → Bool
  | timestamp | date | time | datetime => true
  | _ => false

/-- Whether values are numbers. -/
def isNumeric (t : FieldType) : Bool :=
  match t.domain with
  | .int | .real | .decimal => true
  | .string | .row => false

/-- Whether values are texts. -/
def isString : FieldType → Bool
  | varchar | varstring | string | enum | set | blob => true
  | _ => false

/-! ## §3. Defaults -/

/-- The display length when none is given. -/
def defaultLength : FieldType → Nat
  | tiny => 4
  | short => 6
  | int24 => 9
  | long => 11
  | longlong => 20
  | float => 12
  | double => 22
  | decimal | newdecimal => 11
  | year => 4
  | date | time => 10
  | datetime | timestamp => 19
  | bit => 1
  | null => 0
  | varchar | varstring | string | enum | set => 255
  | blob | geometry => 65535

/-- The scale when none is given: no digits for integers, decimals and points in time, and not fixed
    for the rest. -/
def defaultScale (t : FieldType) : Scale :=
  match t.domain with
  | .int | .decimal => .fixed 0
  | .string | .real | .row => if t.isTemporal then .fixed 0 else .notFixed

theorem defaultLength_le (t : FieldType) : t.defaultLength ≤ maxFieldLength := by
  cases t <;> decide

end FieldType

/-- The type of a result computed in the domain. -/
def Domain.fieldType : Domain → FieldType
  | .int => .longlong
  | .real => .double
  | .decimal => .newdecimal
  | .string | .row => .varstring

end PushDown
