import PushDown.Decimal.Layout
import PushDown.Scalar.FieldType

/-! # Constants

    The constants that can stand in an expression, with the type, length and
    scale each of them has and the text it is written as. A decimal is kept as
    it was written, so `1.50` and `1.5` are different constants.
-/

namespace PushDown

/-- A constant. -/
inductive Value
  | null
  | int (n : Int)
  | real (x : Float)
  /-- A fixed-point number as it was written. -/
  | decimal (text : String)
  | string (text : String)

namespace Value

/-! ## §1. Text -/

/-- Reals have their shortest digits, positionally from `0.0001` to below `10 ^ 16`, with `.0` after a
    whole number, and with a bare exponent beyond. -/
def realLayout : Decimal.Layout where
  tie         := .greater
  least       := -4
  greatest    := 15
  wholeSuffix := ".0"
  mark        := "e"
  infinite    := "inf"
  notANumber  := "NaN"

/-- The characters of a quoted text: each quote is written twice. -/
def doubleQuotes : List Char → List Char
  | [] => []
  | c :: rest => if c = '\'' then '\'' :: '\'' :: doubleQuotes rest else c :: doubleQuotes rest

/-- A text between quotes. -/
def quote (text : String) : String :=
  "'" ++ String.ofList (doubleQuotes text.toList) ++ "'"

/-- The constant as it is written in a query. -/
def text : Value → String
  | null => "NULL"
  | int n => toString n
  | real x => realLayout.write x
  | decimal t => t
  | string t => quote t

/-! ## §2. Type, length and scale -/

/-- The type of the constant. -/
def fieldType : Value → FieldType
  | null => .null
  | int _ => .longlong
  | real _ => .double
  | decimal _ => .newdecimal
  | string _ => .varstring

/-- Whether the constant is `NULL`. -/
def isNull : Value → Bool
  | null => true
  | _ => false

/-- The characters of a decimal after its leading signs. -/
def unsigned (text : String) : List Char :=
  text.toList.dropWhile fun c => c == '-' || c == '+'

/-- Whether the constant is the number zero. A decimal is zero when nothing but zeros and points
    follows its signs. -/
def isZero : Value → Bool
  | int n => n == 0
  | real x => x == 0.0
  | decimal t => (unsigned t).all fun c => c == '0' || c == '.'
  | null | string _ => false

/-- The number of bytes that the characters take up in UTF-8. -/
def byteCount (chars : List Char) : Nat :=
  chars.foldl (fun count c => count + c.utf8Size) 0

/-- The display length: characters of a text, bytes of a decimal without its leading signs and its
    points, bytes of the written form of any other number. -/
def maxLength : Value → Nat
  | null => 0
  | string t => lengthOfCount t.length
  | decimal t => lengthOfCount (byteCount ((unsigned t).filter (· ≠ '.')))
  | int n => lengthOfCount (toString n).utf8ByteSize
  | real x => lengthOfCount (realLayout.write x).utf8ByteSize

/-- The scale. That of a decimal is the number of bytes after its first point. -/
def scale : Value → Scale
  | null | int _ => .fixed 0
  | real _ | string _ => .notFixed
  | decimal t => .fixed (lengthOfCount (byteCount ((t.toList.dropWhile (· ≠ '.')).drop 1)))

theorem maxLength_le (v : Value) : v.maxLength ≤ maxFieldLength := by
  cases v <;> simp [maxLength, lengthOfCount_le]

end Value

end PushDown
