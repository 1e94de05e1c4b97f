import PushDown.Decimal.Layout
import PushDown.Json.Basic

/-! # Writing JSON

    A value is written without blanks between its tokens.

    A number that is an integer of 64 bits, with or without sign, keeps its
    digits. Any other number is written as the double it is read as, by its
    shortest digits. Reading a number need not find the nearest double, so a
    number that is written and read again can be another one.

    There is no text for a number that is too large for a double, nor for a
    text that holds half of a surrogate pair.
-/

namespace PushDown.Json

/-! ## §1. Numbers -/

/-- Reals are written positionally from `0.00001` to below `10 ^ 16`, with `.0` after a whole number, and
    with a bare exponent beyond. What is no finite number is written as no value. -/
def Number.realLayout : Decimal.Layout where
  tie         := .even
  least       := -5
  greatest    := 15
  wholeSuffix := ".0"
  mark        := "e"
  infinite    := "null"
  notANumber  := "null"

/-- Whether an integer fits into 64 bits, with or without sign. -/
def Number.fits64 (value : Int) : Bool :=
  -9223372036854775808 ≤ value && value ≤ 18446744073709551615

/-- The text of a number, unless it is too large for a double. -/
def Number.write? (n : Number) : Option String :=
  match n.int?.filter fits64 with
  | some value => some (toString value)
  | none => n.real?.map realLayout.write

/-! ## §2. Texts -/

/-- A character between quotes: quotes, backslashes and control characters are escaped. -/
def escape (c : Char) : List Char :=
  if c = '"' then ['\\', '"']
  else if c = '\\' then ['\\', '\\']
  else if c.toNat < 0x20 then
    ['\\', 'u', '0', '0', Nat.digitChar (c.toNat / 16), Nat.digitChar (c.toNat % 16)]
  else [c]

/-- A text between quotes. -/
def quote (text : String) : String :=
  "\"" ++ String.ofList (text.toList.flatMap escape) ++ "\""

/-! ## §3. Values -/

mutual

/-- The text of a value, if it has one. -/
def write? : Json → Option String
  | null => some "null"
  | bool value => some (if value then "true" else "false")
  | number n => n.write?
  | text value => value.map quote
  | array items => (writeItems? items).map fun written => "[" ++ ",".intercalate written ++ "]"
  | object members =>
    (writeMembers? members).map fun written => "\x7b" ++ ",".intercalate written ++ "\x7d"

/-- The texts of the items of a list, if all of them have one. -/
def writeItems? : List Json → Option (List String)
  | [] => some []
  | item :: items =>
    match write? item, writeItems? items with
    | some written, some others => some (written :: others)
    | _, _ => none

/-- The texts of the members of an object, if all of them have one. -/
def writeMembers? : List (Option String × Json) → Option (List String)
  | [] => some []
  | (name, value) :: members =>
    match name, write? value, writeMembers? members with
    | some name, some written, some others => some ((quote name ++ ":" ++ written) :: others)
    | _, _, _ => none

end

end PushDown.Json
