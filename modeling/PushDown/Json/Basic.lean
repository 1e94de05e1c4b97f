import PushDown.Json.Number

/-! # JSON values

    Values keep what was written: numbers their digits, and objects all their
    members in order, repeated ones included. A text that names a code point
    which is no character is kept as unreadable. It does no harm where it is
    not looked at.
-/

namespace PushDown

/-- A JSON value. -/
inductive Json
  | null
  | bool (value : Bool)
  | number (value : Json.Number)
  /-- A text; `none` when it holds half of a surrogate pair. -/
  | text (value : Option String)
  | array (items : List Json)
  | object (members : List (Option String × Json))

namespace Json

/-! ## §1. Plain values -/

/-- The value as a readable text. -/
def text? : Json → Option String
  | text value => value
  | _ => none

/-- The value as a truth value. -/
def bool? : Json → Option Bool
  | bool value => some value
  | _ => none

/-- The value as a natural number up to a greatest one. -/
def nat? (greatest : Nat) : Json → Option Nat
  | number n =>
    match n.int? with
    | some (.ofNat value) => if value ≤ greatest then some value else none
    | _ => none
  | _ => none

/-- The value as an integer of 64 bits. -/
def int64? : Json → Option Int
  | number n =>
    n.int?.filter fun value => -9223372036854775808 ≤ value && value ≤ 9223372036854775807
  | _ => none

/-- The value as a real; integers are reals too. -/
def real? : Json → Option Float
  | number n => n.real?
  | _ => none

/-- The value as a list. -/
def items? : Json → Option (List Json)
  | array items => some items
  | _ => none

/-! ## §2. Records and variants -/

/-- The names of the members, if all of them are readable. -/
def memberNames? (members : List (Option String × Json)) : Option (List String) :=
  members.mapM (·.1)

/-- Puts the first items to the given number of fields; fields beyond them are absent, and there must
    be no items beyond the fields. -/
def fieldsInOrder : (count : Nat) → List Json → Option (List (Option Json))
  | 0, [] => some []
  | 0, _ :: _ => none
  | count + 1, [] => (fieldsInOrder count []).map (none :: ·)
  | count + 1, item :: items => (fieldsInOrder count items).map (some item :: ·)

/-- The fields of a record, in the order of their names. A record is an object, in which no field
    occurs twice and other members are left alone, or a list of the fields in order. -/
def fields? (names : List String) : Json → Option (List (Option Json))
  | object members =>
    match memberNames? members with
    | none => none
    | some present =>
      if names.any fun name => 1 < present.count name then none
      else some (names.map fun name => members.lookup (some name))
  | array items => fieldsInOrder names.length items
  | _ => none

/-- The name and the content of a variant. A variant is an object with a single member, or its bare
    name when it has no content. -/
def variant? : Json → Option (String × Option Json)
  | text (some name) => some (name, none)
  | object [(some name, content)] => some (name, some content)
  | _ => none

/-- Whether the content of a variant counts as none: it is absent or `null`. -/
def isBlank : Option Json → Bool
  | none | some null => true
  | some _ => false

/-- The name of a variant that has no content. -/
def tag? (json : Json) : Option String :=
  match json.variant? with
  | some (name, content) => if isBlank content then some name else none
  | none => none

end Json

end PushDown
