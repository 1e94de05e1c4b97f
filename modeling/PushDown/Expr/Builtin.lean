import PushDown.Expr.Arity
import PushDown.Expr.Facts
import PushDown.Expr.FunctionClass

/-! # Built-in functions

    The operators and functions that are always there: their names, classes and
    arities, the facts each contributes by itself, and how a call of each is
    written in a query.
-/

namespace PushDown

/-- A built-in operator or function. -/
inductive Builtin
  | eq
  | nullSafeEq
  | ne
  | lt
  | le
  | gt
  | ge
  | like
  | isNull
  | isNotNull
  | and
  | or
  | xor
  | not
  | between
  | inList
  | plus
  | minus
  | mul
  | div
  | intDiv
  | mod
  | neg
  | abs
  | concat
  | castChar
  | coalesce
  | ifNull
  | greatest
  | least
  | now
  | rand
  | uuid
  | userVar
  | sysVar
  | stContains
  | stIntersects
  | stWithin
  | sum
  | count
  | avg
  | min
  | max
  deriving DecidableEq, Repr

namespace Builtin

/-! ## §1. Names -/

/-- Every built-in function. -/
def all : List Builtin :=
  [eq, nullSafeEq, ne, lt, le, gt, ge, like, isNull, isNotNull, and, or, xor, not, between, inList,
    plus, minus, mul, div, intDiv, mod, neg, abs, concat, castChar, coalesce, ifNull, greatest,
    least, now, rand, uuid, userVar, sysVar, stContains, stIntersects, stWithin, sum, count, avg,
    min, max]

/-- The name under which the function is registered, in lower case. -/
def name : Builtin → String
  | eq => "="
  | nullSafeEq => "<=>"
  | ne => "<>"
  | lt => "<"
  | le => "<="
  | gt => ">"
  | ge => ">="
  | like => "like"
  | isNull => "isnull"
  | isNotNull => "isnotnull"
  | and => "and"
  | or => "or"
  | xor => "xor"
  | not => "not"
  | between => "between"
  | inList => "in"
  | plus => "+"
  | minus => "-"
  | mul => "*"
  | div => "/"
  | intDiv => "div"
  | mod => "%"
  | neg => "neg"
  | abs => "abs"
  | concat => "concat"
  | castChar => "cast_as_char"
  | coalesce => "coalesce"
  | ifNull => "ifnull"
  | greatest => "greatest"
  | least => "least"
  | now => "now"
  | rand => "rand"
  | uuid => "uuid"
  | userVar => "get_user_var"
  | sysVar => "get_system_var"
  | stContains => "st_contains"
  | stIntersects => "st_intersects"
  | stWithin => "st_within"
  | sum => "sum"
  | count => "count"
  | avg => "avg"
  | min => "min"
  | max => "max"

/-- The function with a given name, exactly as registered. -/
def ofName? (name : String) : Option Builtin :=
  all.find? (·.name == name)

theorem mem_all (f : Builtin) : f ∈ all := by
  cases f <;> decide

/-! ## §2. Class, arity and facts -/

/-- The class of the function. -/
def functionClass : Builtin → FunctionClass
  | eq => .eq
  | nullSafeEq => .nullSafeEq
  | ne => .ne
  | lt => .lt
  | le => .le
  | gt => .gt
  | ge => .ge
  | like => .like
  | isNull => .isNull
  | isNotNull => .isNotNull
  | and => .and
  | or => .or
  | xor => .xor
  | not => .not
  | between => .between
  | inList => .inList
  | neg => .neg
  | castChar => .charCast
  | now => .now
  | userVar => .userVariable
  | sysVar => .systemVariable
  | stContains => .spatialContains
  | stIntersects => .spatialIntersects
  | stWithin => .spatialWithin
  | plus | minus | mul | div | intDiv | mod | abs | concat | coalesce | ifNull | greatest | least
  | rand | uuid | sum | count | avg | min | max => .unclassified

/-- The argument counts the function accepts. -/
def arity : Builtin → Arity
  | isNull | isNotNull | not | neg | abs | castChar | userVar | sysVar | sum | count | avg | min
  | max => .exactly 1
  | and | or | inList | greatest | least => .atLeast 2
  | concat | coalesce => .atLeast 1
  | between => .exactly 3
  | now | rand => .range 0 1
  | uuid => .exactly 0
  | eq | nullSafeEq | ne | lt | le | gt | ge | like | xor | plus | minus | mul | div | intDiv | mod
  | ifNull | stContains | stIntersects | stWithin => .exactly 2

/-- The facts that a call of the function has whatever its arguments are. -/
def ownFacts : Builtin → Facts
  | sum | count | avg | min | max => { aggregate := true }
  | isNull | ifNull | coalesce | nullSafeEq => { nullTest := true }
  | now | rand | uuid | userVar | sysVar => { volatile := true }
  | _ => .none

/-- Whether the function computes one value from many rows. -/
def isAggregate (f : Builtin) : Bool :=
  f.ownFacts.aggregate

/-! ## §3. Written form -/

/-- How a call is written. -/
inductive Shape
  /-- `(a op b)` -/
  | binary (operator : String)
  /-- `(a op b op c)` -/
  | chain (operator : String)
  /-- The operator stands before its operand. -/
  | before (operator : String)
  /-- The operator stands after its operand. -/
  | after (operator : String)
  /-- `(a BETWEEN b AND c)` -/
  | range
  /-- `(a IN (b, c))` -/
  | membership
  /-- `CAST(a AS CHAR)` -/
  | cast
  /-- A variable, written with a sigil before its name. -/
  | sigil (sigil : String)
  /-- `f(a, b)` -/
  | call

/-- How a call of the function is written. -/
def shape : Builtin → Shape
  | eq => .binary "="
  | nullSafeEq => .binary "<=>"
  | ne => .binary "<>"
  | lt => .binary "<"
  | le => .binary "<="
  | gt => .binary ">"
  | ge => .binary ">="
  | like => .binary "LIKE"
  | xor => .binary "XOR"
  | plus => .binary "+"
  | minus => .binary "-"
  | mul => .binary "*"
  | div => .binary "/"
  | intDiv => .binary "DIV"
  | mod => .binary "%"
  | and => .chain "AND"
  | or => .chain "OR"
  | not => .before "NOT "
  | neg => .before "-"
  | isNull => .after " IS NULL"
  | isNotNull => .after " IS NOT NULL"
  | between => .range
  | inList => .membership
  | castChar => .cast
  | userVar => .sigil "@"
  | sysVar => .sigil "@@"
  | abs | concat | coalesce | ifNull | greatest | least | now | rand | uuid | stContains
  | stIntersects | stWithin | sum | count | avg | min | max => .call

/-- A call written with the name in front: `f(a, b)`. -/
def writeCall (name : String) (args : List String) : String :=
  name ++ "(" ++ ", ".intercalate args ++ ")"

/-- The written call, from the written arguments. `variableName?` is the text of the only argument when
    that is a quoted text: it names a variable. -/
def write (f : Builtin) (variableName? : Option String) (args : List String) : String :=
  match f.shape, args with
  | .binary op, [a, b] => "(" ++ a ++ " " ++ op ++ " " ++ b ++ ")"
  | .chain op, args => "(" ++ (" " ++ op ++ " ").intercalate args ++ ")"
  | .before op, [a] => "(" ++ op ++ a ++ ")"
  | .after op, [a] => "(" ++ a ++ op ++ ")"
  | .range, [a, low, high] => "(" ++ a ++ " BETWEEN " ++ low ++ " AND " ++ high ++ ")"
  | .membership, a :: list => "(" ++ a ++ " IN (" ++ ", ".intercalate list ++ "))"
  | .cast, [a] => "CAST(" ++ a ++ " AS CHAR)"
  | .sigil sigil, args =>
    match variableName? with
    | some variableName => sigil ++ variableName
    | none => writeCall f.name args
  | _, args => writeCall f.name args

end Builtin

end PushDown
