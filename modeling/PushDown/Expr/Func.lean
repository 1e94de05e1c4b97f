import PushDown.Expr.Builtin
import PushDown.Scalar.FieldType

/-! # Functions

    What a call applies: a built-in function, or one that the user declares.
    A declaration gives the arity and the rule by which the length of a result
    follows from the arguments.
-/

namespace PushDown

/-! ## §1. Declarations -/

/-- The rule by which length and scale of a result follow from the arguments. -/
inductive LengthRule
  | real
  | decimal
  | string
  deriving DecidableEq, Repr

namespace LengthRule

/-- The name of the rule in a scenario. -/
def name : LengthRule → String
  | real => "real"
  | decimal => "decimal"
  | string => "string"

/-- The rule with a given name, if there is one. -/
def ofName? (name : String) : Option LengthRule :=
  [real, decimal, string].find? (·.name == name)

/-- The type of a result when the declaration gives none. -/
def fieldType : LengthRule → FieldType
  | real => .double
  | decimal => .newdecimal
  | string => .varstring

end LengthRule

/-- The declaration of a function by the user. -/
structure FunctionDef where
  name     : String
  arity    : Arity
  rule     : LengthRule
  /-- Whether two calls with the same arguments can differ. -/
  volatile : Bool
  /-- The type of the result, where it is not the one that goes with the rule. -/
  result?  : Option FieldType
  deriving DecidableEq, Repr

/-- The type of the result. -/
def FunctionDef.fieldType (declaration : FunctionDef) : FieldType :=
  declaration.result?.getD declaration.rule.fieldType

/-! ## §2. Functions -/

/-- What a call applies. -/
inductive Func
  | builtin (f : Builtin)
  | user (declaration : FunctionDef)
  deriving DecidableEq, Repr

namespace Func

/-- The name of the function: for a declared one, as it was declared. -/
def name : Func → String
  | builtin f => f.name
  | user d => d.name

/-- The class of the function. -/
def functionClass : Func → FunctionClass
  | builtin f => f.functionClass
  | user _ => .userDefined

/-- The argument counts the function accepts. -/
def arity : Func → Arity
  | builtin f => f.arity
  | user d => d.arity

/-- The facts that a call of the function has whatever its arguments are. -/
def ownFacts : Func → Facts
  | builtin f => f.ownFacts
  | user d => { volatile := d.volatile }

/-- The written call, from the written arguments. -/
def write (f : Func) (variableName? : Option String) (args : List String) : String :=
  match f with
  | builtin f => f.write variableName? args
  | user d => Builtin.writeCall d.name args

end Func

end PushDown
