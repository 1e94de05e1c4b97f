import PushDown.Expr.Label
import PushDown.Text.LowerCase

/-! # The function registry

    Functions by name, in lower case. Calls are made through it, copied through
    it and written for shards through it: a function that is not registered
    cannot leave the planner.
-/

namespace PushDown

/-- The functions by the lower-case form of their names, in the order in which they were registered. -/
structure Registry where
  functions : List (String × Func)

namespace Registry

/-! ## §1. Contents -/

/-- The registry without functions. -/
def empty : Registry := ⟨[]⟩

/-- The registry of the built-in functions. -/
def builtins : Registry :=
  ⟨Builtin.all.map fun f => (f.name, .builtin f)⟩

/-- The number of functions. -/
def size (registry : Registry) : Nat :=
  registry.functions.length

/-- The function with the given name, in any case. -/
def func? (registry : Registry) (name : String) : Option Func :=
  registry.functions.lookup (Text.lowerCase name)

/-- Whether a function with the given name can be copied and written for a shard. -/
def isNative (registry : Registry) (name : String) : Bool :=
  (registry.func? name).isSome

/-- Adds a declared function under a name that is free. -/
def register (registry : Registry) (declaration : FunctionDef) : Except PlanError Registry :=
  if registry.isNative declaration.name then
    .error (.duplicateFunction declaration.name)
  else
    .ok ⟨registry.functions ++ [(Text.lowerCase declaration.name, .user declaration)]⟩

/-! ## §2. Calls -/

/-- A call by name. -/
def create (registry : Registry) (name : String) (args : List Expr) : Except PlanError Expr :=
  match registry.func? name with
  | some f => Expr.create f args
  | none => .error (.unknownFunction name)

/-- Rejects a function that is not registered. -/
def checkNative (registry : Registry) (f : Func) : Except PlanError Unit :=
  if registry.isNative f.name then .ok () else .error (.unsupported f.name)

/-- A call of the same function with other arguments. -/
def recreate (registry : Registry) (f : Func) (args : List Expr) : Except PlanError Expr := do
  registry.checkNative f
  registry.create f.name args

mutual

/-- A copy of the expression in which every call is made anew by name. -/
def copy (registry : Registry) : Expr → Except PlanError Expr
  | .call f args _ =>
    match registry.checkNative f with
    | .error e => .error e
    | .ok () =>
      match copyAll registry args with
      | .error e => .error e
      | .ok args => registry.create f.name args
  | e => .ok e

/-- Copies of the expressions of a list, in order. -/
def copyAll (registry : Registry) : List Expr → Except PlanError (List Expr)
  | [] => .ok []
  | e :: es =>
    match copy registry e with
    | .error e => .error e
    | .ok e =>
      match copyAll registry es with
      | .error e => .error e
      | .ok es => .ok (e :: es)

end

/-! ## §3. Writing for shards -/

mutual

/-- Rejects the first function, outermost first and then left to right, that is not registered. -/
def checkExpr (registry : Registry) : Expr → Except PlanError Unit
  | .call f args _ =>
    match registry.checkNative f with
    | .error e => .error e
    | .ok () => checkExprs registry args
  | _ => .ok ()

/-- The check for a list of expressions, in order. -/
def checkExprs (registry : Registry) : List Expr → Except PlanError Unit
  | [] => .ok ()
  | e :: es =>
    match checkExpr registry e with
    | .error e => .error e
    | .ok () => checkExprs registry es

end

/-- The text of the expression for a shard: its label, when every function in it is registered. -/
def render (registry : Registry) (e : Expr) : Except PlanError String :=
  (registry.checkExpr e).map fun _ => e.label

end Registry

end PushDown
