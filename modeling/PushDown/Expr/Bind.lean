import PushDown.Expr.Fix

/-! # Binding

    Binding replaces every column reference by the column it resolves to. Each
    call is inferred anew over its bound arguments, whatever was inferred about
    it before. The first reference that does not resolve, from left to right,
    decides the failure.
-/

namespace PushDown.Expr

mutual

/-- The expression with its column references bound by `resolve`. -/
def bindWith (resolve : ColumnRef → Except Failure BoundColumn) : Expr → Except Failure Expr
  | column ref => (resolve ref).map field
  | call f args _ =>
    match bindAllWith resolve args with
    | .error failure => .error failure
    | .ok args =>
      match fix (apply f args) with
      | (_, some failure) => .error failure
      | (e, none) => .ok e
  | e => .ok e

/-- Binds the expressions of a list in order. -/
def bindAllWith (resolve : ColumnRef → Except Failure BoundColumn) :
    List Expr → Except Failure (List Expr)
  | [] => .ok []
  | e :: es =>
    match bindWith resolve e with
    | .error failure => .error failure
    | .ok e =>
      match bindAllWith resolve es with
      | .error failure => .error failure
      | .ok es => .ok (e :: es)

end

/-- Binds an expression and fixes what is left of it. -/
def bind (resolve : ColumnRef → Except Failure BoundColumn) (e : Expr) : Except Failure Expr :=
  match bindWith resolve e with
  | .error failure => .error failure
  | .ok e =>
    match fix e with
    | (_, some failure) => .error failure
    | (e, none) => .ok e

end PushDown.Expr
