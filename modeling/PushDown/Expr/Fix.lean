import PushDown.Expr.Inference

/-! # Fixing

    Fixing settles the attributes of an expression from the bottom up, without
    looking up any name. A call that is fixed already is left as it is. A
    column reference that is bound to no table stops it, and what was fixed
    before that stays fixed.
-/

namespace PushDown.Expr

/-- The state of a call over fixed arguments, from the state it has: facts and tables are collected
    anew, and nullability starts from that of the arguments. -/
def settle (f : Func) (args : List Expr) (state : CallState) : Except Fault CallState := do
  let maybeNull := args.any fun arg => arg.attributes.maybeNull
  let attributes ← infer f args { state.attributes with maybeNull }
  return ⟨{ attributes with fixed := true }, factsOf f args, tablesOf args⟩

mutual

/-- The expression with its attributes settled as far as possible, and what stopped it. -/
def fix : Expr → Expr × Option Failure
  | call f args state =>
    if state.attributes.fixed then
      (call f args state, none)
    else
      match fixAll args with
      | (args, some failure) => (call f args state, some failure)
      | (args, none) =>
        match settle f args state with
        | .error fault => (call f args state, some (.broken fault))
        | .ok state => (call f args state, none)
  | column ref => (column ref, some (.rejected (.unresolvedColumn ref.text)))
  | e => (e, none)

/-- Fixes the expressions of a list in order, up to the first that cannot be. -/
def fixAll : List Expr → List Expr × Option Failure
  | [] => ([], none)
  | e :: es =>
    match fix e with
    | (e, some failure) => (e :: es, some failure)
    | (e, none) =>
      match fixAll es with
      | (es, failure) => (e :: es, failure)

end

end PushDown.Expr
