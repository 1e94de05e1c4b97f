import PushDown.Expr.Basic

/-! # Labels

    The label of an expression is its text in a query. It is what explanations
    show, what a shard receives, and what expressions are told apart by.
-/

namespace PushDown.Expr

/-- The variable that a call with these arguments names: the text of the only argument, if that is a
    constant text. -/
def variableName? : List Expr → Option String
  | [literal (.string name)] => some name
  | _ => none

mutual

/-- The text of the expression in a query. -/
def label : Expr → String
  | literal v => v.text
  | column ref => ref.text
  | field f => f.text
  | call f args _ => f.write (variableName? args) (labels args)
  | subquery q => "(" ++ q.label ++ ")"

/-- The labels of a list of expressions. -/
def labels : List Expr → List String
  | [] => []
  | e :: es => label e :: labels es

end

theorem labels_eq_map (es : List Expr) : labels es = es.map label := by
  induction es with
  | nil => rfl
  | cons e es ih => simp [labels, ih]

end PushDown.Expr
