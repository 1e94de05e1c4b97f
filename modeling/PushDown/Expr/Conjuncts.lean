import PushDown.Expr.Basic

/-! # Conjuncts

    A predicate is true when all its conjuncts are: nested conjunctions are one
    list of predicates.
-/

namespace PushDown.Expr

mutual

/-- The predicates that a predicate is the conjunction of, left to right. -/
def conjuncts : Expr → List Expr
  | call f args state =>
    if f.functionClass = .and then conjunctsOf args else [call f args state]
  | e => [e]

/-- The conjuncts of a list of predicates. -/
def conjunctsOf : List Expr → List Expr
  | [] => []
  | e :: es => conjuncts e ++ conjunctsOf es

end

theorem conjunctsOf_eq_flatMap (es : List Expr) : conjunctsOf es = es.flatMap conjuncts := by
  induction es with
  | nil => rfl
  | cons e es ih => simp [conjunctsOf, ih]

end PushDown.Expr
