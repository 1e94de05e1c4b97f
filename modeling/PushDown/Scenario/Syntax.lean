import PushDown.Expr.Func
import PushDown.Scalar.Value

/-! # Scenarios

    A scenario declares tables, a plan over them, predicates written at the
    root of the plan, and functions beside the built-in ones. This module holds
    what a scenario says; names in it are not looked up yet.
-/

namespace PushDown

/-- A declared column. -/
structure ColumnSpec where
  name      : String
  fieldType : FieldType
  length?   : Option Nat
  /-- The scale as a number on the wire: 31 and more is not fixed. -/
  scale?    : Option Nat
  nullable  : Bool

/-- A declared table. -/
structure TableSpec where
  name    : String
  columns : List ColumnSpec

/-- The kinds of joins that can be declared. -/
inductive JoinSpec
  | inner
  | left
  | right
  deriving DecidableEq, Repr

/-- A declared plan. -/
inductive PlanSpec
  | table (name : String) (renamed : Option String)
  | join (kind : JoinSpec) (left right : PlanSpec)
  | query (child : PlanSpec)
  | noName

/-- A declared expression. -/
inductive ExprSpec
  /-- `column` or `table.column`. -/
  | column (text : String)
  | value (value : Value)
  | call (name : String) (args : List ExprSpec)
  /-- A subquery with the visible names of the outer tables that it refers to. -/
  | subquery (label : String) (fieldType : FieldType) (outer : List String)

/-- A scenario. -/
structure Scenario where
  tables     : List TableSpec
  plan       : PlanSpec
  predicates : List ExprSpec
  functions  : List FunctionDef
  /-- Whether the arguments of predicates on several tables are left alone. -/
  restricted : Bool

end PushDown
