import PushDown.Catalog.Column
import PushDown.Error
import PushDown.Expr.Attributes
import PushDown.Expr.ColumnRef
import PushDown.Expr.Func
import PushDown.Scalar.Value

/-! # Expressions

    An expression is a constant, a column that is not bound yet, a column bound
    to a table leaf of a plan, a call, or a subquery that is planned elsewhere.

    A call carries what was inferred about it: attributes, facts, and the plan
    nodes whose rows it depends on. Only binding and fixing change these. For
    every other expression they follow from what it is.
-/

namespace PushDown

/-! ## §1. Parts -/

/-- A column bound to a table leaf. -/
structure BoundColumn where
  /-- The leaf. -/
  table     : NodeId
  /-- The name under which the table is visible there. -/
  tableName : String
  column    : Column
  deriving DecidableEq

namespace BoundColumn

/-- The column as it is written in a query. -/
def text (field : BoundColumn) : String :=
  "`" ++ field.tableName ++ "`.`" ++ field.column.name ++ "`"

/-- The attributes of the values of the column. -/
def attributes (field : BoundColumn) : Attributes where
  fixed     := true
  maybeNull := field.column.nullable
  nullValue := false
  maxLength := field.column.maxLength
  scale     := field.column.scale
  fieldType := field.column.fieldType

end BoundColumn

/-- A scalar subquery, known by its label, its type and the outer tables it refers to. -/
structure Subquery where
  label     : String
  fieldType : FieldType
  outer     : NodeSet
  deriving DecidableEq

/-- The attributes of the value of the subquery. -/
def Subquery.attributes (query : Subquery) : Attributes where
  fixed     := true
  maybeNull := true
  nullValue := false
  maxLength := query.fieldType.defaultLength
  scale     := query.fieldType.defaultScale
  fieldType := query.fieldType

/-- The attributes of a constant. -/
def Value.attributes (value : Value) : Attributes where
  fixed     := true
  maybeNull := value.isNull
  nullValue := value.isNull
  maxLength := value.maxLength
  scale     := value.scale
  fieldType := value.fieldType

/-- What was inferred about a call. -/
structure CallState where
  attributes : Attributes
  facts      : Facts
  /-- The plan nodes whose rows the call depends on. -/
  tables     : NodeSet
  deriving DecidableEq

/-- The state of a call that nothing is inferred about, apart from the facts of its function. -/
def CallState.fresh (f : Func) : CallState :=
  ⟨.unfixed, f.ownFacts, ∅⟩

/-! ## §2. Expressions -/

/-- An expression. -/
inductive Expr
  | literal (value : Value)
  | column (ref : ColumnRef)
  | field (field : BoundColumn)
  | call (f : Func) (args : List Expr) (state : CallState)
  | subquery (query : Subquery)

namespace Expr

instance : Inhabited Expr := ⟨literal .null⟩

/-- What holds of an expression whenever it holds of its arguments holds of all expressions. -/
theorem ind {motive : Expr → Prop} (literal : ∀ v, motive (.literal v))
    (column : ∀ ref, motive (.column ref)) (field : ∀ f, motive (.field f))
    (call : ∀ f args state, (∀ arg ∈ args, motive arg) → motive (.call f args state))
    (subquery : ∀ q, motive (.subquery q)) (e : Expr) : motive e := by
  refine Expr.rec (motive_1 := motive) (motive_2 := fun args => ∀ arg ∈ args, motive arg)
    literal column field call subquery (fun _ h => nomatch h) ?_ e
  intro head tail hhead htail arg harg
  rcases List.mem_cons.mp harg with rfl | harg
  · exact hhead
  · exact htail arg harg

/-- The attributes of the result. -/
def attributes : Expr → Attributes
  | literal v => v.attributes
  | column _ => .unbound
  | field f => f.attributes
  | call _ _ state => state.attributes
  | subquery q => q.attributes

/-- Whether the attributes are settled. -/
def isFixed (e : Expr) : Bool :=
  e.attributes.fixed

/-- The facts about the expression. -/
def facts : Expr → Facts
  | call _ _ state => state.facts
  | subquery _ => { subquery := true }
  | literal _ | column _ | field _ => .none

/-- The plan nodes whose rows the expression depends on. -/
def tables : Expr → NodeSet
  | field f => .singleton f.table
  | call _ _ state => state.tables
  | subquery q => q.outer
  | literal _ | column _ => ∅

/-- The plan nodes that some expression of the list depends on. -/
def tablesOf (args : List Expr) : NodeSet :=
  args.foldl (fun acc arg => acc ∪ arg.tables) ∅

/-- The facts of a call of `f`: its own and those of its arguments. -/
def factsOf (f : Func) (args : List Expr) : Facts :=
  args.foldl (fun acc arg => acc ∪ arg.facts) f.ownFacts

/-! ## §3. Construction -/

/-- A call about which nothing is inferred yet. -/
def apply (f : Func) (args : List Expr) : Expr :=
  call f args (.fresh f)

/-- A call, if the function accepts that many arguments. -/
def create (f : Func) (args : List Expr) : Except PlanError Expr :=
  if f.arity.accepts args.length then
    .ok (apply f args)
  else
    .error (.argumentCount f.name f.arity args.length)

/-- The constant `NULL`. -/
def null : Expr := literal .null

/-- A column reference, `column` or `table.column`. -/
def columnNamed (text : String) : Expr := column (.parse text)

def eq (a b : Expr) : Expr := apply (.builtin .eq) [a, b]
def ne (a b : Expr) : Expr := apply (.builtin .ne) [a, b]
def lt (a b : Expr) : Expr := apply (.builtin .lt) [a, b]
def gt (a b : Expr) : Expr := apply (.builtin .gt) [a, b]
def and (a b : Expr) : Expr := apply (.builtin .and) [a, b]
def or (a b : Expr) : Expr := apply (.builtin .or) [a, b]
def not (a : Expr) : Expr := apply (.builtin .not) [a]
def isNull (a : Expr) : Expr := apply (.builtin .isNull) [a]
def isNotNull (a : Expr) : Expr := apply (.builtin .isNotNull) [a]

/-- The expression with its value known to be `NULL`, if it is a call. -/
def divideByNull : Expr → Expr
  | call f args state => call f args { state with attributes := state.attributes.divideByNull }
  | e => e

/-! ## §4. Arguments -/

/-- The arguments of a call. -/
def args : Expr → List Expr
  | call _ args _ => args
  | literal _ | column _ | field _ | subquery _ => []

/-- The argument reached by following positions from the expression down, if there is one. -/
def argument? (e : Expr) : List Nat → Option Expr
  | [] => some e
  | i :: path =>
    match e.args[i]? with
    | some arg => arg.argument? path
    | none => none

end Expr

end PushDown
