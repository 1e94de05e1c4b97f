import PushDown.Catalog.Basic
import PushDown.Plan.Resolve
import PushDown.Registry
import PushDown.Scenario.Syntax

/-! # Building scenarios

    Building looks up the names of a scenario: it makes the tables, registers
    the functions, grows the plan, and makes the predicates, in this order. The
    first thing that cannot be made decides the error.
-/

namespace PushDown

/-! ## §1. Errors -/

/-- Why a scenario cannot be built. -/
inductive BuildError
  | table (name : String) (cause : PlanError)
  | function (name : String) (cause : PlanError)
  | plan (cause : PlanError)
  | call (name : String) (cause : PlanError)
  /-- A subquery refers to a table that is not visible. -/
  | unknownOuter (name : String)
  /-- A subquery refers to a name that several tables have. -/
  | nonUniqueOuter (name : String)
  deriving DecidableEq, Repr

namespace BuildError

/-- What was being done, and what went wrong, outermost first. -/
def chain : BuildError → List String
  | table name cause => ["Failed to create table " ++ name, cause.message]
  | function name cause => ["Failed to register function " ++ name, cause.message]
  | plan cause => [cause.message]
  | call name cause => ["Failed to build call to " ++ name, cause.message]
  | unknownOuter name => ["Subquery refers to unknown table " ++ name]
  | nonUniqueOuter name => ["Subquery refers to non-unique table " ++ name]

/-- The rejection underneath, if there is one. -/
def cause? : BuildError → Option PlanError
  | table _ cause | function _ cause | plan cause | call _ cause => some cause
  | unknownOuter _ | nonUniqueOuter _ => none

/-- The wording of the error. -/
def message (e : BuildError) : String :=
  ": ".intercalate e.chain

end BuildError

/-! ## §2. Tables and functions -/

/-- The column that is declared. -/
def ColumnSpec.column (spec : ColumnSpec) : Column :=
  let column := Column.ofType spec.name spec.fieldType
  let column := match spec.length? with
    | some length => column.withLength length
    | none => column
  let column := match spec.scale? with
    | some raw => column.withScale (.ofRaw raw)
    | none => column
  if spec.nullable then column else column.notNull

/-- The catalog with the declared tables added, in order. -/
def Catalog.build (catalog : Catalog) : List TableSpec → Except BuildError Catalog
  | [] => .ok catalog
  | spec :: specs =>
    match catalog.createTable spec.name (spec.columns.map ColumnSpec.column) with
    | (_, .error e) => .error (.table spec.name e)
    | (catalog, .ok _) => catalog.build specs

/-- The registry with the declared functions added, in order. -/
def Registry.build (registry : Registry) : List FunctionDef → Except BuildError Registry
  | [] => .ok registry
  | declaration :: rest =>
    match registry.register declaration with
    | .error e => .error (.function declaration.name e)
    | .ok registry => registry.build rest

/-! ## §3. Plans -/

/-- The tree with the nodes of a declared plan added, children first, and its topmost node. -/
def PlanTree.build (catalog : Catalog) (tree : PlanTree) :
    PlanSpec → Except PlanError (PlanTree × NodeId)
  | .table name renamed =>
    match catalog.table name with
    | .error e => .error e
    | .ok table => .ok (tree.addTable table renamed)
  | .join kind left right =>
    match build catalog tree left with
    | .error e => .error e
    | .ok (tree, left) =>
      match build catalog tree right with
      | .error e => .error e
      | .ok (tree, right) =>
        match kind with
        | .inner => tree.addJoin .inner left right
        | .left => tree.addJoin .leftOuter left right
        | .right => tree.addRightJoin left right
  | .query child =>
    match build catalog tree child with
    | .error e => .error e
    | .ok (tree, child) => tree.addQuery child
  | .noName => .ok tree.addNoName

/-! ## §4. Expressions -/

/-- The tables that a subquery refers to, among the leaves of the plan. -/
def outerTables (leaves : List (NodeId × TableLeaf)) (outer : NodeSet) :
    List String → Except BuildError NodeSet
  | [] => .ok outer
  | name :: names =>
    match leaves.filter fun leaf => Text.sameWord leaf.2.visibleName name with
    | [leaf] => outerTables leaves (outer.insert leaf.1) names
    | [] => .error (.unknownOuter name)
    | _ :: _ :: _ => .error (.nonUniqueOuter name)

mutual

/-- The expression that is declared. -/
def ExprSpec.build (registry : Registry) (leaves : List (NodeId × TableLeaf)) :
    ExprSpec → Except BuildError Expr
  | .column text => .ok (Expr.columnNamed text)
  | .value v => .ok (.literal v)
  | .call name args =>
    match ExprSpec.buildAll registry leaves args with
    | .error e => .error e
    | .ok args => (registry.create name args).mapError (.call name)
  | .subquery label fieldType outer =>
    (outerTables leaves ∅ outer).map fun outer => .subquery ⟨label, fieldType, outer⟩

/-- The expressions that are declared, in order. -/
def ExprSpec.buildAll (registry : Registry) (leaves : List (NodeId × TableLeaf)) :
    List ExprSpec → Except BuildError (List Expr)
  | [] => .ok []
  | spec :: specs =>
    match ExprSpec.build registry leaves spec with
    | .error e => .error e
    | .ok e =>
      match ExprSpec.buildAll registry leaves specs with
      | .error e => .error e
      | .ok es => .ok (e :: es)

end

/-! ## §5. Scenarios -/

/-- A scenario whose names are looked up. -/
structure BuiltScenario where
  catalog    : Catalog
  tree       : PlanTree
  root       : NodeId
  registry   : Registry
  predicates : List Expr
  restricted : Bool

/-- Builds a scenario. -/
def Scenario.build (scenario : Scenario) : Except BuildError BuiltScenario := do
  let catalog ← Catalog.empty.build scenario.tables
  let registry ← Registry.builtins.build scenario.functions
  let (tree, root) ← (PlanTree.empty.build catalog scenario.plan).mapError .plan
  let predicates ← ExprSpec.buildAll registry (tree.leavesUnder root) scenario.predicates
  return { catalog, tree, root, registry, predicates, restricted := scenario.restricted }

end PushDown
