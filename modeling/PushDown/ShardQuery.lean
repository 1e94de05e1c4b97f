import PushDown.Placement
import PushDown.Registry

/-! # Explanations and shard queries

    What placement found out can be shown in two ways: as a list of filters and
    owned expressions, and as the query that each shard table receives. In a
    query the filters that the table owns make up the condition, and the other
    expressions it owns the select list.
-/

namespace PushDown

/-! ## §1. Explanations -/

namespace Plan

/-- The line about a placed filter. -/
def explainFilter (plan : Plan) (placement : Placement) : Except Fault String :=
  (plan.tree.describe placement.owner).map fun owner =>
    "filter " ++ placement.predicate.label ++ " -> " ++ owner

/-- The line about an owner and its expressions. -/
def explainGroup (plan : Plan) (group : NodeId × List Expr) : Except Fault String :=
  (plan.tree.describe group.1).map fun owner =>
    owner ++ ": " ++ ", ".intercalate (group.2.map Expr.label)

/-- The filters placed, and what is recorded at a node. -/
def explain (plan : Plan) (id : NodeId) (placements : List Placement) :
    Except Fault (List String) := do
  let filters ← placements.mapM plan.explainFilter
  let own ← plan.ownershipAt id
  let groups ← own.groups.mapM plan.explainGroup
  return filters ++ groups

end Plan

/-! ## §2. Shard queries -/

/-- The query that a table leaf receives. -/
structure ShardQuery where
  table : NodeId
  sql   : String
  deriving DecidableEq

namespace ShardQuery

/-- The query as it is listed. -/
def text (query : ShardQuery) : String :=
  NodeId.text query.table ++ ": " ++ query.sql

/-- The text of a query on a leaf. Without a select list everything is selected. -/
def write (leaf : TableLeaf) (selected conditions : List String) : String :=
  "SELECT " ++ (if selected.isEmpty then "*" else ", ".intercalate selected) ++
    " FROM `" ++ leaf.table.name ++ "`" ++
    (match leaf.renamed with
      | some name => " AS `" ++ name ++ "`"
      | none => "") ++
    (if conditions.isEmpty then "" else " WHERE " ++ " AND ".intercalate conditions)

/-- The filters among the placements that a node owns. -/
def filtersOf (placements : List Placement) (id : NodeId) : List Expr :=
  (placements.filter fun p => p.owner == id).map (·.predicate)

/-- The expressions that a node owns and that are none of its filters. -/
def selectedOf (own : Ownership) (filters : List Expr) (id : NodeId) : List Expr :=
  (own.ownedBy id).filter fun e => !filters.any fun filter => filter.alike e

/-- The query of a leaf. -/
def ofLeaf (registry : Registry) (own : Ownership) (placements : List Placement)
    (id : NodeId) (leaf : TableLeaf) : Except PlanError ShardQuery := do
  let filters := filtersOf placements id
  let selected ← (selectedOf own filters id).mapM registry.render
  let conditions ← filters.mapM registry.render
  return ⟨id, write leaf selected conditions⟩

end ShardQuery

/-- The queries of the table leaves below a node, left to right. -/
def Plan.shardQueries (plan : Plan) (registry : Registry) (id : NodeId)
    (placements : List Placement) : Except Failure (List ShardQuery) :=
  match plan.ownershipAt id with
  | .error fault => .error (.broken fault)
  | .ok own =>
    ((plan.tree.leavesUnder id).mapM fun leaf =>
      ShardQuery.ofLeaf registry own placements leaf.1 leaf.2).mapError .rejected

end PushDown
