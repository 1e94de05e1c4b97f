import PushDown.Plan.Ownership
import PushDown.Plan.Resolve

/-! # Plans

    A plan is a tree together with an ownership record for each of its nodes.
    A new node starts with an empty record.
-/

namespace PushDown

/-- A plan tree with the ownership records of its nodes. -/
structure Plan where
  tree       : PlanTree
  /-- The records, in the order of the nodes. -/
  owned      : List Ownership
  /-- There is one record for each node. -/
  owned_size : owned.length = tree.size

namespace Plan

/-! ## §1. Growth -/

/-- The plan of a tree, with nothing recorded. -/
def ofTree (tree : PlanTree) : Plan where
  tree       := tree
  owned      := List.replicate tree.size .empty
  owned_size := List.length_replicate

/-- The plan without nodes. -/
def empty : Plan := ofTree .empty

instance : Inhabited Plan := ⟨empty⟩

/-- The plan over a larger tree; what is recorded stays, and new nodes have empty records. -/
def grow (plan : Plan) (tree : PlanTree) (h : plan.tree.size ≤ tree.size) : Plan where
  tree := tree
  owned := plan.owned ++ List.replicate (tree.size - plan.tree.size) .empty
  owned_size := by
    rw [List.length_append, List.length_replicate, plan.owned_size]
    omega

/-- Adds a table leaf. -/
def addTable (plan : Plan) (table : Table) (renamed : Option String) : Plan × NodeId :=
  let grown := plan.tree.addTable table renamed
  (plan.grow grown.1 (by rw [PlanTree.size_addTable]; exact Nat.le_succ _), grown.2)

/-- Adds a query that reads no table. -/
def addNoName (plan : Plan) : Plan × NodeId :=
  let grown := plan.tree.addNoName
  (plan.grow grown.1 (by rw [PlanTree.size_addNoName]; exact Nat.le_succ _), grown.2)

/-- Adds a join of two different nodes. -/
def addJoin (plan : Plan) (kind : JoinKind) (left right : NodeId) :
    Except PlanError (Plan × NodeId) :=
  match h : plan.tree.addJoin kind left right with
  | .error e => .error e
  | .ok grown =>
    .ok (plan.grow grown.1 (by rw [PlanTree.size_addJoin h]; exact Nat.le_succ _), grown.2)

/-- Adds a right join: a left join with the sides exchanged. -/
def addRightJoin (plan : Plan) (left right : NodeId) : Except PlanError (Plan × NodeId) :=
  plan.addJoin .leftOuter right left

/-- Adds a query over one node. -/
def addQuery (plan : Plan) (child : NodeId) : Except PlanError (Plan × NodeId) :=
  match h : plan.tree.addQuery child with
  | .error e => .error e
  | .ok grown =>
    .ok (plan.grow grown.1 (by rw [PlanTree.size_addQuery h]; exact Nat.le_succ _), grown.2)

/-! ## §2. Records -/

/-- The record of a node; nothing is recorded at a node that is not there. -/
def ownership (plan : Plan) (id : NodeId) : Ownership :=
  (plan.owned[id]?).getD .empty

/-- The record of a node. -/
def ownershipAt (plan : Plan) (id : NodeId) : Except Fault Ownership :=
  (plan.tree.node id).map fun _ => plan.ownership id

/-- The plan with the record of one node changed. -/
def update (plan : Plan) (id : NodeId) (f : Ownership → Ownership) : Plan where
  tree       := plan.tree
  owned      := plan.owned.modify id f
  owned_size := by rw [List.length_modify, plan.owned_size]

/-- Records at a node that another owns an expression. -/
def record (plan : Plan) (id owner : NodeId) (e : Expr) : Except Fault Plan :=
  (plan.tree.node id).map fun _ => plan.update id (·.add owner e)

/-- The plan with nothing recorded. -/
def clear (plan : Plan) : Plan :=
  ofTree plan.tree

end Plan

end PushDown
