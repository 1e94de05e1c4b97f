import PushDown.Catalog.Table

/-! # Plan trees

    The nodes of a plan are kept in the order in which they are made and are
    known by their positions. Leaves are shard tables; inner nodes join two
    earlier nodes or query one. A right join is kept as a left join with its
    sides exchanged.

    A node can only be made over nodes that are there. So every child has a
    smaller number than its parent, every walk downwards ends, and the number
    of a node is enough to bound it. One node may have several parents.
-/

namespace PushDown

/-! ## §1. Nodes -/

/-- A table leaf. -/
structure TableLeaf where
  table   : Table
  /-- The name that the query gives the table in place of its own. -/
  renamed : Option String
  deriving DecidableEq

/-- The name under which the columns of the leaf are visible. -/
def TableLeaf.visibleName (leaf : TableLeaf) : String :=
  leaf.renamed.getD leaf.table.name

/-- The kinds of joins. -/
inductive JoinKind
  | inner
  /-- Every row of the left side appears, if need be beside a row of `NULL`s. -/
  | leftOuter
  deriving DecidableEq, Repr

/-- A plan node. -/
inductive PlanNode
  | table (leaf : TableLeaf)
  | join (kind : JoinKind) (left right : NodeId)
  | query (child : NodeId)
  /-- A query that reads no table. -/
  | noName
  deriving DecidableEq

namespace PlanNode

/-- The children, left to right. -/
def children : PlanNode → List NodeId
  | table _ | noName => []
  | join _ left right => [left, right]
  | query child => [child]

/-- The leaf, if the node is one. -/
def leaf? : PlanNode → Option TableLeaf
  | table leaf => some leaf
  | join _ _ _ | query _ | noName => none

/-- Whether the node is a table leaf. -/
def isTable (node : PlanNode) : Bool :=
  node.leaf?.isSome

end PlanNode

/-! ## §2. Trees -/

/-- The nodes of a plan in the order in which they were made. -/
structure PlanTree where
  nodes    : List PlanNode
  /-- Children are made before their parents. -/
  grounded : ∀ (id : Nat) (node : PlanNode), nodes[id]? = some node →
    ∀ child ∈ node.children, child < id

namespace PlanTree

/-- The tree without nodes. -/
def empty : PlanTree := ⟨[], by simp⟩

/-- The number of nodes. -/
def size (tree : PlanTree) : Nat :=
  tree.nodes.length

/-- The node with a given number, if there is one. -/
def node? (tree : PlanTree) (id : NodeId) : Option PlanNode :=
  tree.nodes[id]?

/-- The node with a given number. -/
def node (tree : PlanTree) (id : NodeId) : Except Fault PlanNode :=
  match tree.node? id with
  | some node => .ok node
  | none => .error (.noSuchNode id)

/-- The table leaf with a given number, if there is one. -/
def leaf? (tree : PlanTree) (id : NodeId) : Option TableLeaf :=
  (tree.node? id).bind PlanNode.leaf?

/-- The children of a node; a node that is not there has none. -/
def children (tree : PlanTree) (id : NodeId) : List NodeId :=
  match tree.node? id with
  | some node => node.children
  | none => []

theorem lt_of_mem_children {tree : PlanTree} {id child : NodeId} (h : child ∈ tree.children id) :
    child < id := by
  unfold children at h
  split at h
  · next node hnode => exact tree.grounded id node hnode child h
  · exact absurd h List.not_mem_nil

/-! ## §3. Growth -/

/-- The tree with one more node, over nodes that are there. -/
def push (tree : PlanTree) (node : PlanNode) (h : ∀ child ∈ node.children, child < tree.size) :
    PlanTree where
  nodes := tree.nodes ++ [node]
  grounded := by
    intro id node' hnode child hchild
    rw [List.getElem?_append] at hnode
    split at hnode
    · exact tree.grounded id node' hnode child hchild
    · next hid =>
      have hid : tree.nodes.length ≤ id := Nat.not_lt.mp hid
      rw [List.getElem?_singleton] at hnode
      split at hnode
      · cases hnode
        exact Nat.lt_of_lt_of_le (h child hchild) hid
      · cases hnode

/-- Rejects the number of a node that is not there. -/
def check (tree : PlanTree) (id : NodeId) : Except PlanError (PLift (id < tree.size)) :=
  if h : id < tree.size then .ok ⟨h⟩
  else .error (.invalidPlanNode ("no plan node " ++ NodeId.text id))

/-- Adds a table leaf. -/
def addTable (tree : PlanTree) (table : Table) (renamed : Option String) : PlanTree × NodeId :=
  (tree.push (.table ⟨table, renamed⟩) (by simp [PlanNode.children]), tree.size)

/-- Adds a join of two different nodes. -/
def addJoin (tree : PlanTree) (kind : JoinKind) (left right : NodeId) :
    Except PlanError (PlanTree × NodeId) :=
  match tree.check left, tree.check right with
  | .error e, _ => .error e
  | .ok _, .error e => .error e
  | .ok hl, .ok hr =>
    if left = right then
      .error (.invalidPlanNode ("join of " ++ NodeId.text left ++ " with itself"))
    else
      .ok (tree.push (.join kind left right) (by simp [PlanNode.children, hl.down, hr.down]),
        tree.size)

/-- Adds a right join: a left join with the sides exchanged. -/
def addRightJoin (tree : PlanTree) (left right : NodeId) : Except PlanError (PlanTree × NodeId) :=
  tree.addJoin .leftOuter right left

/-- Adds a query over one node. -/
def addQuery (tree : PlanTree) (child : NodeId) : Except PlanError (PlanTree × NodeId) :=
  match tree.check child with
  | .error e => .error e
  | .ok h => .ok (tree.push (.query child) (by simp [PlanNode.children, h.down]), tree.size)

/-- Adds a query that reads no table. -/
def addNoName (tree : PlanTree) : PlanTree × NodeId :=
  (tree.push .noName (by simp [PlanNode.children]), tree.size)

/-! ### Sizes -/

theorem size_push (tree : PlanTree) (node : PlanNode)
    (h : ∀ child ∈ node.children, child < tree.size) : (tree.push node h).size = tree.size + 1 := by
  simp [push, size]

theorem size_addTable (tree : PlanTree) (table : Table) (renamed : Option String) :
    (tree.addTable table renamed).1.size = tree.size + 1 := by
  simp [addTable, push, size]

theorem size_addNoName (tree : PlanTree) : tree.addNoName.1.size = tree.size + 1 := by
  simp [addNoName, push, size]

theorem size_addJoin {tree : PlanTree} {kind : JoinKind} {left right : NodeId}
    {result : PlanTree × NodeId} (h : tree.addJoin kind left right = .ok result) :
    result.1.size = tree.size + 1 := by
  unfold addJoin at h
  split at h
  · cases h
  · cases h
  · split at h
    · cases h
    · cases h
      simp [push, size]

theorem size_addQuery {tree : PlanTree} {child : NodeId} {result : PlanTree × NodeId}
    (h : tree.addQuery child = .ok result) : result.1.size = tree.size + 1 := by
  unfold addQuery at h
  split at h
  · cases h
  · cases h
    simp [push, size]

/-! ## §4. Description -/

/-- The node as explanations show it. -/
def describeNode (id : NodeId) : PlanNode → String
  | .table leaf =>
    NodeId.text id ++ " table " ++ leaf.table.name ++
      match leaf.renamed with
      | some name => " AS " ++ name
      | none => ""
  | .join kind left right =>
    NodeId.text id ++
      (match kind with
        | .inner => " inner join"
        | .leftOuter => " left join") ++
      " (" ++ NodeId.text left ++ ", " ++ NodeId.text right ++ ")"
  | .query child => NodeId.text id ++ " query (" ++ NodeId.text child ++ ")"
  | .noName => NodeId.text id ++ " no-name query"

/-- The node with a given number as explanations show it. -/
def describe (tree : PlanTree) (id : NodeId) : Except Fault String :=
  (tree.node id).map (describeNode id)

end PlanTree

end PushDown
