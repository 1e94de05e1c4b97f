import PushDown.Expr.Bind
import PushDown.Plan.Leaves

/-! # Column resolution

    A column reference is looked up among the table leaves below a node, its
    scope. With a table name it has to match one visible name exactly, up to
    ASCII case, and then a column of that leaf. Without one it has to match a
    column of exactly one leaf.
-/

namespace PushDown

/-- The column of a leaf with the given name, bound to the leaf. -/
def TableLeaf.bound? (id : NodeId) (leaf : TableLeaf) (name : String) : Option BoundColumn :=
  (leaf.table.column? name).map fun column => ⟨id, leaf.visibleName, column⟩

namespace ColumnRef

/-- The column among all those that match, if there is one and no other. -/
def only (ref : ColumnRef) : List BoundColumn → Except PlanError BoundColumn
  | [field] => .ok field
  | [] => .error (.unknownColumn ref.text)
  | _ :: _ :: _ => .error (.ambiguousColumn ref.text)

/-- The columns of the given leaves that have the name. -/
def matchesIn (ref : ColumnRef) (leaves : List (NodeId × TableLeaf)) : List BoundColumn :=
  leaves.filterMap fun leaf => leaf.2.bound? leaf.1 ref.column

/-- The column that the reference stands for among the given leaves. -/
def resolveAmong (ref : ColumnRef) (leaves : List (NodeId × TableLeaf)) :
    Except PlanError BoundColumn :=
  match ref.table with
  | none => ref.only (ref.matchesIn leaves)
  | some table =>
    match leaves.filter fun leaf => Text.sameWord leaf.2.visibleName table with
    | [] => .error (.unknownTable table)
    | [leaf] => ref.only (ref.matchesIn [leaf])
    | _ :: _ :: _ => .error (.nonUniqueTable table)

end ColumnRef

namespace PlanTree

/-- The column that a reference stands for in the scope of a node. -/
def resolve (tree : PlanTree) (scope : NodeId) (ref : ColumnRef) : Except Failure BoundColumn :=
  match tree.node? scope with
  | none => .error (.broken (.noSuchNode scope))
  | some _ => (ref.resolveAmong (tree.leavesUnder scope)).mapError .rejected

/-- Binds an expression in the scope of a node. -/
def bind (tree : PlanTree) (scope : NodeId) (e : Expr) : Except Failure Expr :=
  e.bind (tree.resolve scope)

end PlanTree

end PushDown
