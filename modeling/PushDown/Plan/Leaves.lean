import PushDown.Plan.Tree

/-! # Table leaves below a node

    The table leaves at or below a node, left to right. A leaf that is reached
    on several paths is listed once for each.

    The walk keeps a stack of nodes to visit. It takes the first, and puts its
    children in its place. Children have smaller numbers than their parent and
    there are at most two, so the sum of `3 ^ id` over the stack falls with
    every step.
-/

namespace PushDown.PlanTree

/-! ## §1. The measure -/

/-- What is still to be visited from a stack, at most. -/
def stackWeight : List NodeId → Nat
  | [] => 0
  | id :: stack => Nat.pow 3 id + stackWeight stack

theorem stackWeight_append (s t : List NodeId) :
    stackWeight (s ++ t) = stackWeight s + stackWeight t := by
  induction s with
  | nil => simp [stackWeight]
  | cons id s ih => simp [stackWeight, ih, Nat.add_assoc]

/-- A smaller number weighs at most a third. -/
theorem three_mul_weight_le {child id : NodeId} (h : child < id) :
    3 * Nat.pow 3 child ≤ Nat.pow 3 id := by
  calc 3 * Nat.pow 3 child = Nat.pow 3 (child + 1) := Nat.mul_comm _ _
    _ ≤ Nat.pow 3 id := Nat.pow_le_pow_right (by decide) h

/-- The children of a node weigh less than the node. -/
theorem stackWeight_children_lt (tree : PlanTree) (id : NodeId) :
    stackWeight (tree.children id) < Nat.pow 3 id := by
  have hpos : 0 < Nat.pow 3 id := Nat.pow_pos (by decide)
  have hlt : ∀ child ∈ tree.children id, 3 * Nat.pow 3 child ≤ Nat.pow 3 id :=
    fun child hchild => three_mul_weight_le (lt_of_mem_children hchild)
  unfold children at hlt ⊢
  split at hlt
  · next node _ =>
    cases node with
    | table leaf => exact hpos
    | noName => exact hpos
    | query child =>
      have hc := hlt child (by simp [PlanNode.children])
      simp only [stackWeight, PlanNode.children]
      omega
    | join kind left right =>
      have hl := hlt left (by simp [PlanNode.children])
      have hr := hlt right (by simp [PlanNode.children])
      simp only [stackWeight, PlanNode.children]
      omega
  · exact hpos

/-! ## §2. The walk -/

/-- The table leaves that a walk from the stack visits, in its order. -/
def visit (tree : PlanTree) : List NodeId → List NodeId
  | [] => []
  | id :: stack =>
    if (tree.leaf? id).isSome then id :: visit tree (tree.children id ++ stack)
    else visit tree (tree.children id ++ stack)
termination_by stack => stackWeight stack
decreasing_by
  all_goals
    have := stackWeight_children_lt tree id
    rw [stackWeight_append, stackWeight]
    omega

/-- The table leaves at or below a node, left to right. -/
def tablesUnder (tree : PlanTree) (id : NodeId) : List NodeId :=
  tree.visit [id]

/-- The table leaves at or below a node, with what is there. -/
def leavesUnder (tree : PlanTree) (id : NodeId) : List (NodeId × TableLeaf) :=
  (tree.tablesUnder id).filterMap fun id => (tree.leaf? id).map (id, ·)

end PushDown.PlanTree
