import Mathlib.Data.List.Basic
import PushDown.Proofs.Reachable
import PushDown.Proofs.Resolution
import PushDown.Scenario.Build

/-! # The leaves of a plan that is built

    The walk from a node lists the node itself if it is a table leaf, and else
    what lies below its children, one after the other (`tablesUnder_of_leaf?`,
    `tablesUnder_of_inner`). Nodes that are added later change nothing below it.

    A declared plan is built bottom up into new nodes (`build_induction`), and
    over each of them at most one is made. So the new leaves are all below the
    topmost node, each on one path (`spans_of_build`).
-/

namespace PushDown.PlanTree

variable {tree next tree' : PlanTree} {id left right root : NodeId} {node : PlanNode}

/-! ## §1. The walk -/

theorem children_of_leaf? {leaf : TableLeaf} (h : tree.leaf? id = some leaf) :
    tree.children id = [] := by
  obtain ⟨node, hnode, hleaf⟩ := Option.bind_eq_some_iff.mp h
  rw [children, hnode]
  cases node with
  | table leaf => rfl
  | join kind left right => cases hleaf
  | query child => cases hleaf
  | noName => cases hleaf

/-- What is below a stack is below its parts, in order. -/
theorem visit_append (tree : PlanTree) (stack rest : List NodeId) :
    tree.visit (stack ++ rest) = tree.visit stack ++ tree.visit rest := by
  -- along the walk: the children of the first node come before both parts
  induction stack using visit.induct tree with
  | case1 => simp [visit]
  | case2 id stack hleaf ih =>
    rw [List.append_assoc] at ih
    rw [List.cons_append, visit, if_pos hleaf, ih, visit, if_pos hleaf, List.cons_append]
  | case3 id stack hleaf ih =>
    rw [List.append_assoc] at ih
    rw [List.cons_append, visit, if_neg hleaf, ih, visit, if_neg hleaf]

theorem visit_eq_flatMap (tree : PlanTree) (stack : List NodeId) :
    tree.visit stack = stack.flatMap tree.tablesUnder := by
  induction stack with
  | nil => simp [visit]
  | cons id stack ih =>
    rw [List.flatMap_cons, ← ih, tablesUnder, ← visit_append]
    rfl

theorem tablesUnder_of_leaf? {leaf : TableLeaf} (h : tree.leaf? id = some leaf) :
    tree.tablesUnder id = [id] := by
  rw [tablesUnder, visit, if_pos (by rw [h]; rfl), children_of_leaf? h]
  simp [visit]

theorem tablesUnder_of_inner (h : tree.leaf? id = none) :
    tree.tablesUnder id = (tree.children id).flatMap tree.tablesUnder := by
  rw [tablesUnder, visit, if_neg (by simp [h]), List.append_nil, visit_eq_flatMap]

theorem tablesUnder_of_node? (hnode : tree.node? id = some node) (hinner : node.leaf? = none) :
    tree.tablesUnder id = node.children.flatMap tree.tablesUnder := by
  rw [tablesUnder_of_inner ((leaf?_of_node? hnode).trans hinner), children_of_node? hnode]

/-- Every node that is listed is a leaf. -/
theorem map_fst_leavesUnder (tree : PlanTree) (id : NodeId) :
    (tree.leavesUnder id).map (·.1) = tree.tablesUnder id := by
  have hleaf : ∀ table ∈ tree.tablesUnder id, ∃ leaf, tree.leaf? table = some leaf :=
    fun table htable => exists_leaf_of_mem_visit htable
  unfold leavesUnder
  generalize tree.tablesUnder id = tables at hleaf ⊢
  induction tables with
  | nil => rfl
  | cons table tables ih =>
    obtain ⟨leaf, hfound⟩ := hleaf table List.mem_cons_self
    have hrest := ih fun other hother => hleaf other (List.mem_cons_of_mem table hother)
    simp only [List.filterMap_cons, hfound, Option.map_some, List.map_cons, hrest]

/-! ## §2. Growth -/

/-- The nodes of the first tree are nodes of the second. -/
structure Within (tree tree' : PlanTree) : Prop where
  size_le : tree.size ≤ tree'.size
  node?   : ∀ id, id < tree.size → tree'.node? id = tree.node? id

theorem Within.refl (tree : PlanTree) : tree.Within tree :=
  ⟨Nat.le_refl _, fun _ _ => rfl⟩

theorem Within.trans (h : tree.Within next) (h' : next.Within tree') : tree.Within tree' where
  size_le := Nat.le_trans h.size_le h'.size_le
  node? id hid := (h'.node? id (Nat.lt_of_lt_of_le hid h.size_le)).trans (h.node? id hid)

theorem within_push (hnode : ∀ child ∈ node.children, child < tree.size) :
    tree.Within (tree.push node hnode) where
  size_le := by
    rw [size_push]
    exact Nat.le_succ _
  node? _ hid := node?_push hnode hid

theorem Within.leaf?_eq (h : tree.Within tree') (hid : id < tree.size) :
    tree'.leaf? id = tree.leaf? id := by
  rw [leaf?, leaf?, h.node? id hid]

theorem Within.children_eq (h : tree.Within tree') (hid : id < tree.size) :
    tree'.children id = tree.children id := by
  rw [children, children, h.node? id hid]

/-- Below a node of the smaller tree there are only nodes of it. -/
theorem Within.tablesUnder_eq (h : tree.Within tree') (hid : id < tree.size) :
    tree'.tablesUnder id = tree.tablesUnder id := by
  -- children have smaller numbers
  induction id using Nat.strongRecOn with
  | ind id ih =>
    have hleaf := h.leaf?_eq hid
    cases hfound : tree.leaf? id with
    | some leaf => rw [tablesUnder_of_leaf? (hleaf.trans hfound), tablesUnder_of_leaf? hfound]
    | none =>
      rw [tablesUnder_of_inner (hleaf.trans hfound), tablesUnder_of_inner hfound, h.children_eq hid]
      refine List.flatMap_congr fun child hchild => ?_
      have hlt := lt_of_mem_children hchild
      exact ih child hlt (Nat.lt_trans hlt hid)

theorem lt_of_isSome_leaf? (h : (tree.leaf? id).isSome = true) : id < tree.size := by
  obtain ⟨leaf, hleaf⟩ := Option.isSome_iff_exists.mp h
  obtain ⟨_, hnode, _⟩ := Option.bind_eq_some_iff.mp hleaf
  exact lt_of_node? hnode

theorem Within.leavesUnder_eq (h : tree.Within tree') (hid : id < tree.size) :
    tree'.leavesUnder id = tree.leavesUnder id := by
  unfold leavesUnder
  rw [h.tablesUnder_eq hid]
  refine List.filterMap_congr fun table htable => ?_
  obtain ⟨leaf, hleaf⟩ := exists_leaf_of_mem_visit htable
  rw [h.leaf?_eq (lt_of_isSome_leaf? (by rw [hleaf]; rfl))]

/-- Columns resolve in a scope as they did before nodes were added. -/
theorem Within.resolve_eq (h : tree.Within tree') (hid : id < tree.size) :
    tree'.resolve id = tree.resolve id := by
  funext ref
  rw [resolve, resolve, h.node? id hid, h.leavesUnder_eq hid]

/-! ### The new node -/

theorem node?_size_push (hnode : ∀ child ∈ node.children, child < tree.size) :
    (tree.push node hnode).node? tree.size = some node := by
  rw [node?, push, size]
  exact List.getElem?_concat_length

theorem leaf?_size_push (hnode : ∀ child ∈ node.children, child < tree.size) :
    (tree.push node hnode).leaf? tree.size = node.leaf? :=
  leaf?_of_node? (node?_size_push hnode)

theorem children_size_push (hnode : ∀ child ∈ node.children, child < tree.size) :
    (tree.push node hnode).children tree.size = node.children :=
  children_of_node? (node?_size_push hnode)

/-- Below a new inner node there is what is below its children. -/
theorem tablesUnder_size_push (hnode : ∀ child ∈ node.children, child < tree.size)
    (hinner : node.leaf? = none) :
    (tree.push node hnode).tablesUnder tree.size = node.children.flatMap tree.tablesUnder := by
  rw [tablesUnder_of_node? (node?_size_push hnode) hinner]
  exact List.flatMap_congr fun child hchild => (within_push hnode).tablesUnder_eq (hnode child hchild)

/-- The leaves of the tree with one more node are those that it had, and the new one if it is a leaf. -/
theorem isSome_leaf?_push_iff (hnode : ∀ child ∈ node.children, child < tree.size) :
    ((tree.push node hnode).leaf? id).isSome = true ↔
      (tree.leaf? id).isSome = true ∨ (id = tree.size ∧ node.leaf?.isSome = true) := by
  constructor
  · intro h
    have hlt := lt_of_isSome_leaf? h
    rw [size_push] at hlt
    rcases Nat.lt_succ_iff_lt_or_eq.mp hlt with hold | rfl
    · rw [(within_push hnode).leaf?_eq hold] at h
      exact .inl h
    · rw [leaf?_size_push] at h
      exact .inr ⟨rfl, h⟩
  · rintro (h | ⟨rfl, h⟩)
    · rw [(within_push hnode).leaf?_eq (lt_of_isSome_leaf? h)]
      exact h
    · rw [leaf?_size_push]
      exact h

/-! ## §3. What a declared plan adds -/

/-- The second tree is the first one with more nodes, and each new leaf is below the root, on one
    path. -/
structure Spans (tree tree' : PlanTree) (root : NodeId) : Prop where
  within  : tree.Within tree'
  root_lt : root < tree'.size
  nodup   : (tree'.tablesUnder root).Nodup
  mem_iff : ∀ id, id ∈ tree'.tablesUnder root ↔ tree.size ≤ id ∧ (tree'.leaf? id).isSome = true

/-- A new table leaf is all that there is below itself. -/
theorem spans_push_table {leaf : TableLeaf}
    (hnode : ∀ child ∈ (PlanNode.table leaf).children, child < tree.size) :
    tree.Spans (tree.push (.table leaf) hnode) tree.size := by
  have hleaf : (tree.push (.table leaf) hnode).leaf? tree.size = some leaf := leaf?_size_push hnode
  have htables := tablesUnder_of_leaf? hleaf
  refine ⟨within_push hnode, ?_, ?_, fun id => ?_⟩
  · rw [size_push]
    exact Nat.lt_succ_self _
  · rw [htables]
    exact List.pairwise_singleton _ _
  · rw [htables, List.mem_singleton, isSome_leaf?_push_iff]
    constructor
    · rintro rfl
      exact ⟨Nat.le_refl _, .inr ⟨rfl, rfl⟩⟩
    · rintro ⟨hle, hold | ⟨rfl, _⟩⟩
      · exact absurd (lt_of_isSome_leaf? hold) (Nat.not_lt.mpr hle)
      · rfl

/-- A new inner node has all new leaves below it, on one path each, if its children have. -/
theorem spans_push_inner (hwithin : tree.Within next)
    (hnode : ∀ child ∈ node.children, child < next.size) (hinner : node.leaf? = none)
    (hnodup : (node.children.flatMap next.tablesUnder).Nodup)
    (hmem : ∀ id, id ∈ node.children.flatMap next.tablesUnder ↔
      tree.size ≤ id ∧ (next.leaf? id).isSome = true) :
    tree.Spans (next.push node hnode) next.size := by
  refine ⟨hwithin.trans (within_push hnode), ?_, ?_, fun id => ?_⟩
  · rw [size_push]
    exact Nat.lt_succ_self _
  · rw [tablesUnder_size_push hnode hinner]
    exact hnodup
  · have hnone : ¬ (id = next.size ∧ node.leaf?.isSome = true) := by simp [hinner]
    rw [tablesUnder_size_push hnode hinner, hmem, isSome_leaf?_push_iff, or_iff_left hnone]

/-- What was added in two steps has its leaves below two nodes. -/
theorem Spans.append (hleft : tree.Spans next left) (hright : next.Spans tree' right) :
    (tree'.tablesUnder left ++ tree'.tablesUnder right).Nodup ∧
      ∀ id, id ∈ tree'.tablesUnder left ++ tree'.tablesUnder right ↔
        tree.size ≤ id ∧ (tree'.leaf? id).isSome = true := by
  -- what is below the first node was there before the second step
  rw [hright.within.tablesUnder_eq hleft.root_lt]
  have hold : ∀ id ∈ next.tablesUnder left, id < next.size :=
    fun id hid => lt_of_isSome_leaf? ((hleft.mem_iff id).mp hid).2
  constructor
  · refine List.nodup_append.mpr ⟨hleft.nodup, hright.nodup, fun id hid other hother => ?_⟩
    have hle : next.size ≤ other := ((hright.mem_iff other).mp hother).1
    exact Nat.ne_of_lt (Nat.lt_of_lt_of_le (hold id hid) hle)
  · intro id
    rw [List.mem_append, hleft.mem_iff, hright.mem_iff]
    by_cases hid : id < next.size
    · rw [hright.within.leaf?_eq hid]
      have hnot : ¬ next.size ≤ id := Nat.not_le.mpr hid
      simp [hnot]
    · have hle : next.size ≤ id := Nat.not_lt.mp hid
      have hnone : ¬ (next.leaf? id).isSome = true := fun h => hid (lt_of_isSome_leaf? h)
      simp [hle, hnone, Nat.le_trans hleft.within.size_le hle]

/-- A new node over what was added in two steps, whichever side comes first. -/
theorem Spans.join (hleft : tree.Spans next left) (hright : next.Spans tree' right)
    (hnode : ∀ child ∈ node.children, child < tree'.size) (hinner : node.leaf? = none)
    (hchildren : node.children = [left, right] ∨ node.children = [right, left]) :
    tree.Spans (tree'.push node hnode) tree'.size := by
  obtain ⟨hnodup, hmem⟩ := hleft.append hright
  have hperm : (node.children.flatMap tree'.tablesUnder).Perm
      (tree'.tablesUnder left ++ tree'.tablesUnder right) := by
    rcases hchildren with heq | heq
    · rw [heq, List.flatMap_cons, List.flatMap_singleton]
    · rw [heq, List.flatMap_cons, List.flatMap_singleton]
      exact List.perm_append_comm
  exact spans_push_inner (hleft.within.trans hright.within) hnode hinner (hperm.nodup_iff.mpr hnodup)
    fun id => hperm.mem_iff.trans (hmem id)

/-- The node of a declared join. A right join is a left join with its sides exchanged. -/
def joinNode (left right : NodeId) : JoinSpec → PlanNode
  | .inner => .join .inner left right
  | .left => .join .leftOuter left right
  | .right => .join .leftOuter right left

theorem children_joinNode (left right : NodeId) (kind : JoinSpec) :
    (joinNode left right kind).children = [left, right] ∨
      (joinNode left right kind).children = [right, left] := by
  cases kind with
  | inner => exact .inl rfl
  | left => exact .inl rfl
  | right => exact .inr rfl

theorem leaf?_joinNode (left right : NodeId) (kind : JoinSpec) :
    (joinNode left right kind).leaf? = none := by
  cases kind <;> rfl

/-- Building adds nodes bottom up. What holds of every node that is added over what was added for the
    parts of its declaration holds of a declared plan. -/
theorem build_induction {catalog : Catalog}
    {motive : PlanTree → PlanSpec → PlanTree → NodeId → Prop}
    (table : ∀ (tree : PlanTree) (name : String) (renamed : Option String) (table : Table)
      (hnode : ∀ child ∈ (PlanNode.table ⟨table, renamed⟩).children, child < tree.size),
      catalog.table name = .ok table →
      motive tree (.table name renamed) (tree.push (.table ⟨table, renamed⟩) hnode) tree.size)
    (join : ∀ (tree next last : PlanTree) (kind : JoinSpec) (l r : PlanSpec) (left right : NodeId)
      (hnode : ∀ child ∈ (joinNode left right kind).children, child < last.size),
      motive tree l next left → motive next r last right →
      motive tree (.join kind l r) (last.push (joinNode left right kind) hnode) last.size)
    (query : ∀ (tree next : PlanTree) (c : PlanSpec) (child : NodeId)
      (hnode : ∀ child' ∈ (PlanNode.query child).children, child' < next.size),
      motive tree c next child →
      motive tree (.query c) (next.push (.query child) hnode) next.size)
    (noName : ∀ (tree : PlanTree) (hnode : ∀ child ∈ PlanNode.noName.children, child < tree.size),
      motive tree .noName (tree.push .noName hnode) tree.size)
    {spec : PlanSpec} (h : tree.build catalog spec = .ok (tree', root)) :
    motive tree spec tree' root := by
  induction spec generalizing tree tree' root with
  | table name renamed =>
    rw [build] at h
    split at h
    · cases h
    · next hfound =>
      cases h
      exact table tree name renamed _ _ hfound
  | join kind l r ihl ihr =>
    rw [build] at h
    split at h
    · cases h
    · next next left hleft =>
      split at h
      · cases h
      · next last right hright =>
        have hjoin : ∃ hnode,
            (tree', root) = (last.push (joinNode left right kind) hnode, last.size) := by
          cases kind with
          | inner => exact of_addJoin h
          | left => exact of_addJoin h
          | right => exact of_addJoin h
        obtain ⟨hnode, hresult⟩ := hjoin
        cases hresult
        exact join tree next last kind l r left right hnode (ihl hleft) (ihr hright)
  | query c ih =>
    rw [build] at h
    split at h
    · cases h
    · next next child hbuild =>
      obtain ⟨hnode, hresult⟩ := of_addQuery h
      cases hresult
      exact query tree next c child hnode (ih hbuild)
  | noName =>
    cases h
    exact noName tree _

/-- All new leaves are below the topmost node of a declared plan, on one path each. -/
theorem spans_of_build {catalog : Catalog} {spec : PlanSpec}
    (h : tree.build catalog spec = .ok (tree', root)) : tree.Spans tree' root := by
  refine build_induction (motive := fun tree _ tree' root => tree.Spans tree' root)
    ?table ?join ?query ?noName h
  case table => exact fun tree _ _ _ hnode _ => spans_push_table hnode
  case join =>
    intro tree next last kind _ _ left right hnode hleft hright
    exact hleft.join hright hnode (leaf?_joinNode left right kind) (children_joinNode left right kind)
  case query =>
    intro tree next _ child hnode hchild
    have htables : (PlanNode.query child).children.flatMap next.tablesUnder =
        next.tablesUnder child := List.flatMap_singleton _ _
    exact spans_push_inner hchild.within hnode rfl (htables ▸ hchild.nodup)
      fun id => htables ▸ hchild.mem_iff id
  case noName =>
    intro tree hnode
    refine spans_push_inner (.refl tree) hnode rfl List.nodup_nil fun id => ?_
    -- there is no new leaf
    constructor
    · intro hid
      cases hid
    · rintro ⟨hle, hleaf⟩
      exact absurd (lt_of_isSome_leaf? hleaf) (Nat.not_lt.mpr hle)

end PushDown.PlanTree
