import Mathlib.Data.List.Nodup
import Mathlib.Data.List.Pairwise
import PushDown.Proofs.Leaves

/-! # Declared plans are strict trees

    Building a declared plan adds one node for each of its parts, bottom up. The
    children of the new nodes and the topmost node make up all the new nodes,
    each once (`adds_of_build`). So from an empty tree every node but the last
    is the child of exactly one node.

    The parts are stored as they are declared, except that the sides of a right
    join are exchanged (`PlanTree.Stores`). The walk from the topmost node finds
    the leaves in the order that this gives (`Stores.tablesUnder_eq`).
-/

namespace PushDown

/-- The number of parts of a declared plan, itself included. -/
def PlanSpec.size : PlanSpec → Nat
  | table _ _ | noName => 1
  | join _ left right => left.size + right.size + 1
  | query child => child.size + 1

namespace PlanTree

variable {tree next last tree' : PlanTree} {id left right root : NodeId} {node : PlanNode}
  {catalog : Catalog} {spec : PlanSpec}

/-! ## §1. One parent for each node -/

/-- What building a declared plan adds to a tree: as many nodes as it has parts, with the topmost one
    last. The others are children of new nodes, each once. -/
structure Adds (tree : PlanTree) (spec : PlanSpec) (tree' : PlanTree) (root : NodeId) : Prop where
  within : tree.Within tree'
  size   : tree'.size = tree.size + spec.size
  last   : root + 1 = tree'.size
  perm   : ((List.range' tree.size spec.size).flatMap tree'.children ++ [root]).Perm
    (List.range' tree.size spec.size)

/-- The children of nodes that were there are as before. -/
theorem Within.flatMap_children (h : tree.Within tree') {start count : Nat}
    (hle : start + count ≤ tree.size) :
    (List.range' start count).flatMap tree'.children =
      (List.range' start count).flatMap tree.children := by
  refine List.flatMap_congr fun id hid => h.children_eq ?_
  exact Nat.lt_of_lt_of_le (List.mem_range'_1.mp hid).2 hle

/-- A new node over what was added, if the children of what was added and of the new node make up what
    was added. -/
theorem adds_push {count : Nat} (hwithin : tree.Within next)
    (hnode : ∀ child ∈ node.children, child < next.size) (hsize : next.size = tree.size + count)
    (hspec : spec.size = count + 1)
    (hperm : ((List.range' tree.size count).flatMap next.children ++ node.children).Perm
      (List.range' tree.size count)) :
    tree.Adds spec (next.push node hnode) next.size := by
  refine ⟨hwithin.trans (within_push hnode), ?_, (size_push next node hnode).symm, ?_⟩
  · rw [size_push, hsize, hspec]
    omega
  · have hold := (within_push hnode).flatMap_children (Nat.le_of_eq hsize.symm)
    rw [hspec, List.range'_1_concat, ← hsize, List.flatMap_append, hold, List.flatMap_singleton,
      children_size_push]
    exact hperm.append_right [next.size]

theorem adds_of_build (h : tree.build catalog spec = .ok (tree', root)) :
    tree.Adds spec tree' root := by
  refine build_induction (motive := Adds) ?table ?join ?query ?noName h
  case table => exact fun tree _ _ _ hnode _ => adds_push (.refl tree) hnode rfl rfl .nil
  case noName => exact fun tree hnode => adds_push (.refl tree) hnode rfl rfl .nil
  case query => exact fun tree next c child hnode hc => adds_push hc.within hnode hc.size rfl hc.perm
  case join =>
    intro tree next last kind l r left right hnode hl hr
    have hsize : last.size = tree.size + (l.size + r.size) := by
      rw [hr.size, hl.size, Nat.add_assoc]
    refine adds_push (hl.within.trans hr.within) hnode hsize rfl ?_
    -- the nodes of the left part, and then those of the right part
    have hleft := hr.within.flatMap_children (Nat.le_of_eq hl.size.symm)
    rw [← List.range'_append_1, ← hl.size, List.flatMap_append, hleft]
    have hsides : (joinNode left right kind).children.Perm ([left] ++ [right]) := by
      rcases children_joinNode left right kind with heq | heq
      · rw [heq]
        exact .refl _
      · rw [heq]
        exact .swap left right []
    refine (hsides.append_left _).trans (.trans ?_ (hl.perm.append hr.perm))
    -- the topmost node of the left part comes before the children of the right part or after them
    simp only [List.append_assoc]
    refine .append_left _ ?_
    simp only [← List.append_assoc]
    exact List.perm_append_comm.append_right [right]

/-- The nodes of a tree are below the last one, on one path each. -/
structure IsStrict (tree : PlanTree) (root : NodeId) : Prop where
  last     : root + 1 = tree.size
  child_lt : ∀ parent child, child ∈ tree.children parent → child < parent
  /-- Every node but the last is a child of exactly one node. -/
  parent   : ∀ id, id < tree.size → id ≠ root →
    ∃ parent, ∀ other, id ∈ tree.children other ↔ other = parent
  /-- No node is a child of another one twice. -/
  once     : ∀ parent, (tree.children parent).Nodup

theorem Adds.isStrict (h : empty.Adds spec tree root) : tree.IsStrict root := by
  have hsize : tree.size = spec.size := h.size.trans (Nat.zero_add _)
  have hperm : ((List.range tree.size).flatMap tree.children ++ [root]).Perm
      (List.range tree.size) := by
    rw [List.range_eq_range', hsize]
    exact h.perm
  have hnodup := (hperm.nodup_iff.mpr List.nodup_range).of_append_left
  obtain ⟨honce, hdisjoint⟩ := List.nodup_flatMap.mp hnodup
  -- only nodes that are there have children
  have hthere : ∀ {parent child}, child ∈ tree.children parent → parent ∈ List.range tree.size := by
    intro parent child hchild
    refine List.mem_range.mpr (Nat.lt_of_not_le fun hle => ?_)
    rw [children, node?, List.getElem?_eq_none hle] at hchild
    cases hchild
  refine ⟨h.last, fun parent child => lt_of_mem_children, fun id hid hroot => ?_, fun parent => ?_⟩
  · have hmem := hperm.mem_iff.mpr (List.mem_range.mpr hid)
    rw [List.mem_append, List.mem_singleton, or_iff_left hroot] at hmem
    obtain ⟨parent, hparent, hid⟩ := List.mem_flatMap.mp hmem
    refine ⟨parent, fun other => ⟨fun hother => ?_, fun heq => heq ▸ hid⟩⟩
    by_contra hne
    have hsymm : Std.Symm (Function.onFun List.Disjoint tree.children) :=
      ⟨fun _ _ hab _ hb ha => hab ha hb⟩
    exact hdisjoint.forall (hthere hother) hparent hne hother hid
  · by_cases hparent : parent ∈ List.range tree.size
    · exact honce parent hparent
    · -- what is not there has no children
      have hnone : tree.children parent = [] :=
        List.eq_nil_iff_forall_not_mem.mpr fun child hchild => hparent (hthere hchild)
      rw [hnone]
      exact List.nodup_nil

/-! ## §2. What is stored -/

/-- The declared plan is stored at the node, with its leaves at the given nodes, left to right. A right
    join is stored as a left join with its sides exchanged. -/
inductive Stores (catalog : Catalog) (tree : PlanTree) : PlanSpec → NodeId → List NodeId → Prop
  | table {name : String} {renamed : Option String} {table : Table} {id : NodeId} :
      catalog.table name = .ok table → tree.node? id = some (.table ⟨table, renamed⟩) →
      Stores catalog tree (.table name renamed) id [id]
  | inner {l r : PlanSpec} {left right id : NodeId} {ls rs : List NodeId} :
      Stores catalog tree l left ls → Stores catalog tree r right rs →
      tree.node? id = some (.join .inner left right) →
      Stores catalog tree (.join .inner l r) id (ls ++ rs)
  | left {l r : PlanSpec} {left right id : NodeId} {ls rs : List NodeId} :
      Stores catalog tree l left ls → Stores catalog tree r right rs →
      tree.node? id = some (.join .leftOuter left right) →
      Stores catalog tree (.join .left l r) id (ls ++ rs)
  | right {l r : PlanSpec} {left right id : NodeId} {ls rs : List NodeId} :
      Stores catalog tree l left ls → Stores catalog tree r right rs →
      tree.node? id = some (.join .leftOuter right left) →
      Stores catalog tree (.join .right l r) id (rs ++ ls)
  | query {c : PlanSpec} {child id : NodeId} {ids : List NodeId} :
      Stores catalog tree c child ids → tree.node? id = some (.query child) →
      Stores catalog tree (.query c) id ids
  | noName {id : NodeId} : tree.node? id = some .noName → Stores catalog tree .noName id []

variable {ids : List NodeId}

/-- What is stored in a tree is stored in every tree that has more nodes. -/
theorem Stores.mono (h : tree.Stores catalog spec id ids) (hwithin : tree.Within tree') :
    tree'.Stores catalog spec id ids := by
  have hkeeps : ∀ {id node}, tree.node? id = some node → tree'.node? id = some node :=
    fun hnode => (hwithin.node? _ (lt_of_node? hnode)).trans hnode
  induction h with
  | table htable hnode => exact .table htable (hkeeps hnode)
  | inner _ _ hnode ihl ihr => exact .inner ihl ihr (hkeeps hnode)
  | left _ _ hnode ihl ihr => exact .left ihl ihr (hkeeps hnode)
  | right _ _ hnode ihl ihr => exact .right ihl ihr (hkeeps hnode)
  | query _ hnode ih => exact .query ih (hkeeps hnode)
  | noName hnode => exact .noName (hkeeps hnode)

/-- The walk from the node at which a plan is stored finds the leaves of the plan in their order. -/
theorem Stores.tablesUnder_eq (h : tree.Stores catalog spec id ids) : tree.tablesUnder id = ids := by
  have hjoin : ∀ {id kind a b}, tree.node? id = some (.join kind a b) →
      tree.tablesUnder id = tree.tablesUnder a ++ tree.tablesUnder b := by
    intro id kind a b hnode
    rw [tablesUnder_of_node? hnode rfl, PlanNode.children, List.flatMap_cons, List.flatMap_singleton]
  induction h with
  | table _ hnode => exact tablesUnder_of_leaf? (leaf?_of_node? hnode)
  | inner _ _ hnode ihl ihr => rw [hjoin hnode, ihl, ihr]
  | left _ _ hnode ihl ihr => rw [hjoin hnode, ihl, ihr]
  | right _ _ hnode ihl ihr => rw [hjoin hnode, ihl, ihr]
  | query _ hnode ih =>
    rw [tablesUnder_of_node? hnode rfl, PlanNode.children, List.flatMap_singleton, ih]
  | noName hnode => rw [tablesUnder_of_node? hnode rfl, PlanNode.children, List.flatMap_nil]

/-- A declared plan is stored at the topmost of its nodes. -/
theorem stores_of_build (h : tree.build catalog spec = .ok (tree', root)) :
    tree'.Stores catalog spec root (tree'.tablesUnder root) := by
  suffices hstored : tree.Within tree' ∧ ∃ ids, tree'.Stores catalog spec root ids by
    obtain ⟨_, ids, hids⟩ := hstored
    rw [hids.tablesUnder_eq]
    exact hids
  refine build_induction (motive := fun tree spec tree' root =>
    tree.Within tree' ∧ ∃ ids, tree'.Stores catalog spec root ids) ?table ?join ?query ?noName h
  case table =>
    intro tree name renamed table hnode htable
    exact ⟨within_push hnode, _, .table htable (node?_size_push hnode)⟩
  case join =>
    intro tree next last kind l r left right hnode ⟨hl, ls, hls⟩ ⟨hr, rs, hrs⟩
    have hpush := within_push hnode
    have hroot := node?_size_push hnode
    -- both parts are still stored when the join is added
    have hleft := hls.mono (hr.trans hpush)
    have hright := hrs.mono hpush
    refine ⟨hl.trans (hr.trans hpush), ?_⟩
    cases kind with
    | inner => exact ⟨_, .inner hleft hright hroot⟩
    | left => exact ⟨_, .left hleft hright hroot⟩
    | right => exact ⟨_, .right hleft hright hroot⟩
  case query =>
    intro tree next c child hnode ⟨hc, ids, hids⟩
    have hpush := within_push hnode
    exact ⟨hc.trans hpush, ids, .query (hids.mono hpush) (node?_size_push hnode)⟩
  case noName =>
    intro tree hnode
    exact ⟨within_push hnode, [], .noName (node?_size_push hnode)⟩

/-! ## §3. Declared plans -/

/-- A declared plan that can be built from nothing is a strict tree with one node for each of its parts.
    It is stored there as declared, and the walk from its topmost node finds all table leaves of the
    tree, each once, in the order that they have in the declaration once the sides of every right join
    are exchanged. -/
theorem strict_of_build (h : empty.build catalog spec = .ok (tree, root)) :
    tree.IsStrict root ∧ tree.size = spec.size ∧
      tree.Stores catalog spec root (tree.tablesUnder root) ∧ (tree.tablesUnder root).Nodup ∧
      ∀ id, id ∈ tree.tablesUnder root ↔ (tree.leaf? id).isSome = true := by
  have hadds := adds_of_build h
  have hspans := spans_of_build h
  refine ⟨hadds.isStrict, hadds.size.trans (Nat.zero_add _), stores_of_build h, hspans.nodup, ?_⟩
  intro id
  rw [hspans.mem_iff, and_iff_right]
  exact Nat.zero_le id

end PlanTree

namespace Plan.Shop

/-- A right join of a right join over a query. The three tables are one and the same. -/
def exchangedTwice : PlanSpec :=
  .join .right (.join .right (.table "users" (some "a")) (.query (.table "users" (some "b"))))
    (.table "Users" none)

/-- The table that is declared last comes first, and the one that is declared first comes last. -/
theorem strict_of_build_exchangedTwice :
    ∃ catalog tree root, PlanTree.empty.build catalog exchangedTwice = .ok (tree, root) ∧
      tree.IsStrict root ∧ tree.size = 6 ∧ tree.tablesUnder root = [4, 1, 0] ∧
      tree.node? root = some (.join .leftOuter 4 3) ∧
      tree.Stores catalog exchangedTwice root [4, 1, 0] := by
  let catalog := (Catalog.empty.createTable "users" [Column.ofType "id" .long]).1
  have hrun : (PlanTree.empty.build catalog exchangedTwice).map
      (fun built => (built.1.tablesUnder built.2, built.1.node? built.2)) =
        .ok ([4, 1, 0], some (.join .leftOuter 4 3)) := by
    decide +kernel
  obtain ⟨⟨tree, root⟩, hbuild, hresult⟩ := Result.exists_of_map hrun
  obtain ⟨htables, hroot⟩ := Prod.mk.inj hresult
  obtain ⟨hstrict, hsize, hstores, _⟩ := PlanTree.strict_of_build hbuild
  exact ⟨catalog, tree, root, hbuild, hstrict, hsize, htables, hroot, htables ▸ hstores⟩

end Plan.Shop

end PushDown
