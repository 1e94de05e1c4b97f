import PushDown.Proofs.Leaves

/-! # The walk to the leaves

    The leaves below a node are found by a loop over a stack. Each round takes a
    node off, notes it if it is a table leaf, and puts its children on, the last
    one first.

    The leaves can also be had by recursion over the nodes (`leafIds`), and they
    stand at the ends of the paths that lead down to them (`leafPaths`). What the
    walk has found and what lies below its stack are together the same after
    every round, and the stack weighs less (`Walk.round_of_grounded`). So the
    walk ends, and has found what the recursion finds (`Walk.rounds_eq`).

    The trees are those that any requests lead to, whether they are granted or
    rejected (`grown`).
-/

namespace PushDown.PlanTree

variable {tree : PlanTree} {id : NodeId} {node : PlanNode}

/-! ## §1. Requests -/

/-- What can be asked of a tree. -/
inductive Request
  | addTable (table : Table) (renamed : Option String)
  | addJoin (kind : JoinKind) (left right : NodeId)
  | addRightJoin (left right : NodeId)
  | addQuery (child : NodeId)
  | addNoName

/-- The tree that is answered, or the one before if the request is rejected. -/
def orBefore (tree : PlanTree) : Except PlanError (PlanTree × NodeId) → PlanTree
  | .ok grown => grown.1
  | .error _ => tree

/-- The tree after a request. -/
def after (tree : PlanTree) : Request → PlanTree
  | .addTable table renamed => (tree.addTable table renamed).1
  | .addJoin kind left right => tree.orBefore (tree.addJoin kind left right)
  | .addRightJoin left right => tree.orBefore (tree.addRightJoin left right)
  | .addQuery child => tree.orBefore (tree.addQuery child)
  | .addNoName => tree.addNoName.1

/-- The tree that requests lead to, one after another. -/
def grown (requests : List Request) : PlanTree :=
  requests.foldl after empty

/-- Every child is there, and has a smaller number than its parent. -/
theorem exists_of_mem_children (hnode : tree.node? id = some node) {child : NodeId}
    (hchild : child ∈ node.children) : child < id ∧ ∃ below, tree.node? child = some below := by
  have hlt : child < id := tree.grounded id node hnode child hchild
  exact ⟨hlt, exists_node?_of_lt (Nat.lt_trans hlt (lt_of_node? hnode))⟩

/-! ## §2. The recursion -/

/-- The table leaves at or below a node, left to right: a table is its own leaf, and any other node has
    the leaves of its children. -/
def leafIds (tree : PlanTree) (id : NodeId) : List NodeId :=
  match _ : tree.node? id with
  | some (.table _) => [id]
  | some (.join _ left right) => leafIds tree left ++ leafIds tree right
  | some (.query child) => leafIds tree child
  | some .noName => []
  | none => []
termination_by id
decreasing_by
  all_goals exact tree.grounded id _ ‹tree.node? id = some _› _ (by simp [PlanNode.children])

/-- The leaves of a node are itself, if it is one, and those of its children. -/
theorem leafIds_eq (tree : PlanTree) (id : NodeId) :
    tree.leafIds id =
      (if (tree.leaf? id).isSome then [id] else []) ++ (tree.children id).flatMap tree.leafIds := by
  rw [leafIds]
  split <;> rename_i hfound <;> simp [leaf?, children, hfound, PlanNode.leaf?, PlanNode.children]

theorem tablesUnder_eq_leafIds (tree : PlanTree) (id : NodeId) :
    tree.tablesUnder id = tree.leafIds id := by
  -- children have smaller numbers
  induction id using Nat.strongRecOn with
  | ind id ih =>
    rw [leafIds_eq]
    cases hleaf : tree.leaf? id with
    | some leaf =>
      rw [tablesUnder_of_leaf? hleaf, children_of_leaf? hleaf]
      simp
    | none =>
      rw [tablesUnder_of_inner hleaf]
      simpa using List.flatMap_congr fun child hchild => ih child (lt_of_mem_children hchild)

/-! ## §3. The loop -/

/-- The state of the loop: the leaves found so far, and the nodes still to visit, the next one last. -/
structure Walk where
  found : List NodeId
  stack : List NodeId

namespace Walk

variable {walk : Walk}

/-- The walk from a node before its first round. -/
def start (id : NodeId) : Walk :=
  ⟨[], [id]⟩

/-- One round of the loop. Nothing is left to do once the stack is empty. -/
def round (tree : PlanTree) (walk : Walk) : Except Fault Walk :=
  match walk.stack.getLast? with
  | none => .ok walk
  | some id =>
    match tree.node id with
    | .error fault => .error fault
    | .ok node =>
      .ok ⟨if node.isTable then walk.found ++ [id] else walk.found,
        walk.stack.dropLast ++ node.children.reverse⟩

/-- Rounds of the loop, one after another. -/
def rounds (tree : PlanTree) : Nat → Walk → Except Fault Walk
  | 0, walk => .ok walk
  | n + 1, walk =>
    match walk.round tree with
    | .error fault => .error fault
    | .ok next => next.rounds tree n

/-- What the loop will have found in the end: what it has, and what lies below the stack, from its top
    down. -/
def outcome (tree : PlanTree) (walk : Walk) : List NodeId :=
  walk.found ++ walk.stack.reverse.flatMap tree.leafIds

/-- All nodes still to visit are there. -/
def Grounded (tree : PlanTree) (walk : Walk) : Prop :=
  ∀ id ∈ walk.stack, id < tree.size

theorem round_of_nil (h : walk.stack = []) : walk.round tree = .ok walk := by
  simp [round, h]

theorem round_of_concat {found stack : List NodeId} (hnode : tree.node? id = some node) :
    round tree ⟨found, stack ++ [id]⟩ =
      .ok ⟨if node.isTable then found ++ [id] else found, stack ++ node.children.reverse⟩ := by
  simp [round, PlanTree.node, hnode]

theorem stackWeight_reverse (stack : List NodeId) : stackWeight stack.reverse = stackWeight stack := by
  induction stack with
  | nil => rfl
  | cons id stack ih =>
    rw [List.reverse_cons, stackWeight_append, ih, stackWeight, stackWeight, stackWeight]
    omega

/-- A round finds a node that is there, keeps the outcome, and leaves less to do. -/
theorem round_of_grounded (h : walk.Grounded tree) (hne : walk.stack ≠ []) :
    ∃ next, walk.round tree = .ok next ∧ next.Grounded tree ∧
      next.outcome tree = walk.outcome tree ∧ stackWeight next.stack < stackWeight walk.stack := by
  obtain ⟨found, stack⟩ := walk
  obtain ⟨rest, id, rfl⟩ := (List.eq_nil_or_concat' stack).resolve_left hne
  obtain ⟨node, hnode⟩ := exists_node?_of_lt (h id List.mem_concat_self)
  refine ⟨_, round_of_concat hnode, ?grounded, ?outcome, ?weight⟩
  case grounded =>
    intro other hother
    rcases List.mem_append.mp hother with hrest | hchild
    · exact h other (List.mem_append_left _ hrest)
    · obtain ⟨_, below, hbelow⟩ := exists_of_mem_children hnode (List.mem_reverse.mp hchild)
      exact lt_of_node? hbelow
  case outcome =>
    -- what lies below the node is the node itself, or lies below its children
    have htable : node.isTable = (tree.leaf? id).isSome := by
      rw [leaf?_of_node? hnode, PlanNode.isTable]
    simp only [outcome, List.reverse_append, List.reverse_reverse, List.reverse_singleton,
      List.flatMap_append, List.flatMap_singleton, leafIds_eq tree id, children_of_node? hnode, htable]
    by_cases hleaf : (tree.leaf? id).isSome = true
    · simp [hleaf]
    · simp [hleaf]
  case weight =>
    have hlt : stackWeight node.children < Nat.pow 3 id := by
      rw [← children_of_node? hnode]
      exact stackWeight_children_lt tree id
    simp only [stackWeight_append, stackWeight_reverse, stackWeight]
    omega

theorem eq_nil_of_stackWeight {stack : List NodeId} (h : stackWeight stack = 0) : stack = [] := by
  cases stack with
  | nil => rfl
  | cons id stack =>
    have hpos : 0 < Nat.pow 3 id := Nat.pow_pos (by decide)
    rw [stackWeight] at h
    omega

/-- Once the stack is empty, the outcome is found. -/
theorem eq_outcome_of_nil (tree : PlanTree) (h : walk.stack = []) : walk = ⟨walk.outcome tree, []⟩ := by
  obtain ⟨found, stack⟩ := walk
  obtain rfl : stack = [] := h
  simp [outcome]

/-- The loop ends within as many rounds as the stack weighs, with its outcome found. -/
theorem rounds_eq {n : Nat} (h : walk.Grounded tree) (hn : stackWeight walk.stack ≤ n) :
    walk.rounds tree n = .ok ⟨walk.outcome tree, []⟩ := by
  induction n generalizing walk with
  | zero =>
    have hnil : walk.stack = [] := eq_nil_of_stackWeight (by omega)
    rw [rounds, ← eq_outcome_of_nil tree hnil]
  | succ n ih =>
    rw [rounds]
    by_cases hnil : walk.stack = []
    · rw [round_of_nil hnil]
      exact ih h (by simp [hnil, stackWeight])
    · obtain ⟨next, hround, hground, houtcome, hweight⟩ := round_of_grounded h hnil
      rw [hround, ← houtcome]
      exact ih hground (by omega)

/-- From a node the loop comes to the leaves below it. -/
theorem rounds_start {n : Nat} (h : id < tree.size) (hn : Nat.pow 3 id ≤ n) :
    (start id).rounds tree n = .ok ⟨tree.leafIds id, []⟩ := by
  have hground : (start id).Grounded tree := by
    intro other hother
    rw [List.mem_singleton.mp hother]
    exact h
  rw [rounds_eq hground (by simpa [start, stackWeight] using hn)]
  simp [outcome, start]

end Walk

/-! ## §4. The paths -/

/-- The node that a path leads to. Each step goes to the child in the given place. -/
def follow (tree : PlanTree) (id : NodeId) : List Nat → Option NodeId
  | [] => some id
  | place :: path =>
    match (tree.children id)[place]? with
    | some child => tree.follow child path
    | none => none

/-- The paths from a node to table leaves, left to right. -/
def leafPaths (tree : PlanTree) (id : NodeId) : List (List Nat) :=
  match _ : tree.node? id with
  | some (.table _) => [[]]
  | some (.join _ left right) =>
    (leafPaths tree left).map (0 :: ·) ++ (leafPaths tree right).map (1 :: ·)
  | some (.query child) => (leafPaths tree child).map (0 :: ·)
  | some .noName => []
  | none => []
termination_by id
decreasing_by
  all_goals exact tree.grounded id _ ‹tree.node? id = some _› _ (by simp [PlanNode.children])

/-- The paths go on to the children, each with its place. -/
theorem leafPaths_eq (tree : PlanTree) (id : NodeId) :
    tree.leafPaths id = (if (tree.leaf? id).isSome then [[]] else []) ++
      (tree.children id).zipIdx.flatMap fun child => (tree.leafPaths child.1).map (child.2 :: ·) := by
  rw [leafPaths]
  split <;> rename_i hfound <;> simp [leaf?, children, hfound, PlanNode.leaf?, PlanNode.children]

theorem nil_mem_leafPaths : [] ∈ tree.leafPaths id ↔ (tree.leaf? id).isSome = true := by
  rw [leafPaths_eq]
  simp

theorem cons_mem_leafPaths {place : Nat} {path : List Nat} :
    place :: path ∈ tree.leafPaths id ↔
      ∃ child, (tree.children id)[place]? = some child ∧ path ∈ tree.leafPaths child := by
  have hleaf : place :: path ∉ if (tree.leaf? id).isSome then [[]] else [] := by split <;> simp
  rw [leafPaths_eq, List.mem_append, or_iff_right hleaf, List.mem_flatMap]
  constructor
  · intro h
    obtain ⟨⟨child, other⟩, hchild, hpath⟩ := h
    obtain ⟨rest, hrest, heq⟩ := List.mem_map.mp hpath
    obtain ⟨rfl, rfl⟩ := List.cons.inj heq
    exact ⟨child, List.mk_mem_zipIdx_iff_getElem?.mp hchild, hrest⟩
  · intro h
    obtain ⟨child, hchild, hpath⟩ := h
    exact ⟨(child, place), List.mk_mem_zipIdx_iff_getElem?.mpr hchild, List.mem_map_of_mem hpath⟩

/-- A path in the list leads to a leaf, and every such path is there. -/
theorem mem_leafPaths {path : List Nat} :
    path ∈ tree.leafPaths id ↔
      ∃ leaf, tree.follow id path = some leaf ∧ (tree.leaf? leaf).isSome = true := by
  induction path generalizing id with
  | nil =>
    rw [nil_mem_leafPaths]
    simp [follow]
  | cons place path ih =>
    rw [cons_mem_leafPaths, follow]
    cases (tree.children id)[place]? with
    | none => simp
    | some child => simp [ih]

/-- A path to the left comes before one to the right of it. -/
theorem pairwise_leafPaths (tree : PlanTree) (id : NodeId) :
    (tree.leafPaths id).Pairwise (List.Lex (· < ·)) := by
  induction id using Nat.strongRecOn with
  | ind id ih =>
    rw [leafPaths_eq, List.pairwise_append, List.pairwise_flatMap]
    refine ⟨?leaf, ⟨?within, ?across⟩, ?first⟩
    case leaf => split <;> simp
    case within =>
      intro child hchild
      have hlt : child.1 < id :=
        lt_of_mem_children (List.mem_of_getElem? (List.mem_zipIdx_iff_getElem?.mp hchild))
      exact List.pairwise_map.mpr ((ih child.1 hlt).imp .cons)
    case across =>
      have hplaces : (tree.children id).zipIdx.Pairwise fun child other => child.2 < other.2 := by
        rw [← List.pairwise_map, List.zipIdx_map_snd]
        exact List.pairwise_lt_range' 1
      refine hplaces.imp fun hlt path hpath other hother => ?_
      obtain ⟨_, _, rfl⟩ := List.mem_map.mp hpath
      obtain ⟨_, _, rfl⟩ := List.mem_map.mp hother
      exact .rel hlt
    case first =>
      -- the path to the node itself is empty
      intro path hpath other hother
      obtain ⟨child, _, hother⟩ := List.mem_flatMap.mp hother
      obtain ⟨_, _, rfl⟩ := List.mem_map.mp hother
      split at hpath
      · obtain rfl := List.mem_singleton.mp hpath
        exact .nil
      · cases hpath

/-- The leaves are what the paths lead to, in order. -/
theorem filterMap_follow_leafPaths (tree : PlanTree) (id : NodeId) :
    (tree.leafPaths id).filterMap (tree.follow id) = tree.leafIds id := by
  induction id using Nat.strongRecOn with
  | ind id ih =>
    rw [leafPaths_eq, leafIds_eq, List.filterMap_append, List.filterMap_flatMap]
    congr 1
    · split <;> simp [follow]
    · calc (tree.children id).zipIdx.flatMap (fun child =>
            ((tree.leafPaths child.1).map (child.2 :: ·)).filterMap (tree.follow id))
          = (tree.children id).zipIdx.flatMap (fun child => tree.leafIds child.1) := by
            refine List.flatMap_congr fun child hchild => ?_
            have hplace := List.mem_zipIdx_iff_getElem?.mp hchild
            rw [← ih child.1 (lt_of_mem_children (List.mem_of_getElem? hplace)), List.filterMap_map]
            refine List.filterMap_congr fun path _ => ?_
            simp [follow, hplace]
        _ = (tree.children id).flatMap tree.leafIds := by
            rw [← List.flatMap_map, List.zipIdx_map_fst]

/-! ## §5. Requests and walks -/

/-- Whatever is asked of a tree, every child is there and has a smaller number than its parent. From
    each node the loop ends, without a fault, at the leaves that the recursion gives. Those are the
    leaves at the ends of all paths, left to right, and a leaf is listed once for each path to it. -/
theorem walk_of_requests (requests : List Request) :
    (∀ id node, (grown requests).node? id = some node → ∀ child ∈ node.children,
      child < id ∧ ∃ below, (grown requests).node? child = some below) ∧
    ∀ id, id < (grown requests).size →
      (∀ n, Nat.pow 3 id ≤ n → (Walk.start id).rounds (grown requests) n =
        .ok ⟨(grown requests).tablesUnder id, []⟩) ∧
      (grown requests).tablesUnder id = (grown requests).leafIds id ∧
      ∃ paths : List (List Nat), paths.Pairwise (List.Lex (· < ·)) ∧
        (∀ path, path ∈ paths ↔ ∃ leaf, (grown requests).follow id path = some leaf ∧
          ((grown requests).leaf? leaf).isSome = true) ∧
        (grown requests).tablesUnder id = paths.filterMap ((grown requests).follow id) := by
  constructor
  · intro id node hnode child hchild
    exact exists_of_mem_children hnode hchild
  · intro id hid
    have hleaves := tablesUnder_eq_leafIds (grown requests) id
    refine ⟨?loop, hleaves, (grown requests).leafPaths id, ?paths⟩
    case loop =>
      intro n hn
      rw [hleaves]
      exact Walk.rounds_start hid hn
    case paths =>
      refine ⟨pairwise_leafPaths _ _, fun path => mem_leafPaths, ?_⟩
      rw [hleaves, filterMap_follow_leafPaths]

/-! ### A shared leaf

    Node 4 joins node 3 with node 0, which is below node 3 as well. -/

namespace Walk.Shared

def requests : List Request :=
  [.addTable Plan.Shop.users none, .addTable Plan.Shop.orders none, .addJoin .inner 0 9,
    .addJoin .inner 0 1, .addQuery 2, .addRightJoin 0 3, .addNoName]

theorem walk_of_requests_shared :
    (grown requests).node? 4 = some (.join .leftOuter 3 0) ∧
    (0 < 4 ∧ ∃ below, (grown requests).node? 0 = some below) ∧
    4 < (grown requests).size ∧ (Walk.start 4).rounds (grown requests) 81 = .ok ⟨[0, 1, 0], []⟩ ∧
    (grown requests).leafIds 4 = [0, 1, 0] := by
  have hnode : (grown requests).node? 4 = some (.join .leftOuter 3 0) := by decide +kernel
  have hsize : 4 < (grown requests).size := by decide +kernel
  have htables : (grown requests).tablesUnder 4 = [0, 1, 0] := by decide +kernel
  obtain ⟨hchildren, hwalk⟩ := walk_of_requests requests
  obtain ⟨hloop, hleaves, _⟩ := hwalk 4 hsize
  refine ⟨hnode, hchildren 4 _ hnode 0 (by decide), hsize, ?_, ?_⟩
  · rw [hloop 81 (by decide), htables]
  · rw [← hleaves, htables]

end Walk.Shared

end PushDown.PlanTree
