import PushDown.Placement

/-! # The plans that can come about

    A plan starts without nodes. It grows node by node, predicates are planned
    at its nodes, bound or unbound expressions are placed there, and the records
    are cleared. `Reachable` holds of the plans that any sequence of such
    actions leads to.

    Every action does one of three things (`step_cases`): it adds a node and
    leaves all records as they are, it places a list of expressions at one node,
    or it empties all records.
-/

namespace PushDown

/-! ## §1. Nodes and records -/

namespace PlanTree

variable {tree : PlanTree} {id : NodeId} {node : PlanNode}

theorem lt_of_node? (h : tree.node? id = some node) : id < tree.size := by
  obtain ⟨hlt, _⟩ := List.getElem?_eq_some_iff.mp h
  exact hlt

theorem exists_node?_of_lt (h : id < tree.size) : ∃ node, tree.node? id = some node :=
  ⟨_, List.getElem?_eq_getElem h⟩

theorem leaf?_of_node? (h : tree.node? id = some node) : tree.leaf? id = node.leaf? := by
  rw [leaf?, h, Option.bind_some]

theorem children_of_node? (h : tree.node? id = some node) : tree.children id = node.children := by
  rw [children, h]

/-- A walk downwards from `high` comes to `low`. -/
inductive Below (tree : PlanTree) (low : NodeId) : NodeId → Prop
  | refl : tree.Below low low
  | step {child high : NodeId} :
      child ∈ tree.children high → tree.Below low child → tree.Below low high

/-- The nodes that are there stay what they are. -/
theorem node?_push (hnode : ∀ child ∈ node.children, child < tree.size) (h : id < tree.size) :
    (tree.push node hnode).node? id = tree.node? id :=
  List.getElem?_append_left h

/-- A join that is made is the new node. -/
theorem of_addJoin {kind : JoinKind} {left right : NodeId} {result : PlanTree × NodeId}
    (h : tree.addJoin kind left right = .ok result) :
    ∃ hnode, result = (tree.push (.join kind left right) hnode, tree.size) := by
  unfold addJoin at h
  split at h
  · cases h
  · cases h
  · next hl hr _ _ =>
    split at h
    · cases h
    · exact ⟨by simp [PlanNode.children, hl.down, hr.down], (Except.ok.inj h).symm⟩

/-- A query that is made is the new node. -/
theorem of_addQuery {child : NodeId} {result : PlanTree × NodeId}
    (h : tree.addQuery child = .ok result) :
    ∃ hnode, result = (tree.push (.query child) hnode, tree.size) := by
  unfold addQuery at h
  split at h
  · cases h
  · next hchild _ => exact ⟨by simp [PlanNode.children, hchild.down], (Except.ok.inj h).symm⟩

/-- What is in a list that is bound is bound from a member of the list. -/
theorem exists_of_mem_bindAll {es bs : List Expr} {b : Expr} (h : tree.bindAll id es = .ok bs)
    (hb : b ∈ bs) : ∃ e ∈ es, tree.bind id e = .ok b := by
  induction es generalizing bs with
  | nil =>
    obtain rfl := Except.ok.inj h
    cases hb
  | cons e es ih =>
    rw [bindAll] at h
    split at h
    · simp at h
    · next first hfirst =>
      split at h
      · simp at h
      · next rest hrest =>
        obtain rfl := Except.ok.inj h
        rcases List.mem_cons.mp hb with rfl | hb
        · exact ⟨e, List.mem_cons_self, hfirst⟩
        · obtain ⟨x, hx, hbind⟩ := ih hrest hb
          exact ⟨x, List.mem_cons_of_mem e hx, hbind⟩

end PlanTree

namespace Plan

variable {plan : Plan} {id : NodeId}

theorem ownership_eq_empty (h : plan.tree.size ≤ id) : plan.ownership id = .empty := by
  have hnone : plan.owned[id]? = none := List.getElem?_eq_none (by rw [plan.owned_size]; exact h)
  rw [ownership, hnone, Option.getD_none]

theorem ownership_clear (plan : Plan) (id : NodeId) : plan.clear.ownership id = .empty := by
  simp only [ownership, clear, ofTree, List.getElem?_replicate]
  split <;> rfl

theorem ownership_grow {tree : PlanTree} (h : plan.tree.size ≤ tree.size) (id : NodeId) :
    (plan.grow tree h).ownership id = plan.ownership id := by
  simp only [ownership, grow]
  by_cases hid : id < plan.owned.length
  · rw [List.getElem?_append_left hid]
  · -- neither a new node nor one that is not there has a record
    have hle : plan.owned.length ≤ id := Nat.le_of_not_lt hid
    rw [List.getElem?_append_right hle, List.getElem?_eq_none hle, List.getElem?_replicate]
    split <;> rfl

theorem ownership_update (h : id < plan.tree.size) (f : Ownership → Ownership) (other : NodeId) :
    (plan.update id f).ownership other =
      if other = id then f (plan.ownership id) else plan.ownership other := by
  simp only [ownership, update, List.getElem?_modify]
  by_cases hid : other = id
  · subst hid
    have hlt : other < plan.owned.length := by rw [plan.owned_size]; exact h
    simp [List.getElem?_eq_getElem hlt]
  · have hne : ¬ id = other := fun h => hid h.symm
    simp [hid, hne]

theorem site_eq_ok_iff {restricted : Bool} {site : Site} :
    plan.site id restricted = .ok site ↔
      ∃ node, plan.tree.node? id = some node ∧ site = ⟨id, node, restricted⟩ := by
  unfold Plan.site PlanTree.node
  cases plan.tree.node? id with
  | none => simp [Except.map]
  | some node => simp [Except.map, eq_comm]

/-- What the conjuncts of a predicate leave behind is what placing them in order does. -/
theorem snd_placeConjuncts (site : Site) (own : Ownership) (es : List Expr) :
    (placeConjuncts site own es).2 = site.placeAll es own := by
  induction es generalizing own with
  | nil => simp only [placeConjuncts, Site.placeAll]
  | cons e es ih =>
    simp only [placeConjuncts, Site.placeAll]
    exact ih (site.place e own)

/-- What a predicate that is planned leads to: its conjuncts are bound, and placed in order. -/
theorem of_planFilter {restricted : Bool} {predicate : Expr} {placed : List Placement} {plan' : Plan}
    (h : plan.planFilter id restricted predicate = (.ok placed, plan')) :
    ∃ bound site, plan.tree.bindAll id predicate.conjuncts = .ok bound ∧
      plan.site id restricted = .ok site ∧
      placed = (placeConjuncts site (plan.ownership id) bound).1 ∧
      plan' = plan.update id fun _ => site.placeAll bound (plan.ownership id) := by
  unfold planFilter at h
  split at h
  · simp at h
  · next bound hbound =>
    split at h
    · simp at h
    · next site hsite =>
      obtain ⟨hplaced, rfl⟩ := Prod.mk.inj h
      refine ⟨bound, site, hbound, hsite, (Except.ok.inj hplaced).symm, ?_⟩
      rw [snd_placeConjuncts]

/-- A predicate that is not planned leaves the plan as it was. -/
theorem eq_of_planFilter_error {restricted : Bool} {predicate : Expr} {failure : Failure}
    {plan' : Plan} (h : plan.planFilter id restricted predicate = (.error failure, plan')) :
    plan' = plan := by
  unfold planFilter at h
  split at h
  · exact (Prod.mk.inj h).2.symm
  · split at h
    · exact (Prod.mk.inj h).2.symm
    · simp at h

/-! ## §2. Actions -/

/-- What can be done to a plan. -/
inductive Action
  | addTable (table : Table) (renamed : Option String)
  | addNoName
  | addJoin (kind : JoinKind) (left right : NodeId)
  | addRightJoin (left right : NodeId)
  | addQuery (child : NodeId)
  | planFilter (id : NodeId) (restricted : Bool) (predicate : Expr)
  | place (id : NodeId) (restricted : Bool) (e : Expr)
  | clear

/-- The plan after an action, if the action succeeds. -/
def step (plan : Plan) : Action → Except Failure Plan
  | .addTable table renamed => .ok (plan.addTable table renamed).1
  | .addNoName => .ok plan.addNoName.1
  | .addJoin kind left right => ((plan.addJoin kind left right).map (·.1)).mapError .rejected
  | .addRightJoin left right => ((plan.addRightJoin left right).map (·.1)).mapError .rejected
  | .addQuery child => ((plan.addQuery child).map (·.1)).mapError .rejected
  | .planFilter id restricted predicate =>
    match plan.planFilter id restricted predicate with
    | (.ok _, next) => .ok next
    | (.error failure, _) => .error failure
  | .place id restricted e => (plan.place id restricted e).mapError .broken
  | .clear => .ok plan.clear

/-- The action has the expression placed at the node. -/
inductive Action.Brings (plan : Plan) (id : NodeId) : Action → Expr → Prop
  | planFilter {restricted : Bool} {predicate e b : Expr} :
      e ∈ predicate.conjuncts → plan.tree.bind id e = .ok b →
      Brings plan id (.planFilter id restricted predicate) b
  | place {restricted : Bool} {e : Expr} : Brings plan id (.place id restricted e) e

/-- The plan can come about from the plan without nodes. -/
inductive Reachable : Plan → Prop
  | empty : Reachable .empty
  | step {plan plan' : Plan} (action : Action) :
      Reachable plan → plan.step action = .ok plan' → Reachable plan'

/-! ## §3. What an action does -/

/-- The plan has one more node, and the records are as before. -/
structure GrownBy (plan : Plan) (node : PlanNode) (plan' : Plan) : Prop where
  tree      : ∃ h, plan'.tree = plan.tree.push node h
  ownership : ∀ id, plan'.ownership id = plan.ownership id

/-- Expressions were placed at a site of the plan, in order; the other records are as before. -/
structure PlacedAt (plan : Plan) (site : Site) (es : List Expr) (plan' : Plan) : Prop where
  node      : plan.tree.node? site.id = some site.node
  tree      : plan'.tree = plan.tree
  ownership : ∀ id, plan'.ownership id =
    if id = site.id then site.placeAll es (plan.ownership id) else plan.ownership id

theorem grownBy_addTable (plan : Plan) (table : Table) (renamed : Option String) :
    plan.GrownBy (.table ⟨table, renamed⟩) (plan.addTable table renamed).1 where
  tree := ⟨by simp [PlanNode.children], rfl⟩
  ownership id := by rw [addTable, ownership_grow]

theorem grownBy_addNoName (plan : Plan) : plan.GrownBy .noName plan.addNoName.1 where
  tree := ⟨by simp [PlanNode.children], rfl⟩
  ownership id := by rw [addNoName, ownership_grow]

theorem grownBy_addJoin {kind : JoinKind} {left right : NodeId} {grown : Plan × NodeId}
    (h : plan.addJoin kind left right = .ok grown) :
    plan.GrownBy (.join kind left right) grown.1 := by
  unfold addJoin at h
  split at h
  · simp at h
  · next result hresult =>
    obtain ⟨hnode, rfl⟩ := PlanTree.of_addJoin hresult
    cases h
    exact ⟨⟨hnode, rfl⟩, fun id => by rw [ownership_grow]⟩

theorem grownBy_addQuery {child : NodeId} {grown : Plan × NodeId}
    (h : plan.addQuery child = .ok grown) : plan.GrownBy (.query child) grown.1 := by
  unfold addQuery at h
  split at h
  · simp at h
  · next result hresult =>
    obtain ⟨hnode, rfl⟩ := PlanTree.of_addQuery hresult
    cases h
    exact ⟨⟨hnode, rfl⟩, fun id => by rw [ownership_grow]⟩

/-- Changing the record of the node of a site to what placing expressions there leaves behind. -/
theorem placedAt_update {restricted : Bool} {site : Site} {es : List Expr}
    {f : Ownership → Ownership} (hsite : plan.site id restricted = .ok site)
    (hf : f (plan.ownership id) = site.placeAll es (plan.ownership id)) :
    plan.PlacedAt site es (plan.update id f) := by
  obtain ⟨node, hnode, rfl⟩ := site_eq_ok_iff.mp hsite
  refine ⟨hnode, rfl, fun other => ?_⟩
  rw [ownership_update (PlanTree.lt_of_node? hnode)]
  by_cases hother : other = id
  · subst hother
    rw [if_pos rfl, if_pos rfl, hf]
  · rw [if_neg hother, if_neg hother]

/-- A predicate that is planned has its conjuncts bound and placed at the node. -/
theorem placedAt_of_planFilter {restricted : Bool} {predicate : Expr} {placed : List Placement}
    {plan' : Plan} (h : plan.planFilter id restricted predicate = (.ok placed, plan')) :
    ∃ node bound, plan.tree.bindAll id predicate.conjuncts = .ok bound ∧
      plan.PlacedAt ⟨id, node, restricted⟩ bound plan' := by
  obtain ⟨bound, site, hbound, hsite, _, rfl⟩ := of_planFilter h
  obtain ⟨node, _, rfl⟩ := site_eq_ok_iff.mp hsite
  exact ⟨node, bound, hbound, placedAt_update hsite rfl⟩

theorem step_planFilter {restricted : Bool} {predicate : Expr} {placed : List Placement}
    {plan' : Plan} (h : plan.planFilter id restricted predicate = (.ok placed, plan')) :
    plan.step (.planFilter id restricted predicate) = .ok plan' := by
  rw [step, h]

/-- An action adds a node, places expressions that it brings at a node, or empties all records. -/
theorem step_cases {plan' : Plan} {action : Action} (h : plan.step action = .ok plan') :
    (∃ node, plan.GrownBy node plan') ∨
      (∃ site es, plan.PlacedAt site es plan' ∧ ∀ e ∈ es, action.Brings plan site.id e) ∨
      (action = .clear ∧ plan' = plan.clear) := by
  cases action with
  | addTable table renamed =>
    obtain rfl := Except.ok.inj h
    exact .inl ⟨_, grownBy_addTable plan table renamed⟩
  | addNoName =>
    obtain rfl := Except.ok.inj h
    exact .inl ⟨_, grownBy_addNoName plan⟩
  | addJoin kind left right =>
    obtain ⟨grown, hgrown, rfl⟩ := Result.exists_of_map (Result.of_mapError h)
    exact .inl ⟨_, grownBy_addJoin hgrown⟩
  | addRightJoin left right =>
    -- a right join is a left join with the sides exchanged
    obtain ⟨grown, hgrown, rfl⟩ := Result.exists_of_map (Result.of_mapError h)
    exact .inl ⟨_, grownBy_addJoin hgrown⟩
  | addQuery child =>
    obtain ⟨grown, hgrown, rfl⟩ := Result.exists_of_map (Result.of_mapError h)
    exact .inl ⟨_, grownBy_addQuery hgrown⟩
  | planFilter id restricted predicate =>
    rw [step] at h
    split at h
    · next placed next hplanned =>
      obtain rfl := Except.ok.inj h
      obtain ⟨node, bound, hbound, hplace⟩ := placedAt_of_planFilter hplanned
      refine .inr (.inl ⟨_, bound, hplace, fun b hb => ?_⟩)
      obtain ⟨e, he, hbind⟩ := PlanTree.exists_of_mem_bindAll hbound hb
      exact .planFilter he hbind
    · simp at h
  | place id restricted e =>
    obtain ⟨site, hsite, rfl⟩ := Result.exists_of_map (Result.of_mapError h)
    have hplace : site.place e (plan.ownership id) = site.placeAll [e] (plan.ownership id) := by
      simp only [Site.placeAll]
    refine .inr (.inl ⟨site, [e], placedAt_update hsite hplace, ?_⟩)
    obtain ⟨node, _, rfl⟩ := site_eq_ok_iff.mp hsite
    exact List.forall_mem_singleton.mpr .place
  | clear =>
    obtain rfl := Except.ok.inj h
    exact .inr (.inr ⟨rfl, rfl⟩)

end Plan

/-! ## §4. A small plan

    A left join of two table leaves below a query, on which statements about all
    plans are tried out.
-/

namespace Plan.Shop

def users : Table :=
  ⟨1, "users", [Column.ofType "id" .long], List.pairwise_singleton _ _⟩

def orders : Table :=
  ⟨2, "orders", [Column.ofType "amount" .newdecimal], List.pairwise_singleton _ _⟩

/-- `orders.amount`, at node 1 below. -/
def amount : BoundColumn :=
  ⟨1, "orders", Column.ofType "amount" .newdecimal⟩

/-- Node 3 queries node 2, the left join of `users`, node 0, with `orders`, node 1. -/
def tree : PlanTree :=
  PlanTree.empty
    |>.push (.table ⟨users, none⟩) (by decide)
    |>.push (.table ⟨orders, none⟩) (by decide)
    |>.push (.join .leftOuter 0 1) (by decide)
    |>.push (.query 2) (by decide)

def plan : Plan := .ofTree tree

theorem reachable_plan : plan.Reachable := by
  have husers := Reachable.step (.addTable users none) .empty rfl
  have horders := husers.step (.addTable orders none) rfl
  have hjoin := horders.step (.addJoin .leftOuter 0 1) rfl
  exact hjoin.step (.addQuery 2) rfl

end Plan.Shop

end PushDown
