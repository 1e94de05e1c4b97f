import PushDown.Expr.Conjuncts
import PushDown.Plan.Basic

/-! # Placement

    A predicate written at a plan node is split into its conjuncts, each
    conjunct is bound, and then placed: it is decided which node owns it, and
    this is recorded at the node where it was written. Parts of an expression
    that stays at the node are recorded as well, since their owners have to
    deliver them.

    The owner of a call follows from what was inferred about it, in this order.

    1. A call with an aggregate stays, and its arguments are placed by
       themselves.
    2. A constant goes to a table leaf if it is at one, and otherwise to the
       first child.
    3. A call that depends on one table goes to that table. A null test on the
       right side of a left join stays at the join, and its arguments are
       placed by themselves.
    4. A call that depends on several tables stays. Its arguments are placed by
       themselves unless that is restricted.
-/

namespace PushDown

/-! ## §1. The policy -/

/-- The node at which expressions are placed. -/
structure Site where
  id         : NodeId
  node       : PlanNode
  /-- Whether the arguments of calls on several tables are left alone. -/
  restricted : Bool

namespace Site

/-- Where a constant goes. -/
def constantOwner (site : Site) : NodeId :=
  if site.node.isTable then site.id else site.node.children.head?.getD site.id

/-- Whether the node is a left join with the given node on its right, where rows of `NULL`s come in. -/
def extends? (site : Site) (table : NodeId) : Bool :=
  match site.node with
  | .join .leftOuter _ right => right == table
  | _ => false

/-- The owner of a call. -/
def callOwner (site : Site) (facts : Facts) (tables : NodeSet) : NodeId :=
  if facts.aggregate then site.id
  else
    match tables.ids with
    | [] => site.constantOwner
    | [table] => if facts.nullTest && site.extends? table then site.id else table
    | _ :: _ :: _ => site.id

/-- Whether the arguments of a call are placed by themselves. -/
def descends (site : Site) (facts : Facts) (tables : NodeSet) : Bool :=
  if facts.aggregate then true
  else
    match tables.ids with
    | [] => false
    | [table] => facts.nullTest && site.extends? table
    | _ :: _ :: _ => !site.restricted

/-- The owner of an expression. Constants by themselves and columns that are not bound have none. -/
def owner? (site : Site) : Expr → Option NodeId
  | .literal _ | .column _ => none
  | .field f => some f.table
  | .call _ _ state => some (site.callOwner state.facts state.tables)
  | .subquery _ => some site.id

/-! ## §2. Recording -/

mutual

/-- The record with the expression, and the parts of it that are placed by themselves, added. -/
def place (site : Site) (e : Expr) (own : Ownership) : Ownership :=
  match e with
  | .literal _ | .column _ => own
  | .field f => own.add f.table (.field f)
  | .subquery q => own.add site.id (.subquery q)
  | .call f args state =>
    let own := own.add (site.callOwner state.facts state.tables) (.call f args state)
    if site.descends state.facts state.tables then placeAll site args own else own

/-- The record with the expressions of a list added, in order. -/
def placeAll (site : Site) (es : List Expr) (own : Ownership) : Ownership :=
  match es with
  | [] => own
  | e :: es => placeAll site es (place site e own)

end

end Site

/-! ## §3. Predicates -/

/-- A conjunct and the node it was placed at. -/
structure Placement where
  predicate : Expr
  owner     : NodeId

namespace PlanTree

/-- Binds the expressions of a list in the scope of a node, in order. -/
def bindAll (tree : PlanTree) (scope : NodeId) : List Expr → Except Failure (List Expr)
  | [] => .ok []
  | e :: es =>
    match tree.bind scope e with
    | .error failure => .error failure
    | .ok e =>
      match bindAll tree scope es with
      | .error failure => .error failure
      | .ok es => .ok (e :: es)

end PlanTree

namespace Plan

/-- The site of a node. -/
def site (plan : Plan) (id : NodeId) (restricted : Bool) : Except Fault Site :=
  (plan.tree.node id).map fun node => ⟨id, node, restricted⟩

/-- Places a bound expression at a node. -/
def place (plan : Plan) (id : NodeId) (restricted : Bool) (e : Expr) : Except Fault Plan :=
  (plan.site id restricted).map fun site => plan.update id (site.place e)

/-- Places bound conjuncts at a site in order, with the owner of each. A conjunct that is not recorded
    stays where it was written. -/
def placeConjuncts (site : Site) (own : Ownership) : List Expr → List Placement × Ownership
  | [] => ([], own)
  | e :: es =>
    let own := site.place e own
    let rest := placeConjuncts site own es
    (⟨e, (own.ownerOf? e).getD site.id⟩ :: rest.1, rest.2)

/-- Places the conjuncts of a predicate at a node. The plan is answered in both cases: all conjuncts are
    bound before any is placed, so a predicate that cannot be bound changes nothing. -/
def planFilter (plan : Plan) (id : NodeId) (restricted : Bool) (predicate : Expr) :
    Except Failure (List Placement) × Plan :=
  match plan.tree.bindAll id predicate.conjuncts with
  | .error failure => (.error failure, plan)
  | .ok bound =>
    match plan.site id restricted with
    | .error fault => (.error (.broken fault), plan)
    | .ok site =>
      let placed := placeConjuncts site (plan.ownership id) bound
      (.ok placed.1, plan.update id fun _ => placed.2)

/-- Plans predicates at a node one after the other, each on what the ones before it left, be they
    planned or not. -/
def planEach (plan : Plan) (id : NodeId) (restricted : Bool) :
    List Expr → List (Except Failure (List Placement)) × Plan
  | [] => ([], plan)
  | predicate :: predicates =>
    let (result, plan) := plan.planFilter id restricted predicate
    let rest := plan.planEach id restricted predicates
    (result :: rest.1, rest.2)

/-- The placements of the predicates that did not fail, in order. -/
def placementsOf (results : List (Except Failure (List Placement))) : List Placement :=
  results.flatMap fun
    | .ok placed => placed
    | .error _ => []

end Plan

end PushDown
