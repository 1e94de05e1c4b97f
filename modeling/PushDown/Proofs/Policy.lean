import PushDown.Proofs.Binding
import PushDown.Proofs.Ownership
import PushDown.Proofs.Reachable

/-! # The ownership policy

    `PlanTree.Owns` states the policy as a relation between a node of a tree,
    an owner and an expression met at the node, one rule for each constructor.
    A site follows it (`owner?_eq_some_iff`).

    Placing an expression records the parts of it that are placed by themselves
    (`Places`), each under the owner that the policy gives it
    (`place_induction`). Nodes never change. So whatever is
    recorded in a plan that can come about is recorded under that owner
    (`Reachable.followsPolicy`).
-/

namespace PushDown

/-! ## §1. The relation -/

/-- The node is a left join with the given node on its right. -/
def PlanTree.LeftJoinOver (tree : PlanTree) (id right : NodeId) : Prop :=
  ∃ left, tree.node? id = some (.join .leftOuter left right)

/-- An expression that is met at the node belongs to the owner. -/
inductive PlanTree.Owns (tree : PlanTree) (id : NodeId) : NodeId → Expr → Prop
  /-- A column belongs to its table. -/
  | field (f : BoundColumn) : tree.Owns id f.table (.field f)
  /-- A subquery stays. -/
  | subquery (q : Subquery) : tree.Owns id id (.subquery q)
  /-- What contains an aggregate stays. -/
  | aggregate {f : Func} {args : List Expr} {state : CallState} :
      state.facts.aggregate = true → tree.Owns id id (.call f args state)
  /-- A constant stays at a table leaf and where there is no child. -/
  | constantHere {f : Func} {args : List Expr} {state : CallState} :
      state.facts.aggregate = false → state.tables = ∅ →
      (tree.leaf? id).isSome = true ∨ tree.children id = [] → tree.Owns id id (.call f args state)
  /-- A constant goes to the first child from anywhere else. -/
  | constantBelow {f : Func} {args : List Expr} {state : CallState} {child : NodeId}
      {others : List NodeId} :
      state.facts.aggregate = false → state.tables = ∅ →
      tree.leaf? id = none → tree.children id = child :: others →
      tree.Owns id child (.call f args state)
  /-- A null test on the right side of a left join stays at the join. -/
  | nullTest {f : Func} {args : List Expr} {state : CallState} {table : NodeId} :
      state.facts.aggregate = false → state.tables = .singleton table →
      state.facts.nullTest = true → tree.LeftJoinOver id table → tree.Owns id id (.call f args state)
  /-- What depends on one table goes there otherwise. -/
  | oneTable {f : Func} {args : List Expr} {state : CallState} {table : NodeId} :
      state.facts.aggregate = false → state.tables = .singleton table →
      ¬ (state.facts.nullTest = true ∧ tree.LeftJoinOver id table) →
      tree.Owns id table (.call f args state)
  /-- What depends on several tables stays. -/
  | severalTables {f : Func} {args : List Expr} {state : CallState} {a b : NodeId} :
      state.facts.aggregate = false → a ∈ state.tables → b ∈ state.tables → a ≠ b →
      tree.Owns id id (.call f args state)

/-- The policy looks at no other node. -/
theorem PlanTree.Owns.congr {tree tree' : PlanTree} {id owner : NodeId} {e : Expr}
    (h : tree.Owns id owner e) (hnode : tree'.node? id = tree.node? id) : tree'.Owns id owner e := by
  have hleaf : tree'.leaf? id = tree.leaf? id := by simp only [PlanTree.leaf?, hnode]
  have hchildren : tree'.children id = tree.children id := by simp only [PlanTree.children, hnode]
  have hjoin : ∀ right, tree'.LeftJoinOver id right ↔ tree.LeftJoinOver id right := by
    intro right
    simp only [PlanTree.LeftJoinOver, hnode]
  cases h with
  | field f => exact .field f
  | subquery q => exact .subquery q
  | aggregate hagg => exact .aggregate hagg
  | constantHere hagg htables hhere =>
    exact .constantHere hagg htables (by rwa [hleaf, hchildren])
  | constantBelow hagg htables hinner hchild =>
    exact .constantBelow hagg htables (hleaf.trans hinner) (hchildren.trans hchild)
  | nullTest hagg htables hnull hover =>
    exact .nullTest hagg htables hnull ((hjoin _).mpr hover)
  | oneTable hagg htables hnot =>
    exact .oneTable hagg htables (by rwa [hjoin])
  | severalTables hagg ha hb hne => exact .severalTables hagg ha hb hne

/-! ## §2. Sites follow the policy -/

namespace Site

variable {tree : PlanTree} {site : Site}

theorem extends?_iff (hnode : tree.node? site.id = some site.node) {table : NodeId} :
    site.extends? table = true ↔ tree.LeftJoinOver site.id table := by
  unfold extends? PlanTree.LeftJoinOver
  rw [hnode]
  split
  · next left right hjoin => simp [hjoin]
  · next hnot =>
    simp only [Bool.false_eq_true, Option.some.injEq, false_iff, not_exists]
    exact fun left => hnot left table

/-- A constant goes where the policy has it. -/
theorem owns_constantOwner (hnode : tree.node? site.id = some site.node) {f : Func}
    {args : List Expr} {state : CallState} (hagg : state.facts.aggregate = false)
    (htables : state.tables = ∅) : tree.Owns site.id site.constantOwner (.call f args state) := by
  have hleaf := PlanTree.leaf?_of_node? hnode
  have hchildren := PlanTree.children_of_node? hnode
  unfold constantOwner
  by_cases htable : site.node.isTable = true
  · rw [if_pos htable]
    exact .constantHere hagg htables (.inl (by rw [hleaf]; exact htable))
  · rw [if_neg htable]
    cases hfirst : site.node.children with
    | nil => exact .constantHere hagg htables (.inr (hchildren.trans hfirst))
    | cons child others =>
      refine .constantBelow hagg htables ?_ (hchildren.trans hfirst)
      rw [hleaf]
      simpa [PlanNode.isTable] using htable

/-- The owner of an expression is the one that the policy has for it. -/
theorem owns_of_owner? (hnode : tree.node? site.id = some site.node) {e : Expr} {owner : NodeId}
    (h : site.owner? e = some owner) : tree.Owns site.id owner e := by
  cases e with
  | literal v => cases h
  | column ref => cases h
  | field f => cases h; exact .field f
  | subquery q => cases h; exact .subquery q
  | call f args state =>
    cases h
    unfold callOwner
    -- the rules of the policy, in their order
    by_cases hagg : state.facts.aggregate = true
    · rw [if_pos hagg]
      exact .aggregate hagg
    · rw [if_neg hagg]
      replace hagg : state.facts.aggregate = false := Bool.eq_false_iff.mpr hagg
      split
      · next hids => exact owns_constantOwner hnode hagg (NodeSet.ids_eq_nil_iff.mp hids)
      · next table hids =>
        have htables := NodeSet.ids_eq_singleton_iff.mp hids
        by_cases hstays : (state.facts.nullTest && site.extends? table) = true
        · rw [if_pos hstays]
          rw [Bool.and_eq_true, extends?_iff hnode] at hstays
          exact .nullTest hagg htables hstays.1 hstays.2
        · rw [if_neg hstays]
          rw [Bool.and_eq_true, extends?_iff hnode] at hstays
          exact .oneTable hagg htables hstays
      · next a b rest hids =>
        obtain ⟨ha, hb, hne⟩ := NodeSet.exists_ne_of_ids_eq hids
        exact .severalTables hagg ha hb hne

/-- The policy has one owner for an expression at most, and the site finds it. -/
theorem owner?_of_owns (hnode : tree.node? site.id = some site.node) {e : Expr} {owner : NodeId}
    (h : tree.Owns site.id owner e) : site.owner? e = some owner := by
  have hleaf := PlanTree.leaf?_of_node? hnode
  have hchildren := PlanTree.children_of_node? hnode
  cases h with
  | field f => rfl
  | subquery q => rfl
  | aggregate hagg => simp [owner?, callOwner, hagg]
  | constantHere hagg htables hhere =>
    have hids := NodeSet.ids_eq_nil_iff.mpr htables
    -- a leaf is its own owner, and where there is no child nothing else is left
    have howner : site.constantOwner = site.id := by
      unfold constantOwner
      split
      · rfl
      · next hinner =>
        rcases hhere with hhere | hhere
        · rw [hleaf] at hhere
          exact absurd hhere hinner
        · rw [← hchildren, hhere, List.head?_nil, Option.getD_none]
    simp [owner?, callOwner, hagg, hids, howner]
  | constantBelow hagg htables hinner hchild =>
    have hids := NodeSet.ids_eq_nil_iff.mpr htables
    have htable : site.node.isTable = false := by
      rw [PlanNode.isTable, ← hleaf, hinner]
      rfl
    have howner : site.constantOwner = owner := by
      simp [constantOwner, htable, ← hchildren, hchild]
    simp [owner?, callOwner, hagg, hids, howner]
  | nullTest hagg htables hnull hover =>
    have hids := NodeSet.ids_eq_singleton_iff.mpr htables
    have hextends := (extends?_iff hnode).mpr hover
    simp [owner?, callOwner, hagg, hids, hnull, hextends]
  | oneTable hagg htables hnot =>
    have hids := NodeSet.ids_eq_singleton_iff.mpr htables
    rw [← extends?_iff hnode] at hnot
    simp only [owner?, callOwner, hagg, hids, Bool.false_eq_true, if_false, Option.some.injEq]
    rw [if_neg (by simpa using hnot)]
  | severalTables hagg ha hb hne =>
    obtain ⟨x, y, rest, hids⟩ := NodeSet.exists_ids_eq_of_ne ha hb hne
    simp [owner?, callOwner, hagg, hids]

/-- Two owners of one expression at a node are the same. -/
theorem owns_unique (hnode : tree.node? site.id = some site.node) {e : Expr} {a b : NodeId}
    (ha : tree.Owns site.id a e) (hb : tree.Owns site.id b e) : a = b := by
  have hsome := (owner?_of_owns hnode ha).symm.trans (owner?_of_owns hnode hb)
  exact Option.some.inj hsome

theorem owner?_eq_some_iff (hnode : tree.node? site.id = some site.node) {e : Expr}
    {owner : NodeId} : site.owner? e = some owner ↔ tree.Owns site.id owner e :=
  ⟨owns_of_owner? hnode, owner?_of_owns hnode⟩

/-! ## §3. One expression -/

/-- The part is placed by itself when the expression is. -/
inductive Places (site : Site) : Expr → Expr → Prop
  | self {e : Expr} {owner : NodeId} : site.owner? e = some owner → Places site e e
  | arg {f : Func} {args : List Expr} {state : CallState} {arg x : Expr} :
      site.descends state.facts state.tables = true → arg ∈ args → Places site arg x →
      Places site (.call f args state) x

theorem Places.partOf {e x : Expr} (h : site.Places e x) : x.PartOf e := by
  induction h with
  | self _ => exact .refl
  | arg _ harg _ ih => exact .arg harg ih

/-- Placing an expression records the parts that are placed by themselves one after the other, each
    under the owner that the site has for it. -/
theorem place_induction {motive : Ownership → Prop} {e : Expr}
    (add : ∀ own owner x, site.Places e x → site.owner? x = some owner → motive own →
      motive (own.add owner x))
    {own : Ownership} (h : motive own) : motive (site.place e own) := by
  induction e using Expr.ind generalizing own with
  | literal v => rw [place]; exact h
  | column ref => rw [place]; exact h
  | field f => rw [place]; exact add own f.table _ (.self rfl) rfl h
  | subquery q => rw [place]; exact add own site.id _ (.self rfl) rfl h
  | call f args state ih =>
    rw [place]
    have hself := add own _ _ (.self rfl) rfl h
    split
    · next hdescends =>
      -- the arguments are placed in order, each on what the ones before it left
      suffices hargs : ∀ es : List Expr, (∀ e ∈ es, e ∈ args) → ∀ own, motive own →
          motive (site.placeAll es own) from hargs args (fun _ harg => harg) _ hself
      intro es
      induction es with
      | nil =>
        intro _ own hown
        rw [placeAll]
        exact hown
      | cons arg es ihes =>
        intro hmem own hown
        rw [placeAll]
        have harg : arg ∈ args := hmem arg List.mem_cons_self
        refine ihes (fun e he => hmem e (List.mem_cons_of_mem arg he)) _ (ih arg harg ?_ hown)
        intro own owner x hx howner hown
        exact add own owner x (.arg hdescends harg hx) howner hown
    · exact hself

/-- Placing expressions records those of their parts that are placed by themselves one after the
    other. -/
theorem placeAll_induction_of_mem {motive : Ownership → Prop} {es : List Expr}
    (add : ∀ own owner e x, e ∈ es → site.Places e x → site.owner? x = some owner → motive own →
      motive (own.add owner x))
    {own : Ownership} (h : motive own) : motive (site.placeAll es own) := by
  induction es generalizing own with
  | nil => rw [placeAll]; exact h
  | cons e es ih =>
    rw [placeAll]
    have he : motive (site.place e own) :=
      place_induction (fun own owner x hx howner hown =>
        add own owner e x List.mem_cons_self hx howner hown) h
    exact ih (fun own owner e' x he' => add own owner e' x (List.mem_cons_of_mem e he')) he

/-- What holds of a record, and of every pair that the site would record, holds after expressions are
    placed. -/
theorem placeAll_induction {motive : Ownership → Prop} {es : List Expr}
    (add : ∀ own owner x, site.owner? x = some owner → motive own → motive (own.add owner x))
    {own : Ownership} (h : motive own) : motive (site.placeAll es own) :=
  placeAll_induction_of_mem (fun own owner _ x _ _ => add own owner x) h

/-- What holds of all parts of the expressions holds of all that is recorded once they are placed. -/
theorem all_placeAll_of_parts {P : Expr → Prop} {es : List Expr}
    (h : ∀ e ∈ es, ∀ x : Expr, x.PartOf e → P x) {own : Ownership} (hown : own.All fun _ e => P e) :
    (site.placeAll es own).All fun _ e => P e :=
  placeAll_induction_of_mem (motive := fun own => own.All fun _ e => P e)
    (fun _ _ e x he hx _ hall => hall.add (h e he x hx.partOf)) hown

/-- **Step.** Placing expressions at a node keeps to the policy. -/
theorem all_placeAll (hnode : tree.node? site.id = some site.node) {own : Ownership}
    (h : own.All (tree.Owns site.id)) (es : List Expr) :
    (site.placeAll es own).All (tree.Owns site.id) :=
  placeAll_induction (motive := fun own => own.All (tree.Owns site.id))
    (fun _ _ _ howner hown => hown.add (owns_of_owner? hnode howner)) h

end Site

/-! ## §4. All plans -/

namespace Plan

/-- Whatever is recorded at a node is recorded under the owner that the policy has for it. -/
def FollowsPolicy (plan : Plan) : Prop :=
  ∀ id, (plan.ownership id).All (plan.tree.Owns id)

theorem followsPolicy_of_empty {plan : Plan} (h : ∀ id, plan.ownership id = .empty) :
    plan.FollowsPolicy := by
  intro id
  rw [h id]
  exact Ownership.all_empty _

/-- A new node changes nothing about what is recorded: it is recorded at nodes that are there, and
    these stay what they are. -/
theorem FollowsPolicy.grow {plan plan' : Plan} {node : PlanNode} (h : plan.FollowsPolicy)
    (hgrow : plan.GrownBy node plan') : plan'.FollowsPolicy := by
  intro id
  rw [hgrow.ownership id]
  by_cases hid : id < plan.tree.size
  · -- a node that was there is still what it was
    obtain ⟨hnode, htree⟩ := hgrow.tree
    refine (h id).mono fun owner e howns => howns.congr ?_
    rw [htree]
    exact PlanTree.node?_push hnode hid
  · -- nothing is recorded at the new node
    rw [ownership_eq_empty (Nat.le_of_not_lt hid)]
    exact Ownership.all_empty _

theorem FollowsPolicy.place {plan plan' : Plan} {site : Site} {es : List Expr}
    (h : plan.FollowsPolicy) (hplace : plan.PlacedAt site es plan') : plan'.FollowsPolicy := by
  intro id
  rw [hplace.ownership id, hplace.tree]
  split
  · next hid =>
    -- the node at which expressions were placed
    subst hid
    exact Site.all_placeAll hplace.node (h site.id) es
  · exact h id

/-- **Run.** A plan that can come about follows the policy. -/
theorem Reachable.followsPolicy {plan : Plan} (h : plan.Reachable) : plan.FollowsPolicy := by
  induction h with
  | empty => exact followsPolicy_of_empty fun id => ownership_clear .empty id
  | step action _ hstep ih =>
    rcases step_cases hstep with ⟨node, hgrow⟩ | ⟨site, es, hplace, _⟩ | ⟨_, rfl⟩
    · exact ih.grow hgrow
    · exact ih.place hplace
    · exact followsPolicy_of_empty fun id => ownership_clear _ id

/-- In every plan that can come about, whatever is recorded at a node is recorded under the owner that
    the policy has for it there, in the index as well as in the groups. -/
theorem owns_of_reachable {plan : Plan} (h : plan.Reachable) (id : NodeId) :
    (∀ r ∈ (plan.ownership id).index, plan.tree.Owns id r.owner r.expr) ∧
      ∀ group ∈ (plan.ownership id).groups, ∀ e ∈ group.2, plan.tree.Owns id group.1 e :=
  ⟨(h.followsPolicy id).index, (h.followsPolicy id).groups⟩

namespace Shop

/-- `orders.amount IS NULL`, bound. -/
def amountIsNull : Expr :=
  .call (.builtin .isNull) [.field amount] ⟨.unfixed, { nullTest := true }, .singleton 1⟩

/-- The null test is placed at the join, and then the plan grows. -/
def placed : Plan :=
  (plan.update 2 (Site.place ⟨2, .join .leftOuter 0 1, false⟩ amountIsNull)).addNoName.1

theorem reachable_placed : placed.Reachable :=
  (reachable_plan.step (.place 2 false amountIsNull) rfl).step .addNoName rfl

/-- The test is recorded under the join, and the column under its table. -/
theorem owns_of_reachable_placed :
    placed.Reachable ∧ (placed.ownership 2).index.map (·.owner) = [2, 1] ∧
      (∀ r ∈ (placed.ownership 2).index, placed.tree.Owns 2 r.owner r.expr) ∧
        ∀ group ∈ (placed.ownership 2).groups, ∀ e ∈ group.2, placed.tree.Owns 2 group.1 e :=
  ⟨reachable_placed, rfl, owns_of_reachable reachable_placed 2⟩

end Shop

end Plan

end PushDown
