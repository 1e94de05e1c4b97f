import Mathlib
import PushDown.Proofs.Planning

/-! # Null tests and outer joins

    A left join puts rows of `NULL`s beside what does not match, so a table on
    its right side is null-extended, at whatever depth it lies there. A test
    for `NULL` on such a table is right only above the join.

    The policy looks at one node. It keeps a null test at a left join whose
    right child is the table itself. From anywhere else, also from above such a
    join, the test goes to the table.
-/

namespace PushDown

/-! ## §1. Paths -/

namespace PlanTree

variable {tree : PlanTree}

/-- On a walk from the node down to the table there is a left join that has the table in its right
    subtree. -/
def NullExtends (tree : PlanTree) (id table : NodeId) : Prop :=
  ∃ join right, tree.Below join id ∧ tree.LeftJoinOver join right ∧ tree.Below table right

/-- No node is made over a node that has a parent. -/
def Unshared (tree : PlanTree) : Prop :=
  (tree.nodes.flatMap PlanNode.children).Nodup

theorem LeftJoinOver.mem_children {id right : NodeId} (h : tree.LeftJoinOver id right) :
    right ∈ tree.children id := by
  obtain ⟨left, hnode⟩ := h
  rw [children, hnode]
  simp [PlanNode.children]

theorem LeftJoinOver.nullExtends {id table : NodeId} (h : tree.LeftJoinOver id table) :
    tree.NullExtends id table :=
  ⟨id, table, .refl, h, .refl⟩

/-- The table is null-extended by the node itself, or by a node below one of its children. -/
theorem nullExtends_iff {id table : NodeId} :
    tree.NullExtends id table ↔
      (∃ right, tree.LeftJoinOver id right ∧ tree.Below table right) ∨
        ∃ child ∈ tree.children id, tree.NullExtends child table := by
  constructor
  · rintro ⟨join, right, hjoin, hover, htable⟩
    cases hjoin with
    | refl => exact .inl ⟨right, hover, htable⟩
    | step hchild hbelow => exact .inr ⟨_, hchild, join, right, hbelow, hover, htable⟩
  · rintro (⟨right, hover, htable⟩ | ⟨child, hchild, join, right, hjoin, hover, htable⟩)
    · exact ⟨id, right, .refl, hover, htable⟩
    · exact ⟨join, right, .step hchild hjoin, hover, htable⟩

end PlanTree

/-! ## §2. One table -/

theorem Expr.ne_subquery_of_nullTest {b : Expr} (h : b.facts.nullTest = true) (q : Subquery) :
    b ≠ .subquery q := by
  rintro rfl
  cases h

/-- What depends on one table, and is no subquery by itself, stays when it is a null test at a left
    join over the table, and goes to the table otherwise. -/
theorem Site.owner?_of_oneTable {site : Site} {b : Expr} {table : NodeId}
    (hsubquery : ∀ q, b ≠ .subquery q) (hagg : b.facts.aggregate = false)
    (htables : b.tables = .singleton table) :
    site.owner? b =
      some (if b.facts.nullTest && site.extends? table then site.id else table) := by
  have hids : b.tables.ids = [table] := NodeSet.ids_eq_singleton_iff.mpr htables
  cases b with
  | literal v => cases hids
  | column ref => cases hids
  | field f =>
    obtain rfl : f.table = table := List.singleton_inj.mp hids
    simp [owner?, Expr.facts, Facts.none]
  | call f args state =>
    simp only [Expr.facts, Expr.tables] at hagg hids ⊢
    simp [owner?, callOwner, hagg, hids]
  | subquery q => exact absurd rfl (hsubquery q)

namespace Plan

/-- With nothing recorded, a null test on one table is not placed at the table if and only if it is
    planned at a left join whose right child is the table. It then stays there. -/
theorem owner_of_nullTest {plan : Plan} {id table : NodeId} {restricted : Bool} {predicate b : Expr}
    {before after : List Expr} (hid : id < plan.tree.size)
    (hbind : plan.tree.bindAll id predicate.conjuncts = .ok (before ++ b :: after))
    (hfirst : ∀ e ∈ before, ∀ x : Expr, x.PartOf e → x.same b = false)
    (hnull : b.facts.nullTest = true) (hagg : b.facts.aggregate = false)
    (htables : b.tables = .singleton table) :
    ∃ placed plan' owner, plan.clear.planFilter id restricted predicate = (.ok placed, plan') ∧
      placed[before.length]? = some ⟨b, owner⟩ ∧
        (owner ≠ table ↔ plan.tree.LeftJoinOver id table) ∧
        (owner ≠ table → owner = id ∧ plan.tree.NullExtends id table) := by
  obtain ⟨node, hnode⟩ := PlanTree.exists_node?_of_lt hid
  let site : Site := ⟨id, node, restricted⟩
  have hsite : plan.tree.node? site.id = some site.node := hnode
  obtain ⟨placed, plan', hplanned, _, hplaced⟩ := exists_planFilter_of_first site hsite hbind hfirst
  have hsubquery : ∀ q, b ≠ .subquery q := Expr.ne_subquery_of_nullTest hnull
  rw [Site.owner?_of_oneTable hsubquery hagg htables, hnull, Bool.true_and, Option.getD_some]
    at hplaced
  refine ⟨placed, plan', _, hplanned, hplaced, ?_⟩
  by_cases hextends : site.extends? table = true
  · -- the left join over the table keeps it
    have hover := (Site.extends?_iff hsite).mp hextends
    have hlt : table < id := PlanTree.lt_of_mem_children hover.mem_children
    have hne : site.id ≠ table := Nat.ne_of_gt hlt
    rw [if_pos hextends]
    exact ⟨⟨fun _ => hover, fun _ => hne⟩, fun _ => ⟨rfl, hover.nullExtends⟩⟩
  · -- any other node lets it go
    have hnot : ¬ plan.tree.LeftJoinOver id table := fun hover =>
      hextends ((Site.extends?_iff hsite).mpr hover)
    rw [if_neg hextends]
    exact ⟨⟨fun hne => absurd rfl hne, fun hover => absurd hover hnot⟩, fun hne => absurd rfl hne⟩

namespace Shop

/-- `orders.amount IS NULL` stays at the left join over `orders`. -/
theorem owner_of_nullTest_join :
    2 < plan.tree.size ∧ plan.tree.LeftJoinOver 2 1 ∧ ∃ b placed plan' owner,
      plan.tree.bindAll 2 (Expr.isNull (.field amount)).conjuncts = .ok ([] ++ b :: []) ∧
        b.facts.nullTest = true ∧ b.facts.aggregate = false ∧ b.tables = .singleton 1 ∧
        plan.clear.planFilter 2 false (.isNull (.field amount)) = (.ok placed, plan') ∧
        placed[0]? = some ⟨b, owner⟩ ∧ owner = 2 := by
  obtain ⟨b, hbind, hnull, hagg, htables⟩ : ∃ b,
      plan.tree.bindAll 2 (Expr.isNull (.field amount)).conjuncts = .ok ([] ++ b :: []) ∧
        b.facts.nullTest = true ∧ b.facts.aggregate = false ∧ b.tables = .singleton 1 :=
    ⟨_, rfl, rfl, rfl, rfl⟩
  obtain ⟨placed, plan', owner, hplanned, hplaced, hiff, hstays⟩ :=
    owner_of_nullTest (by decide) hbind (fun _ h => nomatch h) hnull hagg htables
  have hover : plan.tree.LeftJoinOver 2 1 := ⟨0, rfl⟩
  exact ⟨by decide, hover, b, placed, plan', owner, hbind, hnull, hagg, htables, hplanned, hplaced,
    (hstays (hiff.mpr hover)).1⟩

/-- The same test, planned at the query above the join, sinks to `orders`. -/
theorem nullTest_sinks_below_query :
    plan.Reachable ∧ plan.tree.Unshared ∧ 1 ∈ plan.tree.tablesUnder 3 ∧ plan.tree.NullExtends 3 1 ∧
      ∃ b plan', plan.tree.bind 3 (.isNull (.columnNamed "amount")) = .ok b ∧
        b.facts.nullTest = true ∧ b.facts.aggregate = false ∧ b.tables = .singleton 1 ∧
        plan.clear.planFilter 3 false (.isNull (.columnNamed "amount")) = (.ok [⟨b, 1⟩], plan') := by
  have hover : plan.tree.LeftJoinOver 2 1 := ⟨0, rfl⟩
  have hextends : plan.tree.NullExtends 3 1 :=
    PlanTree.nullExtends_iff.mpr (.inr ⟨2, by decide, hover.nullExtends⟩)
  have hunshared : plan.tree.Unshared := by
    unfold PlanTree.Unshared
    decide
  obtain ⟨b, hbind, hnull, hagg, htables⟩ : ∃ b,
      plan.tree.bind 3 (.isNull (.columnNamed "amount")) = .ok b ∧
        b.facts.nullTest = true ∧ b.facts.aggregate = false ∧ b.tables = .singleton 1 :=
    ⟨_, by cbv, by cbv, by cbv, by cbv⟩
  let site : Site := ⟨3, .query 2, false⟩
  obtain ⟨plan', hplanned⟩ := exists_planFilter_alone site rfl rfl hbind
  have hsubquery : ∀ q, b ≠ .subquery q := Expr.ne_subquery_of_nullTest hnull
  have howner : site.owner? b = some 1 := by
    rw [Site.owner?_of_oneTable hsubquery hagg htables]
    simp [site, Site.extends?]
  rw [howner] at hplanned
  exact ⟨reachable_plan, hunshared, by decide +kernel, hextends, b, plan', hbind, hnull, hagg,
    htables, hplanned⟩

end Shop

end Plan

end PushDown
