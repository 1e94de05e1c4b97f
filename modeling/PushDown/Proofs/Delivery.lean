import PushDown.Proofs.Safety

/-! # What the leaves receive

    The leaves of a scenario share out what was planned at its root. A placement
    belongs to its owner, and so does a recorded expression, unless it is a
    filter of its owner already (`ShardQuery.requests`). As every leaf is below
    the root on one path, it receives one query, and what belongs to it is in
    this query and in no other (`Delivery`).
-/

namespace PushDown

/-! ## Deliveries -/

namespace ShardQuery

/-- The recorded expressions that are none of the filters of their owners. -/
def requests (own : Ownership) (placements : List Placement) : List Recorded :=
  own.index.filter fun r => !(filtersOf placements r.owner).any fun filter => filter.alike r.expr

/-- A node selects the requests that it owns, in the order in which they were recorded. -/
theorem selectedOf_eq {own : Ownership} (h : own.Grouped) (placements : List Placement)
    (id : NodeId) :
    selectedOf own (filtersOf placements id) id =
      ((requests own placements).filter fun r => r.owner == id).map (·.expr) := by
  rw [selectedOf, h.ownedBy_eq, List.filter_map, List.filter_filter, requests, List.filter_filter]
  congr 1
  refine List.filter_congr fun r _ => ?_
  by_cases howner : r.owner = id
  · rw [howner, Bool.and_comm]
    rfl
  · have hother : (r.owner == id) = false := beq_eq_false_iff_ne.mpr howner
    rw [hother, Bool.and_false, Bool.false_and]

/-- With one query for each leaf, what is shared out by owner arrives once if a leaf owns it, and not
    at all if no leaf does. -/
theorem share_perm {tree : PlanTree} {queries : List ShardQuery}
    (hnodup : (queries.map (·.table)).Nodup)
    (hleaf : ∀ id, id ∈ queries.map (·.table) ↔ (tree.leaf? id).isSome = true) {α : Type}
    (owner : α → NodeId) (xs : List α) :
    (queries.flatMap fun query => xs.filter fun x => owner x == query.table).Perm
      (xs.filter fun x => (tree.leaf? (owner x)).isSome) := by
  have hperm := flatMap_filter_perm owner xs hnodup
  -- the owners that are served are the leaves
  have hserved : ∀ x, decide (owner x ∈ queries.map (·.table)) = (tree.leaf? (owner x)).isSome := by
    intro x
    rw [Bool.eq_iff_iff, decide_eq_true_iff, hleaf]
  rw [List.flatMap_map] at hperm
  simpa only [hserved] using hperm

end ShardQuery

/-- The queries of the leaves of a tree share out the placements and the requests. -/
structure Delivery (tree : PlanTree) (root : NodeId) (own : Ownership)
    (placements : List Placement) (queries : List ShardQuery) : Prop where
  /-- There is one query for each leaf, in the order of the leaves below the root. -/
  tables     : queries.map (·.table) = tree.tablesUnder root
  nodup      : (queries.map (·.table)).Nodup
  leaf_iff   : ∀ id, id ∈ queries.map (·.table) ↔ (tree.leaf? id).isSome = true
  /-- A query selects the requests of its leaf, and its conditions are the placements there. -/
  sql        : ∀ query ∈ queries, ∃ leaf, tree.leaf? query.table = some leaf ∧
    query.sql = ShardQuery.write leaf
      (((ShardQuery.requests own placements).filter fun r => r.owner == query.table).map
        (·.expr.label))
      ((placements.filter fun p => p.owner == query.table).map (·.predicate.label))
  /-- The placements that leaves own arrive, once each, and no others do. -/
  conditions : (queries.flatMap fun query => placements.filter fun p => p.owner == query.table).Perm
    (placements.filter fun p => (tree.leaf? p.owner).isSome)
  /-- The requests to leaves arrive, once each, and no others do. -/
  requests   : (queries.flatMap fun query =>
      (ShardQuery.requests own placements).filter fun r => r.owner == query.table).Perm
    ((ShardQuery.requests own placements).filter fun r => (tree.leaf? r.owner).isSome)
  /-- The groups of the record list the entries by owner, in the order in which they were recorded. -/
  grouped    : own.Grouped

namespace Plan

variable {plan : Plan} {registry : Registry} {root : NodeId} {restricted : Bool}

/-- In a safe plan whose leaves are below the root on one path each, the queries share out what was
    planned. -/
theorem SafeAt.delivery (h : plan.SafeAt registry root)
    (hnodup : (plan.tree.tablesUnder root).Nodup)
    (hleaf : ∀ id, id ∈ plan.tree.tablesUnder root ↔ (plan.tree.leaf? id).isSome = true)
    (placements : List Placement) :
    Delivery plan.tree root (plan.ownership root) placements
      ((plan.tree.leavesUnder root).map (plan.queryOf root placements)) := by
  let queries := (plan.tree.leavesUnder root).map (plan.queryOf root placements)
  have htables : queries.map (·.table) = plan.tree.tablesUnder root := by
    rw [List.map_map, ← PlanTree.map_fst_leavesUnder]
    rfl
  rw [← htables] at hnodup
  simp only [← htables] at hleaf
  refine ⟨htables, hnodup, hleaf, ?_, ShardQuery.share_perm hnodup hleaf _ _,
    ShardQuery.share_perm hnodup hleaf _ _, h.grouped⟩
  intro query hquery
  obtain ⟨⟨id, leaf⟩, hmem, rfl⟩ := List.mem_map.mp hquery
  refine ⟨leaf, (PlanTree.mem_leavesUnder.mp hmem).2, ?_⟩
  rw [queryOf, selectList, ShardQuery.selectedOf_eq h.grouped, ShardQuery.filtersOf, List.map_map,
    List.map_map]
  rfl

/-- In a scenario that builds, predicates are planned at the root in any order and any number of
    times. Then the shard queries can be written, and they share out the placements and what is
    recorded at the root. -/
theorem delivery_of_build {scenario : Scenario} {built : BuiltScenario}
    (hbuild : scenario.build = .ok built) {predicates : List Expr}
    (hmem : ∀ p ∈ predicates, p ∈ built.predicates)
    {results : List (Except Failure (List Placement))}
    (hrun : (Plan.ofTree built.tree).planEach built.root restricted predicates = (results, plan)) :
    ∃ queries,
      plan.shardQueries built.registry built.root (placementsOf results) = .ok queries ∧
        Delivery built.tree built.root (plan.ownership built.root) (placementsOf results)
          queries := by
  obtain ⟨hroot, hsound⟩ := Scenario.of_build hbuild
  obtain ⟨hnodup, hleaf⟩ := Scenario.leaves_of_build hbuild
  have hstart : (Plan.ofTree built.tree).SafeAt built.registry built.root := safeAt_ofTree hroot
  obtain ⟨htree, hsafe, hplacements, _⟩ :=
    hstart.of_planEach (fun p hp => hsound p (hmem p hp)) hrun
  replace htree : plan.tree = built.tree := htree
  replace hplacements : ∀ p ∈ placementsOf results,
      SafePlacement built.registry plan.tree built.root p := htree ▸ hplacements
  have hqueries := hsafe.shardQueries_eq_ok hplacements
  have hdelivery := hsafe.delivery (htree ▸ hnodup) (htree ▸ hleaf) (placementsOf results)
  exact ⟨_, hqueries, htree ▸ hdelivery⟩

namespace Shop

/-- `users` joined with itself. One filter is given twice, and it is also a part of the third
    predicate, which stays at the join. -/
def selfJoin : Scenario where
  tables     := [⟨"users", [⟨"id", .long, none, none, true⟩]⟩]
  plan       := .join .right (.table "users" (some "u")) (.table "users" (some "v"))
  predicates := [.call "=" [.column "u.id", .value (.int 1)],
    .call "=" [.column "u.id", .value (.int 1)],
    .call "or" [.call "=" [.column "u.id", .value (.int 1)],
      .call "<" [.column "v.id", .column "u.id"]]]
  functions  := []
  restricted := false

/-- The queries of a built scenario with all its predicates planned at the root. -/
def queriesOf (built : BuiltScenario) : Except Failure (List ShardQuery) :=
  let (results, plan) :=
    (Plan.ofTree built.tree).planEach built.root built.restricted built.predicates
  plan.shardQueries built.registry built.root (placementsOf results)

/-- The leaf `u` has its filter twice, and `v` has none. -/
theorem delivery_of_build_selfJoin :
    ∃ built results plan, selfJoin.build = .ok built ∧
      (∀ p ∈ built.predicates, p ∈ built.predicates) ∧
      (Plan.ofTree built.tree).planEach built.root built.restricted built.predicates =
        (results, plan) ∧
      Delivery built.tree built.root (plan.ownership built.root) (placementsOf results)
        [⟨1, "SELECT `v`.`id` FROM `users` AS `v`"⟩,
          ⟨0, "SELECT `u`.`id` FROM `users` AS `u` WHERE (`u`.`id` = 1) AND (`u`.`id` = 1)"⟩] := by
  have hrun : selfJoin.build.map queriesOf = .ok (.ok
      [⟨1, "SELECT `v`.`id` FROM `users` AS `v`"⟩,
        ⟨0, "SELECT `u`.`id` FROM `users` AS `u` WHERE (`u`.`id` = 1) AND (`u`.`id` = 1)"⟩]) := by
    decide +kernel
  obtain ⟨built, hbuild, hqueries⟩ := Result.exists_of_map hrun
  obtain ⟨results, plan, hplanned⟩ : ∃ results plan, (Plan.ofTree built.tree).planEach built.root
      built.restricted built.predicates = (results, plan) := ⟨_, _, rfl⟩
  obtain ⟨queries, hanswer, hdelivery⟩ := delivery_of_build hbuild (fun p hp => hp) hplanned
  -- the queries that are answered are the ones that evaluation shows
  rw [queriesOf, hplanned] at hqueries
  obtain rfl := Except.ok.inj (hanswer.symm.trans hqueries)
  exact ⟨built, results, plan, hbuild, fun p hp => hp, hplanned, hdelivery⟩

end Shop

end Plan

end PushDown
