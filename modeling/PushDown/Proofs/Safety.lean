import PushDown.Proofs.Building
import PushDown.Proofs.Planning
import PushDown.ShardQuery

/-! # Scenarios that build run to the end

    What is planned at the root of a built scenario is sound, so binding fails
    only for a column that does not resolve. What is recorded there is part of a
    bound predicate: it can be written for the shards, and its owner is the
    root, the first child of the root or a table leaf (`Owns.mayOwn`).

    `SafeAt` is the invariant. Planning a predicate keeps it
    (`SafeAt.of_planFilter`), and so does planning many (`SafeAt.of_planEach`).
    In a safe plan explanations and shard queries can be written.
-/

namespace PushDown

namespace Result

variable {ε α β : Type} {f : α → Except ε β}

/-- A list can be mapped when every one of its members can. -/
theorem exists_mapM {as : List α} (h : ∀ a ∈ as, ∃ b, f a = .ok b) : ∃ bs, as.mapM f = .ok bs := by
  induction as with
  | nil => exact ⟨[], rfl⟩
  | cons a as ih =>
    rw [List.mapM_cons]
    refine exists_bind (h a List.mem_cons_self) fun b => ?_
    exact exists_bind (ih fun x hx => h x (List.mem_cons_of_mem a hx)) fun bs => ⟨_, rfl⟩

theorem mapM_eq_ok {g : α → β} {as : List α} (h : ∀ a ∈ as, f a = .ok (g a)) :
    as.mapM f = .ok (as.map g) := by
  induction as with
  | nil => rfl
  | cons a as ih =>
    rw [List.mapM_cons, h a List.mem_cons_self, ih fun x hx => h x (List.mem_cons_of_mem a hx)]
    rfl

end Result

/-! ## §1. Owners at a root -/

namespace PlanTree

/-- The node is the root, its first child, or a table leaf below it. -/
inductive MayOwn (tree : PlanTree) (root : NodeId) : NodeId → Prop
  | root : MayOwn tree root root
  | firstChild {child : NodeId} : (tree.children root).head? = some child → MayOwn tree root child
  | leaf {id : NodeId} : id ∈ tree.tablesUnder root → MayOwn tree root id

variable {tree : PlanTree} {root owner : NodeId}

theorem MayOwn.exists_node {node : PlanNode} (h : tree.MayOwn root owner)
    (hroot : tree.node? root = some node) : ∃ node, tree.node? owner = some node := by
  cases h with
  | root => exact ⟨node, hroot⟩
  | firstChild hchild =>
    have hlt := lt_of_mem_children (List.mem_of_mem_head? hchild)
    exact exists_node?_of_lt (Nat.lt_trans hlt (lt_of_node? hroot))
  | leaf hid =>
    obtain ⟨leaf, hleaf⟩ := exists_leaf_of_mem_visit hid
    obtain ⟨node, hnode, _⟩ := Option.bind_eq_some_iff.mp hleaf
    exact ⟨node, hnode⟩

/-- The policy has no other owner for an expression on tables below the root. -/
theorem Owns.mayOwn {e : Expr} (h : tree.Owns root owner e)
    (htables : ∀ id ∈ e.tables, id ∈ tree.tablesUnder root) : tree.MayOwn root owner := by
  cases h with
  | field f => exact .leaf (htables _ (NodeSet.mem_singleton.mpr rfl))
  | subquery q => exact .root
  | aggregate _ => exact .root
  | constantHere _ _ _ => exact .root
  | constantBelow _ _ _ hchildren => exact .firstChild (by rw [hchildren]; rfl)
  | nullTest _ _ _ _ => exact .root
  | @oneTable f args state table _ hone _ =>
    refine .leaf (htables _ ?_)
    have hmem : owner ∈ state.tables := hone ▸ NodeSet.mem_singleton.mpr rfl
    exact hmem
  | severalTables _ _ _ _ => exact .root

/-- A node that is there can be described. -/
theorem exists_describe {node : PlanNode} (h : tree.node? owner = some node) :
    ∃ text, tree.describe owner = .ok text := by
  rw [describe, PlanTree.node, h]
  exact ⟨_, rfl⟩

end PlanTree

/-! ## §2. The invariant -/

/-- The expression is sound and depends only on tables below the root. -/
structure Expr.Recordable (registry : Registry) (tree : PlanTree) (root : NodeId) (e : Expr) :
    Prop where
  sound  : e.Sound registry (tree.tablesUnder root)
  tables : ∀ id ∈ e.tables, id ∈ tree.tablesUnder root

namespace Expr

variable {registry : Registry} {tree : PlanTree} {root : NodeId} {e b x : Expr}

/-- Every part of what a sound expression is bound to can be recorded. -/
theorem Sound.recordable (h : e.Sound registry (tree.tablesUnder root))
    (hbind : tree.bind root e = .ok b) (hpart : x.PartOf b) : x.Recordable registry tree root := by
  have hb : b.Sound registry (tree.tablesUnder root) :=
    h.of_bind (fun ref f hf => PlanTree.table_mem_of_resolve hf) hbind
  exact ⟨hb.of_partOf hpart, fun id hid => hb.mem_tables hbind (tables_of_bind hbind hpart hid)⟩

end Expr

namespace Plan

variable {plan plan' : Plan} {registry : Registry} {root : NodeId} {restricted : Bool}

/-- The root is there, the plan follows the policy, and what is recorded at the root can be. -/
structure SafeAt (registry : Registry) (root : NodeId) (plan : Plan) : Prop where
  node          : ∃ node, plan.tree.node? root = some node
  followsPolicy : plan.FollowsPolicy
  recorded      : (plan.ownership root).All fun _ e => e.Recordable registry plan.tree root
  grouped       : (plan.ownership root).Grouped

theorem safeAt_ofTree {tree : PlanTree} (hroot : ∃ node, tree.node? root = some node) :
    (Plan.ofTree tree).SafeAt registry root := by
  have hempty : ∀ id, (Plan.ofTree tree).ownership id = .empty :=
    ownership_clear (Plan.ofTree tree)
  refine ⟨hroot, followsPolicy_of_empty hempty, ?_, ?_⟩
  · rw [hempty]
    exact Ownership.all_empty _
  · rw [hempty]
    exact Ownership.grouped_empty

/-- All owners that are recorded are the root, its first child or a table leaf. -/
theorem SafeAt.mayOwn (h : plan.SafeAt registry root) :
    (plan.ownership root).All fun owner _ => plan.tree.MayOwn root owner where
  index r hr := ((h.followsPolicy root).index r hr).mayOwn (h.recorded.index r hr).tables
  groups group hgroup e he :=
    ((h.followsPolicy root).groups group hgroup e he).mayOwn
      (h.recorded.groups group hgroup e he).tables

/-- A placement that can be explained and written. -/
structure SafePlacement (registry : Registry) (tree : PlanTree) (root : NodeId) (p : Placement) :
    Prop where
  predicate : p.predicate.Recordable registry tree root
  owner     : tree.MayOwn root p.owner

/-! ## §3. Planning -/

/-- A sound predicate is planned, or else one of its columns does not resolve. -/
theorem of_planFilter_error {predicate : Expr} {failure : Failure} {tables : List NodeId}
    (hroot : ∃ node, plan.tree.node? root = some node) (hsound : predicate.Sound registry tables)
    (h : plan.planFilter root restricted predicate = (.error failure, plan')) :
    ∃ e, failure = .rejected e ∧ ColumnRef.IsRejection e := by
  obtain ⟨node, hnode⟩ := hroot
  have hsite : plan.site root restricted = .ok ⟨root, node, restricted⟩ :=
    site_eq_ok_iff.mpr ⟨node, hnode, rfl⟩
  rw [planFilter, hsite] at h
  split at h
  · next found hbind =>
    obtain rfl := Except.error.inj (Prod.mk.inj h).1
    rw [PlanTree.bindAll_eq_bindAllWith] at hbind
    obtain ⟨conjunct, hmem, herror⟩ := Expr.exists_of_bindAllWith_error hbind
    have hconjunct := hsound.of_partOf (Expr.partOf_of_mem_conjuncts hmem)
    rw [← Expr.bind_eq_bindWith] at herror
    obtain ⟨ref, href⟩ := Expr.exists_resolve_eq_error hconjunct.accepted herror
    exact PlanTree.of_resolve_error hnode href
  · cases h

/-- A predicate that is planned leaves a plan that follows the policy. -/
theorem FollowsPolicy.planFilter {predicate : Expr} {placed : List Placement}
    (h : plan.FollowsPolicy)
    (hplanned : plan.planFilter root restricted predicate = (.ok placed, plan')) :
    plan'.tree = plan.tree ∧ plan'.FollowsPolicy := by
  obtain ⟨_, _, _, hplace⟩ := placedAt_of_planFilter hplanned
  exact ⟨hplace.tree, h.place hplace⟩

/-- **Step.** Planning a sound predicate keeps the plan safe, and answers safe placements. -/
theorem SafeAt.of_planFilter {predicate : Expr} {placed : List Placement}
    (h : plan.SafeAt registry root)
    (hsound : predicate.Sound registry (plan.tree.tablesUnder root))
    (hplanned : plan.planFilter root restricted predicate = (.ok placed, plan')) :
    plan'.tree = plan.tree ∧ plan'.SafeAt registry root ∧
      ∀ p ∈ placed, SafePlacement registry plan.tree root p := by
  obtain ⟨node, hnode⟩ := h.node
  have hsite : plan.tree.node? (Site.mk root node restricted).id = some node := hnode
  obtain ⟨htree, hpolicy⟩ := h.followsPolicy.planFilter hplanned
  obtain ⟨bound, hbound, hown, hplaced⟩ := h.followsPolicy.of_planFilter hsite hplanned
  -- every part of a bound conjunct can be recorded
  have hparts : ∀ b ∈ bound, ∀ x : Expr, x.PartOf b → x.Recordable registry plan.tree root := by
    intro b hb x hx
    obtain ⟨e, he, hbind⟩ := PlanTree.exists_of_mem_bindAll hbound hb
    exact (hsound.of_partOf (Expr.partOf_of_mem_conjuncts he)).recordable hbind hx
  replace hown : plan'.ownership root = _ := hown
  have hrecorded : (plan'.ownership root).All fun _ e => e.Recordable registry plan.tree root := by
    rw [hown]
    exact Site.all_placeAll_of_parts hparts h.recorded
  have hgrouped : (plan'.ownership root).Grouped := by
    rw [hown]
    exact Site.placeAll_induction (fun own owner x _ hown => hown.add owner x) h.grouped
  have hsafe : plan'.SafeAt registry root :=
    ⟨⟨node, htree ▸ hnode⟩, hpolicy, htree ▸ hrecorded, hgrouped⟩
  refine ⟨htree, hsafe, fun p hp => ?_⟩
  rw [hplaced] at hp
  obtain ⟨b, hb, rfl⟩ := List.mem_map.mp hp
  refine ⟨hparts b hb b .refl, ?_⟩
  -- the owner is that of the entry that is found, or else the root
  have hmay := htree ▸ hsafe.mayOwn
  show plan.tree.MayOwn root (((plan'.ownership root).ownerOf? b).getD root)
  cases hfound : (plan'.ownership root).find? b with
  | none =>
    rw [Ownership.ownerOf?, hfound]
    exact .root
  | some r =>
    rw [Ownership.ownerOf?, hfound]
    exact hmay.index r (Ownership.mem_of_find? hfound)

/-- A run from one plan to another that keeps the tree: the plan stays safe, the placements are safe,
    and only columns that do not resolve make a predicate fail. -/
structure SafeRun (registry : Registry) (root : NodeId) (tree : PlanTree) (plan : Plan)
    (results : List (Except Failure (List Placement))) : Prop where
  same_tree  : plan.tree = tree
  safe       : plan.SafeAt registry root
  placements : ∀ p ∈ placementsOf results, SafePlacement registry tree root p
  errors     : ∀ failure, .error failure ∈ results →
    ∃ e, failure = .rejected e ∧ ColumnRef.IsRejection e

/-- **Run.** Planning sound predicates one after the other is a safe run. -/
theorem SafeAt.of_planEach {predicates : List Expr} (h : plan.SafeAt registry root)
    (hsound : ∀ p ∈ predicates, p.Sound registry (plan.tree.tablesUnder root))
    {results : List (Except Failure (List Placement))}
    (hrun : plan.planEach root restricted predicates = (results, plan')) :
    SafeRun registry root plan.tree plan' results := by
  refine planEach_induction (motive := SafeRun registry root plan.tree) ?failed ?planned ?start hrun
  case start =>
    exact ⟨rfl, h, fun p hp => absurd hp List.not_mem_nil, fun _ hf => absurd hf List.not_mem_nil⟩
  case failed =>
    -- a predicate that fails changes nothing
    intro before results p failure hp hplanned hbefore
    refine ⟨hbefore.same_tree, hbefore.safe, fun x hx => ?_, fun found hfound => ?_⟩
    · rw [placementsOf_append_error] at hx
      exact hbefore.placements x hx
    · rcases List.mem_append.mp hfound with hold | hnew
      · exact hbefore.errors found hold
      · obtain rfl := Except.error.inj (List.mem_singleton.mp hnew)
        exact of_planFilter_error hbefore.safe.node (hsound p hp) hplanned
  case planned =>
    intro before after results p placed hp hplanned hbefore
    obtain ⟨htree, hsafe, hplaced⟩ :=
      hbefore.safe.of_planFilter (hbefore.same_tree ▸ hsound p hp) hplanned
    refine ⟨htree.trans hbefore.same_tree, hsafe, fun x hx => ?_, fun found hfound => ?_⟩
    · rw [placementsOf_append_ok] at hx
      rcases List.mem_append.mp hx with hx | hx
      · exact hbefore.placements x hx
      · exact hbefore.same_tree ▸ hplaced x hx
    · rcases List.mem_append.mp hfound with hold | hnew
      · exact hbefore.errors found hold
      · cases List.mem_singleton.mp hnew

/-! ## §4. Output -/

/-- Safe placements and what is recorded in a safe plan can be explained. -/
theorem SafeAt.exists_explain (h : plan.SafeAt registry root) {placements : List Placement}
    (hplacements : ∀ p ∈ placements, SafePlacement registry plan.tree root p) :
    ∃ lines, plan.explain root placements = .ok lines := by
  obtain ⟨node, hnode⟩ := h.node
  -- an owner is there, so it can be described
  have hdescribe : ∀ {owner : NodeId} {line : String → String}, plan.tree.MayOwn root owner →
      ∃ text, (plan.tree.describe owner).map line = .ok text := fun howner => by
    obtain ⟨_, hfound⟩ := howner.exists_node hnode
    obtain ⟨text, htext⟩ := PlanTree.exists_describe hfound
    exact ⟨_, by rw [htext]; rfl⟩
  have hgroups : ∀ group ∈ (plan.ownership root).groups,
      ∃ line, plan.explainGroup group = .ok line := by
    intro group hgroup
    obtain ⟨e, he⟩ := List.exists_mem_of_ne_nil _ (h.grouped.nonempty group hgroup)
    exact hdescribe (h.mayOwn.groups group hgroup e he)
  have hown : plan.ownershipAt root = .ok (plan.ownership root) := by
    rw [ownershipAt, PlanTree.node, hnode]
    rfl
  have hfilters : ∀ p ∈ placements, ∃ line, plan.explainFilter p = .ok line :=
    fun p hp => hdescribe (hplacements p hp).owner
  obtain ⟨filters, hfilters⟩ := Result.exists_mapM hfilters
  obtain ⟨groups, hgroups⟩ := Result.exists_mapM hgroups
  refine ⟨filters ++ groups, ?_⟩
  rw [explain, hfilters, hown]
  simp only [Bind.bind, Except.bind, hgroups]
  rfl

/-- What a leaf is asked for: the labels of what it owns, apart from its filters. -/
def selectList (plan : Plan) (root : NodeId) (placements : List Placement) (id : NodeId) :
    List String :=
  (ShardQuery.selectedOf (plan.ownership root) (ShardQuery.filtersOf placements id) id).map
    Expr.label

/-- The query of a leaf whose expressions can all be written. -/
def queryOf (plan : Plan) (root : NodeId) (placements : List Placement)
    (leaf : NodeId × TableLeaf) : ShardQuery :=
  ⟨leaf.1, ShardQuery.write leaf.2 (plan.selectList root placements leaf.1)
    ((ShardQuery.filtersOf placements leaf.1).map Expr.label)⟩

/-- Safe placements and what is recorded in a safe plan can be written for the shards: each leaf has
    its query. -/
theorem SafeAt.shardQueries_eq_ok (h : plan.SafeAt registry root) {placements : List Placement}
    (hplacements : ∀ p ∈ placements, SafePlacement registry plan.tree root p) :
    plan.shardQueries registry root placements =
      .ok ((plan.tree.leavesUnder root).map (plan.queryOf root placements)) := by
  obtain ⟨node, hnode⟩ := h.node
  have hown : plan.ownershipAt root = .ok (plan.ownership root) := by
    rw [ownershipAt, PlanTree.node, hnode]
    rfl
  have hleaf : ∀ leaf ∈ plan.tree.leavesUnder root,
      ShardQuery.ofLeaf registry (plan.ownership root) placements leaf.1 leaf.2 =
        .ok (plan.queryOf root placements leaf) := by
    intro leaf _
    -- what is selected is recorded
    have hselected : ∀ e ∈ ShardQuery.selectedOf (plan.ownership root)
        (ShardQuery.filtersOf placements leaf.1) leaf.1, registry.render e = .ok e.label :=
      fun e he => (h.recorded.of_mem_ownedBy (List.mem_filter.mp he).1).sound.render_eq_ok
    have hconditions : ∀ e ∈ ShardQuery.filtersOf placements leaf.1,
        registry.render e = .ok e.label := by
      intro e he
      obtain ⟨p, hp, rfl⟩ := List.mem_map.mp he
      exact (hplacements p (List.mem_filter.mp hp).1).predicate.sound.render_eq_ok
    rw [ShardQuery.ofLeaf, Result.mapM_eq_ok hselected, Result.mapM_eq_ok hconditions]
    rfl
  rw [shardQueries, hown]
  simp only [Result.mapM_eq_ok hleaf]
  rfl

/-! ## §5. Built scenarios -/

/-- In a scenario that builds, its predicates can be planned at the root in any order and any number of
    times. Each is planned, or has a column that does not resolve. Every owner is the root, its first
    child or a table leaf below it, and both explanation and shard queries can be written. -/
theorem runs_of_build {scenario : Scenario} {built : BuiltScenario}
    (hbuild : scenario.build = .ok built) {predicates : List Expr}
    (hmem : ∀ p ∈ predicates, p ∈ built.predicates)
    {results : List (Except Failure (List Placement))}
    (hrun : (Plan.ofTree built.tree).planEach built.root restricted predicates = (results, plan)) :
    (∀ failure, .error failure ∈ results →
        ∃ e, failure = .rejected e ∧ ColumnRef.IsRejection e) ∧
      (∀ p ∈ placementsOf results, built.tree.MayOwn built.root p.owner) ∧
      (plan.ownership built.root).All (fun owner _ => built.tree.MayOwn built.root owner) ∧
      (∃ lines, plan.explain built.root (placementsOf results) = .ok lines) ∧
      ∃ queries, plan.shardQueries built.registry built.root (placementsOf results) =
        .ok queries := by
  obtain ⟨hroot, hsound⟩ := Scenario.of_build hbuild
  have hstart : (Plan.ofTree built.tree).SafeAt built.registry built.root := safeAt_ofTree hroot
  obtain ⟨htree, hsafe, hplacements, herrors⟩ :=
    hstart.of_planEach (fun p hp => hsound p (hmem p hp)) hrun
  replace htree : plan.tree = built.tree := htree
  replace hplacements : ∀ p ∈ placementsOf results,
      SafePlacement built.registry plan.tree built.root p := htree ▸ hplacements
  refine ⟨herrors, fun p hp => htree ▸ (hplacements p hp).owner, htree ▸ hsafe.mayOwn, ?_, ?_⟩
  · exact hsafe.exists_explain hplacements
  · exact ⟨_, hsafe.shardQueries_eq_ok hplacements⟩

namespace Shop

/-- The left join of `users` with `orders`. Of its predicates the first has a column that no table has,
    and the second compares a declared function of a column with a subquery over `users`. -/
def scenario : Scenario where
  tables     := [⟨"users", [⟨"id", .long, none, none, true⟩]⟩,
    ⟨"orders", [⟨"amount", .newdecimal, none, none, true⟩]⟩]
  plan       := .join .left (.table "users" none) (.table "orders" none)
  predicates := [.call "=" [.column "missing", .value (.int 1)],
    .call ">" [.call "bucket" [.column "amount"], .subquery "SELECT 1" .longlong ["users"]]]
  functions  := [⟨"bucket", .exactly 1, .real, false, none⟩]
  restricted := false

/-- Whether each predicate of a built scenario is planned. -/
def outcomes (built : BuiltScenario) : List Bool :=
  ((Plan.ofTree built.tree).planEach built.root false built.predicates).1.map fun r => r.isOk

/-- The first predicate fails, and the second one is planned and written. -/
theorem runs_of_build_scenario :
    ∃ built results plan, scenario.build = .ok built ∧ (∀ p ∈ built.predicates, p ∈ built.predicates) ∧
      (Plan.ofTree built.tree).planEach built.root false built.predicates = (results, plan) ∧
      outcomes built = [false, true] ∧
      (∀ p ∈ placementsOf results, built.tree.MayOwn built.root p.owner) ∧
      (∃ lines, plan.explain built.root (placementsOf results) = .ok lines) ∧
      ∃ queries, plan.shardQueries built.registry built.root (placementsOf results) =
        .ok queries := by
  have hrun : scenario.build.map outcomes = .ok [false, true] := by decide +kernel
  obtain ⟨built, hbuild, houtcomes⟩ := Result.exists_of_map hrun
  obtain ⟨results, plan, hrun⟩ : ∃ results plan, (Plan.ofTree built.tree).planEach built.root false
      built.predicates = (results, plan) := ⟨_, _, rfl⟩
  obtain ⟨_, howners, _, hexplain, hqueries⟩ := runs_of_build hbuild (fun p hp => hp) hrun
  exact ⟨built, results, plan, hbuild, fun p hp => hp, hrun, houtcomes, howners, hexplain, hqueries⟩

end Shop

end Plan

end PushDown
