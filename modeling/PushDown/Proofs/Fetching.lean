import PushDown.Proofs.Agreement
import PushDown.Proofs.Safety

/-! # What is fetched for predicates that stay

    A predicate that stays at the root is evaluated there on what the leaves
    deliver. Every column in it lies in a part that is placed at the leaf of the
    column (`exists_places`): the column itself, or a call around it. That part
    is recorded, and so the leaf selects it, but for two exceptions
    (`fetched_of_neededAtRoot`).

    - The part is also a filter of the leaf. Filters are conditions and are not
      selected.
    - Another expression with the same label was recorded before it, under
      another node. Then one of the two is not legible.
-/

namespace PushDown

/-! ## §1. Simple expressions -/

namespace Expr

/-- An expression of columns, constants and built-in functions. -/
inductive Simple : Expr → Prop
  | literal (v : Value) : Simple (.literal v)
  | column (ref : ColumnRef) : Simple (.column ref)
  | call {f : Builtin} {args : List Expr} {state : CallState} :
      (∀ arg ∈ args, Simple arg) → Simple (.call (.builtin f) args state)

variable {resolve : ColumnRef → Except Failure BoundColumn} {outer : String → NodeSet} {e x : Expr}

mutual

/-- Decides whether an expression is simple. -/
def decideSimple : (e : Expr) → Decidable e.Simple
  | .literal v => isTrue (.literal v)
  | .column ref => isTrue (.column ref)
  | .field _ => isFalse nofun
  | .subquery _ => isFalse nofun
  | .call (.user _) _ _ => isFalse nofun
  | .call (.builtin _) args _ =>
    match decideAllSimple args with
    | isTrue hargs => isTrue (.call hargs)
    | isFalse hargs => isFalse fun | .call hsimple => hargs hsimple

/-- Decides whether all expressions of a list are simple. -/
def decideAllSimple : (es : List Expr) → Decidable (∀ e ∈ es, e.Simple)
  | [] => isTrue nofun
  | e :: es =>
    match decideSimple e, decideAllSimple es with
    | isTrue he, isTrue hes => isTrue (List.forall_mem_cons.mpr ⟨he, hes⟩)
    | isFalse he, _ => isFalse fun h => he (h e List.mem_cons_self)
    | _, isFalse hes => isFalse fun h => hes (List.forall_mem_cons.mp h).2

end

instance (e : Expr) : Decidable e.Simple := decideSimple e

theorem Simple.of_partOf (h : e.Simple) (hpart : x.PartOf e) : x.Simple := by
  induction hpart with
  | refl => exact h
  | arg harg _ ih =>
    cases h with
    | call hargs => exact ih (hargs _ harg)

/-- Simple expressions have no subqueries in them, and only built-in functions. -/
theorem Simple.known (h : e.Simple) : e.Known .builtins outer resolve := by
  intro x hx
  cases h.of_partOf hx with
  | literal v => trivial
  | column ref => trivial
  | call _ => exact Registry.func?_builtins _

/-- The bound column reached by following positions from the expression down, if there is one. -/
def columnAt? (e : Expr) (path : List Nat) : Option BoundColumn :=
  match e.argument? path with
  | some (.field f) => some f
  | _ => none

theorem columnAt?_eq_some_iff {path : List Nat} {f : BoundColumn} :
    e.columnAt? path = some f ↔ e.argument? path = some (.field f) := by
  unfold columnAt?
  split
  · next g h => simp [h]
  · next hnot => exact ⟨nofun, fun h => absurd h (hnot f)⟩

/-- What is reached by following positions is a part. -/
theorem partOf_of_argument? {path : List Nat} (h : e.argument? path = some x) : x.PartOf e := by
  induction path generalizing e with
  | nil =>
    obtain rfl := Option.some.inj h
    exact .refl
  | cons i path ih =>
    rw [argument?] at h
    split at h
    · next arg harg =>
      have hpart := ih h
      have hmem := List.mem_of_getElem? harg
      cases e with
      | call f args state => exact .arg hmem hpart
      | literal v => cases hmem
      | column ref => cases hmem
      | field f => cases hmem
      | subquery q => cases hmem
    · cases h

end Expr

/-! ## §2. Parts that are placed -/

namespace Site

variable {site : Site} {e x : Expr}

/-- Where nothing is left alone, a call on a table is taken apart or goes to the table. -/
theorem owner?_of_not_descends (hrestricted : site.restricted = false) {f : Func}
    {args : List Expr} {state : CallState} {table : NodeId} (htable : table ∈ state.tables)
    (h : ¬ site.descends state.facts state.tables = true) :
    site.owner? (.call f args state) = some table := by
  unfold descends at h
  by_cases hagg : state.facts.aggregate = true
  · rw [if_pos hagg] at h
    exact absurd rfl h
  · rw [if_neg hagg] at h
    rw [owner?, callOwner, if_neg hagg]
    rw [← NodeSet.mem_ids] at htable
    split at h
    · next hids =>
      rw [hids] at htable
      cases htable
    · next only hids =>
      rw [hids, List.mem_singleton] at htable
      rw [htable]
      simp only [if_neg h]
    · rw [hrestricted] at h
      exact absurd rfl h

/-- On the way from an expression down to a column, there is a part that is placed by itself and goes
    to the table of the column. -/
theorem exists_places {registry : Registry} {outer : String → NodeSet}
    {resolve : ColumnRef → Except Failure BoundColumn} (hrestricted : site.restricted = false)
    (he : e.Resolved registry outer resolve) {path : List Nat} {f : BoundColumn}
    (h : e.argument? path = some (.field f)) :
    ∃ k s, k ≤ path.length ∧ e.argument? (path.take k) = some s ∧ site.Places e s ∧
      site.owner? s = some f.table := by
  induction path generalizing e with
  | nil =>
    obtain rfl := Option.some.inj h
    exact ⟨0, _, Nat.le_refl 0, rfl, .self rfl, rfl⟩
  | cons i path ih =>
    have htable : f.table ∈ e.tables :=
      he.mem_tables (Expr.partOf_of_argument? h) (NodeSet.mem_singleton.mpr rfl)
    rw [Expr.argument?] at h
    split at h
    · next arg harg =>
      have hmem := List.mem_of_getElem? harg
      cases e with
      | literal v => cases hmem
      | column ref => cases hmem
      | field g => cases hmem
      | subquery q => cases hmem
      | call g args state =>
        by_cases hdescends : site.descends state.facts state.tables = true
        · -- the part lies further down
          obtain ⟨k, s, hk, hs, hplaces, howner⟩ := ih (he.of_partOf (.arg hmem .refl)) h
          refine ⟨k + 1, s, Nat.succ_le_succ hk, ?_, .arg hdescends hmem hplaces, howner⟩
          rw [List.take_succ_cons, Expr.argument?, harg]
          exact hs
        · have howner : site.owner? (.call g args state) = some f.table :=
            owner?_of_not_descends hrestricted htable hdescends
          exact ⟨0, _, Nat.zero_le _, rfl, .self howner, howner⟩
    · cases h

end Site

/-! ## §3. What a run records -/

namespace Plan

variable {plan plan' : Plan} {site : Site} {tree : PlanTree} {own own' : Ownership}

/-- The owner of the placement is recorded for it, and its parts that are placed are found. -/
structure Kept (site : Site) (own : Ownership) (p : Placement) : Prop where
  owner : ∀ owner, site.owner? p.predicate = some owner →
    ∃ r, own.find? p.predicate = some r ∧ r.owner = p.owner
  parts : ∀ x, site.Places p.predicate x → ∃ r, own.find? x = some r

/-- A placement is kept as long as what is found is found. -/
theorem Kept.mono {p : Placement} (h : Kept site own p)
    (hfind : ∀ x r, own.find? x = some r → own'.find? x = some r) : Kept site own' p where
  owner owner howner := by
    obtain ⟨r, hr, heq⟩ := h.owner owner howner
    exact ⟨r, hfind _ r hr, heq⟩
  parts x hx := by
    obtain ⟨r, hr⟩ := h.parts x hx
    exact ⟨r, hfind x r hr⟩

/-- What simple predicates are bound to in a scope. -/
abbrev BoundSimply (tree : PlanTree) (scope : NodeId) (b : Expr) : Prop :=
  b.Resolved .builtins (fun _ => .empty) (tree.resolve scope)

/-- A plan after a run of simple predicates, and the placements of the run. -/
structure SimpleRun (site : Site) (tree : PlanTree) (plan : Plan) (placements : List Placement) :
    Prop where
  same_tree     : plan.tree = tree
  followsPolicy : plan.FollowsPolicy
  recorded      : (plan.ownership site.id).All fun _ e => BoundSimply tree site.id e
  bound         : ∀ p ∈ placements, BoundSimply tree site.id p.predicate
  kept          : ∀ p ∈ placements, Kept site (plan.ownership site.id) p

/-- **Step.** Planning a simple predicate adds its placements to a run. -/
theorem SimpleRun.of_planFilter {placements placed : List Placement} {predicate : Expr}
    (h : SimpleRun site tree plan placements) (hnode : tree.node? site.id = some site.node)
    (hsimple : predicate.Simple)
    (hplanned : plan.planFilter site.id site.restricted predicate = (.ok placed, plan')) :
    SimpleRun site tree plan' (placements ++ placed) := by
  obtain ⟨rfl, hpolicy, hrecorded, hold, hkept⟩ := h
  obtain ⟨htree, hpolicy'⟩ := hpolicy.planFilter hplanned
  obtain ⟨bound, hbound, hown, rfl⟩ := hpolicy.of_planFilter hnode hplanned
  have hnew : ∀ b ∈ bound, BoundSimply plan.tree site.id b := by
    intro b hb
    obtain ⟨e, he, hbind⟩ := PlanTree.exists_of_mem_bindAll hbound hb
    exact (hsimple.of_partOf (Expr.partOf_of_mem_conjuncts he)).known.resolved hbind
  refine ⟨htree, hpolicy', ?_, fun p hp => ?_, fun p hp => ?_⟩
  · rw [hown]
    exact Site.all_placeAll_of_parts (fun b hb x hx => (hnew b hb).of_partOf hx) hrecorded
  · rcases List.mem_append.mp hp with hp | hp
    · exact hold p hp
    · obtain ⟨b, hb, rfl⟩ := List.mem_map.mp hp
      exact hnew b hb
  · rcases List.mem_append.mp hp with hp | hp
    · refine (hkept p hp).mono fun x r hr => ?_
      rw [hown]
      exact Site.find?_placeAll_of_some hr bound
    · obtain ⟨b, hb, rfl⟩ := List.mem_map.mp hp
      constructor
      · intro owner howner
        have hfound : ∃ r, (site.placeAll bound (plan.ownership site.id)).find? b = some r :=
          Site.exists_find?_placeAll hb howner
        rw [← hown] at hfound
        obtain ⟨r, hr⟩ := hfound
        exact ⟨r, hr, by rw [Ownership.ownerOf?, hr]; rfl⟩
      · intro x hx
        rw [hown]
        exact Site.exists_find?_placeAll_of_place hb hx.exists_find? _

/-- **Run.** Simple predicates that are planned one after the other make a run. -/
theorem simpleRun_of_planEach (hnode : tree.node? site.id = some site.node)
    {predicates : List Expr} (hsimple : ∀ p ∈ predicates, p.Simple)
    {results : List (Except Failure (List Placement))}
    (hrun : (Plan.ofTree tree).planEach site.id site.restricted predicates = (results, plan)) :
    SimpleRun site tree plan (placementsOf results) := by
  refine planEach_induction (motive := fun plan results =>
    SimpleRun site tree plan (placementsOf results)) ?failed ?planned ?start hrun
  case start =>
    have hempty : ∀ id, (Plan.ofTree tree).ownership id = .empty :=
      ownership_clear (Plan.ofTree tree)
    refine ⟨rfl, followsPolicy_of_empty hempty, ?_, nofun, nofun⟩
    rw [hempty]
    exact Ownership.all_empty _
  case failed =>
    intro before results p failure _ _ hbefore
    rw [placementsOf_append_error]
    exact hbefore
  case planned =>
    intro before after results p placed hp hplanned hbefore
    rw [placementsOf_append_ok]
    exact hbefore.of_planFilter hnode (hsimple p hp) hplanned

end Plan

/-! ## §4. What the leaves are asked for -/

namespace Expr

variable {e : Expr} {path : List Nat}

/-- Everything is selected, or else an argument that the path goes through, or that it ends at. -/
def FetchedBy (selected : List String) (e : Expr) (path : List Nat) : Prop :=
  selected = [] ∨ ∃ k < path.length, ∃ s ∈ e.argument? (path.take (k + 1)), s.label ∈ selected

instance (selected : List String) : Decidable (e.FetchedBy selected path) :=
  inferInstanceAs (Decidable (_ ∨ _))

/-- An argument that the path goes through, or that it ends at, is a filter. -/
def FilteredBy (filters : List Expr) (e : Expr) (path : List Nat) : Prop :=
  ∃ k < path.length, ∃ s ∈ e.argument? (path.take (k + 1)), ∃ filter ∈ filters,
    filter.alike s = true

/-- For an expression that the path goes through, and that the policy has go to the table from the
    root, another one was recorded under another node, and one of the two is not legible. -/
def ShadowedIn (tree : PlanTree) (root : NodeId) (own : Ownership) (table : NodeId) (e : Expr)
    (path : List Nat) : Prop :=
  ∃ k ≤ path.length, ∃ s ∈ e.argument? (path.take k), tree.Owns root table s ∧
    ∃ r ∈ own.find? s, r.expr ≠ s ∧ r.owner ≠ table ∧ ¬ (r.expr.Legible ∧ s.Legible)

end Expr

namespace Plan

variable {plan : Plan} {site : Site} {tree : PlanTree}

/-- What is found is selected under its owner, or else it is a filter there. -/
theorem mem_selectList_or_filter {root : NodeId} {x : Expr} {r : Recorded}
    (hgrouped : (plan.ownership root).Grouped) (hr : (plan.ownership root).find? x = some r)
    (placements : List Placement) :
    x.label ∈ plan.selectList root placements r.owner ∨
      ∃ filter ∈ ShardQuery.filtersOf placements r.owner, filter.alike x = true := by
  have halike := (Expr.same_iff.mp (Ownership.same_of_find? hr)).2
  have hmem := hgrouped.mem (Ownership.mem_of_find? hr)
  by_cases hfilter : (ShardQuery.filtersOf placements r.owner).any (·.alike r.expr) = true
  · obtain ⟨filter, hfilter, hsame⟩ := List.any_eq_true.mp hfilter
    exact .inr ⟨filter, hfilter, Expr.alike_trans hsame halike⟩
  · rw [Bool.not_eq_true, ← Bool.not_eq_true'] at hfilter
    refine .inl (List.mem_map.mpr ⟨r.expr, ?_, Expr.label_eq_of_alike halike⟩)
    exact List.mem_filter.mpr ⟨hmem, hfilter⟩

/-- The entry of a legible part is under the owner that the site has for the part, if the entry is
    legible, too. -/
theorem SimpleRun.owner_eq {placements : List Placement} (h : SimpleRun site tree plan placements)
    (hnode : tree.node? site.id = some site.node) {s : Expr}
    (hs : BoundSimply tree site.id s) {owner : NodeId} (howner : site.owner? s = some owner)
    {r : Recorded} (hr : (plan.ownership site.id).find? s = some r) (hrlegible : r.expr.Legible)
    (hslegible : s.Legible) : r.owner = owner := by
  have hmem := Ownership.mem_of_find? hr
  have halike := (Expr.same_iff.mp (Ownership.same_of_find? hr)).2
  have hparallel := hrlegible.parallel hslegible (Expr.label_eq_of_alike halike)
  obtain ⟨hfacts, htables⟩ :=
    (h.recorded.index r hmem).agree hs hrlegible hslegible hparallel
  have howns : tree.Owns site.id r.owner r.expr :=
    h.same_tree ▸ (h.followsPolicy site.id).index r hmem
  have hrecorded : site.owner? r.expr = some r.owner := Site.owner?_of_owns hnode howns
  have hfound := Site.owner?_of_find? hr hrecorded hfacts htables
  exact Option.some.inj (hfound.symm.trans howner)

/-- A column of a predicate that stays is fetched, but for the exceptions. -/
theorem SimpleRun.fetched {placements : List Placement} (h : SimpleRun site tree plan placements)
    (hnode : tree.node? site.id = some site.node) (hrestricted : site.restricted = false)
    (hgrouped : (plan.ownership site.id).Grouped) {p : Placement} (hp : p ∈ placements)
    (hstays : p.owner = site.id) {path : List Nat} {f : BoundColumn}
    (hcolumn : p.predicate.argument? path = some (.field f)) (haway : f.table ≠ site.id) :
    p.predicate.FetchedBy (plan.selectList site.id placements f.table) path ∨
      p.predicate.FilteredBy (ShardQuery.filtersOf placements f.table) path ∨
      p.predicate.ShadowedIn tree site.id (plan.ownership site.id) f.table path := by
  obtain ⟨k, s, hk, hs, hplaces, howner⟩ :=
    Site.exists_places hrestricted (h.bound p hp) hcolumn
  obtain ⟨r, hr⟩ := (h.kept p hp).parts s hplaces
  by_cases heq : r.owner = f.table
  · -- the part is below the predicate, which is recorded under the root
    obtain ⟨k, rfl⟩ : ∃ j, k = j + 1 := by
      refine Nat.exists_eq_succ_of_ne_zero fun hzero => haway ?_
      subst hzero
      obtain rfl := Option.some.inj hs
      obtain ⟨r', hr', heq'⟩ := (h.kept p hp).owner _ howner
      obtain rfl := Option.some.inj (hr.symm.trans hr')
      rw [← heq, heq', hstays]
    rcases mem_selectList_or_filter hgrouped hr placements with hselected | ⟨filter, hfilter, hsame⟩
    · exact .inl (.inr ⟨k, hk, s, hs, heq ▸ hselected⟩)
    · exact .inr (.inl ⟨k, hk, s, hs, filter, heq ▸ hfilter, hsame⟩)
  · have howns : tree.Owns site.id f.table s := Site.owns_of_owner? hnode howner
    refine .inr (.inr ⟨k, hk, s, hs, howns, r, hr, fun hself => heq ?_, heq, fun hlegible => heq ?_⟩)
    · -- what was recorded for the part itself is under the node where it goes
      have hrecorded := (h.followsPolicy site.id).index r (Ownership.mem_of_find? hr)
      rw [h.same_tree, hself] at hrecorded
      exact Site.owns_unique hnode hrecorded howns
    · have hbound := (h.bound p hp).of_partOf (Expr.partOf_of_argument? hs)
      exact h.owner_eq hnode hbound howner hr hlegible.1 hlegible.2

/-- The leaf of a column has one query, which selects what is recorded for the leaf. -/
theorem mem_queries_iff {root : NodeId} {placements : List Placement} {id : NodeId} {leaf : TableLeaf}
    (hleaf : (id, leaf) ∈ plan.tree.leavesUnder root) (query : ShardQuery) :
    query ∈ (plan.tree.leavesUnder root).map (plan.queryOf root placements) ∧ query.table = id ↔
      query = plan.queryOf root placements (id, leaf) := by
  constructor
  · rintro ⟨hmem, htable⟩
    obtain ⟨⟨id', leaf'⟩, hleaf', rfl⟩ := List.mem_map.mp hmem
    obtain rfl : id' = id := htable
    have hsame := (PlanTree.mem_leavesUnder.mp hleaf').2.symm.trans
      (PlanTree.mem_leavesUnder.mp hleaf).2
    obtain rfl : leaf' = leaf := Option.some.inj hsame
    rfl
  · rintro rfl
    exact ⟨List.mem_map_of_mem hleaf, rfl⟩

/-- After the simple predicates of a built scenario were planned at its root, which is no table, a
    predicate stays there, and the column is in it. -/
structure NeededAtRoot (built : BuiltScenario) (results : List (Except Failure (List Placement)))
    (plan : Plan) (p : Placement) (path : List Nat) (f : BoundColumn) : Prop where
  unrestricted : built.restricted = false
  simple       : ∀ p ∈ built.predicates, p.Simple
  inner        : built.tree.leaf? built.root = none
  run          : (Plan.ofTree built.tree).planEach built.root built.restricted built.predicates =
    (results, plan)
  mem          : p ∈ placementsOf results
  stays        : p.owner = built.root
  column       : p.predicate.columnAt? path = some f

/-- The table of a column that is needed at the root has one query. It selects everything, or the
    column, or a call around the column in the predicate. There are two exceptions: the column or a
    call around it is a filter of the table, or else it goes to the table, another expression was
    recorded for it under another node, and one of the two is not legible. -/
theorem fetched_of_neededAtRoot {scenario : Scenario} {built : BuiltScenario}
    (hbuild : scenario.build = .ok built) {results : List (Except Failure (List Placement))}
    {p : Placement} {path : List Nat} {f : BoundColumn}
    (h : NeededAtRoot built results plan p path f) :
    (∃ leaf queries, built.tree.leaf? f.table = some leaf ∧
      plan.shardQueries built.registry built.root (placementsOf results) = .ok queries ∧
        ∀ query, query ∈ queries ∧ query.table = f.table ↔
          query = ⟨f.table, ShardQuery.write leaf
            (plan.selectList built.root (placementsOf results) f.table)
            ((ShardQuery.filtersOf (placementsOf results) f.table).map Expr.label)⟩) ∧
      (p.predicate.FetchedBy (plan.selectList built.root (placementsOf results) f.table) path ∨
        p.predicate.FilteredBy (ShardQuery.filtersOf (placementsOf results) f.table) path ∨
        p.predicate.ShadowedIn built.tree built.root (plan.ownership built.root) f.table path) := by
  obtain ⟨hrestricted, hsimple, hinner, hrun, hp, hstays, hcolumn⟩ := h
  obtain ⟨⟨node, hnode⟩, hsound⟩ := Scenario.of_build hbuild
  have hstart : (Plan.ofTree built.tree).SafeAt built.registry built.root := safeAt_ofTree ⟨node, hnode⟩
  obtain ⟨htree, hsafe, hplacements, _⟩ := hstart.of_planEach hsound hrun
  replace htree : plan.tree = built.tree := htree
  let site : Site := ⟨built.root, node, built.restricted⟩
  have hsimpleRun : SimpleRun site built.tree plan (placementsOf results) :=
    simpleRun_of_planEach hnode hsimple hrun
  rw [Expr.columnAt?_eq_some_iff] at hcolumn
  -- the column is bound to a leaf below the root, and the root is no leaf
  obtain ⟨leaf, hleaf⟩ : ∃ leaf, (f.table, leaf) ∈ built.tree.leavesUnder built.root := by
    obtain ⟨_, hresolve⟩ := (hsimpleRun.bound p hp).known _ (Expr.partOf_of_argument? hcolumn)
    obtain ⟨leaf, hleaf, _⟩ := PlanTree.exists_of_resolve hresolve
    exact ⟨leaf, hleaf⟩
  have hfound := (PlanTree.mem_leavesUnder.mp hleaf).2
  have haway : f.table ≠ built.root := by
    intro heq
    rw [heq, hinner] at hfound
    cases hfound
  have hqueries := hsafe.shardQueries_eq_ok (htree ▸ hplacements)
  refine ⟨⟨leaf, _, hfound, hqueries, fun query => ?_⟩, ?_⟩
  · exact mem_queries_iff (htree ▸ hleaf) query
  · exact hsimpleRun.fetched hnode hrestricted hsafe.grouped hp hstays hcolumn haway

namespace Shop

/-- Predicates at the inner join of two tables. -/
def twoTables (first second : TableSpec) (predicates : List ExprSpec) : Scenario where
  tables     := [first, second]
  plan       := .join .inner (.table first.name none) (.table second.name none)
  predicates := predicates
  functions  := []
  restricted := false

/-- A table with columns of whole numbers. -/
def numbers (name : String) (columns : List String) : TableSpec :=
  ⟨name, columns.map fun column => ⟨column, .long, none, none, true⟩⟩

/-- A column at the path is needed at the root of the built scenario, it is fetched or not as stated,
    and the tables have these queries. -/
def Demands (built : BuiltScenario) (path : List Nat) (fetched : Bool)
    (queries : List ShardQuery) : Prop :=
  let (results, plan) :=
    (Plan.ofTree built.tree).planEach built.root built.restricted built.predicates
  let placements := placementsOf results
  (built.restricted = false ∧ (∀ p ∈ built.predicates, p.Simple) ∧
    built.tree.leaf? built.root = none) ∧
  plan.shardQueries built.registry built.root placements = .ok queries ∧
  ∃ p ∈ placements, p.owner = built.root ∧ ∃ f ∈ p.predicate.columnAt? path,
    decide (p.predicate.FetchedBy (plan.selectList built.root placements f.table) path) = fetched

instance (built : BuiltScenario) (path : List Nat) (fetched : Bool) (queries : List ShardQuery) :
    Decidable (Demands built path fetched queries) :=
  inferInstanceAs (Decidable (_ ∧ _ ∧ _))

/-- What evaluation has to show about a scenario. -/
theorem exists_neededAtRoot {scenario : Scenario} {path : List Nat} {fetched : Bool}
    {queries : List ShardQuery}
    (h : scenario.build.map (fun built => decide (Demands built path fetched queries)) = .ok true) :
    ∃ built results plan p f, scenario.build = .ok built ∧
      NeededAtRoot built results plan p path f ∧
      plan.shardQueries built.registry built.root (placementsOf results) = .ok queries ∧
      decide (p.predicate.FetchedBy (plan.selectList built.root (placementsOf results) f.table) path) =
        fetched := by
  obtain ⟨built, hbuild, hdemands⟩ := Result.exists_of_map h
  obtain ⟨⟨hrestricted, hsimple, hinner⟩, hqueries, p, hp, hstays, f, hcolumn, hfetched⟩ :=
    of_decide_eq_true hdemands
  exact ⟨built, _, _, p, f, hbuild, ⟨hrestricted, hsimple, hinner, rfl, hp, hstays, hcolumn⟩,
    hqueries, hfetched⟩

/-- `a.x = b.y`. -/
def joined : Scenario :=
  twoTables (numbers "a" ["x"]) (numbers "b" ["y"]) [.call "=" [.column "a.x", .column "b.y"]]

/-- Both columns of an equation that stays at the join are fetched, here the first. -/
theorem fetched_of_neededAtRoot_joined :
    ∃ built results plan p f, joined.build = .ok built ∧ NeededAtRoot built results plan p [0] f ∧
      (∃ leaf queries, built.tree.leaf? f.table = some leaf ∧
        plan.shardQueries built.registry built.root (placementsOf results) = .ok queries ∧
          ∀ query, query ∈ queries ∧ query.table = f.table ↔
            query = ⟨f.table, ShardQuery.write leaf
              (plan.selectList built.root (placementsOf results) f.table)
              ((ShardQuery.filtersOf (placementsOf results) f.table).map Expr.label)⟩) ∧
      p.predicate.FetchedBy (plan.selectList built.root (placementsOf results) f.table) [0] := by
  have hrun : joined.build.map (fun built => decide (Demands built [0] true
      [⟨0, "SELECT `a`.`x` FROM `a`"⟩, ⟨1, "SELECT `b`.`y` FROM `b`"⟩])) = .ok true := by
    decide +kernel
  obtain ⟨built, results, plan, p, f, hbuild, hneeded, _, hfetched⟩ := exists_neededAtRoot hrun
  exact ⟨built, results, plan, p, f, hbuild, hneeded,
    (fetched_of_neededAtRoot hbuild hneeded).1, of_decide_eq_true hfetched⟩

/-- `a.x = 1`, which is a filter of `a` and also a part of the next predicate. -/
def filterAndPart : Scenario :=
  twoTables (numbers "a" ["x", "z"]) (numbers "b" ["y", "w"])
    [.call "=" [.column "a.x", .value (.int 1)],
      .call "or" [.call "=" [.column "a.x", .value (.int 1)],
        .call "=" [.column "b.y", .value (.int 2)]],
      .call "=" [.column "a.z", .column "b.w"]]

/-- Two absolute values with one text, of columns in two tables. -/
def sharedText : Scenario :=
  twoTables (numbers "a" ["b`.`c", "d"]) (numbers "a`.`b" ["c", "e"])
    [.call "=" [.call "abs" [.column "a.b`.`c"], .column "e"],
      .call "=" [.call "abs" [.column "c"], .column "d"]]

/-- A column is not fetched when the part around it is a filter of its table, and when another part has
    its text. -/
theorem not_fetched_of_neededAtRoot :
    (∃ built results plan p f, filterAndPart.build = .ok built ∧
      NeededAtRoot built results plan p [0, 0] f ∧
      plan.shardQueries built.registry built.root (placementsOf results) =
        .ok [⟨0, "SELECT `a`.`z` FROM `a` WHERE (`a`.`x` = 1)"⟩,
          ⟨1, "SELECT (`b`.`y` = 2), `b`.`w` FROM `b`"⟩] ∧
      ¬ p.predicate.FetchedBy (plan.selectList built.root (placementsOf results) f.table) [0, 0]) ∧
    ∃ built results plan p f, sharedText.build = .ok built ∧
      NeededAtRoot built results plan p [0, 0] f ∧
      plan.shardQueries built.registry built.root (placementsOf results) =
        .ok [⟨0, "SELECT abs(`a`.`b`.`c`), `a`.`d` FROM `a`"⟩,
          ⟨1, "SELECT `a`.`b`.`e` FROM `a`.`b`"⟩] ∧
      ¬ p.predicate.FetchedBy (plan.selectList built.root (placementsOf results) f.table) [0, 0] := by
  have hfilter : filterAndPart.build.map (fun built => decide (Demands built [0, 0] false
      [⟨0, "SELECT `a`.`z` FROM `a` WHERE (`a`.`x` = 1)"⟩,
        ⟨1, "SELECT (`b`.`y` = 2), `b`.`w` FROM `b`"⟩])) = .ok true := by
    decide +kernel
  have htext : sharedText.build.map (fun built => decide (Demands built [0, 0] false
      [⟨0, "SELECT abs(`a`.`b`.`c`), `a`.`d` FROM `a`"⟩,
        ⟨1, "SELECT `a`.`b`.`e` FROM `a`.`b`"⟩])) = .ok true := by
    decide +kernel
  constructor
  · obtain ⟨built, results, plan, p, f, hbuild, hneeded, hqueries, hnot⟩ :=
      exists_neededAtRoot hfilter
    exact ⟨built, results, plan, p, f, hbuild, hneeded, hqueries, of_decide_eq_false hnot⟩
  · obtain ⟨built, results, plan, p, f, hbuild, hneeded, hqueries, hnot⟩ :=
      exists_neededAtRoot htext
    exact ⟨built, results, plan, p, f, hbuild, hneeded, hqueries, of_decide_eq_false hnot⟩

end Shop

end Plan

end PushDown
