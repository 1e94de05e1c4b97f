import PushDown.Proofs.Inference
import PushDown.Proofs.Leaves
import PushDown.Proofs.Rendering

/-! # What a scenario that builds is made of

    Names are looked up once, when a scenario is built. From then on every
    function in a predicate is registered and has an accepted count of
    arguments, and every table that a subquery refers to is a leaf of the plan.
    `Expr.Sound` says so, and binding keeps it (`Sound.of_bind`).
-/

namespace PushDown

/-! ## §1. Registries -/

namespace Registry

variable {registry registry' : Registry}

/-- Every function of the registry is registered under its own name. -/
def Named (registry : Registry) : Prop :=
  ∀ entry ∈ registry.functions, entry.1 = Text.lowerCase entry.2.name

/-- Every function of the registry is found by its own name. -/
def Closed (registry : Registry) : Prop :=
  ∀ entry ∈ registry.functions, registry.isNative entry.2.name = true

theorem Named.closed (h : registry.Named) : registry.Closed := by
  rintro ⟨key, f⟩ hentry
  have hkey : key = Text.lowerCase f.name := h _ hentry
  exact isNative_iff.mpr ⟨f, hkey ▸ hentry⟩

theorem named_builtins : builtins.Named := by
  -- the names of the built-in functions are in lower case
  have hname : ∀ f ∈ Builtin.all, Text.lowerCase f.name = f.name := by decide +kernel
  intro entry hentry
  obtain ⟨f, hf, rfl⟩ := List.mem_map.mp hentry
  exact (hname f hf).symm

/-- A declaration is registered at the end, and only under a name that is free. -/
theorem register_eq_ok_iff {declaration : FunctionDef} :
    registry.register declaration = .ok registry' ↔
      registry.isNative declaration.name = false ∧
        registry'.functions =
          registry.functions ++ [(Text.lowerCase declaration.name, .user declaration)] := by
  cases registry' with
  | mk functions =>
    unfold Registry.register
    constructor
    · intro h
      split at h
      · cases h
      · next hfree =>
        cases h
        exact ⟨Bool.eq_false_iff.mpr hfree, rfl⟩
    · rintro ⟨hfree, rfl⟩
      rw [if_neg (Bool.eq_false_iff.mp hfree)]

theorem Named.register {declaration : FunctionDef} (h : registry.Named)
    (hregister : registry.register declaration = .ok registry') : registry'.Named := by
  obtain ⟨_, hfunctions⟩ := register_eq_ok_iff.mp hregister
  intro entry hentry
  rw [hfunctions] at hentry
  rcases List.mem_append.mp hentry with hold | hnew
  · exact h entry hold
  · rw [List.mem_singleton.mp hnew, Func.name]

theorem Named.build {declarations : List FunctionDef} (h : registry.Named)
    (hbuild : registry.build declarations = .ok registry') : registry'.Named := by
  induction declarations generalizing registry with
  | nil =>
    obtain rfl := Except.ok.inj hbuild
    exact h
  | cons declaration rest ih =>
    rw [Registry.build] at hbuild
    split at hbuild
    · cases hbuild
    · next hregister => exact ih (h.register hregister) hbuild

/-- What a name finds is registered under this name. -/
theorem mem_of_func? {name : String} {f : Func} (h : registry.func? name = some f) :
    (Text.lowerCase name, f) ∈ registry.functions := by
  obtain ⟨before, after, hsplit, _⟩ := List.lookup_eq_some_iff.mp h
  rw [hsplit]
  exact List.mem_append_right _ List.mem_cons_self

/-- A call that is made by name applies a registered function to as many arguments as it accepts. -/
theorem Closed.of_create {name : String} {args : List Expr} {e : Expr} (h : registry.Closed)
    (hcreate : registry.create name args = .ok e) :
    ∃ f, e = .apply f args ∧ registry.isNative f.name = true ∧
      f.arity.accepts args.length = true := by
  obtain ⟨f, hfound, harity, rfl⟩ := create_eq_ok_iff.mp hcreate
  exact ⟨f, rfl, h (Text.lowerCase name, f) (mem_of_func? hfound), harity⟩

end Registry

/-! ## §2. Sound expressions -/

namespace Expr

/-- Every function in the expression is registered and has an accepted count of arguments, and the
    expression refers to no table but the given ones. -/
inductive Sound (registry : Registry) (tables : List NodeId) : Expr → Prop
  | literal (v : Value) : Sound registry tables (.literal v)
  | column (ref : ColumnRef) : Sound registry tables (.column ref)
  | field {f : BoundColumn} : f.table ∈ tables → Sound registry tables (.field f)
  | subquery {q : Subquery} :
      (∀ id ∈ q.outer, id ∈ tables) → Sound registry tables (.subquery q)
  | call {f : Func} {args : List Expr} {state : CallState} :
      registry.isNative f.name = true → f.arity.accepts args.length = true →
      (∀ arg ∈ args, Sound registry tables arg) → Sound registry tables (.call f args state)

variable {registry : Registry} {tables : List NodeId} {e x b : Expr}

theorem Sound.accepted (h : e.Sound registry tables) : e.Accepted := by
  induction h with
  | literal v => exact .literal v
  | column ref => exact .column ref
  | @field f _ => exact .field f
  | @subquery q _ => exact .subquery q
  | call _ harity _ ih => exact .call harity ih

theorem Sound.of_partOf (h : e.Sound registry tables) (hpart : x.PartOf e) :
    x.Sound registry tables := by
  induction hpart with
  | refl => exact h
  | arg harg _ ih =>
    cases h with
    | call _ _ hargs => exact ih (hargs _ harg)

/-- Conjuncts are parts. -/
theorem partOf_of_mem_conjuncts (h : x ∈ e.conjuncts) : x.PartOf e := by
  induction e using Expr.ind with
  | call f args state ih =>
    rw [conjuncts] at h
    split at h
    · rw [conjunctsOf_eq_flatMap] at h
      obtain ⟨arg, harg, hx⟩ := List.mem_flatMap.mp h
      exact .arg harg (ih arg harg hx)
    · rw [List.mem_singleton.mp h]
      exact .refl
  | literal v => rw [List.mem_singleton.mp h]; exact .refl
  | column ref => rw [List.mem_singleton.mp h]; exact .refl
  | field f => rw [List.mem_singleton.mp h]; exact .refl
  | subquery q => rw [List.mem_singleton.mp h]; exact .refl

/-- A sound expression is written for the shards as it is. -/
theorem Sound.checkExpr_eq_ok (h : e.Sound registry tables) : registry.checkExpr e = .ok () := by
  have hnone : Result.error? (registry.checkExpr e) = none := by
    rw [Registry.error?_checkExpr, List.findSome?_eq_none_iff]
    intro f hf
    obtain ⟨args, state, hpart⟩ := mem_functions_iff.mp hf
    cases h.of_partOf hpart with
    | call hnative _ _ =>
      exact Registry.rejection?_eq_none_iff.mpr (Registry.isNative_iff.mp hnative)
  obtain ⟨_, hcheck⟩ := Result.error?_eq_none_iff.mp hnone
  exact hcheck

theorem Sound.render_eq_ok (h : e.Sound registry tables) : registry.render e = .ok e.label := by
  rw [Registry.render, h.checkExpr_eq_ok]
  rfl

variable {resolve : ColumnRef → Except Failure BoundColumn}

/-- Binding keeps an expression sound, if columns resolve to the given tables. -/
theorem Sound.of_bind (h : e.Sound registry tables)
    (hresolve : ∀ ref f, resolve ref = .ok f → f.table ∈ tables) (hbind : bind resolve e = .ok b) :
    b.Sound registry tables := by
  refine bind_induction (motive := fun e b => e.Sound registry tables → b.Sound registry tables)
    ?literal ?column ?field ?call ?subquery hbind h
  case literal => exact fun v _ => .literal v
  case column => exact fun ref f hf _ => .field (hresolve ref f hf)
  case field => exact fun f hf => hf
  case subquery => exact fun q hq => hq
  case call =>
    intro f args bound state settled hargs _ hcall
    cases hcall with
    | call hnative harity hsound =>
      refine .call hnative (hargs.length_eq ▸ harity) fun b hb => ?_
      obtain ⟨arg, harg, hbound⟩ := exists_of_mem_right hargs hb
      exact hbound (hsound arg harg)

/-- A bound sound expression depends on no table but the given ones. -/
theorem Sound.mem_tables (h : b.Sound registry tables) (hbind : bind resolve e = .ok b)
    {id : NodeId} (hid : id ∈ b.tables) : id ∈ tables := by
  obtain ⟨leaf, hpart, hmem, hnot⟩ := exists_leaf_of_mem_tables hbind hid
  cases h.of_partOf hpart with
  | literal v => exact absurd hmem NodeSet.not_mem_empty
  | column ref => exact absurd hmem NodeSet.not_mem_empty
  | field hf => exact NodeSet.mem_singleton.mp hmem ▸ hf
  | subquery hq => exact hq id hmem
  | call => exact absurd rfl (hnot _ _ _)

end Expr

/-! ## §3. Predicates -/

section Predicates

variable {registry : Registry} {leaves : List (NodeId × TableLeaf)}

/-- The tables that a subquery refers to are leaves. -/
theorem mem_of_outerTables {names : List String} {outer set : NodeSet}
    (h : outerTables leaves outer names = .ok set) {id : NodeId} (hid : id ∈ set) :
    id ∈ outer ∨ id ∈ leaves.map (·.1) := by
  induction names generalizing outer with
  | nil =>
    obtain rfl := Except.ok.inj h
    exact .inl hid
  | cons name names ih =>
    rw [outerTables] at h
    split at h
    · next leaf hleaf =>
      have hmem : leaf ∈ leaves := (List.mem_filter.mp (hleaf ▸ List.mem_singleton_self leaf)).1
      rcases ih h with hnew | hmem'
      · rcases NodeSet.mem_insert.mp hnew with rfl | hold
        · exact .inr (List.mem_map_of_mem hmem)
        · exact .inl hold
      · exact .inr hmem'
    · cases h
    · cases h

mutual

/-- What is built is sound. -/
theorem ExprSpec.sound_of_build (hclosed : registry.Closed) :
    ∀ {spec : ExprSpec} {e : Expr}, ExprSpec.build registry leaves spec = .ok e →
      e.Sound registry (leaves.map (·.1))
  | .column text, e, h => by
    rw [ExprSpec.build] at h
    obtain rfl := Except.ok.inj h
    exact .column _
  | .value v, e, h => by
    rw [ExprSpec.build] at h
    obtain rfl := Except.ok.inj h
    exact .literal v
  | .call name args, e, h => by
    rw [ExprSpec.build] at h
    split at h
    · cases h
    · next built hbuilt =>
      obtain ⟨f, rfl, hnative, harity⟩ := hclosed.of_create (Result.of_mapError h)
      exact .call hnative harity (ExprSpec.sound_of_buildAll hclosed hbuilt)
  | .subquery label fieldType outer, e, h => by
    rw [ExprSpec.build] at h
    obtain ⟨set, hset, rfl⟩ := Result.exists_of_map h
    refine .subquery fun id hid => ?_
    rcases mem_of_outerTables hset hid with hempty | hmem
    · exact absurd hempty NodeSet.not_mem_empty
    · exact hmem

theorem ExprSpec.sound_of_buildAll (hclosed : registry.Closed) :
    ∀ {specs : List ExprSpec} {es : List Expr}, ExprSpec.buildAll registry leaves specs = .ok es →
      ∀ e ∈ es, e.Sound registry (leaves.map (·.1))
  | [], es, h, e, he => by
    rw [ExprSpec.buildAll] at h
    obtain rfl := Except.ok.inj h
    cases he
  | spec :: specs, es, h, e, he => by
    rw [ExprSpec.buildAll] at h
    split at h
    · cases h
    · next first hfirst =>
      split at h
      · cases h
      · next rest hrest =>
        obtain rfl := Except.ok.inj h
        rcases List.mem_cons.mp he with rfl | he
        · exact ExprSpec.sound_of_build hclosed hfirst
        · exact ExprSpec.sound_of_buildAll hclosed hrest e he

end

end Predicates

/-! ## §4. Scenarios -/

/-- The parts of a scenario that builds are built. -/
theorem Scenario.parts_of_build {scenario : Scenario} {built : BuiltScenario}
    (h : scenario.build = .ok built) :
    ∃ catalog, Registry.builtins.build scenario.functions = .ok built.registry ∧
      PlanTree.empty.build catalog scenario.plan = .ok (built.tree, built.root) ∧
      ExprSpec.buildAll built.registry (built.tree.leavesUnder built.root) scenario.predicates =
        .ok built.predicates := by
  obtain ⟨catalog, _, h⟩ := Result.exists_of_bind h
  obtain ⟨registry, hregistry, h⟩ := Result.exists_of_bind h
  obtain ⟨⟨tree, root⟩, htree, h⟩ := Result.exists_of_bind h
  obtain ⟨predicates, hpredicates, h⟩ := Result.exists_of_bind h
  obtain rfl := Except.ok.inj h
  exact ⟨catalog, hregistry, Result.of_mapError htree, hpredicates⟩

/-- The root of a scenario that builds is a node of its plan, and its predicates are sound. -/
theorem Scenario.of_build {scenario : Scenario} {built : BuiltScenario}
    (h : scenario.build = .ok built) :
    (∃ node, built.tree.node? built.root = some node) ∧
      ∀ p ∈ built.predicates, p.Sound built.registry (built.tree.tablesUnder built.root) := by
  obtain ⟨catalog, hregistry, htree, hpredicates⟩ := Scenario.parts_of_build h
  have hroot := (PlanTree.spans_of_build htree).root_lt
  have hclosed := (Registry.named_builtins.build hregistry).closed
  refine ⟨PlanTree.exists_node?_of_lt hroot, fun p hp => ?_⟩
  rw [← PlanTree.map_fst_leavesUnder]
  exact ExprSpec.sound_of_buildAll hclosed hpredicates p hp

/-- The leaves of the plan of a scenario that builds are those below its root, each on one path. -/
theorem Scenario.leaves_of_build {scenario : Scenario} {built : BuiltScenario}
    (h : scenario.build = .ok built) :
    (built.tree.tablesUnder built.root).Nodup ∧
      ∀ id, id ∈ built.tree.tablesUnder built.root ↔ (built.tree.leaf? id).isSome = true := by
  obtain ⟨_, _, htree, _⟩ := Scenario.parts_of_build h
  have hspans := PlanTree.spans_of_build htree
  refine ⟨hspans.nodup, fun id => ?_⟩
  rw [hspans.mem_iff, and_iff_right]
  exact Nat.zero_le id

end PushDown
