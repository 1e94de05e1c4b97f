import PushDown.Proofs.OuterJoin

/-! # Predicates on rows of nulls

    A left join puts rows of `NULL`s beside what does not match. A predicate on
    the table to its right is true of such a row or it is not, by the
    three-valued logic of queries. If it is, it must not be evaluated below the
    join.

    The policy does not evaluate. It keeps a predicate at the join if and only
    if `IS NULL` or `<=>` occurs in it, whatever stands around them. A predicate
    without either can be true of a row of `NULL`s in two ways: from
    `IS NOT NULL` turned round by another operator, or from an operand of `AND`
    or `OR` in which no column occurs. `Expr.Guarded` excludes both. A guarded
    predicate that is true of the row is kept.
-/

namespace PushDown

/-! ## §1. Three-valued logic -/

/-- An integer, or `NULL`. Predicates have integers for values too: zero is false, and everything else
    is true. -/
abbrev Datum := Option Int

namespace Datum

/-- Whether the value is true: it is neither false nor `NULL`. -/
def isTrue : Datum → Bool
  | some n => n != 0
  | none => false

/-- The value of what is true or false. -/
def ofBool (b : Bool) : Datum :=
  some (if b then 1 else 0)

/-- A relation of two values, `NULL` if one of them is. -/
def relate (r : Int → Int → Bool) : Datum → Datum → Datum
  | some m, some n => ofBool (r m n)
  | _, _ => none

/-- False if some value is, or else `NULL` if some value is. -/
def conj (values : List Datum) : Datum :=
  if some 0 ∈ values then ofBool false
  else if none ∈ values then none
  else ofBool true

/-- True if some value is, or else `NULL` if some value is. -/
def disj (values : List Datum) : Datum :=
  if values.any isTrue then ofBool true
  else if none ∈ values then none
  else ofBool false

theorem relate_eq_none {r : Int → Int → Bool} {a b : Datum} (h : none ∈ [a, b]) :
    relate r a b = none := by
  rcases List.mem_pair.mp h with rfl | rfl
  · rfl
  · cases a <;> rfl

/-- A conjunction is true only if every value is. -/
theorem isTrue_of_isTrue_conj {values : List Datum} (h : (conj values).isTrue = true) {d : Datum}
    (hd : d ∈ values) : d.isTrue = true := by
  unfold conj at h
  split at h
  · simp [isTrue, ofBool] at h
  · next hfalse =>
    split at h
    · simp [isTrue] at h
    · next hnull =>
      cases d with
      | none => exact absurd hd hnull
      | some n =>
        have hne : n ≠ 0 := by
          rintro rfl
          exact hfalse hd
        simpa [isTrue] using hne

/-- A disjunction is true only if some value is. -/
theorem exists_isTrue_of_isTrue_disj {values : List Datum} (h : (disj values).isTrue = true) :
    ∃ d ∈ values, d.isTrue = true := by
  unfold disj at h
  split at h
  · next hany => exact List.any_eq_true.mp hany
  · split at h
    · simp [isTrue] at h
    · simp [isTrue, ofBool] at h

theorem conj_eq_none {values : List Datum} (hne : values ≠ []) (h : ∀ d ∈ values, d = none) :
    conj values = none := by
  obtain ⟨d, hd⟩ := List.exists_mem_of_ne_nil values hne
  have hnull : none ∈ values := h d hd ▸ hd
  have hfalse : ¬ some 0 ∈ values := fun hmem => nomatch h _ hmem
  rw [conj, if_neg hfalse, if_pos hnull]

theorem disj_eq_none {values : List Datum} (hne : values ≠ []) (h : ∀ d ∈ values, d = none) :
    disj values = none := by
  obtain ⟨d, hd⟩ := List.exists_mem_of_ne_nil values hne
  have hnull : none ∈ values := h d hd ▸ hd
  have htrue : ¬ values.any isTrue = true := by
    rw [List.any_eq_true]
    rintro ⟨d, hd, htrue⟩
    rw [h d hd] at htrue
    cases htrue
  rw [disj, if_neg htrue, if_pos hnull]

end Datum

namespace Builtin

/-- Comparisons, null tests and connectives. -/
def isLogical : Builtin → Bool
  | eq | ne | lt | le | gt | ge | nullSafeEq | isNull | isNotNull | and | or | xor | not => true
  | _ => false

/-- The relation that a comparison of two values tests. Truth values are compared by `XOR`. -/
def relation? : Builtin → Option (Int → Int → Bool)
  | eq => some (· == ·)
  | ne => some (· != ·)
  | lt => some (· < ·)
  | le => some (· ≤ ·)
  | gt => some (· > ·)
  | ge => some (· ≥ ·)
  | xor => some fun m n => (m != 0) != (n != 0)
  | _ => none

/-- The value of a call, from the values of its arguments. Functions that are not logical have no
    value here. -/
def value (f : Builtin) (args : List Datum) : Datum :=
  match f, args with
  | and, args => .conj args
  | or, args => .disj args
  | not, [a] => a.map fun n => if n = 0 then 1 else 0
  | isNull, [a] => .ofBool a.isNone
  | isNotNull, [a] => .ofBool a.isSome
  | nullSafeEq, [a, b] => .ofBool (a == b)
  | f, [a, b] =>
    match f.relation? with
    | some r => .relate r a b
    | none => none
  | _, _ => none

/-- Comparisons, `XOR` and `NOT` are `NULL` when some argument is. -/
theorem value_eq_none {f : Builtin} {args : List Datum} (h : none ∈ args)
    (hnull : f ≠ isNull ∧ f ≠ isNotNull ∧ f ≠ nullSafeEq) (hconn : f ≠ and ∧ f ≠ or) :
    f.value args = none := by
  obtain ⟨hisNull, hisNotNull, hsafe⟩ := hnull
  obtain ⟨hand, hor⟩ := hconn
  unfold value
  -- what is left is `NOT`, and the functions that test a relation
  split
  · exact absurd rfl hand
  · exact absurd rfl hor
  · obtain rfl := List.mem_singleton.mp h
    rfl
  · exact absurd rfl hisNull
  · exact absurd rfl hisNotNull
  · exact absurd rfl hsafe
  · split
    · exact Datum.relate_eq_none h
    · rfl
  · rfl

/-- The null tests among the logical functions are `IS NULL` and `<=>`. -/
theorem nullTest_ownFacts_iff {f : Builtin} (h : f.isLogical = true) :
    f.ownFacts.nullTest = true ↔ f = isNull ∨ f = nullSafeEq := by
  cases f <;> simp_all [isLogical, ownFacts, Facts.none]

theorem aggregate_ownFacts {f : Builtin} (h : f.isLogical = true) : f.ownFacts.aggregate = false := by
  cases f <;> first | rfl | cases h

end Builtin

/-! ## §2. Logical expressions -/

namespace Expr

/-- Columns, integers, and calls of logical functions with as many arguments as they accept. -/
inductive Logical : Expr → Prop
  | int (n : Int) : Logical (.literal (.int n))
  | column (ref : ColumnRef) : Logical (.column ref)
  | field (f : BoundColumn) : Logical (.field f)
  | call {f : Builtin} {args : List Expr} {state : CallState} :
      f.isLogical = true → f.arity.accepts args.length = true → (∀ arg ∈ args, Logical arg) →
      Logical (.call (.builtin f) args state)

theorem Logical.unary {f : Builtin} {a : Expr} {state : CallState} (hf : f.isLogical = true)
    (harity : f.arity.accepts 1 = true) (ha : a.Logical) :
    (Expr.call (.builtin f) [a] state).Logical :=
  .call hf harity (List.forall_mem_singleton.mpr ha)

theorem Logical.binary {f : Builtin} {a b : Expr} {state : CallState} (hf : f.isLogical = true)
    (harity : f.arity.accepts 2 = true) (ha : a.Logical) (hb : b.Logical) :
    (Expr.call (.builtin f) [a, b] state).Logical :=
  .call hf harity (List.forall_mem_cons.mpr ⟨ha, List.forall_mem_singleton.mpr hb⟩)

mutual

/-- The value of a bound logical expression on a row. -/
def eval (row : BoundColumn → Datum) : Expr → Datum
  | literal (.int n) => some n
  | field f => row f
  | call (.builtin f) args _ => f.value (evalAll row args)
  | _ => none

/-- The values of the expressions of a list. -/
def evalAll (row : BoundColumn → Datum) : List Expr → List Datum
  | [] => []
  | e :: es => eval row e :: evalAll row es

end

theorem evalAll_eq_map (row : BoundColumn → Datum) (es : List Expr) :
    evalAll row es = es.map (eval row) := by
  induction es with
  | nil => rfl
  | cons e es ih => simp [evalAll, ih]

/-- Binding leaves an expression logical. -/
theorem Logical.of_bind {resolve : ColumnRef → Except Failure BoundColumn} {e b : Expr}
    (h : e.Logical) (hbind : bind resolve e = .ok b) : b.Logical := by
  refine bind_induction (motive := fun e b => e.Logical → b.Logical)
    ?literal ?column ?field ?call ?subquery hbind h
  case column => exact fun _ field _ _ => .field field
  case call =>
    intro f args bound state settled hargs _ h
    cases h with
    | call hf harity hlogical =>
      refine .call hf (hargs.length_eq ▸ harity) fun arg harg => ?_
      obtain ⟨e, he, himp⟩ := exists_of_mem_right hargs harg
      exact himp (hlogical e he)
  all_goals exact fun _ h => h

/-- The parts of a logical expression are logical. -/
theorem Logical.of_partOf {x b : Expr} (h : b.Logical) (hpart : x.PartOf b) : x.Logical := by
  induction hpart with
  | refl => exact h
  | arg harg _ ih =>
    cases h with
    | call _ _ hlogical => exact ih (hlogical _ harg)

/-- `IS NULL` or `<=>` occurs in the expression. -/
def TestsNull (b : Expr) : Prop :=
  ∃ f args state, (call (.builtin f) args state).PartOf b ∧ (f = .isNull ∨ f = .nullSafeEq)

/-- A column occurs in the expression. -/
def HasColumn (b : Expr) : Prop :=
  ∃ f, (field f).PartOf b

section Bound

variable {resolve : ColumnRef → Except Failure BoundColumn} {e b : Expr}

/-- A bound logical expression counts as a null test when `IS NULL` or `<=>` occurs in it. -/
theorem Logical.nullTest_iff (h : e.Logical) (hbind : bind resolve e = .ok b) :
    b.facts.nullTest = true ↔ b.TestsNull := by
  have hlogical := h.of_bind hbind
  rw [fact_of_bind Facts.nullTest (fun _ _ => rfl) rfl rfl hbind]
  constructor
  · rintro ⟨f, args, state, hpart, hfact⟩
    cases hlogical.of_partOf hpart with
    | call hf _ _ => exact ⟨_, args, state, hpart, (Builtin.nullTest_ownFacts_iff hf).mp hfact⟩
  · rintro ⟨f, args, state, hpart, hf⟩
    cases hlogical.of_partOf hpart with
    | call hlog _ _ => exact ⟨_, args, state, hpart, (Builtin.nullTest_ownFacts_iff hlog).mpr hf⟩

/-- A logical expression has no aggregate in it. -/
theorem Logical.aggregate_eq_false (h : e.Logical) (hbind : bind resolve e = .ok b) :
    b.facts.aggregate = false := by
  have hlogical := h.of_bind hbind
  rw [Bool.eq_false_iff, Ne, fact_of_bind Facts.aggregate (fun _ _ => rfl) rfl rfl hbind]
  rintro ⟨f, args, state, hpart, hfact⟩
  cases hlogical.of_partOf hpart with
  | call hf _ _ =>
    have hnone := Builtin.aggregate_ownFacts hf
    rw [Func.ownFacts, hnone] at hfact
    cases hfact

/-- A bound logical expression that depends on some table has a column. -/
theorem Logical.hasColumn (h : e.Logical) (hbind : bind resolve e = .ok b) {id : NodeId}
    (hid : id ∈ b.tables) : b.HasColumn := by
  obtain ⟨x, hpart, hx, hleaf⟩ := exists_leaf_of_mem_tables hbind hid
  cases (h.of_bind hbind).of_partOf hpart with
  | int n => exact absurd hx NodeSet.not_mem_empty
  | column ref => exact absurd hx NodeSet.not_mem_empty
  | field f => exact ⟨f, hpart⟩
  | call _ _ _ => exact absurd rfl (hleaf _ _ _)

end Bound

/-! ## §3. Guarded expressions -/

/-- No `IS NOT NULL` occurs in the expression, and in every operand of `AND` and `OR` a column does. -/
inductive Plain : Expr → Prop
  | int (n : Int) : Plain (.literal (.int n))
  | field (f : BoundColumn) : Plain (.field f)
  | call {f : Builtin} {args : List Expr} {state : CallState} :
      f ≠ .isNotNull → (f = .and ∨ f = .or → ∀ arg ∈ args, arg.HasColumn) →
      (∀ arg ∈ args, Plain arg) → Plain (.call (.builtin f) args state)

/-- `IS NOT NULL` occurs only as an operand of `AND` and `OR`, or at the top, and in every operand of
    these a column occurs. -/
inductive Guarded : Expr → Prop
  | plain {e : Expr} : e.Plain → Guarded e
  | isNotNull {arg : Expr} {state : CallState} :
      arg.Plain → Guarded (.call (.builtin .isNotNull) [arg] state)
  | connective {f : Builtin} {args : List Expr} {state : CallState} :
      f = .and ∨ f = .or → (∀ arg ∈ args, arg.HasColumn) → (∀ arg ∈ args, Guarded arg) →
      Guarded (.call (.builtin f) args state)

theorem TestsNull.of_mem {f : Func} {args : List Expr} {state : CallState} {arg : Expr}
    (h : arg.TestsNull) (harg : arg ∈ args) : (call f args state).TestsNull := by
  obtain ⟨g, brgs, inner, hpart, hg⟩ := h
  exact ⟨g, brgs, inner, .arg harg hpart, hg⟩

theorem HasColumn.exists_mem {f : Func} {args : List Expr} {state : CallState}
    (h : (call f args state).HasColumn) : ∃ arg ∈ args, arg.HasColumn := by
  obtain ⟨field, hpart⟩ := h
  rcases partOf_call_iff.mp hpart with heq | ⟨arg, harg, hpart⟩
  · simp at heq
  · exact ⟨arg, harg, field, hpart⟩

section NullRow

variable {row : BoundColumn → Datum} {b : Expr}

/-- Without null tests, a plain expression with a column is `NULL` on a row of `NULL`s. -/
theorem Plain.eval_eq_none (h : b.Plain) (hrow : ∀ f, (Expr.field f).PartOf b → row f = none)
    (htests : ¬ b.TestsNull) (hcolumn : b.HasColumn) : b.eval row = none := by
  induction h with
  | int n =>
    obtain ⟨f, hpart⟩ := hcolumn
    cases hpart
  | field f => exact hrow f .refl
  | @call f args state hnot hoperands _ ih =>
    have harg : ∀ arg ∈ args, arg.HasColumn → arg.eval row = none := fun arg hmem hcol =>
      ih arg hmem (fun f hpart => hrow f (.arg hmem hpart)) (fun h => htests (h.of_mem hmem)) hcol
    have hself : ¬ (f = .isNull ∨ f = .nullSafeEq) := fun hf => htests ⟨f, args, state, .refl, hf⟩
    obtain ⟨arg, hmem, hcol⟩ := hcolumn.exists_mem
    rw [eval, evalAll_eq_map]
    by_cases hconn : f = .and ∨ f = .or
    · -- every operand is `NULL`
      have hnull : ∀ d ∈ args.map (eval row), d = none := by
        intro d hd
        obtain ⟨arg, hmem, rfl⟩ := List.mem_map.mp hd
        exact harg arg hmem (hoperands hconn arg hmem)
      have hne : args.map (eval row) ≠ [] := List.ne_nil_of_mem (List.mem_map_of_mem hmem)
      rcases hconn with rfl | rfl
      · exact Datum.conj_eq_none hne hnull
      · exact Datum.disj_eq_none hne hnull
    · -- one operand is `NULL`, and the function passes it on
      have hnull : none ∈ args.map (eval row) := List.mem_map.mpr ⟨arg, hmem, harg arg hmem hcol⟩
      rw [not_or] at hself hconn
      exact Builtin.value_eq_none hnull ⟨hself.1, hnot, hself.2⟩ hconn

/-- Without null tests, a guarded expression with a column is not true of a row of `NULL`s. -/
theorem Guarded.isTrue_eval (h : b.Guarded) (hrow : ∀ f, (Expr.field f).PartOf b → row f = none)
    (htests : ¬ b.TestsNull) (hcolumn : b.HasColumn) : ¬ (b.eval row).isTrue = true := by
  induction h with
  | plain hplain =>
    rw [hplain.eval_eq_none hrow htests hcolumn]
    decide
  | @isNotNull arg state hplain =>
    obtain ⟨x, hmem, hcol⟩ := hcolumn.exists_mem
    obtain rfl := List.mem_singleton.mp hmem
    have hnull : x.eval row = none :=
      hplain.eval_eq_none (fun f hpart => hrow f (.arg hmem hpart))
        (fun h => htests (h.of_mem hmem)) hcol
    rw [eval, evalAll_eq_map, List.map_singleton, hnull]
    decide
  | @connective f args state hf hoperands _ ih =>
    have harg : ∀ arg ∈ args, ¬ (arg.eval row).isTrue = true := fun arg hmem =>
      ih arg hmem (fun f hpart => hrow f (.arg hmem hpart)) (fun h => htests (h.of_mem hmem))
        (hoperands arg hmem)
    obtain ⟨arg, hmem, _⟩ := hcolumn.exists_mem
    rw [eval, evalAll_eq_map]
    intro htrue
    rcases hf with rfl | rfl
    · have hall := Datum.isTrue_of_isTrue_conj htrue (List.mem_map_of_mem hmem)
      exact harg arg hmem hall
    · obtain ⟨d, hd, hsome⟩ := Datum.exists_isTrue_of_isTrue_disj htrue
      obtain ⟨x, hx, rfl⟩ := List.mem_map.mp hd
      exact harg x hx hsome

end NullRow

end Expr

/-! ## §4. Left joins -/

namespace Plan

/-- At a left join, a predicate of logical functions on the table to its right stays if and only if
    `IS NULL` or `<=>` occurs in it. So it stays if it is guarded and true of a row of `NULL`s. -/
theorem owner_of_logical {plan : Plan} {id left table : NodeId} {restricted : Bool} {e b : Expr}
    (hjoin : plan.tree.node? id = some (.join .leftOuter left table)) (hlogical : e.Logical)
    (hconj : e.conjuncts = [e]) (hbind : plan.tree.bind id e = .ok b)
    (htables : b.tables = .singleton table) :
    ∃ owner plan', plan.clear.planFilter id restricted e = (.ok [⟨b, owner⟩], plan') ∧
      (b.TestsNull → owner = id) ∧ (¬ b.TestsNull → owner = table) ∧
      ∀ row : BoundColumn → Datum, (∀ f, f.table = table → row f = none) →
        b.Guarded → (b.eval row).isTrue = true → owner = id := by
  let site : Site := ⟨id, .join .leftOuter left table, restricted⟩
  have hextends : site.extends? table = true := by simp [site, Site.extends?]
  have htable : table ∈ b.tables := by rw [htables]; exact NodeSet.mem_singleton.mpr rfl
  have hsubquery : ∀ q, b ≠ .subquery q := by
    rintro q rfl
    cases hlogical.of_bind hbind
  have howner : site.owner? b = some (if b.facts.nullTest = true then site.id else table) := by
    rw [Site.owner?_of_oneTable hsubquery (hlogical.aggregate_eq_false hbind) htables, hextends,
      Bool.and_true]
  obtain ⟨plan', hplanned⟩ := exists_planFilter_alone site hjoin hconj hbind
  rw [howner, Option.getD_some] at hplanned
  have hnull := hlogical.nullTest_iff hbind
  have hstays : b.TestsNull → (if b.facts.nullTest = true then site.id else table) = id :=
    fun htests => if_pos (hnull.mpr htests)
  refine ⟨_, plan', hplanned, hstays, fun htests => if_neg (htests ∘ hnull.mp), ?_⟩
  intro row hrow hguarded htrue
  by_cases htests : b.TestsNull
  · exact hstays htests
  · -- without a null test it would not be true: every column in it is one of the table
    have hcolumns : ∀ f, (Expr.field f).PartOf b → row f = none := by
      intro f hpart
      have hmem := Expr.tables_of_bind hbind hpart (NodeSet.mem_singleton.mpr rfl)
      rw [htables] at hmem
      exact hrow f (NodeSet.mem_singleton.mp hmem)
    exact absurd htrue (hguarded.isTrue_eval hcolumns htests (hlogical.hasColumn hbind htable))

namespace Shop

/-- `orders.amount IS NULL OR orders.amount > 5` is true of a row of `NULL`s, and stays at the join. -/
theorem owner_of_logical_join :
    ∃ b owner plan',
      plan.tree.bind 2 (.or (.isNull (.field amount)) (.gt (.field amount) (.literal (.int 5)))) =
          .ok b ∧
        b.tables = .singleton 1 ∧ b.Guarded ∧ (b.eval fun _ => none).isTrue = true ∧
        plan.clear.planFilter 2 false
          (.or (.isNull (.field amount)) (.gt (.field amount) (.literal (.int 5)))) =
            (.ok [⟨b, owner⟩], plan') ∧
        owner = 2 := by
  have hlogical : (Expr.or (.isNull (.field amount))
      (.gt (.field amount) (.literal (.int 5)))).Logical :=
    .binary rfl rfl (.unary rfl rfl (.field amount)) (.binary rfl rfl (.field amount) (.int 5))
  obtain ⟨b, hbind, htables, hguarded, htrue⟩ : ∃ b,
      plan.tree.bind 2 (.or (.isNull (.field amount)) (.gt (.field amount) (.literal (.int 5)))) =
          .ok b ∧
        b.tables = .singleton 1 ∧ b.Guarded ∧ (b.eval fun _ => none).isTrue = true := by
    have hcolumn : ∀ f args state,
        (Expr.call f (.field amount :: args) state).HasColumn := fun f args state =>
      ⟨amount, .arg List.mem_cons_self .refl⟩
    refine ⟨_, rfl, rfl, .connective (.inr rfl) ?_ ?_, rfl⟩
    · exact List.forall_mem_cons.mpr ⟨hcolumn _ _ _, List.forall_mem_singleton.mpr (hcolumn _ _ _)⟩
    · refine List.forall_mem_cons.mpr ⟨.plain ?_, List.forall_mem_singleton.mpr (.plain ?_)⟩
      · exact .call (by decide) (by simp) (List.forall_mem_singleton.mpr (.field amount))
      · exact .call (by decide) (by simp)
          (List.forall_mem_cons.mpr ⟨.field amount, List.forall_mem_singleton.mpr (.int 5)⟩)
  obtain ⟨owner, plan', hplanned, _, _, hkept⟩ :=
    owner_of_logical rfl hlogical rfl hbind htables
  exact ⟨b, owner, plan', hbind, htables, hguarded, htrue, hplanned,
    hkept (fun _ => none) (fun _ _ => rfl) hguarded htrue⟩

/-- Planned at the join, the predicate goes to `orders`, although it is true of a row of `NULL`s. -/
def Sinks (e : Expr) : Prop :=
  e.Logical ∧ e.conjuncts = [e] ∧ ∃ b plan', plan.tree.bind 2 e = .ok b ∧
    b.tables = .singleton 1 ∧ (b.eval fun _ => none).isTrue = true ∧
    plan.clear.planFilter 2 false e = (.ok [⟨b, 1⟩], plan')

theorem sinks_of_owner? {e : Expr} (hlogical : e.Logical) (hconj : e.conjuncts = [e])
    (h : ∃ b, plan.tree.bind 2 e = .ok b ∧ b.tables = .singleton 1 ∧
      (b.eval fun _ => none).isTrue = true ∧
      Site.owner? ⟨2, .join .leftOuter 0 1, false⟩ b = some 1) : Sinks e := by
  obtain ⟨b, hbind, htables, htrue, howner⟩ := h
  obtain ⟨plan', hplanned⟩ :=
    exists_planFilter_alone ⟨2, .join .leftOuter 0 1, false⟩ rfl hconj hbind
  rw [howner] at hplanned
  exact ⟨hlogical, hconj, b, plan', hbind, htables, htrue, hplanned⟩

/-- `NOT (orders.amount IS NOT NULL)` sinks, and so does `orders.amount = 1 OR 1 = 1`. -/
theorem true_of_nulls_sinks :
    Sinks (.not (.isNotNull (.columnNamed "amount"))) ∧
      Sinks (.or (.eq (.columnNamed "amount") (.literal (.int 1)))
        (.eq (.literal (.int 1)) (.literal (.int 1)))) := by
  have hcolumn : (Expr.columnNamed "amount").Logical := .column _
  constructor
  · have hlogical : (Expr.not (.isNotNull (.columnNamed "amount"))).Logical :=
      .unary rfl rfl (.unary rfl rfl hcolumn)
    exact sinks_of_owner? hlogical rfl ⟨_, by cbv, by cbv, by cbv, by cbv⟩
  · have hlogical : (Expr.or (.eq (.columnNamed "amount") (.literal (.int 1)))
        (.eq (.literal (.int 1)) (.literal (.int 1)))).Logical :=
      .binary rfl rfl (.binary rfl rfl hcolumn (.int 1)) (.binary rfl rfl (.int 1) (.int 1))
    exact sinks_of_owner? hlogical rfl ⟨_, by cbv, by cbv, by cbv, by cbv⟩

end Shop

end Plan

end PushDown
