import PushDown.Proofs.Inference
import PushDown.Proofs.Rebinding
import PushDown.Proofs.Resolution

/-! # Columns decide what binding answers

    Binding an expression is resolving its columns. It succeeds when all of them
    resolve, and the first one that does not, from left to right, decides the
    failure (`bindWith_eq_error_iff`). Inference has no say in this as long as
    every call has a count of arguments that its function accepts. Calls that are
    made through a registry do; one that is not can make inference look for an
    argument that is not there (`bind_broken_ifNullAmount`).

    The answer has the shape of the expression, with columns in place of their
    references (`BoundTo`). What is known of it, and of everything in it, is
    what is known of its leaves and functions, taken together (`SumOfParts`).
-/

namespace PushDown

/-- No function contains a subquery by itself. -/
theorem Func.subquery_ownFacts (f : Func) : f.ownFacts.subquery = false := by
  cases f with
  | builtin f => cases f <;> rfl
  | user declaration => rfl

namespace Expr

variable {resolve : ColumnRef → Except Failure BoundColumn} {e b x : Expr} {failure : Failure}

/-! ## §1. Columns -/

mutual

/-- The column references in the expression, left to right. -/
def columns : Expr → List ColumnRef
  | column ref => [ref]
  | call _ args _ => columnsOf args
  | literal _ | field _ | subquery _ => []

/-- The column references in a list of expressions. -/
def columnsOf : List Expr → List ColumnRef
  | [] => []
  | e :: es => columns e ++ columnsOf es

end

theorem columnsOf_eq_flatMap (es : List Expr) : columnsOf es = es.flatMap columns := by
  induction es with
  | nil => rfl
  | cons e es ih => rw [columnsOf, ih, List.flatMap_cons]

/-- Why a reference does not resolve, if it does not. -/
def failure? (resolve : ColumnRef → Except Failure BoundColumn) (ref : ColumnRef) : Option Failure :=
  match resolve ref with
  | .ok _ => none
  | .error failure => some failure

theorem failure?_eq_some_iff {ref : ColumnRef} :
    failure? resolve ref = some failure ↔ resolve ref = .error failure := by
  unfold failure?
  cases resolve ref with
  | ok f => simp
  | error found => simp

theorem failure?_eq_none_iff {ref : ColumnRef} :
    failure? resolve ref = none ↔ ∃ f, resolve ref = .ok f := by
  unfold failure?
  cases resolve ref with
  | ok f => simp
  | error found => simp

/-- The failure is that of the first reference that does not resolve. -/
def FirstFailure (resolve : ColumnRef → Except Failure BoundColumn) (refs : List ColumnRef)
    (failure : Failure) : Prop :=
  ∃ before ref after, refs = before ++ ref :: after ∧ (∀ r ∈ before, ∃ f, resolve r = .ok f) ∧
    resolve ref = .error failure

theorem firstFailure_iff {refs : List ColumnRef} :
    FirstFailure resolve refs failure ↔ refs.findSome? (failure? resolve) = some failure := by
  simp only [List.findSome?_eq_some_iff, FirstFailure, failure?_eq_some_iff, failure?_eq_none_iff]
  constructor
  · rintro ⟨before, ref, after, hrefs, hbefore, href⟩
    exact ⟨before, ref, after, hrefs, href, hbefore⟩
  · rintro ⟨before, ref, after, hrefs, href, hbefore⟩
    exact ⟨before, ref, after, hrefs, hbefore, href⟩

/-! ## §2. Failures -/

/-- If each expression of a list fails with its first column, so does the list. -/
theorem bindAllWith_eq_error_iff {es : List Expr}
    (h : ∀ e ∈ es, ∀ failure, bindWith resolve e = .error failure ↔
      e.columns.findSome? (failure? resolve) = some failure) :
    bindAllWith resolve es = .error failure ↔
      (columnsOf es).findSome? (failure? resolve) = some failure := by
  induction es with
  | nil => simp [bindAllWith, columnsOf]
  | cons e es ih =>
    have hes := ih fun x hx => h x (List.mem_cons_of_mem e hx)
    rw [bindAllWith, columnsOf, List.findSome?_append]
    cases he : bindWith resolve e with
    | error found =>
      -- what comes after is not looked at
      have hfound := (h e List.mem_cons_self found).mp he
      simp [hfound]
    | ok b =>
      -- no column of `e` fails, so what comes after decides
      have hnone : e.columns.findSome? (failure? resolve) = none := by
        refine Option.eq_none_iff_forall_ne_some.mpr fun found hfound => ?_
        have herror := (h e List.mem_cons_self found).mpr hfound
        rw [he] at herror
        cases herror
      rw [hnone, Option.none_or, ← hes]
      cases bindAllWith resolve es with
      | error found => simp
      | ok bs => simp

/-- Binding fails with the first column that does not resolve, and in no other way. -/
theorem bindWith_eq_error_iff (he : e.Accepted) :
    bindWith resolve e = .error failure ↔
      e.columns.findSome? (failure? resolve) = some failure := by
  -- along the expression; only a column fails by itself
  induction he generalizing failure with
  | literal v => simp [bindWith, columns]
  | field f => simp [bindWith, columns]
  | subquery q => simp [bindWith, columns]
  | column ref =>
    simp only [columns, List.findSome?_singleton, failure?_eq_some_iff, bindWith]
    cases resolve ref with
    | ok f => simp [Except.map]
    | error found => simp [Except.map]
  | @call f args state harity _ ih =>
    have hargs : ∀ failure, bindAllWith resolve args = .error failure ↔
        (columnsOf args).findSome? (failure? resolve) = some failure :=
      fun failure => bindAllWith_eq_error_iff fun arg harg _ => ih arg harg
    rw [columns, ← hargs failure, bindWith]
    cases hbound : bindAllWith resolve args with
    | error found => simp
    | ok bound =>
      -- bound arguments are as many as before, so the call is settled
      have hfixed := isFixed_of_bindAllWith hbound
      have hlength := (bindAllWith_eq_ok_iff.mp hbound).length_eq
      obtain ⟨settled, hsettle⟩ := exists_settle (hlength ▸ harity) hfixed (.fresh f)
      simp only [fix_apply hfixed, hsettle]
      simp

theorem bind_eq_error_iff (he : e.Accepted) :
    bind resolve e = .error failure ↔ FirstFailure resolve e.columns failure := by
  rw [bind_eq_bindWith, firstFailure_iff, bindWith_eq_error_iff he]

/-- Binding succeeds when every column resolves. -/
theorem exists_bind_eq_ok_iff (he : e.Accepted) :
    (∃ b, bind resolve e = .ok b) ↔ ∀ ref ∈ e.columns, ∃ f, resolve ref = .ok f := by
  have herror : ∀ failure, bindWith resolve e = .error failure ↔
      e.columns.findSome? (failure? resolve) = some failure := fun _ => bindWith_eq_error_iff he
  have hnone : (∀ ref ∈ e.columns, ∃ f, resolve ref = .ok f) ↔
      e.columns.findSome? (failure? resolve) = none := by
    simp only [List.findSome?_eq_none_iff, failure?_eq_none_iff]
  rw [hnone, bind_eq_bindWith]
  cases hbind : bindWith resolve e with
  | ok b =>
    refine iff_of_true ⟨b, rfl⟩ (Option.eq_none_iff_forall_ne_some.mpr fun found hfound => ?_)
    have hfailed := (herror found).mpr hfound
    rw [hbind] at hfailed
    cases hfailed
  | error found =>
    have hfound := (herror found).mp hbind
    simp [hfound]

/-! ## §3. Shape -/

/-- The second expression is the first with every column reference replaced by the column that it
    resolves to. The state of calls plays no part. -/
inductive BoundTo (resolve : ColumnRef → Except Failure BoundColumn) : Expr → Expr → Prop
  | literal (v : Value) : BoundTo resolve (.literal v) (.literal v)
  | column {ref : ColumnRef} {f : BoundColumn} :
      resolve ref = .ok f → BoundTo resolve (.column ref) (.field f)
  | field (f : BoundColumn) : BoundTo resolve (.field f) (.field f)
  | call {f : Func} {args bound : List Expr} {state settled : CallState} :
      List.Forall₂ (BoundTo resolve) args bound →
      BoundTo resolve (.call f args state) (.call f bound settled)
  | subquery (q : Subquery) : BoundTo resolve (.subquery q) (.subquery q)

theorem boundTo_of_bind (h : bind resolve e = .ok b) : BoundTo resolve e b :=
  bind_induction (motive := BoundTo resolve) .literal (fun _ _ hresolve => .column hresolve) .field
    (fun _ _ _ _ _ hargs _ => .call hargs) .subquery h

/-- No column is left to resolve in what is settled. -/
theorem Settled.not_column (h : b.Settled) (ref : ColumnRef) : ¬ (column ref).PartOf b := by
  intro hpart
  cases h.of_partOf hpart

/-! ## §4. Facts and tables -/

/-- Some function in the expression has the fact by itself. -/
def Contributes (fact : Facts → Bool) (e : Expr) : Prop :=
  ∃ f args state, (call f args state).PartOf e ∧ fact f.ownFacts = true

/-- The expression is fixed. Its tables are those of the columns and subqueries in it, and its facts
    are those of the functions and subqueries in it. -/
structure SumOfParts (e : Expr) : Prop where
  fixed     : e.isFixed = true
  tables    : ∀ id, id ∈ e.tables ↔
    (∃ f, (field f).PartOf e ∧ f.table = id) ∨ ∃ q, (Expr.subquery q).PartOf e ∧ id ∈ q.outer
  subquery  : e.facts.subquery = true ↔ ∃ q, (Expr.subquery q).PartOf e
  aggregate : e.facts.aggregate = true ↔ e.Contributes (·.aggregate)
  nullTest  : e.facts.nullTest = true ↔ e.Contributes (·.nullTest)
  volatile  : e.facts.volatile = true ↔ e.Contributes (·.volatile)

theorem Settled.subquery_iff (h : b.Settled) :
    b.facts.subquery = true ↔ ∃ q, (Expr.subquery q).PartOf b := by
  induction h with
  | literal v =>
    refine iff_of_false (by simp [facts, Facts.none]) ?_
    rintro ⟨q, hpart⟩
    cases hpart
  | field f =>
    refine iff_of_false (by simp [facts, Facts.none]) ?_
    rintro ⟨q, hpart⟩
    cases hpart
  | subquery q => exact iff_of_true rfl ⟨q, .refl⟩
  | @call f args state _ hsettle ih =>
    -- the fact comes from an argument, as no function has it
    show state.facts.subquery = true ↔ _
    rw [(of_settle hsettle).2.1, fact_factsOf_iff (·.subquery) (fun _ _ => rfl), f.subquery_ownFacts]
    constructor
    · rintro (hown | ⟨arg, harg, hfact⟩)
      · cases hown
      · obtain ⟨q, hpart⟩ := (ih arg harg).mp hfact
        exact ⟨q, .arg harg hpart⟩
    · rintro ⟨q, hpart⟩
      rcases partOf_call_iff.mp hpart with heq | ⟨arg, harg, hpart⟩
      · cases heq
      · exact .inr ⟨arg, harg, (ih arg harg).mpr ⟨q, hpart⟩⟩

/-- Everything in a bound expression is the sum of its parts. -/
theorem sumOfParts_of_bind (h : bind resolve e = .ok b) (hpart : x.PartOf b) : x.SumOfParts := by
  have hx : x.Settled := (settled_of_bind h).of_partOf hpart
  -- what is known of bound expressions is known of `x`, which is bound to itself
  have hself : bind resolve x = .ok x := hx.bind_eq
  refine ⟨hx.isFixed, fun id => ?_, hx.subquery_iff, ?_, ?_, ?_⟩
  · constructor
    · intro hid
      obtain ⟨leaf, hleaf, hmem, hnot⟩ := exists_leaf_of_mem_tables hself hid
      cases hx.of_partOf hleaf with
      | literal v => exact absurd hmem NodeSet.not_mem_empty
      | field f => exact .inl ⟨f, hleaf, (NodeSet.mem_singleton.mp hmem).symm⟩
      | subquery q => exact .inr ⟨q, hleaf, hmem⟩
      | call => exact absurd rfl (hnot _ _ _)
    · rintro (⟨f, hf, rfl⟩ | ⟨q, hq, hid⟩)
      · exact tables_of_bind hself hf (NodeSet.mem_singleton.mpr rfl)
      · exact tables_of_bind hself hq hid
  · exact fact_of_bind (·.aggregate) (fun _ _ => rfl) rfl rfl hself
  · exact fact_of_bind (·.nullTest) (fun _ _ => rfl) rfl rfl hself
  · exact fact_of_bind (·.volatile) (fun _ _ => rfl) rfl rfl hself

end Expr

/-! ## §5. Scopes -/

namespace PlanTree

/-- An expression is bound in a scope when each of its columns resolves there; otherwise the first
    that does not decides the failure. What it is bound to is the expression with its columns in
    place, and is the sum of its parts at every depth. -/
theorem bind_of_columns (tree : PlanTree) (scope : NodeId) (e : Expr) :
    (e.Accepted →
      ((∃ b, tree.bind scope e = .ok b) ↔ ∀ ref ∈ e.columns, ∃ f, tree.resolve scope ref = .ok f) ∧
      ∀ failure, tree.bind scope e = .error failure ↔
        Expr.FirstFailure (tree.resolve scope) e.columns failure) ∧
    ∀ b, tree.bind scope e = .ok b →
      Expr.BoundTo (tree.resolve scope) e b ∧ (∀ ref, ¬ (Expr.column ref).PartOf b) ∧
        ∀ x : Expr, x.PartOf b → x.SumOfParts := by
  refine ⟨fun he => ⟨Expr.exists_bind_eq_ok_iff he, fun _ => Expr.bind_eq_error_iff he⟩, ?_⟩
  intro b hb
  have hsettled : b.Settled := Expr.settled_of_bind hb
  exact ⟨Expr.boundTo_of_bind hb, hsettled.not_column, fun x hx => Expr.sumOfParts_of_bind hb hx⟩

end PlanTree

namespace Plan.Shop

/-- `amount IS NULL OR (SELECT 1) > id`, where the subquery refers to `users`. -/
def nullOrLess : Expr :=
  .or (.isNull (.column ⟨none, "amount"⟩))
    (.gt (.subquery ⟨"SELECT 1", .longlong, .singleton 0⟩) (.column ⟨none, "id"⟩))

/-- `amount > missing AND others.id = 1`. Neither the second column nor the third resolves. -/
def unresolved : Expr :=
  .and (.gt (.column ⟨none, "amount"⟩) (.column ⟨none, "missing"⟩))
    (.eq (.column ⟨some "others", "id"⟩) (.literal (.int 1)))

theorem accepted_nullOrLess : nullOrLess.Accepted := by
  refine .call rfl (List.forall_mem_cons.mpr ⟨.call rfl ?_, List.forall_mem_singleton.mpr (.call rfl ?_)⟩)
  · exact List.forall_mem_singleton.mpr (.column _)
  · exact List.forall_mem_cons.mpr ⟨.subquery _, List.forall_mem_singleton.mpr (.column _)⟩

theorem accepted_unresolved : unresolved.Accepted := by
  refine .call rfl (List.forall_mem_cons.mpr ⟨.call rfl ?_, List.forall_mem_singleton.mpr (.call rfl ?_)⟩)
  · exact List.forall_mem_cons.mpr ⟨.column _, List.forall_mem_singleton.mpr (.column _)⟩
  · exact List.forall_mem_cons.mpr ⟨.column _, List.forall_mem_singleton.mpr (.literal _)⟩

/-- The first expression is bound at the join. The second fails with its second column, though its
    third does not resolve either. -/
theorem bind_of_columns_join :
    (nullOrLess.Accepted ∧ ∃ b, plan.tree.bind 2 nullOrLess = .ok b ∧
        Expr.BoundTo (plan.tree.resolve 2) nullOrLess b ∧ b.SumOfParts) ∧
      unresolved.Accepted ∧
        plan.tree.bind 2 unresolved = .error (.rejected (.unknownColumn "`missing`")) := by
  have hamount : ∃ f, plan.tree.resolve 2 ⟨none, "amount"⟩ = .ok f := by
    have hrun : (plan.tree.resolve 2 ⟨none, "amount"⟩).map (·.table) = .ok 1 := by decide +kernel
    obtain ⟨f, hf, _⟩ := Result.exists_of_map hrun
    exact ⟨f, hf⟩
  have hid : ∃ f, plan.tree.resolve 2 ⟨none, "id"⟩ = .ok f := by
    have hrun : (plan.tree.resolve 2 ⟨none, "id"⟩).map (·.table) = .ok 0 := by decide +kernel
    obtain ⟨f, hf, _⟩ := Result.exists_of_map hrun
    exact ⟨f, hf⟩
  have hmissing : plan.tree.resolve 2 ⟨none, "missing"⟩ =
      .error (.rejected (.unknownColumn "`missing`")) := by decide +kernel
  constructor
  · obtain ⟨hfails, hanswers⟩ := plan.tree.bind_of_columns 2 nullOrLess
    have hresolves : ∀ ref ∈ nullOrLess.columns, ∃ f, plan.tree.resolve 2 ref = .ok f :=
      List.forall_mem_cons.mpr ⟨hamount, List.forall_mem_singleton.mpr hid⟩
    obtain ⟨b, hb⟩ := (hfails accepted_nullOrLess).1.mpr hresolves
    obtain ⟨hbound, _, hparts⟩ := hanswers b hb
    exact ⟨accepted_nullOrLess, b, hb, hbound, hparts b .refl⟩
  · obtain ⟨hfails, _⟩ := plan.tree.bind_of_columns 2 unresolved
    refine ⟨accepted_unresolved, ((hfails accepted_unresolved).2 _).mpr ?_⟩
    exact ⟨[⟨none, "amount"⟩], ⟨none, "missing"⟩, [⟨some "others", "id"⟩], rfl,
      List.forall_mem_singleton.mpr hamount, hmissing⟩

/-- `ifnull(amount)`, with an argument too few. -/
def ifNullAmount : Expr :=
  .apply (.builtin .ifNull) [.column ⟨none, "amount"⟩]

/-- All columns of a call can resolve and binding breaks, since its second argument is not there. In a
    scope that is no node, a column breaks binding, too. -/
theorem bind_broken_ifNullAmount :
    (∀ ref ∈ ifNullAmount.columns, ∃ f, plan.tree.resolve 2 ref = .ok f) ∧
      plan.tree.bind 2 ifNullAmount = .error (.broken (.noSuchArgument 1)) ∧
      plan.tree.node? 7 = none ∧
      plan.tree.bind 7 (.columnNamed "amount") = .error (.broken (.noSuchNode 7)) := by
  have hrun : (plan.tree.resolve 2 ⟨none, "amount"⟩).map (·.table) = .ok 1 := by decide +kernel
  obtain ⟨f, hf, _⟩ := Result.exists_of_map hrun
  have hbroken : Result.error? (plan.tree.bind 2 ifNullAmount) =
      some (.broken (.noSuchArgument 1)) := by decide +kernel
  have hscope : Result.error? (plan.tree.bind 7 (.columnNamed "amount")) =
      some (.broken (.noSuchNode 7)) := by decide +kernel
  exact ⟨List.forall_mem_singleton.mpr ⟨f, hf⟩, Result.error?_eq_some_iff.mp hbroken, rfl,
    Result.error?_eq_some_iff.mp hscope⟩

end Plan.Shop

end PushDown
