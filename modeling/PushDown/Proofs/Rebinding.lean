import PushDown.Proofs.Binding
import PushDown.Proofs.Reachable

/-! # Binding again

    What was inferred about the calls of an expression can be any of many
    things: nothing yet, the result of an earlier binding, what a fixing left
    that was stopped halfway, or a value that is known to be `NULL`. Binding
    looks at none of it (`bind_bare`): it depends on the *bare* expression only,
    in which every call is as new.

    What binding answers is *settled*: no column is left to resolve, and every
    call has the state that its function and its arguments determine. So binding
    it again changes nothing, in whatever scope (`Settled.bind_eq`), and fixing
    its bare form gives it back (`Settled.fix_bare`).
-/

namespace PushDown

namespace Expr

variable {resolve : ColumnRef → Except Failure BoundColumn}

/-! ## §1. Bare expressions -/

mutual

/-- The expression with nothing inferred about its calls. -/
def bare : Expr → Expr
  | literal v => literal v
  | column ref => column ref
  | field f => field f
  | call f args _ => apply f (bareAll args)
  | subquery q => subquery q

/-- The bare expressions of a list. -/
def bareAll : List Expr → List Expr
  | [] => []
  | e :: es => bare e :: bareAll es

end

theorem bareAll_eq_map (es : List Expr) : bareAll es = es.map bare := by
  induction es with
  | nil => rfl
  | cons e es ih => simp [bareAll, ih]

theorem bare_call (f : Func) (args : List Expr) (state : CallState) :
    (call f args state).bare = apply f (args.map bare) := by
  rw [bare, bareAll_eq_map]

/-- Every call of a bare expression is as new. -/
theorem state_of_partOf_bare {e : Expr} {f : Func} {args : List Expr} {state : CallState}
    (h : (call f args state).PartOf e.bare) : state = .fresh f := by
  induction e using Expr.ind with
  | literal v => rw [bare] at h; cases h
  | column ref => rw [bare] at h; cases h
  | field f => rw [bare] at h; cases h
  | subquery q => rw [bare] at h; cases h
  | call g brgs before ih =>
    rw [bare_call, apply] at h
    rcases partOf_call_iff.mp h with heq | ⟨arg, harg, hpart⟩
    · cases heq
      rfl
    · -- a call in some argument, which is bare, too
      obtain ⟨brg, hbrg, rfl⟩ := List.mem_map.mp harg
      exact ih brg hbrg hpart

/-- Knowing that a call is `NULL` is part of what was inferred about it. -/
theorem bare_divideByNull (e : Expr) : e.divideByNull.bare = e.bare := by
  cases e with
  | call f args state => rw [divideByNull, bare_call, bare_call]
  | literal v => rfl
  | column ref => rfl
  | field f => rfl
  | subquery q => rfl

/-- What holds of fixing every expression of a list holds of fixing the list. -/
theorem map_bare_fixAll {es : List Expr} (h : ∀ e ∈ es, (fix e).1.bare = e.bare) :
    (fixAll es).1.map bare = es.map bare := by
  induction es with
  | nil => rfl
  | cons e es ih =>
    have he : (fix e).1.bare = e.bare := h e List.mem_cons_self
    have hes : (fixAll es).1.map bare = es.map bare :=
      ih fun x hx => h x (List.mem_cons_of_mem e hx)
    rw [fixAll]
    split
    · next b _ hfix =>
      rw [hfix] at he
      simp [he]
    · next b hfix =>
      rw [hfix] at he
      simp [he, hes]

/-- Fixing changes only what is inferred, also when it is stopped. -/
theorem bare_fix (e : Expr) : (fix e).1.bare = e.bare := by
  induction e using Expr.ind with
  | literal v => rfl
  | column ref => rfl
  | field f => rfl
  | subquery q => rfl
  | call f args state ih =>
    have hargs : (fixAll args).1.map bare = args.map bare := map_bare_fixAll ih
    rw [fix]
    split
    · rfl
    · split
      · next fixed _ hfix =>
        rw [hfix] at hargs
        rw [bare_call, bare_call, hargs]
      · next fixed hfix =>
        rw [hfix] at hargs
        split
        · rw [bare_call, bare_call, hargs]
        · rw [bare_call, bare_call, hargs]

/-! ## §2. Binding bare expressions -/

theorem bindAllWith_map {g : Expr → Expr} {es : List Expr}
    (h : ∀ e ∈ es, bindWith resolve (g e) = bindWith resolve e) :
    bindAllWith resolve (es.map g) = bindAllWith resolve es := by
  induction es with
  | nil => rfl
  | cons e es ih =>
    have he := h e List.mem_cons_self
    have hes := ih fun x hx => h x (List.mem_cons_of_mem e hx)
    simp only [List.map_cons, bindAllWith, he, hes]

/-- Binding does not look at what was inferred before. -/
theorem bindWith_bare (e : Expr) : bindWith resolve e.bare = bindWith resolve e := by
  induction e using Expr.ind with
  | literal v => rfl
  | column ref => rfl
  | field f => rfl
  | subquery q => rfl
  | call f args state ih =>
    rw [bare_call, apply, bindWith, bindWith, bindAllWith_map ih]

theorem bind_bare (e : Expr) : bind resolve e.bare = bind resolve e := by
  rw [bind_eq_bindWith, bind_eq_bindWith, bindWith_bare]

/-! ## §3. Settled expressions -/

/-- No column is left to resolve, and every call has the state that follows from its function and its
    arguments. -/
inductive Settled : Expr → Prop
  | literal (v : Value) : Settled (.literal v)
  | field (f : BoundColumn) : Settled (.field f)
  | subquery (q : Subquery) : Settled (.subquery q)
  | call {f : Func} {args : List Expr} {state : CallState} :
      (∀ arg ∈ args, Settled arg) → settle f args (.fresh f) = .ok state → Settled (.call f args state)

variable {e b x : Expr}

/-- What binding answers is settled. -/
theorem settled_of_bind (h : bind resolve e = .ok b) : b.Settled := by
  refine bind_induction (motive := fun _ b => b.Settled) ?literal ?column ?field ?call ?subquery h
  case literal => exact fun v => .literal v
  case column => exact fun _ f _ => .field f
  case field => exact fun f => .field f
  case subquery => exact fun q => .subquery q
  case call =>
    intro f args bound state settled hargs hsettle
    refine .call (fun arg harg => ?_) hsettle
    obtain ⟨_, _, hsettled⟩ := exists_of_mem_right hargs harg
    exact hsettled

theorem Settled.of_partOf (h : b.Settled) (hpart : x.PartOf b) : x.Settled := by
  induction hpart with
  | refl => exact h
  | arg harg _ ih =>
    cases h with
    | call hargs _ => exact ih (hargs _ harg)

theorem Settled.isFixed (h : b.Settled) : b.isFixed = true := by
  cases h with
  | literal v => rfl
  | field f => rfl
  | subquery q => rfl
  | call _ hsettle => exact (of_settle hsettle).1

/-- Binding what is settled changes nothing: its columns are bound, and the state of its calls follows
    from their functions and arguments. -/
theorem Settled.bindWith_eq (h : b.Settled) : bindWith resolve b = .ok b := by
  induction h with
  | literal v => rfl
  | field f => rfl
  | subquery q => rfl
  | @call f args state _ hsettle ih =>
    have hargs : bindAllWith resolve args = .ok args :=
      bindAllWith_eq_ok_iff.mpr (List.forall₂_same.mpr ih)
    exact bindWith_call_eq_ok_iff.mpr ⟨args, state, hargs, hsettle, rfl⟩

theorem Settled.bind_eq (h : b.Settled) : bind resolve b = .ok b := by
  rw [bind_eq_bindWith, h.bindWith_eq]

theorem fixAll_map_bare {es : List Expr} (h : ∀ e ∈ es, fix e.bare = (e, none)) :
    fixAll (es.map bare) = (es, none) := by
  induction es with
  | nil => rfl
  | cons e es ih =>
    have he := h e List.mem_cons_self
    have hes := ih fun x hx => h x (List.mem_cons_of_mem e hx)
    simp only [List.map_cons, fixAll, he, hes]

/-- What is settled is recovered from its bare form without looking up a name. -/
theorem Settled.fix_bare (h : b.Settled) : fix b.bare = (b, none) := by
  induction h with
  | literal v => rfl
  | field f => rfl
  | subquery q => rfl
  | @call f args state _ hsettle ih =>
    have hnot : ¬ (CallState.fresh f).attributes.fixed = true := by
      simp [CallState.fresh, Attributes.unfixed]
    rw [bare_call, apply, fix, if_neg hnot, fixAll_map_bare ih]
    simp only [hsettle]

end Expr

/-! ## §4. Scopes -/

namespace PlanTree

/-- Two expressions that differ only in what was inferred about their calls are bound to one and the
    same expression, or fail alike. What they are bound to is bound to itself in every scope. -/
theorem bind_eq_of_bare_eq (tree : PlanTree) (scope : NodeId) {x y : Expr} (h : x.bare = y.bare) :
    tree.bind scope x = tree.bind scope y ∧
      ∀ b, tree.bind scope x = .ok b → ∀ scope', tree.bind scope' b = .ok b := by
  constructor
  · calc tree.bind scope x = tree.bind scope x.bare := (Expr.bind_bare x).symm
      _ = tree.bind scope y.bare := by rw [h]
      _ = tree.bind scope y := Expr.bind_bare y
  · intro b hb scope'
    have hsettled : b.Settled := Expr.settled_of_bind hb
    exact hsettled.bind_eq

end PlanTree

namespace Plan.Shop

/-- `abs(5) > amount / 0`. -/
def overQuotient : Expr :=
  .gt (.apply (.builtin .abs) [.literal (.int 5)])
    (.apply (.builtin .div) [.column ⟨none, "amount"⟩, .literal (.int 0)])

/-- The same after a fixing that the column stopped, and known to be `NULL`. -/
def halfFixed : Expr :=
  overQuotient.fix.1.divideByNull

/-- The two are bound at the join to one expression. It is bound to itself at `users`, too, where the
    column is not visible. -/
theorem bind_eq_of_bare_eq_halfFixed :
    overQuotient.bare = halfFixed.bare ∧ overQuotient.attributes.nullValue = false ∧
      halfFixed.attributes.nullValue = true ∧ (plan.tree.bind 0 overQuotient).isOk = false ∧
        ∃ b, plan.tree.bind 2 overQuotient = .ok b ∧ plan.tree.bind 2 halfFixed = .ok b ∧
          plan.tree.bind 0 b = .ok b := by
  have hbare : overQuotient.bare = halfFixed.bare := by
    rw [halfFixed, Expr.bare_divideByNull, Expr.bare_fix]
  have hrun : (plan.tree.bind 2 overQuotient).map (fun _ => ()) = .ok () := by decide +kernel
  obtain ⟨b, hb, _⟩ := Result.exists_of_map hrun
  obtain ⟨hsame, hagain⟩ := plan.tree.bind_eq_of_bare_eq 2 hbare
  exact ⟨hbare, rfl, rfl, by decide +kernel, b, hb, hsame ▸ hb, hagain b hb 0⟩

end Plan.Shop

end PushDown
