import Mathlib.Data.List.Forall2
import PushDown.Placement

/-! # What binding answers

    Binding goes through an expression once. A column reference becomes the
    column it resolves to, a call is settled over its bound arguments, and
    nothing else changes. The second pass, which fixes what is left, finds
    nothing to do: everything that binding answers is fixed.

    So binding has an induction principle of its own, `bind_induction`. From it
    follow the facts and the tables of a bound expression: they are those of all
    its parts, whatever was inferred about the expression before.
-/

namespace PushDown.Expr

variable {resolve : ColumnRef → Except Failure BoundColumn}

/-! ## §1. Fixing -/

/-- What is fixed is left alone. -/
theorem fix_of_isFixed {e : Expr} (h : e.isFixed = true) : fix e = (e, none) := by
  cases e with
  | call f args state =>
    have hfixed : state.attributes.fixed = true := h
    rw [fix, if_pos hfixed]
  | column ref => cases h
  | literal v => rfl
  | field f => rfl
  | subquery q => rfl

theorem fixAll_of_isFixed {es : List Expr} (h : ∀ e ∈ es, e.isFixed = true) :
    fixAll es = (es, none) := by
  induction es with
  | nil => rfl
  | cons e es ih =>
    have he := fix_of_isFixed (h e List.mem_cons_self)
    have hes := ih fun x hx => h x (List.mem_cons_of_mem e hx)
    simp only [fixAll, he, hes]

/-- A settled call is fixed, and its facts and tables are those of its arguments. -/
theorem of_settle {f : Func} {args : List Expr} {before state : CallState}
    (h : settle f args before = .ok state) :
    state.attributes.fixed = true ∧ state.facts = factsOf f args ∧ state.tables = tablesOf args := by
  unfold settle at h
  dsimp only [Bind.bind, Except.bind] at h
  -- inference has a say in the attributes only
  split at h
  · simp at h
  · obtain rfl := Except.ok.inj h
    exact ⟨rfl, rfl, rfl⟩

/-- Fixing that is not stopped answers something fixed. -/
theorem isFixed_of_fix {e b : Expr} (h : fix e = (b, none)) : b.isFixed = true := by
  cases e with
  | call f args state =>
    rw [fix] at h
    split at h
    · next hfixed =>
      cases h
      exact hfixed
    · split at h
      · simp at h
      · split at h
        · simp at h
        · next hsettle =>
          cases h
          exact (of_settle hsettle).1
  | column ref => cases h
  | literal v => cases h; rfl
  | field f => cases h; rfl
  | subquery q => cases h; rfl

/-- Fixing a new call over fixed arguments settles it. -/
theorem fix_apply {f : Func} {args : List Expr} (h : ∀ arg ∈ args, arg.isFixed = true) :
    fix (apply f args) =
      match settle f args (.fresh f) with
      | .error fault => (apply f args, some (.broken fault))
      | .ok state => (call f args state, none) := by
  -- a new call is not fixed itself, and its arguments stay as they are
  have hnot : ¬ (CallState.fresh f).attributes.fixed = true := by
    simp [CallState.fresh, Attributes.unfixed]
  cases hsettle : settle f args (.fresh f) with
  | error fault =>
    rw [apply, fix, if_neg hnot, fixAll_of_isFixed h]
    simp only [hsettle]
  | ok state =>
    rw [apply, fix, if_neg hnot, fixAll_of_isFixed h]
    simp only [hsettle]

/-! ## §2. Binding -/

/-- Everything that binding answers is fixed. -/
theorem isFixed_of_bindWith {e b : Expr} (h : bindWith resolve e = .ok b) : b.isFixed = true := by
  cases e with
  | call f args state =>
    rw [bindWith] at h
    split at h
    · simp at h
    · split at h
      · simp at h
      · next hfix =>
        cases h
        exact isFixed_of_fix hfix
  | column ref =>
    obtain ⟨field, _, rfl⟩ := Result.exists_of_map h
    rfl
  | literal v => cases h; rfl
  | field f => cases h; rfl
  | subquery q => cases h; rfl

/-- A list is bound when each of its expressions is. -/
theorem bindAllWith_eq_ok_iff {es bs : List Expr} :
    bindAllWith resolve es = .ok bs ↔ List.Forall₂ (fun e b => bindWith resolve e = .ok b) es bs := by
  induction es generalizing bs with
  | nil =>
    constructor
    · intro h
      cases h
      exact .nil
    · intro h
      cases h
      rfl
  | cons e es ih =>
    constructor
    · intro h
      rw [bindAllWith] at h
      split at h
      · simp at h
      · next b hb =>
        split at h
        · simp at h
        · next bs hbs =>
          cases h
          exact .cons hb (ih.mp hbs)
    · intro h
      cases h with
      | cons hb hbs => rw [bindAllWith, hb, ih.mpr hbs]

theorem isFixed_of_bindAllWith {es bs : List Expr} (h : bindAllWith resolve es = .ok bs) :
    ∀ b ∈ bs, b.isFixed = true := by
  have hforall := bindAllWith_eq_ok_iff.mp h
  clear h
  induction hforall with
  | nil => exact fun b hb => nomatch hb
  | cons hb _ ih =>
    intro x hx
    rcases List.mem_cons.mp hx with rfl | hx
    · exact isFixed_of_bindWith hb
    · exact ih x hx

/-- A call is bound when its arguments are and it can be settled over them. -/
theorem bindWith_call_eq_ok_iff {f : Func} {args : List Expr} {state : CallState} {b : Expr} :
    bindWith resolve (call f args state) = .ok b ↔
      ∃ bound settled, bindAllWith resolve args = .ok bound ∧
        settle f bound (.fresh f) = .ok settled ∧ b = call f bound settled := by
  rw [bindWith]
  cases hargs : bindAllWith resolve args with
  | error failure => simp
  | ok bound =>
    -- bound arguments are fixed, so to fix the new call is to settle it
    have hfixed := isFixed_of_bindAllWith hargs
    simp only [fix_apply hfixed]
    cases hsettle : settle f bound (.fresh f) with
    | error fault => simp [hsettle]
    | ok settled => simp [hsettle, eq_comm]

/-- The second pass finds nothing to do. -/
theorem bind_eq_bindWith (resolve : ColumnRef → Except Failure BoundColumn) (e : Expr) :
    bind resolve e = bindWith resolve e := by
  rw [bind]
  cases h : bindWith resolve e with
  | error failure => rfl
  | ok b => simp only [fix_of_isFixed (isFixed_of_bindWith h)]

/-- What holds between the leaves of an expression and what they are bound to, and between calls
    whenever it holds between their arguments, holds between an expression and what it is bound to. -/
theorem bind_induction {motive : Expr → Expr → Prop}
    (literal : ∀ v, motive (.literal v) (.literal v))
    (column : ∀ ref field, resolve ref = .ok field → motive (.column ref) (.field field))
    (field : ∀ f, motive (.field f) (.field f))
    (call : ∀ f args bound state settled, List.Forall₂ motive args bound →
      settle f bound (.fresh f) = .ok settled → motive (.call f args state) (.call f bound settled))
    (subquery : ∀ q, motive (.subquery q) (.subquery q))
    {e b : Expr} (h : bind resolve e = .ok b) : motive e b := by
  rw [bind_eq_bindWith] at h
  induction e using Expr.ind generalizing b with
  | literal v => cases h; exact literal v
  | column ref =>
    obtain ⟨bound, hresolve, rfl⟩ := Result.exists_of_map h
    exact column ref bound hresolve
  | field f => cases h; exact field f
  | call f args state ih =>
    obtain ⟨bound, settled, hargs, hsettle, rfl⟩ := bindWith_call_eq_ok_iff.mp h
    refine call f args bound state settled ?_ hsettle
    -- the induction hypothesis holds of every argument, whatever it is bound to
    have hforall := bindAllWith_eq_ok_iff.mp hargs
    clear hargs hsettle h
    induction hforall with
    | nil => exact .nil
    | @cons e b es bs hb _ ihes =>
      have he := ih e List.mem_cons_self hb
      exact .cons he (ihes fun x hx => ih x (List.mem_cons_of_mem e hx))
  | subquery q => cases h; exact subquery q

/-! ## §3. Parts -/

/-- The expression is the other one, or one of its arguments at some depth. -/
inductive PartOf (x : Expr) : Expr → Prop
  | refl : PartOf x x
  | arg {f : Func} {args : List Expr} {state : CallState} {arg : Expr} :
      arg ∈ args → PartOf x arg → PartOf x (call f args state)

theorem partOf_call_iff {x : Expr} {f : Func} {args : List Expr} {state : CallState} :
    x.PartOf (call f args state) ↔ x = call f args state ∨ ∃ arg ∈ args, x.PartOf arg := by
  constructor
  · intro h
    cases h with
    | refl => exact .inl rfl
    | arg harg hx => exact .inr ⟨_, harg, hx⟩
  · rintro (rfl | ⟨arg, harg, hx⟩)
    · exact .refl
    · exact .arg harg hx

theorem PartOf.trans {x y z : Expr} (hxy : x.PartOf y) (hyz : y.PartOf z) : x.PartOf z := by
  induction hyz with
  | refl => exact hxy
  | arg harg _ ih => exact .arg harg ih

/-- What is bound in a list, position by position, comes from somewhere in the list. -/
theorem exists_of_mem_right {R : Expr → Expr → Prop} {es bs : List Expr}
    (h : List.Forall₂ R es bs) {b : Expr} (hb : b ∈ bs) : ∃ e ∈ es, R e b := by
  induction h with
  | nil => cases hb
  | @cons e b' es bs hR _ ih =>
    rcases List.mem_cons.mp hb with rfl | hb
    · exact ⟨e, List.mem_cons_self, hR⟩
    · obtain ⟨x, hx, hxb⟩ := ih hb
      exact ⟨x, List.mem_cons_of_mem e hx, hxb⟩

/-- What agrees on everything related in two lists makes one list of both. -/
theorem map_eq_of_forall₂ {α : Type} {g : Expr → α} {R : Expr → Expr → Prop} {as bs : List Expr}
    (h : List.Forall₂ R as bs) (heq : ∀ a ∈ as, ∀ b ∈ bs, R a b → g a = g b) :
    as.map g = bs.map g := by
  induction h with
  | nil => rfl
  | @cons a b as bs hab _ ih =>
    rw [List.map_cons, List.map_cons, heq a List.mem_cons_self b List.mem_cons_self hab,
      ih fun x hx y hy => heq x (List.mem_cons_of_mem a hx) y (List.mem_cons_of_mem b hy)]

/-- A table is one of a list's when it is one of some member's. -/
theorem mem_tablesOf {id : NodeId} {args : List Expr} :
    id ∈ tablesOf args ↔ ∃ arg ∈ args, id ∈ arg.tables := by
  -- the union may start from any set
  suffices h : ∀ start : NodeSet, id ∈ args.foldl (fun acc arg => acc ∪ arg.tables) start ↔
      id ∈ start ∨ ∃ arg ∈ args, id ∈ arg.tables by
    rw [tablesOf, h ∅]
    simp
  induction args with
  | nil => simp
  | cons arg args ih =>
    intro start
    rw [List.foldl_cons, ih]
    simp [or_assoc]

section Facts

variable (fact : Facts → Bool) (hunion : ∀ a b : Facts, fact (a ∪ b) = (fact a || fact b))
include hunion

/-- A fact holds of a call when it holds of the function or of some argument. -/
theorem fact_factsOf_iff {f : Func} {args : List Expr} :
    fact (factsOf f args) = true ↔
      fact f.ownFacts = true ∨ ∃ arg ∈ args, fact arg.facts = true := by
  -- the union may start from any facts
  suffices h : ∀ start : Facts,
      fact (args.foldl (fun acc arg => acc ∪ arg.facts) start) = true ↔
        fact start = true ∨ ∃ arg ∈ args, fact arg.facts = true from h f.ownFacts
  induction args with
  | nil => simp
  | cons arg args ih =>
    intro start
    rw [List.foldl_cons, ih, hunion]
    simp [or_assoc]

/-- A fact that no leaf has holds of a bound expression when some function in it has the fact. -/
theorem fact_of_bind {e b : Expr} (hnone : fact .none = false)
    (hsubquery : fact { subquery := true } = false) (h : bind resolve e = .ok b) :
    fact b.facts = true ↔
      ∃ f args state, (call f args state).PartOf b ∧ fact f.ownFacts = true := by
  refine bind_induction (motive := fun _ b => fact b.facts = true ↔
    ∃ f args state, (call f args state).PartOf b ∧ fact f.ownFacts = true)
    ?literal ?column ?field ?call ?subquery h
  case call =>
    intro f args bound state settled hargs hsettle
    have harg : ∀ arg ∈ bound, (fact arg.facts = true ↔
        ∃ g brgs state, (call g brgs state).PartOf arg ∧ fact g.ownFacts = true) := by
      intro arg harg
      obtain ⟨_, _, h⟩ := exists_of_mem_right hargs harg
      exact h
    show fact settled.facts = true ↔ _
    rw [(of_settle hsettle).2.1, fact_factsOf_iff fact hunion]
    -- the function is the one of the call itself, or one in an argument
    constructor
    · rintro (hf | ⟨arg, hmem, hfact⟩)
      · exact ⟨f, bound, settled, .refl, hf⟩
      · obtain ⟨g, brgs, inner, hpart, hg⟩ := (harg arg hmem).mp hfact
        exact ⟨g, brgs, inner, .arg hmem hpart, hg⟩
    · rintro ⟨g, brgs, inner, hpart, hg⟩
      rcases partOf_call_iff.mp hpart with heq | ⟨arg, hmem, hpart⟩
      · cases heq
        exact .inl hg
      · exact .inr ⟨arg, hmem, (harg arg hmem).mpr ⟨g, brgs, inner, hpart, hg⟩⟩
  -- a leaf has no call in it
  all_goals
    intros
    simp only [facts, hnone, hsubquery, Bool.false_eq_true, false_iff]
    rintro ⟨f, args, state, hpart, _⟩
    cases hpart

end Facts

/-- The tables of a bound expression are those of all its parts. -/
theorem tables_of_bind {e b x : Expr} {id : NodeId} (h : bind resolve e = .ok b)
    (hpart : x.PartOf b) (hid : id ∈ x.tables) : id ∈ b.tables := by
  refine bind_induction (motive := fun _ b => x.PartOf b → id ∈ b.tables)
    ?literal ?column ?field ?call ?subquery h hpart
  case call =>
    intro f args bound state settled hargs hsettle hpart
    rcases partOf_call_iff.mp hpart with rfl | ⟨arg, hmem, hpart⟩
    · exact hid
    · obtain ⟨_, _, harg⟩ := exists_of_mem_right hargs hmem
      show id ∈ settled.tables
      rw [(of_settle hsettle).2.2]
      exact mem_tablesOf.mpr ⟨arg, hmem, harg hpart⟩
  all_goals
    intros
    rename_i hpart
    cases hpart
    exact hid

/-- The tables of a bound expression come from its leaves. -/
theorem exists_leaf_of_mem_tables {e b : Expr} {id : NodeId} (h : bind resolve e = .ok b)
    (hid : id ∈ b.tables) :
    ∃ x, x.PartOf b ∧ id ∈ x.tables ∧ ∀ f args state, x ≠ call f args state := by
  refine bind_induction (motive := fun _ b => id ∈ b.tables →
    ∃ x, x.PartOf b ∧ id ∈ x.tables ∧ ∀ f args state, x ≠ call f args state)
    ?literal ?column ?field ?call ?subquery h hid
  case call =>
    intro f args bound state settled hargs hsettle hid
    replace hid : id ∈ settled.tables := hid
    rw [(of_settle hsettle).2.2] at hid
    -- the table comes from some argument, and there from a leaf
    obtain ⟨arg, hmem, harg⟩ := mem_tablesOf.mp hid
    obtain ⟨_, _, hleaf⟩ := exists_of_mem_right hargs hmem
    obtain ⟨x, hx, hxid, hcall⟩ := hleaf harg
    exact ⟨x, .arg hmem hx, hxid, hcall⟩
  case literal => exact fun v hid => ⟨_, .refl, hid, fun _ _ _ hcall => nomatch hcall⟩
  case column => exact fun _ f _ hid => ⟨_, .refl, hid, fun _ _ _ hcall => nomatch hcall⟩
  case field => exact fun f hid => ⟨_, .refl, hid, fun _ _ _ hcall => nomatch hcall⟩
  case subquery => exact fun q hid => ⟨_, .refl, hid, fun _ _ _ hcall => nomatch hcall⟩

end PushDown.Expr
