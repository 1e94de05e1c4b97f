import PushDown.Proofs.Columns
import PushDown.Proofs.Extents
import PushDown.Proofs.Rendering

/-! # How expressions come about

    An expression is made from leaves and calls, and can then be bound, fixed
    and copied, in any order and any number of times, also by a fixing that is
    stopped (`Expr.Formed`). Whatever was done, every call in it has an accepted
    count of arguments, and a call is as new or is settled over fixed arguments
    (`Expr.BottomUp`).

    That is all that inference relies on. So fixing stops at the first column
    that is not bound, and for no other reason (`BottomUp.snd_fix`); and every
    length and scale that was inferred keeps the bounds of its rule
    (`inference_of_formed`).
-/

namespace PushDown

namespace Expr

variable {good : Column → Prop} {e b x : Expr} {registry : Registry}
  {resolve : ColumnRef → Except Failure BoundColumn}

/-! ## §1. Forming -/

/-- What can be made of leaves and calls, and of that by binding, fixing and copying. Bound columns are
    good ones. -/
inductive Formed (good : Column → Prop) : Expr → Prop
  | literal (v : Value) : Formed good (.literal v)
  | column (ref : ColumnRef) : Formed good (.column ref)
  | field {f : BoundColumn} : good f.column → Formed good (.field f)
  | subquery (q : Subquery) : Formed good (.subquery q)
  /-- A call that is made by name, through any registry. -/
  | named {registry : Registry} {name : String} {args : List Expr} {e : Expr} :
      registry.create name args = .ok e → (∀ arg ∈ args, Formed good arg) → Formed good e
  /-- A call of a built-in function that is made directly. -/
  | builtin {f : Builtin} {args : List Expr} :
      f.arity.accepts args.length = true → (∀ arg ∈ args, Formed good arg) →
      Formed good (.apply (.builtin f) args)
  | bound {resolve : ColumnRef → Except Failure BoundColumn} {e b : Expr} :
      Formed good e → (∀ ref f, resolve ref = .ok f → good f.column) → bind resolve e = .ok b →
      Formed good b
  /-- What fixing leaves, whether it was stopped or not. -/
  | fixed {e : Expr} : Formed good e → Formed good (fix e).1
  | copied {registry : Registry} {e b : Expr} :
      Formed good e → registry.copy e = .ok b → Formed good b

/-- Every call has an accepted count of arguments. Nothing is inferred about it, or its arguments are
    fixed and it is settled over them. -/
inductive BottomUp (good : Column → Prop) : Expr → Prop
  | literal (v : Value) : BottomUp good (.literal v)
  | column (ref : ColumnRef) : BottomUp good (.column ref)
  | field {f : BoundColumn} : good f.column → BottomUp good (.field f)
  | subquery (q : Subquery) : BottomUp good (.subquery q)
  | new {f : Func} {args : List Expr} :
      f.arity.accepts args.length = true → (∀ arg ∈ args, BottomUp good arg) →
      BottomUp good (.call f args (.fresh f))
  | settled {f : Func} {args : List Expr} {state : CallState} :
      f.arity.accepts args.length = true → (∀ arg ∈ args, BottomUp good arg) →
      (∀ arg ∈ args, arg.isFixed = true) → settle f args (.fresh f) = .ok state →
      BottomUp good (.call f args state)

theorem BottomUp.of_partOf (h : e.BottomUp good) (hpart : x.PartOf e) : x.BottomUp good := by
  induction hpart with
  | refl => exact h
  | arg harg _ ih =>
    cases h with
    | new _ hargs => exact ih (hargs _ harg)
    | settled _ hargs _ _ => exact ih (hargs _ harg)

theorem BottomUp.accepted (h : e.BottomUp good) : e.Accepted := by
  induction h with
  | literal v => exact .literal v
  | column ref => exact .column ref
  | @field f _ => exact .field f
  | subquery q => exact .subquery q
  | new harity _ ih => exact .call harity ih
  | settled harity _ _ _ ih => exact .call harity ih

/-- No column is left to bind in what is fixed. -/
theorem BottomUp.columns_eq_nil (h : e.BottomUp good) (hfixed : e.isFixed = true) :
    e.columns = [] := by
  induction h with
  | literal v => rfl
  | column ref => cases hfixed
  | field _ => rfl
  | subquery q => rfl
  | new _ _ _ => cases hfixed
  | @settled f args state _ _ hargs _ ih =>
    rw [columns, columnsOf_eq_flatMap, List.flatMap_eq_nil_iff]
    intro arg harg
    exact ih arg harg (hargs arg harg)

/-! ## §2. Fixing -/

theorem length_fixAll (es : List Expr) : (fixAll es).1.length = es.length := by
  induction es with
  | nil => rfl
  | cons e es ih =>
    rw [fixAll]
    split
    · rfl
    · rw [List.length_cons, List.length_cons, ih]

/-- Fixing a list is not stopped when fixing each of its expressions is not. -/
theorem fixAll_eq_iff {es bs : List Expr} :
    fixAll es = (bs, none) ↔ List.Forall₂ (fun e b => fix e = (b, none)) es bs := by
  induction es generalizing bs with
  | nil =>
    rw [fixAll, List.forall₂_nil_left_iff, Prod.mk.injEq]
    exact ⟨fun h => h.1.symm, fun h => ⟨h.symm, rfl⟩⟩
  | cons e es ih =>
    constructor
    · intro h
      rw [fixAll] at h
      split at h
      · cases h
      · next b hfix =>
        obtain ⟨rfl, hnone⟩ := Prod.mk.inj h
        exact .cons hfix (ih.mp (Prod.ext rfl hnone))
    · intro h
      cases h with
      | cons hfix hbs => rw [fixAll, hfix, ih.mpr hbs]

theorem isFixed_of_fixAll {es bs : List Expr} (h : fixAll es = (bs, none)) :
    ∀ b ∈ bs, b.isFixed = true := by
  intro b hb
  obtain ⟨e, _, hfix⟩ := exists_of_mem_right (fixAll_eq_iff.mp h) hb
  exact isFixed_of_fix hfix

/-- A column that is not bound stops fixing. -/
def unresolved (ref : ColumnRef) : Failure :=
  .rejected (.unresolvedColumn ref.text)

/-- If each expression of a list is stopped by its first column, so is the list. -/
theorem snd_fixAll {es : List Expr}
    (h : ∀ e ∈ es, (fix e).2 = e.columns.head?.map unresolved) :
    (fixAll es).2 = (columnsOf es).head?.map unresolved := by
  induction es with
  | nil => rfl
  | cons e es ih =>
    have he := h e List.mem_cons_self
    have hes := ih fun x hx => h x (List.mem_cons_of_mem e hx)
    rw [fixAll, columnsOf, List.head?_append]
    split
    · next b failure hfix =>
      rw [hfix] at he
      cases hcolumns : e.columns.head? with
      | none =>
        rw [hcolumns] at he
        cases he
      | some ref =>
        rw [hcolumns] at he
        exact he
    · next b hfix =>
      rw [hfix] at he
      cases hcolumns : e.columns.head? with
      | none => exact hes
      | some ref =>
        rw [hcolumns] at he
        cases he

/-- A new call is left as new if its arguments cannot be fixed, and is settled over them if they
    can. -/
theorem fix_new {f : Func} {args : List Expr} (harity : f.arity.accepts args.length = true) :
    (∃ bs failure, fixAll args = (bs, some failure) ∧
        fix (call f args (.fresh f)) = (call f bs (.fresh f), some failure)) ∨
      ∃ bs state, fixAll args = (bs, none) ∧ settle f bs (.fresh f) = .ok state ∧
        fix (call f args (.fresh f)) = (call f bs state, none) := by
  have hnot : ¬ (CallState.fresh f).attributes.fixed = true := by
    simp [CallState.fresh, Attributes.unfixed]
  have hlength := length_fixAll args
  rw [fix, if_neg hnot]
  rcases hfixAll : fixAll args with ⟨bs, failure?⟩
  cases failure? with
  | some failure => exact .inl ⟨bs, failure, rfl, rfl⟩
  | none =>
    rw [hfixAll] at hlength
    obtain ⟨state, hsettle⟩ :=
      exists_settle (hlength.symm ▸ harity) (isFixed_of_fixAll hfixAll) (.fresh f)
    refine .inr ⟨bs, state, rfl, hsettle, ?_⟩
    simp only [hsettle]

/-- Fixing stops at the first column that is not bound, and for no other reason. -/
theorem BottomUp.snd_fix (h : e.BottomUp good) : (fix e).2 = e.columns.head?.map unresolved := by
  induction h with
  | literal v => rfl
  | column ref => rfl
  | field _ => rfl
  | subquery q => rfl
  | @new f args harity _ ih =>
    have hargs : (fixAll args).2 = (columnsOf args).head?.map unresolved := snd_fixAll ih
    rcases fix_new harity with ⟨bs, failure, hfixAll, hfix⟩ | ⟨bs, state, hfixAll, _, hfix⟩
    · rw [hfix, columns, ← hargs, hfixAll]
    · rw [hfix, columns, ← hargs, hfixAll]
  | @settled f args state harity hargs hfixed hsettle _ =>
    -- what is fixed is left alone, and has no column in it
    have hcall : (call f args state).BottomUp good := .settled harity hargs hfixed hsettle
    have hstate : (call f args state).isFixed = true := (of_settle hsettle).1
    rw [fix_of_isFixed hstate, hcall.columns_eq_nil hstate]
    rfl

/-- What holds of the expressions of a list and of what fixing makes of them holds of what fixing
    makes of the list. -/
theorem forall_fixAll {motive : Expr → Prop} {es : List Expr} (h : ∀ e ∈ es, motive e)
    (hfix : ∀ e ∈ es, motive (fix e).1) : ∀ b ∈ (fixAll es).1, motive b := by
  induction es with
  | nil => exact h
  | cons e es ih =>
    have he : motive (fix e).1 := hfix e List.mem_cons_self
    have hes := ih (fun x hx => h x (List.mem_cons_of_mem e hx))
      fun x hx => hfix x (List.mem_cons_of_mem e hx)
    intro b hb
    rw [fixAll] at hb
    split at hb
    · next b' _ hfix' =>
      -- what comes after is left as it was
      rw [hfix'] at he
      rcases List.mem_cons.mp hb with rfl | hb
      · exact he
      · exact h b (List.mem_cons_of_mem e hb)
    · next b' hfix' =>
      rw [hfix'] at he
      rcases List.mem_cons.mp hb with rfl | hb
      · exact he
      · exact hes b hb

theorem BottomUp.fix (h : e.BottomUp good) : (fix e).1.BottomUp good := by
  induction h with
  | literal v => exact .literal v
  | column ref => exact .column ref
  | field hf => exact .field hf
  | subquery q => exact .subquery q
  | @new f args harity hargs ih =>
    have hlength := length_fixAll args
    have hall : ∀ b ∈ (fixAll args).1, b.BottomUp good := forall_fixAll hargs ih
    rcases fix_new harity with ⟨bs, failure, hfixAll, hfix⟩ | ⟨bs, state, hfixAll, hsettle, hfix⟩
    · rw [hfixAll] at hlength hall
      rw [hfix]
      exact .new (hlength.symm ▸ harity) hall
    · rw [hfixAll] at hlength hall
      rw [hfix]
      exact .settled (hlength.symm ▸ harity) hall (isFixed_of_fixAll hfixAll) hsettle
  | @settled f args state harity hargs hfixed hsettle _ =>
    have hstate : (call f args state).isFixed = true := (of_settle hsettle).1
    rw [fix_of_isFixed hstate]
    exact .settled harity hargs hfixed hsettle

/-! ## §3. Binding and copying -/

theorem BottomUp.of_bind (h : e.BottomUp good)
    (hresolve : ∀ ref f, resolve ref = .ok f → good f.column) (hbind : bind resolve e = .ok b) :
    b.BottomUp good := by
  -- along the binding; the arguments of a settled call have to be fixed
  suffices hboth : e.BottomUp good → b.BottomUp good ∧ b.isFixed = true from (hboth h).1
  refine bind_induction
    (motive := fun e b => e.BottomUp good → b.BottomUp good ∧ b.isFixed = true)
    ?literal ?column ?field ?call ?subquery hbind
  case literal => exact fun v _ => ⟨.literal v, rfl⟩
  case column => exact fun ref f hf _ => ⟨.field (hresolve ref f hf), rfl⟩
  case field => exact fun f hf => ⟨hf, rfl⟩
  case subquery => exact fun q _ => ⟨.subquery q, rfl⟩
  case call =>
    intro f args bound state settled hargs hsettle hcall
    have hbefore : f.arity.accepts args.length = true ∧ ∀ arg ∈ args, arg.BottomUp good := by
      cases hcall with
      | new harity hargs => exact ⟨harity, hargs⟩
      | settled harity hargs _ _ => exact ⟨harity, hargs⟩
    have hbound : ∀ b ∈ bound, b.BottomUp good ∧ b.isFixed = true := by
      intro b hb
      obtain ⟨arg, harg, hboth⟩ := exists_of_mem_right hargs hb
      exact hboth (hbefore.2 arg harg)
    rw [hargs.length_eq] at hbefore
    refine ⟨?_, (of_settle hsettle).1⟩
    exact .settled hbefore.1 (fun b hb => (hbound b hb).1) (fun b hb => (hbound b hb).2) hsettle

/-- What is copied in a list comes from somewhere in the list. -/
theorem exists_of_mem_copyAll {es bs : List Expr} (h : registry.copyAll es = .ok bs) (hb : b ∈ bs) :
    ∃ e ∈ es, registry.copy e = .ok b := by
  induction es generalizing bs with
  | nil =>
    obtain rfl := Except.ok.inj h
    cases hb
  | cons e es ih =>
    rw [Registry.copyAll] at h
    split at h
    · cases h
    · next first hfirst =>
      split at h
      · cases h
      · next rest hrest =>
        obtain rfl := Except.ok.inj h
        rcases List.mem_cons.mp hb with rfl | hb
        · exact ⟨e, List.mem_cons_self, hfirst⟩
        · obtain ⟨x, hx, hcopy⟩ := ih hrest hb
          exact ⟨x, List.mem_cons_of_mem e hx, hcopy⟩

/-- A call that is made by name is new, and has an accepted count of arguments. -/
theorem bottomUp_of_create {name : String} {args : List Expr}
    (h : registry.create name args = .ok e) (hargs : ∀ arg ∈ args, arg.BottomUp good) :
    e.BottomUp good := by
  obtain ⟨f, _, harity, rfl⟩ := Registry.create_eq_ok_iff.mp h
  exact .new harity hargs

theorem BottomUp.of_copy (h : e.BottomUp good) (hcopy : registry.copy e = .ok b) :
    b.BottomUp good := by
  -- every call of the copy is made by name, over the copies of the arguments
  have hcall : ∀ {f : Func} {args : List Expr} {state : CallState} {b : Expr},
      (∀ arg ∈ args, ∀ {b}, registry.copy arg = .ok b → b.BottomUp good) →
      registry.copy (call f args state) = .ok b → b.BottomUp good := by
    intro f args state b ih hcopy
    rw [Registry.copy] at hcopy
    split at hcopy
    · cases hcopy
    · split at hcopy
      · cases hcopy
      · next copied hcopied =>
        refine bottomUp_of_create hcopy fun c hc => ?_
        obtain ⟨arg, harg, hcopyArg⟩ := exists_of_mem_copyAll hcopied hc
        exact ih arg harg hcopyArg
  induction h generalizing b with
  | literal v =>
    obtain rfl := Except.ok.inj hcopy
    exact .literal v
  | column ref =>
    obtain rfl := Except.ok.inj hcopy
    exact .column ref
  | field hf =>
    obtain rfl := Except.ok.inj hcopy
    exact .field hf
  | subquery q =>
    obtain rfl := Except.ok.inj hcopy
    exact .subquery q
  | new _ _ ih => exact hcall ih hcopy
  | settled _ _ _ _ ih => exact hcall ih hcopy

/-- However an expression came about, what is inferred in it was inferred from the bottom up. -/
theorem Formed.bottomUp (h : e.Formed good) : e.BottomUp good := by
  induction h with
  | literal v => exact .literal v
  | column ref => exact .column ref
  | field hf => exact .field hf
  | subquery q => exact .subquery q
  | named hcreate _ ih => exact bottomUp_of_create hcreate ih
  | builtin harity _ ih => exact .new harity ih
  | bound _ hresolve hbind ih => exact ih.of_bind hresolve hbind
  | fixed _ ih => exact ih.fix
  | copied _ hcopy ih => exact ih.of_copy hcopy

/-! ## §4. Bounds -/

/-- Every length in the expression is in range. -/
theorem BottomUp.maxLength_le (h : e.BottomUp good)
    (hgood : ∀ column, good column → column.maxLength ≤ maxFieldLength) :
    e.attributes.maxLength ≤ maxFieldLength := by
  induction h with
  | literal v => exact v.maxLength_le
  | column ref => exact Nat.zero_le _
  | field hf => exact hgood _ hf
  | subquery q => exact q.fieldType.defaultLength_le
  | new _ _ _ => exact Nat.zero_le _
  | @settled f args state _ _ _ hsettle ih =>
    have hargs : Attributes.LengthsInRange (attributesOf args) := by
      intro a ha
      obtain ⟨arg, harg, rfl⟩ := List.mem_map.mp ha
      exact ih arg harg
    have hlength : state.attributes.maxLength =
        ((extentRule f args).extent (attributesOf args) .unfixed).1 :=
      congrArg Prod.fst (extent_of_settle hsettle)
    show state.attributes.maxLength ≤ maxFieldLength
    rw [hlength]
    exact ExtentRule.length_extent_le (ownInRange_extentRule f args) hargs (Nat.zero_le _)

/-- What a fixed call of the function over the arguments keeps to. -/
structure KeepsBounds (f : Func) (args : List Expr) (a : Attributes) : Prop where
  arguments  : ∀ arg ∈ args, arg.isFixed = true
  /-- Length and scale are those of the rule that the function takes. -/
  extent     : a.extent = (extentRule f args).extent (attributesOf args) .unfixed
  /-- A value of the decimal rule, with or without the digits that a division adds, is one that a
      fixed-point value can be. -/
  fixedPoint : extentRule f args = .decimal ∨ extentRule f args = .quotient →
    ExtentRule.FixedPoint a.extent
  whole      : f = .builtin .intDiv → a.scale = .fixed 0 ∧ a.maxLength ≤ 65

theorem keepsBounds_of_settle {f : Func} {args : List Expr} {state : CallState}
    (hargs : ∀ arg ∈ args, arg.isFixed = true) (h : settle f args (.fresh f) = .ok state) :
    KeepsBounds f args state.attributes := by
  have hextent := extent_of_settle h
  refine ⟨hargs, hextent, ?_, ?_⟩
  · rintro (hrule | hrule)
    · rw [hextent, hrule]
      exact ExtentRule.fixedPoint_decimal _ _
    · rw [hextent, hrule]
      exact ExtentRule.fixedPoint_quotient _ _
  · rintro rfl
    have hlength : state.attributes.maxLength = Attributes.widestIntPart (attributesOf args) :=
      congrArg Prod.fst hextent
    refine ⟨congrArg Prod.snd hextent, ?_⟩
    rw [hlength]
    exact Attributes.widestIntPart_le _

/-- Inference in what was formed never fails: fixing stops at the first column that is not bound, and
    binding at the first that does not resolve. Every length is in range, and every fixed call keeps
    to the bounds of its rule. -/
theorem inference_of_formed {e : Expr}
    (h : e.Formed fun column => column.maxLength ≤ maxFieldLength) :
    e.Accepted ∧ (fix e).2 = e.columns.head?.map unresolved ∧
      (∀ resolve failure, bind resolve e = .error failure ↔
        FirstFailure resolve e.columns failure) ∧
      (∀ x : Expr, x.PartOf e → x.attributes.maxLength ≤ maxFieldLength) ∧
      ∀ f args state, (call f args state).PartOf e → state.attributes.fixed = true →
        KeepsBounds f args state.attributes := by
  have hbottomUp := h.bottomUp
  have haccepted := hbottomUp.accepted
  refine ⟨haccepted, hbottomUp.snd_fix, fun _ _ => bind_eq_error_iff haccepted, ?_, ?_⟩
  · intro x hpart
    exact (hbottomUp.of_partOf hpart).maxLength_le fun _ hcolumn => hcolumn
  · intro f args state hpart hfixed
    cases hbottomUp.of_partOf hpart with
    | new _ _ => cases hfixed
    | settled _ _ hargs hsettle => exact keepsBounds_of_settle hargs hsettle

end Expr

namespace Plan.Shop

/-- A column of the greatest length, and of a scale that no fixed-point value has. -/
def wide : BoundColumn :=
  ⟨1, "orders", ⟨"wide", .newdecimal, maxFieldLength, .fixed 200, true⟩⟩

/-- `wide * 1.5 / 0`. -/
def wideQuotient : Expr :=
  .apply (.builtin .div)
    [.apply (.builtin .mul) [.field wide, .literal (.decimal "1.5")], .literal (.int 0)]

/-- `wide * 1.5 / 0 > missing`. -/
def wideAboveMissing : Expr :=
  .gt wideQuotient (.column ⟨none, "missing"⟩)

theorem formed_wideQuotient :
    wideQuotient.Formed fun column => column.maxLength ≤ maxFieldLength := by
  refine .builtin rfl (List.forall_mem_cons.mpr ⟨.builtin rfl ?_, ?_⟩)
  · exact List.forall_mem_cons.mpr
      ⟨.field (Nat.le_refl _), List.forall_mem_singleton.mpr (.literal _)⟩
  · exact List.forall_mem_singleton.mpr (.literal _)

/-- The comparison is not fixed, since a column in it is not bound. The quotient is, at the greatest
    scale there is. -/
theorem inference_of_formed_wideQuotient :
    wideAboveMissing.Formed (fun column => column.maxLength ≤ maxFieldLength) ∧
      wideAboveMissing.fix.2 = some (Expr.unresolved ⟨none, "missing"⟩) ∧
      wideQuotient.fix.1.Formed (fun column => column.maxLength ≤ maxFieldLength) ∧
      ∃ args state, wideQuotient.fix = (.call (.builtin .div) args state, none) ∧
        Expr.KeepsBounds (.builtin .div) args state.attributes ∧
        state.attributes.extent = (65, .fixed 30) := by
  have hcomparison : wideAboveMissing.Formed fun column => column.maxLength ≤ maxFieldLength := by
    refine .builtin rfl (List.forall_mem_cons.mpr ⟨formed_wideQuotient, ?_⟩)
    exact List.forall_mem_singleton.mpr (.column _)
  obtain ⟨_, hstopped, _⟩ := Expr.inference_of_formed hcomparison
  obtain ⟨_, _, _, _, hbounds⟩ := Expr.inference_of_formed formed_wideQuotient.fixed
  refine ⟨hcomparison, hstopped, formed_wideQuotient.fixed, ?_⟩
  have hrun : wideQuotient.fix.2 = none := by decide +kernel
  have hextent : wideQuotient.fix.1.attributes.extent = (65, .fixed 30) := by decide +kernel
  have hfixed : wideQuotient.fix.1.isFixed = true := by decide +kernel
  have hcases := @Expr.fix_new (.builtin .div) wideQuotient.args rfl
  rcases hcases with ⟨bs, failure, _, hfix⟩ | ⟨args, state, _, _, hfix⟩
  · have hsome : wideQuotient.fix.2 = some failure := congrArg Prod.snd hfix
    rw [hrun] at hsome
    cases hsome
  · have hcall : wideQuotient.fix.1 = .call (.builtin .div) args state := congrArg Prod.fst hfix
    rw [hcall] at hbounds hextent hfixed
    exact ⟨args, state, hfix, hbounds _ _ _ .refl hfixed, hextent⟩

end Plan.Shop

end PushDown
