import PushDown.Proofs.Binding
import PushDown.Registry

/-! # What is written and what is copied

    To write an expression for a shard, its calls are looked at one by one, each
    before its arguments (`Expr.functions`). The first function that is not
    registered stops it. Otherwise the text is the label.

    A copy is made in the same order, but each call is made anew by name, over
    its copied arguments. If the registry accepts as many arguments as the call
    has, that adds no way to fail. So what can be copied is what can be written,
    and the failures are the same (`render_and_copy`).
-/

namespace PushDown

/-! ## §1. Functions in an expression -/

namespace Expr

mutual

/-- The functions of the calls in the expression, each call before its arguments, left to right. -/
def functions : Expr → List Func
  | call f args _ => f :: functionsOf args
  | literal _ | column _ | field _ | subquery _ => []

/-- The functions of the calls in a list of expressions. -/
def functionsOf : List Expr → List Func
  | [] => []
  | e :: es => functions e ++ functionsOf es

end

theorem functionsOf_eq_flatMap (es : List Expr) : functionsOf es = es.flatMap functions := by
  induction es with
  | nil => rfl
  | cons e es ih => rw [functionsOf, ih, List.flatMap_cons]

/-- A function is listed when it is that of some call, at whatever depth. -/
theorem mem_functions_iff {e : Expr} {f : Func} :
    f ∈ e.functions ↔ ∃ args state, (call f args state).PartOf e := by
  induction e using Expr.ind with
  | call g brgs inner ih =>
    rw [functions, functionsOf_eq_flatMap, List.mem_cons, List.mem_flatMap]
    constructor
    · rintro (rfl | ⟨arg, harg, hf⟩)
      · exact ⟨brgs, inner, .refl⟩
      · obtain ⟨args, state, hpart⟩ := (ih arg harg).mp hf
        exact ⟨args, state, .arg harg hpart⟩
    · rintro ⟨args, state, hpart⟩
      rcases partOf_call_iff.mp hpart with heq | ⟨arg, harg, hpart⟩
      · cases heq
        exact .inl rfl
      · exact .inr ⟨arg, harg, (ih arg harg).mpr ⟨args, state, hpart⟩⟩
  | literal v => exact iff_of_false List.not_mem_nil fun ⟨_, _, hpart⟩ => nomatch hpart
  | column ref => exact iff_of_false List.not_mem_nil fun ⟨_, _, hpart⟩ => nomatch hpart
  | field f => exact iff_of_false List.not_mem_nil fun ⟨_, _, hpart⟩ => nomatch hpart
  | subquery q => exact iff_of_false List.not_mem_nil fun ⟨_, _, hpart⟩ => nomatch hpart

end Expr

namespace Registry

variable {registry : Registry} {e : Expr} {error : PlanError}

/-! ## §2. Registered functions -/

/-- A function is registered under the name, which is looked up in lower case. -/
def Registers (registry : Registry) (name : String) : Prop :=
  ∃ f, (Text.lowerCase name, f) ∈ registry.functions

theorem isNative_iff {name : String} :
    registry.isNative name = true ↔ registry.Registers name := by
  rw [isNative, func?, List.lookup_isSome_iff]
  constructor
  · rintro ⟨⟨key, f⟩, hentry, hkey⟩
    obtain rfl := eq_of_beq hkey
    exact ⟨f, hentry⟩
  · rintro ⟨f, hentry⟩
    exact ⟨_, hentry, beq_self_eq_true _⟩

theorem create_eq_ok_iff {name : String} {args : List Expr} {e : Expr} :
    registry.create name args = .ok e ↔
      ∃ f, registry.func? name = some f ∧ f.arity.accepts args.length = true ∧
        e = .apply f args := by
  unfold create Expr.create
  constructor
  · intro h
    split at h
    · next f hfound =>
      split at h
      · next harity => exact ⟨f, hfound, harity, (Except.ok.inj h).symm⟩
      · cases h
    · cases h
  · rintro ⟨f, hfound, harity, rfl⟩
    simp [hfound, harity]

/-- Why a function stops an expression from being written or copied, if it does. -/
def rejection? (registry : Registry) (f : Func) : Option PlanError :=
  if registry.isNative f.name then none else some (.unsupported f.name)

theorem rejection?_eq_none_iff {f : Func} :
    registry.rejection? f = none ↔ registry.Registers f.name := by
  simp [rejection?, isNative_iff]

theorem rejection?_eq_some_iff {f : Func} :
    registry.rejection? f = some error ↔
      ¬ registry.Registers f.name ∧ error = .unsupported f.name := by
  rw [rejection?, ← isNative_iff]
  split
  · next hnative => simp [hnative]
  · next hnative => simp [hnative, eq_comm]

theorem error?_checkNative (f : Func) :
    Result.error? (registry.checkNative f) = registry.rejection? f := by
  unfold checkNative rejection?
  split <;> rfl

/-- The error names the first function of the list that is not registered. -/
def FirstMissing (registry : Registry) (functions : List Func) (error : PlanError) : Prop :=
  ∃ before f after, functions = before ++ f :: after ∧
    (∀ g ∈ before, registry.Registers g.name) ∧ ¬ registry.Registers f.name ∧
    error = .unsupported f.name

theorem firstMissing_iff {functions : List Func} :
    registry.FirstMissing functions error ↔
      functions.findSome? registry.rejection? = some error := by
  simp only [List.findSome?_eq_some_iff, FirstMissing, rejection?_eq_none_iff,
    rejection?_eq_some_iff]
  constructor
  · rintro ⟨before, f, after, hfunctions, hbefore, hf⟩
    exact ⟨before, f, after, hfunctions, hf, hbefore⟩
  · rintro ⟨before, f, after, hfunctions, hf, hbefore⟩
    exact ⟨before, f, after, hfunctions, hbefore, hf⟩

/-! ## §3. Writing -/

/-- If each expression of a list is stopped by its first function that is not registered, so is the
    list. -/
theorem error?_checkExprs {es : List Expr}
    (h : ∀ e ∈ es, Result.error? (registry.checkExpr e) =
      e.functions.findSome? registry.rejection?) :
    Result.error? (registry.checkExprs es) =
      (Expr.functionsOf es).findSome? registry.rejection? := by
  induction es with
  | nil => rfl
  | cons e es ih =>
    have he := h e List.mem_cons_self
    have hes := ih fun x hx => h x (List.mem_cons_of_mem e hx)
    rw [checkExprs, Expr.functionsOf, List.findSome?_append, ← he, ← hes]
    -- what comes after a failure is not looked at
    cases registry.checkExpr e with
    | error found => rfl
    | ok _ => rfl

/-- The check stops at the first function that is not registered. -/
theorem error?_checkExpr (e : Expr) :
    Result.error? (registry.checkExpr e) = e.functions.findSome? registry.rejection? := by
  induction e using Expr.ind with
  | call f args state ih =>
    rw [checkExpr, Expr.functions, List.findSome?_cons, ← error?_checkNative f,
      ← error?_checkExprs ih]
    -- a call is looked at before its arguments
    cases registry.checkNative f with
    | error found => rfl
    | ok _ => rfl
  | literal v => rfl
  | column ref => rfl
  | field f => rfl
  | subquery q => rfl

theorem error?_render (e : Expr) :
    Result.error? (registry.render e) = Result.error? (registry.checkExpr e) := by
  rw [render]
  cases registry.checkExpr e with
  | error found => rfl
  | ok _ => rfl

/-- What is written is the label. -/
theorem eq_label_of_render {text : String} (h : registry.render e = .ok text) : text = e.label := by
  obtain ⟨_, _, hlabel⟩ := Result.exists_of_map h
  exact hlabel.symm

/-! ## §4. Copying -/

/-- Whatever is registered under the name of a call in the expression accepts as many arguments as the
    call has. -/
def Accepts (registry : Registry) (e : Expr) : Prop :=
  ∀ f args state, (Expr.call f args state).PartOf e →
    ∀ g, registry.func? f.name = some g → g.arity.accepts args.length = true

theorem accepts_call_iff {f : Func} {args : List Expr} {state : CallState} :
    registry.Accepts (.call f args state) ↔
      (∀ g, registry.func? f.name = some g → g.arity.accepts args.length = true) ∧
        ∀ arg ∈ args, registry.Accepts arg := by
  constructor
  · exact fun h => ⟨h f args state .refl,
      fun arg harg g brgs inner hpart => h g brgs inner (.arg harg hpart)⟩
  · rintro ⟨hcall, hargs⟩ g brgs inner hpart
    rcases Expr.partOf_call_iff.mp hpart with heq | ⟨arg, harg, hpart⟩
    · cases heq
      exact hcall
    · exact hargs arg harg g brgs inner hpart

theorem length_copyAll {es copied : List Expr} (h : registry.copyAll es = .ok copied) :
    copied.length = es.length := by
  induction es generalizing copied with
  | nil =>
    obtain rfl := Except.ok.inj h
    rfl
  | cons e es ih =>
    rw [copyAll] at h
    split at h
    · cases h
    · split at h
      · cases h
      · next hrest =>
        obtain rfl := Except.ok.inj h
        rw [List.length_cons, List.length_cons, ih hrest]

/-- If each expression of a list fails to be copied as it fails the check, so does the list. -/
theorem error?_copyAll {es : List Expr}
    (h : ∀ e ∈ es, Result.error? (registry.copy e) = Result.error? (registry.checkExpr e)) :
    Result.error? (registry.copyAll es) = Result.error? (registry.checkExprs es) := by
  induction es with
  | nil => rfl
  | cons e es ih =>
    have he := h e List.mem_cons_self
    have hes := ih fun x hx => h x (List.mem_cons_of_mem e hx)
    rw [copyAll, checkExprs]
    cases hcopy : registry.copy e with
    | error found =>
      rw [hcopy] at he
      rw [Result.error?_eq_some_iff.mp he.symm]
      rfl
    | ok copied =>
      rw [hcopy] at he
      obtain ⟨_, hcheck⟩ := Result.error?_eq_none_iff.mp he.symm
      rw [hcheck]
      show _ = Result.error? (registry.checkExprs es)
      rw [← hes]
      cases registry.copyAll es with
      | error found => rfl
      | ok rest => rfl

/-- A call that can be made anew adds no failure to those of its arguments. -/
theorem error?_copy (h : registry.Accepts e) :
    Result.error? (registry.copy e) = Result.error? (registry.checkExpr e) := by
  induction e using Expr.ind with
  | call f args state ih =>
    obtain ⟨hcall, hargs⟩ := accepts_call_iff.mp h
    have hcopyAll := error?_copyAll fun arg harg => ih arg harg (hargs arg harg)
    rw [copy, checkExpr]
    cases hnative : registry.checkNative f with
    | error found => rfl
    | ok _ =>
      show _ = Result.error? (registry.checkExprs args)
      rw [← hcopyAll]
      cases hcopied : registry.copyAll args with
      | error found => rfl
      | ok copied =>
        have hnone : registry.rejection? f = none := by
          rw [← error?_checkNative, hnative]
          rfl
        have hregistered := isNative_iff.mpr (rejection?_eq_none_iff.mp hnone)
        obtain ⟨g, hg⟩ := Option.isSome_iff_exists.mp hregistered
        have harity : g.arity.accepts copied.length = true := by
          rw [length_copyAll hcopied]
          exact hcall g hg
        show Result.error? (registry.create f.name copied) = none
        rw [create_eq_ok_iff.mpr ⟨g, hg, harity, rfl⟩]
        rfl
  | literal v => rfl
  | column ref => rfl
  | field f => rfl
  | subquery q => rfl

/-! ## §5. What leaves the planner -/

/-- An expression is written when all of its functions are registered, and then its text is its
    label. Otherwise the first function that is not registered is the reason. If the registry accepts
    as many arguments as the calls have, an expression is copied when it is written, and where it is
    not the reason is the same. -/
theorem render_and_copy (registry : Registry) (e : Expr) :
    ((∃ text, registry.render e = .ok text) ↔
      ∀ f args state, (Expr.call f args state).PartOf e → registry.Registers f.name) ∧
    (∀ text, registry.render e = .ok text → text = e.label) ∧
    (∀ error, registry.render e = .error error ↔ registry.FirstMissing e.functions error) ∧
    (registry.Accepts e →
      ((∃ copied, registry.copy e = .ok copied) ↔ ∃ text, registry.render e = .ok text) ∧
      ∀ error, registry.copy e = .error error ↔ registry.render e = .error error) := by
  have hrender : Result.error? (registry.render e) = e.functions.findSome? registry.rejection? := by
    rw [error?_render, error?_checkExpr]
  refine ⟨?_, fun text => eq_label_of_render, fun error => ?_, fun haccepts => ?_⟩
  · rw [← Result.error?_eq_none_iff, hrender, List.findSome?_eq_none_iff]
    simp only [Expr.mem_functions_iff, rejection?_eq_none_iff]
    constructor
    · exact fun h f args state hpart => h f ⟨args, state, hpart⟩
    · rintro h f ⟨args, state, hpart⟩
      exact h f args state hpart
  · rw [← Result.error?_eq_some_iff, hrender, firstMissing_iff]
  · have hcopy : Result.error? (registry.copy e) = Result.error? (registry.render e) := by
      rw [error?_copy haccepts, error?_render]
    simp only [← Result.error?_eq_none_iff, ← Result.error?_eq_some_iff, hcopy, implies_true,
      and_self]

end Registry

namespace Plan.Shop

/-- A user function that is registered, under the name `mask`. -/
def mask : FunctionDef :=
  ⟨"Mask", .exactly 1, .string, false, none⟩

/-- A user function that is not. -/
def digest : FunctionDef :=
  ⟨"Digest", .exactly 1, .string, false, none⟩

/-- The built-in functions and `Mask`. -/
def masking : Registry :=
  ⟨Registry.builtins.functions ++ [("mask", .user mask)]⟩

/-- `abs(Mask(Digest(email)))`. -/
def maskedDigest : Expr :=
  .apply (.builtin .abs)
    [.apply (.user mask) [.apply (.user digest) [.column ⟨none, "email"⟩]]]

/-- `Digest` is named in both failures, two calls deep. -/
theorem render_and_copy_maskedDigest :
    masking.Accepts maskedDigest ∧
      masking.FirstMissing maskedDigest.functions (.unsupported "Digest") ∧
      masking.copy maskedDigest = .error (.unsupported "Digest") := by
  have haccepts : masking.Accepts maskedDigest := by
    refine Registry.accepts_call_iff.mpr ⟨by decide +kernel, List.forall_mem_singleton.mpr ?_⟩
    refine Registry.accepts_call_iff.mpr ⟨by decide +kernel, List.forall_mem_singleton.mpr ?_⟩
    refine Registry.accepts_call_iff.mpr ⟨by decide +kernel, List.forall_mem_singleton.mpr ?_⟩
    exact fun _ _ _ hpart => nomatch hpart
  have hrender : masking.render maskedDigest = .error (.unsupported "Digest") := by decide +kernel
  obtain ⟨_, _, hfirst, hcopied⟩ := masking.render_and_copy maskedDigest
  exact ⟨haccepts, (hfirst _).mp hrender, ((hcopied haccepts).2 _).mpr hrender⟩

end Plan.Shop

end PushDown
