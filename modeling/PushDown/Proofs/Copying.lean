import PushDown.Proofs.Building
import PushDown.Proofs.Ownership
import PushDown.Proofs.Rebinding

/-! # Copies

    A copy is made without looking at the original's calls as such: each is made
    anew from the name of its function. That this gives back the same function
    rests on the registry: what is found under any name is found under its own
    (`Named.func?_name`), and whatever is registered later, it stays so
    (`func?_registerEach`).

    So a copy of an expression whose calls were made through a registry is its
    bare form (`Made.copy_eq_ok`), also when the registry has grown since. The
    text and the hash code do not depend on what was inferred, and what binding
    inferred is settled: fixing the copy infers it again.
-/

namespace PushDown

/-! ## §1. Registrations -/

namespace Registry

variable {registry registry' : Registry} {name : String} {f : Func}

/-- The declarations are registered in order. One that is rejected changes nothing. -/
def registerEach (registry : Registry) : List FunctionDef → Registry
  | [] => registry
  | declaration :: declarations =>
    match registry.register declaration with
    | .ok next => next.registerEach declarations
    | .error _ => registry.registerEach declarations

theorem Named.registerEach {declarations : List FunctionDef} (h : registry.Named) :
    (registry.registerEach declarations).Named := by
  induction declarations generalizing registry with
  | nil => exact h
  | cons declaration rest ih =>
    rw [Registry.registerEach]
    split
    · next hregister => exact ih (h.register hregister)
    · -- a rejected declaration leaves the registry as it was
      exact ih h

/-- What a name finds, it finds after every registration. -/
theorem func?_of_register {declaration : FunctionDef} (h : registry.func? name = some f)
    (hregister : registry.register declaration = .ok registry') : registry'.func? name = some f := by
  obtain ⟨_, hfunctions⟩ := register_eq_ok_iff.mp hregister
  rw [func?] at h
  rw [func?, hfunctions, List.lookup_append, h, Option.some_or]

theorem func?_registerEach (h : registry.func? name = some f) (declarations : List FunctionDef) :
    (registry.registerEach declarations).func? name = some f := by
  induction declarations generalizing registry with
  | nil => exact h
  | cons declaration rest ih =>
    rw [registerEach]
    split
    · next hregister => exact ih (func?_of_register h hregister)
    · exact ih h

/-- A function that is found under any name is found under its own. -/
theorem Named.func?_name (h : registry.Named) (hfound : registry.func? name = some f) :
    registry.func? f.name = some f := by
  have hname : Text.lowerCase name = Text.lowerCase f.name :=
    h (Text.lowerCase name, f) (mem_of_func? hfound)
  rw [func?, ← hname]
  exact hfound

end Registry

namespace Expr

variable {resolve : ColumnRef → Except Failure BoundColumn} {registry : Registry} {e b : Expr}

/-! ## §2. Expressions that are made by name -/

/-- Every call in the expression was made by some name. What was inferred about it since can be
    anything. -/
inductive Made (registry : Registry) : Expr → Prop
  | literal (v : Value) : Made registry (.literal v)
  | column (ref : ColumnRef) : Made registry (.column ref)
  | field (f : BoundColumn) : Made registry (.field f)
  | subquery (q : Subquery) : Made registry (.subquery q)
  | call {name : String} {f : Func} {args : List Expr} {state : CallState} :
      registry.create name args = .ok (.apply f args) →
      (∀ arg ∈ args, Made registry arg) → Made registry (.call f args state)

/-- What was made stays made, whatever is registered later. -/
theorem Made.registerEach (h : e.Made registry) (declarations : List FunctionDef) :
    e.Made (registry.registerEach declarations) := by
  induction h with
  | literal v => exact .literal v
  | column ref => exact .column ref
  | field f => exact .field f
  | subquery q => exact .subquery q
  | call hcreate _ ih =>
    obtain ⟨g, hfound, harity, heq⟩ := Registry.create_eq_ok_iff.mp hcreate
    have hlater := Registry.func?_registerEach hfound declarations
    have hagain := Registry.create_eq_ok_iff.mpr ⟨g, hlater, harity, heq⟩
    exact .call hagain ih

/-- Binding keeps the calls, and the number of their arguments. -/
theorem Made.of_bind (h : e.Made registry) (hbind : bind resolve e = .ok b) : b.Made registry := by
  refine bind_induction (motive := fun e b => e.Made registry → b.Made registry)
    ?literal ?column ?field ?call ?subquery hbind h
  case literal => exact fun v _ => .literal v
  case column => exact fun ref f _ _ => .field f
  case field => exact fun f _ => .field f
  case subquery => exact fun q _ => .subquery q
  case call =>
    intro f args bound state settled hargs _ hcall
    cases hcall with
    | call hcreate hmade =>
      -- bound arguments are as many, so the function accepts them, too
      obtain ⟨g, hfound, harity, heq⟩ := Registry.create_eq_ok_iff.mp hcreate
      cases heq
      rw [hargs.length_eq] at harity
      refine .call (Registry.create_eq_ok_iff.mpr ⟨f, hfound, harity, rfl⟩) fun b hb => ?_
      obtain ⟨arg, harg, hbound⟩ := exists_of_mem_right hargs hb
      exact hbound (hmade arg harg)

/-! ## §3. A copy is the bare form -/

theorem copyAll_eq_ok {es : List Expr} (h : ∀ e ∈ es, registry.copy e = .ok e.bare) :
    registry.copyAll es = .ok (es.map bare) := by
  induction es with
  | nil => rfl
  | cons e es ih =>
    have he := h e List.mem_cons_self
    have hes := ih fun x hx => h x (List.mem_cons_of_mem e hx)
    simp only [Registry.copyAll, he, hes, List.map_cons]

theorem Made.copy_eq_ok (hnamed : registry.Named) (h : e.Made registry) :
    registry.copy e = .ok e.bare := by
  induction h with
  | literal v => rfl
  | column ref => rfl
  | field f => rfl
  | subquery q => rfl
  | @call name f args state hcreate _ ih =>
    obtain ⟨g, hfound, harity, heq⟩ := Registry.create_eq_ok_iff.mp hcreate
    cases heq
    have hown : registry.func? f.name = some f := hnamed.func?_name hfound
    have hnative : registry.checkNative f = .ok () := by
      rw [Registry.checkNative, Registry.isNative, hown]
      rfl
    -- the arguments of the copy are as many, so that they are accepted again
    have hanew : registry.create f.name (args.map bare) = .ok (.apply f (args.map bare)) :=
      Registry.create_eq_ok_iff.mpr ⟨f, hown, by rwa [List.length_map], rfl⟩
    rw [Registry.copy, hnative]
    simp only [copyAll_eq_ok ih, hanew, bare_call]

/-! ## §4. What a bare form keeps -/

theorem variableName?_map_bare (args : List Expr) :
    variableName? (args.map bare) = variableName? args := by
  match args with
  | [] => rfl
  | [.literal v] => rfl
  | [.column ref] => rfl
  | [.field f] => rfl
  | [.subquery q] => rfl
  | [.call f args state] => rw [List.map_singleton, bare_call]; rfl
  | _ :: _ :: _ => simp [variableName?]

theorem label_bare (e : Expr) : e.bare.label = e.label := by
  induction e using Expr.ind with
  | literal v => rfl
  | column ref => rfl
  | field f => rfl
  | subquery q => rfl
  | call f args state ih =>
    have hlabels : (args.map bare).map label = args.map label := by
      rw [List.map_map]
      exact List.map_congr_left ih
    rw [bare_call, apply, label, label, labels_eq_map, labels_eq_map, variableName?_map_bare, hlabels]

theorem alike_bare (e : Expr) : e.bare.alike e = true := by
  have hlabel : e.bare.label = e.label := label_bare e
  cases e with
  | literal v => exact alike_refl _
  | column ref => exact alike_refl _
  | field f => exact alike_refl _
  | subquery q => exact alike_refl _
  | call f args state =>
    rw [bare_call] at hlabel ⊢
    simp only [apply] at hlabel ⊢
    simp [alike, hlabel]

theorem hashArgs_map_bare {es : List Expr} (h : ∀ e ∈ es, e.bare.hashCode = e.hashCode)
    (code : UInt64) : hashArgs code (es.map bare) = hashArgs code es := by
  induction es generalizing code with
  | nil => rfl
  | cons e es ih =>
    have he := h e List.mem_cons_self
    have hes := ih fun x hx => h x (List.mem_cons_of_mem e hx)
    rw [List.map_cons, hashArgs, hashArgs, he, hes]

theorem hashCode_bare (e : Expr) : e.bare.hashCode = e.hashCode := by
  induction e using Expr.ind with
  | literal v => rfl
  | column ref => rfl
  | field f => rfl
  | subquery q => rfl
  | call f args state ih => rw [bare_call, apply, hashCode, hashCode, hashArgs_map_bare ih]

end Expr

/-! ## §5. Round trips -/

/-- What was bound can be copied through the registry by which its calls were made, whatever was
    registered later. No call of the copy is fixed, the copy is the same expression, and fixing it gives
    what was copied. -/
theorem PlanTree.copy_of_bind (tree : PlanTree) (scope : NodeId)
    (declarations later : List FunctionDef) {x b : Expr}
    (hmade : x.Made (Registry.builtins.registerEach declarations))
    (hbind : tree.bind scope x = .ok b) :
    ∃ copied,
      ((Registry.builtins.registerEach declarations).registerEach later).copy b = .ok copied ∧
      (∀ f args state, (Expr.call f args state).PartOf copied → state.attributes.fixed = false) ∧
      copied.alike b = true ∧ copied.hashCode = b.hashCode ∧ copied.fix = (b, none) := by
  have hnamed : ((Registry.builtins.registerEach declarations).registerEach later).Named :=
    Registry.named_builtins.registerEach.registerEach
  have hcopy := ((hmade.registerEach later).of_bind hbind).copy_eq_ok hnamed
  have hsettled : b.Settled := Expr.settled_of_bind hbind
  refine ⟨b.bare, hcopy, fun f args state hpart => ?_, b.alike_bare, b.hashCode_bare,
    hsettled.fix_bare⟩
  rw [Expr.state_of_partOf_bare hpart]
  rfl

namespace Plan.Shop

/-- A user function. -/
def myHash : FunctionDef :=
  ⟨"My_Hash", .exactly 1, .string, true, none⟩

/-- Of these the second and the third are rejected: the name is taken, by the first and by a built-in
    function. -/
def declared : List FunctionDef :=
  [myHash, ⟨"MY_HASH", .atLeast 0, .real, false, none⟩, ⟨"Abs", .exactly 2, .real, false, none⟩]

/-- A function that is registered later. -/
def salted : FunctionDef :=
  ⟨"salted", .atLeast 1, .string, false, none⟩

/-- `My_Hash(abs(amount))`. -/
def hashed : Expr :=
  .apply (.user myHash) [.apply (.builtin .abs) [.column ⟨none, "amount"⟩]]

/-- What is made as `my_HASH(ABS(amount))` is bound at the join, and is copied from there once another
    function was registered. -/
theorem copy_of_bind_hashed :
    hashed.Made (Registry.builtins.registerEach declared) ∧
      ∃ b copied, plan.tree.bind 2 hashed = .ok b ∧
        ((Registry.builtins.registerEach declared).registerEach [salted]).copy b = .ok copied ∧
          copied.alike b = true ∧ copied.hashCode = b.hashCode ∧ copied.fix = (b, none) := by
  have hmyHash : (Registry.builtins.registerEach declared).create "my_HASH"
      [.apply (.builtin .abs) [.column ⟨none, "amount"⟩]] = .ok hashed :=
    Registry.create_eq_ok_iff.mpr ⟨.user myHash, by decide +kernel, rfl, rfl⟩
  have habs : (Registry.builtins.registerEach declared).create "ABS" [.column ⟨none, "amount"⟩] =
      .ok (.apply (.builtin .abs) [.column ⟨none, "amount"⟩]) :=
    Registry.create_eq_ok_iff.mpr ⟨.builtin .abs, by decide +kernel, rfl, rfl⟩
  have hmade : hashed.Made (Registry.builtins.registerEach declared) := by
    refine .call hmyHash (List.forall_mem_singleton.mpr (.call habs ?_))
    exact List.forall_mem_singleton.mpr (.column _)
  have hrun : (plan.tree.bind 2 hashed).map (fun _ => ()) = .ok () := by decide +kernel
  obtain ⟨b, hb, _⟩ := Result.exists_of_map hrun
  obtain ⟨copied, hcopy, _, halike, hcode, hfix⟩ := plan.tree.copy_of_bind 2 declared [salted] hmade hb
  exact ⟨hmade, b, copied, hb, hcopy, halike, hcode, hfix⟩

end Plan.Shop

end PushDown
