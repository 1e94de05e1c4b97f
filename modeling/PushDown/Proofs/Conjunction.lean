import PushDown.Proofs.Planning

/-! # Planning conjunctions

    A conjunction is planned as its conjuncts are, one after the other, and all
    or none of them are. It fails with the first conjunct that cannot be bound,
    before anything is placed, and leaves the plan as it was
    (`planFilter_eq_error_iff`). Otherwise its second part is planned on what the
    first part left (`planFilter_append`). How the conjuncts are nested plays no
    part: a nest over a list of predicates has this list as its conjuncts
    (`nests_iff`).

    Planning adds to one record, in which all entries keep their places and
    their owners (`extendedAt_of_planFilter`).
-/

namespace PushDown

/-! ## §1. Nests of conjunctions -/

namespace Expr

variable {e : Expr} {es : List Expr}

/-- Whether the expression is a conjunction of its arguments. -/
def isConjunction : Expr → Bool
  | call f _ _ => f == .builtin .and
  | literal _ | column _ | field _ | subquery _ => false

/-- The expression is a nest of conjunctions over the predicates, which are no conjunctions
    themselves, left to right. -/
inductive Nests : List Expr → Expr → Prop
  | single {e : Expr} : e.isConjunction = false → Nests [e] e
  | and {parts : List (List Expr)} {args : List Expr} {state : CallState} :
      List.Forall₂ Nests parts args → Nests parts.flatten (.call (.builtin .and) args state)

theorem functionClass_eq_and_iff {f : Func} : f.functionClass = .and ↔ f = .builtin .and := by
  cases f with
  | builtin f => cases f <;> simp [Func.functionClass, Builtin.functionClass]
  | user declaration => simp [Func.functionClass]

theorem conjuncts_and (args : List Expr) (state : CallState) :
    (call (.builtin .and) args state).conjuncts = args.flatMap conjuncts := by
  rw [conjuncts, if_pos (functionClass_eq_and_iff.mpr rfl), conjunctsOf_eq_flatMap]

/-- What is no conjunction is its only conjunct. -/
theorem nests_iff_of_not_isConjunction (h : e.isConjunction = false) :
    Nests es e ↔ e.conjuncts = es := by
  have hself : e.conjuncts = [e] := by
    cases e with
    | call f args state =>
      have hf : ¬ f = .builtin .and := by simpa [isConjunction] using h
      rw [conjuncts, if_neg (mt functionClass_eq_and_iff.mp hf)]
    | literal v => rfl
    | column ref => rfl
    | field f => rfl
    | subquery q => rfl
  rw [hself]
  constructor
  · intro hnests
    cases hnests with
    | single _ => rfl
    | and _ => cases h
  · rintro rfl
    exact .single h

/-- The conjuncts of an expression are what it is a nest of conjunctions over. -/
theorem nests_iff : Nests es e ↔ e.conjuncts = es := by
  induction e using Expr.ind generalizing es with
  | call f args state ih =>
    by_cases hand : f = .builtin .and
    · subst hand
      rw [conjuncts_and, List.flatMap_def]
      constructor
      · intro h
        cases h with
        | single hsingle => cases hsingle
        | @and parts _ _ hparts =>
          -- each part is the list of conjuncts of its argument
          have hall : args.map conjuncts = parts := by
            induction hparts with
            | nil => rfl
            | @cons part arg parts args hpart _ ihparts =>
              have hrest := ihparts fun x hx => ih x (List.mem_cons_of_mem arg hx)
              rw [List.map_cons, (ih arg List.mem_cons_self).mp hpart, hrest]
          rw [hall]
      · rintro rfl
        refine .and (List.forall₂_map_left_iff.mpr (List.forall₂_same.mpr fun arg harg => ?_))
        exact (ih arg harg).mpr rfl
    · exact nests_iff_of_not_isConjunction (by simpa [isConjunction] using hand)
  | literal v => exact nests_iff_of_not_isConjunction rfl
  | column ref => exact nests_iff_of_not_isConjunction rfl
  | field f => exact nests_iff_of_not_isConjunction rfl
  | subquery q => exact nests_iff_of_not_isConjunction rfl

end Expr

/-! ## §2. Binding in order -/

namespace PlanTree

variable {tree : PlanTree} {id : NodeId} {failure : Failure}

/-- The failure is that of the first predicate that cannot be bound. -/
def FirstUnbound (tree : PlanTree) (id : NodeId) (es : List Expr) (failure : Failure) : Prop :=
  ∃ before e after, es = before ++ e :: after ∧ (∀ x ∈ before, ∃ b, tree.bind id x = .ok b) ∧
    tree.bind id e = .error failure

theorem firstUnbound_cons {e : Expr} {es : List Expr} :
    tree.FirstUnbound id (e :: es) failure ↔
      tree.bind id e = .error failure ∨
        (∃ b, tree.bind id e = .ok b) ∧ tree.FirstUnbound id es failure := by
  constructor
  · rintro ⟨before, x, after, hes, hbefore, hx⟩
    cases before with
    | nil =>
      obtain ⟨rfl, rfl⟩ := List.cons.inj hes
      exact .inl hx
    | cons y before =>
      obtain ⟨rfl, rfl⟩ := List.cons.inj hes
      obtain ⟨hfirst, hrest⟩ := List.forall_mem_cons.mp hbefore
      exact .inr ⟨hfirst, before, x, after, rfl, hrest, hx⟩
  · rintro (he | ⟨hfirst, before, x, after, rfl, hrest, hx⟩)
    · exact ⟨[], e, es, rfl, List.forall_mem_nil _, he⟩
    · exact ⟨e :: before, x, after, rfl, List.forall_mem_cons.mpr ⟨hfirst, hrest⟩, hx⟩

/-- Binding a list stops at the first predicate that cannot be bound. -/
theorem bindAll_eq_error_iff {es : List Expr} :
    tree.bindAll id es = .error failure ↔ tree.FirstUnbound id es failure := by
  induction es with
  | nil => simp [bindAll, FirstUnbound]
  | cons e es ih =>
    rw [bindAll, firstUnbound_cons, ← ih]
    cases tree.bind id e with
    | error found => simp
    | ok b =>
      cases tree.bindAll id es with
      | error found => simp
      | ok bs => simp

theorem bindAll_append (es fs : List Expr) :
    tree.bindAll id (es ++ fs) =
      (tree.bindAll id es).bind fun bs => (tree.bindAll id fs).map (bs ++ ·) := by
  induction es with
  | nil =>
    rw [List.nil_append, bindAll]
    cases tree.bindAll id fs with
    | error failure => rfl
    | ok cs => rfl
  | cons e es ih =>
    rw [List.cons_append, bindAll, bindAll, ih]
    cases tree.bind id e with
    | error failure => rfl
    | ok b =>
      cases tree.bindAll id es with
      | error failure => rfl
      | ok bs =>
        cases tree.bindAll id fs with
        | error failure => rfl
        | ok cs => rfl

end PlanTree

/-! ## §3. Placing in order -/

namespace Plan

variable {plan plan' : Plan} {site : Site} {p : Expr}

/-- What comes first is placed as if nothing came after it. -/
theorem fst_placeConjuncts_append (site : Site) (own : Ownership) (es fs : List Expr) :
    (placeConjuncts site own (es ++ fs)).1 =
      (placeConjuncts site own es).1 ++ (placeConjuncts site (site.placeAll es own) fs).1 := by
  induction es generalizing own with
  | nil => simp only [List.nil_append, placeConjuncts, Site.placeAll]
  | cons e es ih => simp only [List.cons_append, placeConjuncts, Site.placeAll, ih]

theorem update_update (plan : Plan) (id : NodeId) (f g : Ownership → Ownership) :
    (plan.update id f).update id g = plan.update id fun own => g (f own) := by
  simp only [update, List.modify_modify_eq]
  rfl

/-- Planning fails with the first conjunct that cannot be bound, and in no other way. Then the plan is
    as it was. -/
theorem planFilter_eq_error_iff (hnode : plan.tree.node? site.id = some site.node)
    {failure : Failure} {after : Plan} :
    plan.planFilter site.id site.restricted p = (.error failure, after) ↔
      plan.tree.FirstUnbound site.id p.conjuncts failure ∧ after = plan := by
  rw [← PlanTree.bindAll_eq_error_iff]
  constructor
  · intro h
    refine ⟨?_, eq_of_planFilter_error h⟩
    cases hbind : plan.tree.bindAll site.id p.conjuncts with
    | error found =>
      rw [planFilter_eq_error hbind] at h
      rw [Except.error.inj (Prod.mk.inj h).1]
    | ok bound =>
      rw [planFilter_eq_ok hnode hbind] at h
      simp at h
  · rintro ⟨hbind, rfl⟩
    exact planFilter_eq_error hbind

/-- A predicate whose conjuncts are those of two others is planned as these are, one after the other.
    If one of them cannot be planned, nothing is. -/
theorem planFilter_append (hnode : plan.tree.node? site.id = some site.node) {a b : Expr}
    (h : p.conjuncts = a.conjuncts ++ b.conjuncts) :
    plan.planFilter site.id site.restricted p =
      match plan.planFilter site.id site.restricted a with
      | (.error failure, _) => (.error failure, plan)
      | (.ok first, next) =>
        match next.planFilter site.id site.restricted b with
        | (.error failure, _) => (.error failure, plan)
        | (.ok second, last) => (.ok (first ++ second), last) := by
  have hbind : plan.tree.bindAll site.id p.conjuncts =
      (plan.tree.bindAll site.id a.conjuncts).bind fun bs =>
        (plan.tree.bindAll site.id b.conjuncts).map (bs ++ ·) := by
    rw [h, PlanTree.bindAll_append]
  cases ha : plan.tree.bindAll site.id a.conjuncts with
  | error failure =>
    rw [ha] at hbind
    rw [planFilter_eq_error ha, planFilter_eq_error hbind]
  | ok first =>
    let next := plan.update site.id fun _ => site.placeAll first (plan.ownership site.id)
    have hnext : next.tree.node? site.id = some site.node := hnode
    have hown : next.ownership site.id = site.placeAll first (plan.ownership site.id) := by
      rw [ownership_update (PlanTree.lt_of_node? hnode), if_pos rfl]
    rw [planFilter_eq_ok hnode ha]
    show _ = match next.planFilter site.id site.restricted b with
      | (.error failure, _) => _
      | (.ok second, last) => _
    -- binding depends on the tree alone, which is as before
    cases hb : plan.tree.bindAll site.id b.conjuncts with
    | error failure =>
      have hsecond : next.tree.bindAll site.id b.conjuncts = .error failure := hb
      rw [ha, hb] at hbind
      rw [planFilter_eq_error hsecond, planFilter_eq_error hbind]
    | ok second =>
      have hsecond : next.tree.bindAll site.id b.conjuncts = .ok second := hb
      rw [ha, hb] at hbind
      rw [planFilter_eq_ok hnext hsecond, planFilter_eq_ok hnode hbind, hown,
        fst_placeConjuncts_append, Site.placeAll_append, update_update]

/-- One record may have more entries than before, and nothing else has changed. -/
structure ExtendedAt (plan : Plan) (id : NodeId) (plan' : Plan) : Prop where
  tree   : plan'.tree = plan.tree
  record : (plan.ownership id).Within (plan'.ownership id)
  others : ∀ other, other ≠ id → plan'.ownership other = plan.ownership other

theorem extendedAt_of_planFilter {id : NodeId} {restricted : Bool} {placed : List Placement}
    (h : plan.planFilter id restricted p = (.ok placed, plan')) : plan.ExtendedAt id plan' := by
  obtain ⟨node, bound, _, hplace⟩ := placedAt_of_planFilter h
  refine ⟨hplace.tree, ?_, fun other hother => ?_⟩
  · rw [hplace.ownership, if_pos rfl]
    exact Site.within_placeAll _ bound _
  · rw [hplace.ownership, if_neg hother]

/-! ## §4. Conjunctions -/

/-- A conjunction of two predicates fails with the first of their conjuncts that cannot be bound, and
    leaves the plan as it was. Otherwise it is planned as the first predicate is, and the second after
    it. Nests of conjunctions over the same predicates are planned alike. A predicate that is planned
    changes nothing but the record of the node, where every entry stays and every owner, too. -/
theorem planFilter_and {id : NodeId} {node : PlanNode} (hnode : plan.tree.node? id = some node)
    (restricted : Bool) (p q : Expr) (state : CallState) :
    (∀ failure after,
      plan.planFilter id restricted (.call (.builtin .and) [p, q] state) = (.error failure, after) ↔
        plan.tree.FirstUnbound id (p.conjuncts ++ q.conjuncts) failure ∧ after = plan) ∧
    (∀ placed plan',
      plan.planFilter id restricted (.call (.builtin .and) [p, q] state) = (.ok placed, plan') ↔
      ∃ first next second, plan.planFilter id restricted p = (.ok first, next) ∧
        next.planFilter id restricted q = (.ok second, plan') ∧ placed = first ++ second) ∧
    (∀ es a b, Expr.Nests es a → Expr.Nests es b →
      plan.planFilter id restricted a = plan.planFilter id restricted b) ∧
    ∀ predicate placed plan', plan.planFilter id restricted predicate = (.ok placed, plan') →
      plan.ExtendedAt id plan' ∧ ∀ e owner, (plan.ownership id).ownerOf? e = some owner →
        (plan'.ownership id).ownerOf? e = some owner := by
  have hconjuncts : (Expr.call (.builtin .and) [p, q] state).conjuncts = p.conjuncts ++ q.conjuncts := by
    rw [Expr.conjuncts_and, List.flatMap_cons, List.flatMap_singleton]
  let site : Site := ⟨id, node, restricted⟩
  have hsite : plan.tree.node? site.id = some site.node := hnode
  refine ⟨fun failure after => ?_, fun placed plan' => ?_, ?_, ?_⟩
  · rw [planFilter_eq_error_iff hsite, hconjuncts]
  · rw [planFilter_append hsite hconjuncts]
    constructor
    · intro h
      split at h
      · simp at h
      · next first next hfirst =>
        split at h
        · simp at h
        · next second last hsecond =>
          obtain ⟨hplaced, rfl⟩ := Prod.mk.inj h
          exact ⟨first, next, second, hfirst, hsecond, (Except.ok.inj hplaced).symm⟩
    · rintro ⟨first, next, second, hfirst, hsecond, rfl⟩
      simp only [site, hfirst, hsecond]
  · intro es a b ha hb
    rw [planFilter, planFilter, Expr.nests_iff.mp ha, Expr.nests_iff.mp hb]
  · intro predicate placed plan' hplanned
    have hextended := extendedAt_of_planFilter hplanned
    exact ⟨hextended, fun e owner howner => hextended.record.ownerOf?_of_some howner⟩

end Plan

namespace Plan.Shop

/-- `orders.amount > 5`, with the column bound. -/
def amountAboveFive : Expr :=
  .gt (.field amount) (.literal (.int 5))

/-- `missing = 1`, where no table has the column. -/
def missingIsOne : Expr :=
  .eq (.column ⟨none, "missing"⟩) (.literal (.int 1))

/-- At the join, a conjunction of a null test and a comparison is planned as the two are, one after the
    other. With a third conjunct that cannot be bound, nothing is planned. -/
theorem planFilter_and_join :
    plan.tree.node? 2 = some (.join .leftOuter 0 1) ∧
      (∃ first next second last,
        plan.planFilter 2 false (.isNull (.field amount)) = (.ok first, next) ∧
        next.planFilter 2 false amountAboveFive = (.ok second, last) ∧
        plan.planFilter 2 false (.and (.isNull (.field amount)) amountAboveFive) =
          (.ok (first ++ second), last) ∧
        (first ++ second).map (·.owner) = [2, 1]) ∧
      plan.planFilter 2 false (.and (.isNull (.field amount)) (.and amountAboveFive missingIsOne)) =
        (.error (.rejected (.unknownColumn "`missing`")), plan) := by
  have hnode : plan.tree.node? 2 = some (.join .leftOuter 0 1) := rfl
  refine ⟨hnode, ?_, ?_⟩
  · obtain ⟨_, hsplit, _⟩ := planFilter_and hnode false (.isNull (.field amount)) amountAboveFive
      (.fresh (.builtin .and))
    obtain ⟨first, next, second, last, hfirst, hsecond, howners⟩ : ∃ first next second last,
        plan.planFilter 2 false (.isNull (.field amount)) = (.ok first, next) ∧
          next.planFilter 2 false amountAboveFive = (.ok second, last) ∧
          (first ++ second).map (·.owner) = [2, 1] := ⟨_, _, _, _, rfl, rfl, rfl⟩
    exact ⟨first, next, second, last, hfirst, hsecond,
      (hsplit _ _).mpr ⟨first, next, second, hfirst, hsecond, rfl⟩, howners⟩
  · obtain ⟨hfails, _⟩ := planFilter_and hnode false (.isNull (.field amount))
      (.and amountAboveFive missingIsOne) (.fresh (.builtin .and))
    have hmissing : plan.tree.bind 2 missingIsOne = .error (.rejected (.unknownColumn "`missing`")) := by
      have hresolve : plan.tree.resolve 2 ⟨none, "missing"⟩ =
          .error (.rejected (.unknownColumn "`missing`")) := by decide +kernel
      rw [PlanTree.bind, Expr.bind_eq_bindWith, missingIsOne, Expr.eq, Expr.apply, Expr.bindWith,
        Expr.bindAllWith, Expr.bindWith, hresolve]
      rfl
    have hbound : ∀ e ∈ [Expr.isNull (.field amount), amountAboveFive],
        ∃ b, plan.tree.bind 2 e = .ok b :=
      List.forall_mem_cons.mpr ⟨⟨_, rfl⟩, List.forall_mem_singleton.mpr ⟨_, rfl⟩⟩
    exact (hfails _ _).mpr ⟨⟨_, missingIsOne, [], rfl, hbound, hmissing⟩, rfl⟩

end Plan.Shop

end PushDown
