import PushDown.Proofs.Policy

/-! # What planning a predicate answers

    The owner of a placement is read from the record of the node right after
    the conjunct was placed. Records only grow, so reading it from the final
    record gives the same (`fst_placeConjuncts`).

    There it is the owner of the first recorded expression of the same identity.
    A conjunct that is planned alone, or that is the first of its identity, is
    this expression itself, and has the owner that its site has for it.
-/

namespace PushDown

/-! ## §1. Searching after placing -/

namespace Site

variable {site : Site} {own : Ownership} {x : Expr} {r : Recorded}

/-- Placing only adds entries. -/
theorem within_placeAll (site : Site) (es : List Expr) (own : Ownership) :
    own.Within (site.placeAll es own) :=
  placeAll_induction (motive := own.Within)
    (fun next owner x _ hnext => hnext.trans (next.within_add owner x)) (.refl own)

/-- What is found is found ever after. -/
theorem find?_placeAll_of_some (h : own.find? x = some r) (es : List Expr) :
    (site.placeAll es own).find? x = some r :=
  (within_placeAll site es own).find?_of_some h

/-- An expression is not found because another is placed, unless it is the same as a part of that. -/
theorem find?_place_of_none (h : own.find? x = none) {e : Expr}
    (hpart : ∀ y : Expr, y.PartOf e → y.same x = false) : (site.place e own).find? x = none := by
  refine place_induction (motive := fun own => own.find? x = none) ?_ h
  intro own owner y hy _ hown
  rw [Ownership.find?_add, hown, Option.none_or, if_neg (by rw [hpart y hy.partOf]; decide)]

theorem find?_placeAll_of_none (h : own.find? x = none) {es : List Expr}
    (hpart : ∀ e ∈ es, ∀ y : Expr, y.PartOf e → y.same x = false) :
    (site.placeAll es own).find? x = none := by
  induction es generalizing own with
  | nil =>
    rw [placeAll]
    exact h
  | cons e es ih =>
    rw [placeAll]
    have he : (site.place e own).find? x = none :=
      find?_place_of_none h (hpart e List.mem_cons_self)
    exact ih he fun e' he' => hpart e' (List.mem_cons_of_mem e he')

/-- What is placed is found, with its own owner unless it was found before. -/
theorem find?_place_self {e : Expr} {owner : NodeId} (own : Ownership)
    (h : site.owner? e = some owner) :
    (site.place e own).find? e =
      (own.find? e).or (some { expr := e, owner, code := e.hashCode }) := by
  have hadd : (own.add owner e).find? e =
      (own.find? e).or (some { expr := e, owner, code := e.hashCode }) := by
    rw [Ownership.find?_add, if_pos (Expr.same_refl e)]
  rw [← hadd]
  cases e with
  | literal v => cases h
  | column ref => cases h
  | field f => cases h; rw [place]
  | subquery q => cases h; rw [place]
  | call f args state =>
    cases h
    rw [place]
    split
    · -- the arguments come after the call
      obtain ⟨r, hr⟩ := Ownership.exists_find?_add_self own
        (site.callOwner state.facts state.tables) (.call f args state)
      rw [hr]
      exact find?_placeAll_of_some hr args
    · rfl

/-- What has no owner is never found. -/
theorem find?_eq_none_of_owner? {tree : PlanTree} (hown : own.All (tree.Owns site.id))
    (h : site.owner? x = none) : own.find? x = none := by
  cases hfind : own.find? x with
  | none => rfl
  | some r =>
    -- the expression that is found is a constant or an unbound column too
    have howns := hown.index r (Ownership.mem_of_find? hfind)
    have halike := (Expr.same_iff.mp (Ownership.same_of_find? hfind)).2
    generalize r.owner = owner at howns
    generalize r.expr = e at howns halike
    cases x with
    | literal v => cases howns <;> cases halike
    | column ref => cases howns <;> cases halike
    | field f => cases h
    | call f args state => cases h
    | subquery q => cases h

theorem placeAll_append (es fs : List Expr) :
    site.placeAll (es ++ fs) own = site.placeAll fs (site.placeAll es own) := by
  induction es generalizing own with
  | nil => simp only [List.nil_append, placeAll]
  | cons e es ih => simp only [List.cons_append, placeAll, ih]

/-- What is found once an expression is placed is found in the end, if others are placed with it. -/
theorem exists_find?_placeAll_of_place {e : Expr} {es : List Expr} (he : e ∈ es)
    (h : ∀ own, ∃ r, (site.place e own).find? x = some r) (own : Ownership) :
    ∃ r, (site.placeAll es own).find? x = some r := by
  obtain ⟨before, after, rfl⟩ := List.append_of_mem he
  rw [placeAll_append, placeAll]
  obtain ⟨r, hr⟩ := h (site.placeAll before own)
  exact ⟨r, find?_placeAll_of_some hr after⟩

/-- What has an owner is found after it is placed, with an older entry if there is one. -/
theorem exists_find?_place {owner : NodeId} (h : site.owner? x = some owner) (own : Ownership) :
    ∃ r, (site.place x own).find? x = some r := by
  have hself := find?_place_self own h
  cases hbefore : own.find? x with
  | none =>
    rw [hbefore, Option.none_or] at hself
    exact ⟨_, hself⟩
  | some r =>
    rw [hbefore, Option.some_or] at hself
    exact ⟨r, hself⟩

/-- What is placed by itself is found. -/
theorem Places.exists_find? {e : Expr} (h : site.Places e x) (own : Ownership) :
    ∃ r, (site.place e own).find? x = some r := by
  induction h generalizing own with
  | self howner => exact exists_find?_place howner own
  | @arg f args state arg x hdescends harg _ ih =>
    rw [place, if_pos hdescends]
    exact exists_find?_placeAll_of_place harg ih _

/-- What has an owner and is placed with others is found in the end. -/
theorem exists_find?_placeAll {es : List Expr} {owner : NodeId} (hx : x ∈ es)
    (h : site.owner? x = some owner) : ∃ r, (site.placeAll es own).find? x = some r :=
  exists_find?_placeAll_of_place hx (exists_find?_place h) own

/-- An expression that is the same as nothing recorded and as no part of what is placed before it is
    found in the end with the owner that the site has for it. -/
theorem ownerOf?_placeAll_of_first {tree : PlanTree} (hnode : tree.node? site.id = some site.node)
    (hown : own.All (tree.Owns site.id)) (hnone : own.find? x = none) {before after : List Expr}
    (hfirst : ∀ e ∈ before, ∀ y : Expr, y.PartOf e → y.same x = false) :
    (site.placeAll (before ++ x :: after) own).ownerOf? x = site.owner? x := by
  have hbefore : (site.placeAll before own).find? x = none := find?_placeAll_of_none hnone hfirst
  rw [Ownership.ownerOf?]
  cases howner : site.owner? x with
  | none =>
    rw [find?_eq_none_of_owner? (all_placeAll hnode hown _) howner]
    rfl
  | some owner =>
    have hfound := find?_place_self (site.placeAll before own) howner
    rw [hbefore, Option.none_or] at hfound
    rw [placeAll_append, placeAll, find?_placeAll_of_some hfound]
    rfl

end Site

/-! ## §2. Conjuncts -/

namespace Expr

/-- The conjuncts of a predicate are no conjunctions. -/
theorem conjuncts_of_mem {predicate e : Expr} (h : e ∈ predicate.conjuncts) : e.conjuncts = [e] := by
  induction predicate using Expr.ind with
  | call f args state ih =>
    by_cases hand : f.functionClass = .and
    · -- a conjunct of an argument
      rw [conjuncts, if_pos hand, conjunctsOf_eq_flatMap] at h
      obtain ⟨arg, harg, he⟩ := List.mem_flatMap.mp h
      exact ih arg harg he
    · have hself : (call f args state).conjuncts = [call f args state] := by
        rw [conjuncts, if_neg hand]
      rw [hself] at h
      rw [List.mem_singleton.mp h, hself]
  | literal v => rw [List.mem_singleton.mp h]; rfl
  | column ref => rw [List.mem_singleton.mp h]; rfl
  | field f => rw [List.mem_singleton.mp h]; rfl
  | subquery q => rw [List.mem_singleton.mp h]; rfl

end Expr

namespace PlanTree

variable {tree : PlanTree} {id : NodeId}

/-- Conjuncts are bound like the arguments of a call. -/
theorem bindAll_eq_bindAllWith (es : List Expr) :
    tree.bindAll id es = Expr.bindAllWith (tree.resolve id) es := by
  induction es with
  | nil => rfl
  | cons e es ih =>
    have he : tree.bind id e = Expr.bindWith (tree.resolve id) e := Expr.bind_eq_bindWith _ e
    cases hb : Expr.bindWith (tree.resolve id) e with
    | error failure => simp only [bindAll, Expr.bindAllWith, he, hb]
    | ok b =>
      cases hbs : Expr.bindAllWith (tree.resolve id) es with
      | error failure => simp only [bindAll, Expr.bindAllWith, he, hb, ih, hbs]
      | ok bs => simp only [bindAll, Expr.bindAllWith, he, hb, ih, hbs]

theorem bindAll_eq_ok_iff {es bs : List Expr} :
    tree.bindAll id es = .ok bs ↔ List.Forall₂ (fun e b => tree.bind id e = .ok b) es bs := by
  simp only [bindAll_eq_bindAllWith, Expr.bindAllWith_eq_ok_iff, bind, Expr.bind_eq_bindWith]

end PlanTree

/-! ## §3. Placements -/

namespace Plan

variable {plan : Plan} {site : Site}

/-- The site of a node that is there. -/
theorem site_eq_ok (hnode : plan.tree.node? site.id = some site.node) :
    plan.site site.id site.restricted = .ok site :=
  site_eq_ok_iff.mpr ⟨site.node, hnode, rfl⟩

theorem place_eq_ok (hnode : plan.tree.node? site.id = some site.node) (e : Expr) :
    plan.place site.id site.restricted e = .ok (plan.update site.id (site.place e)) := by
  rw [place, site_eq_ok hnode]
  rfl

/-- Every conjunct is placed at the owner that is found for it in the end. -/
theorem fst_placeConjuncts {own : Ownership} (hnode : plan.tree.node? site.id = some site.node)
    (hown : own.All (plan.tree.Owns site.id)) (es : List Expr) :
    (placeConjuncts site own es).1 =
      es.map fun e => ⟨e, ((site.placeAll es own).ownerOf? e).getD site.id⟩ := by
  induction es generalizing own with
  | nil => rfl
  | cons e es ih =>
    have hplaced : (site.place e own).All (plan.tree.Owns site.id) := by
      have hall := Site.all_placeAll hnode hown [e]
      simpa only [Site.placeAll] using hall
    simp only [placeConjuncts, Site.placeAll, List.map_cons, ih hplaced]
    -- what comes later does not change what is found for `e`
    suffices hstays : (site.placeAll es (site.place e own)).find? e = (site.place e own).find? e by
      rw [Ownership.ownerOf?, Ownership.ownerOf?, hstays]
    cases howner : site.owner? e with
    | none =>
      -- it is not found now and will not be
      rw [Site.find?_eq_none_of_owner? hplaced howner]
      exact Site.find?_eq_none_of_owner? (Site.all_placeAll hnode hplaced es) howner
    | some owner =>
      -- it was just placed, so it is found, and what is found stays
      have hsome : ((site.place e own).find? e).isSome = true := by
        rw [Site.find?_place_self own howner]
        simp
      obtain ⟨r, hr⟩ := Option.isSome_iff_exists.mp hsome
      rw [hr]
      exact Site.find?_placeAll_of_some hr es

/-- A predicate with a conjunct that cannot be bound is not planned. -/
theorem planFilter_eq_error {id : NodeId} {restricted : Bool} {p : Expr} {failure : Failure}
    (hbind : plan.tree.bindAll id p.conjuncts = .error failure) :
    plan.planFilter id restricted p = (.error failure, plan) := by
  rw [planFilter, hbind]

/-- A predicate whose conjuncts are bound is planned at every node that is there. -/
theorem planFilter_eq_ok (hnode : plan.tree.node? site.id = some site.node) {p : Expr}
    {bound : List Expr} (hbind : plan.tree.bindAll site.id p.conjuncts = .ok bound) :
    plan.planFilter site.id site.restricted p =
      (.ok (placeConjuncts site (plan.ownership site.id) bound).1,
        plan.update site.id fun _ => site.placeAll bound (plan.ownership site.id)) := by
  rw [planFilter, hbind, site_eq_ok hnode]
  simp only [snd_placeConjuncts]

/-- In a plan that follows the policy, every conjunct is placed at the owner that the record holds for
    it once all of them are placed. -/
theorem FollowsPolicy.planFilter_eq_ok {predicate : Expr} {bound : List Expr}
    (h : plan.FollowsPolicy) (hnode : plan.tree.node? site.id = some site.node)
    (hbind : plan.tree.bindAll site.id predicate.conjuncts = .ok bound) :
    plan.planFilter site.id site.restricted predicate =
      (.ok (bound.map fun b =>
          ⟨b, ((site.placeAll bound (plan.ownership site.id)).ownerOf? b).getD site.id⟩),
        plan.update site.id fun _ => site.placeAll bound (plan.ownership site.id)) := by
  rw [Plan.planFilter_eq_ok hnode hbind, fst_placeConjuncts hnode (h site.id)]

/-- The placements that are answered, by the record that is left behind. -/
theorem FollowsPolicy.of_planFilter {predicate : Expr} {placed : List Placement} {plan' : Plan}
    (h : plan.FollowsPolicy) (hnode : plan.tree.node? site.id = some site.node)
    (hplanned : plan.planFilter site.id site.restricted predicate = (.ok placed, plan')) :
    ∃ bound, plan.tree.bindAll site.id predicate.conjuncts = .ok bound ∧
      plan'.ownership site.id = site.placeAll bound (plan.ownership site.id) ∧
      placed = bound.map fun b => ⟨b, ((plan'.ownership site.id).ownerOf? b).getD site.id⟩ := by
  obtain ⟨bound, site', hbound, hsite, hplaced, rfl⟩ := Plan.of_planFilter hplanned
  obtain rfl : site = site' := Except.ok.inj ((site_eq_ok hnode).symm.trans hsite)
  have hown := ownership_update (PlanTree.lt_of_node? hnode)
    (fun _ => site.placeAll bound (plan.ownership site.id)) site.id
  rw [if_pos rfl] at hown
  refine ⟨bound, hbound, hown, ?_⟩
  rw [hown, hplaced]
  exact fst_placeConjuncts hnode (h site.id) bound

/-- With nothing recorded, a conjunct that is the same as no part of a conjunct before it is placed at
    the owner that its site has for it. -/
theorem exists_planFilter_of_first {predicate b : Expr} {before after : List Expr} (site : Site)
    (hnode : plan.tree.node? site.id = some site.node)
    (hbind : plan.tree.bindAll site.id predicate.conjuncts = .ok (before ++ b :: after))
    (hfirst : ∀ e ∈ before, ∀ x : Expr, x.PartOf e → x.same b = false) :
    ∃ placed plan',
      plan.clear.planFilter site.id site.restricted predicate = (.ok placed, plan') ∧
        placed.length = (before ++ b :: after).length ∧
        placed[before.length]? = some ⟨b, (site.owner? b).getD site.id⟩ := by
  have hclear : plan.clear.FollowsPolicy := followsPolicy_of_empty (ownership_clear plan)
  have hnode' : plan.clear.tree.node? site.id = some site.node := hnode
  obtain ⟨placed, plan', hplanned⟩ : ∃ placed plan', plan.clear.planFilter site.id site.restricted
      predicate = (.ok placed, plan') := ⟨_, _, Plan.planFilter_eq_ok hnode' hbind⟩
  obtain ⟨bound, hbound, hown, rfl⟩ := hclear.of_planFilter hnode' hplanned
  obtain rfl : before ++ b :: after = bound := Except.ok.inj (hbind.symm.trans hbound)
  have hnone : (plan.clear.ownership site.id).find? b = none := by
    rw [ownership_clear]
    rfl
  have howner : (plan'.ownership site.id).ownerOf? b = site.owner? b := by
    rw [hown]
    exact Site.ownerOf?_placeAll_of_first hnode' (hclear site.id) hnone hfirst
  refine ⟨_, plan', hplanned, List.length_map _, ?_⟩
  simp [howner]

/-- With nothing recorded, a predicate that is no conjunction is placed at the owner that its site has
    for it. -/
theorem exists_planFilter_alone {e b : Expr} (site : Site)
    (hnode : plan.tree.node? site.id = some site.node) (hconj : e.conjuncts = [e])
    (hbind : plan.tree.bind site.id e = .ok b) :
    ∃ plan', plan.clear.planFilter site.id site.restricted e =
      (.ok [⟨b, (site.owner? b).getD site.id⟩], plan') := by
  have hbound : plan.tree.bindAll site.id e.conjuncts = .ok ([] ++ b :: []) := by
    rw [hconj]
    exact PlanTree.bindAll_eq_ok_iff.mpr (.cons hbind .nil)
  obtain ⟨placed, plan', hplanned, hlength, hfirst⟩ :=
    exists_planFilter_of_first site hnode hbound (fun _ h => nomatch h)
  obtain ⟨p, rfl⟩ := List.length_eq_one_iff.mp hlength
  obtain rfl := Option.some.inj hfirst
  exact ⟨plan', hplanned⟩

/-! ## §4. Predicates one after the other -/

/-- A predicate that fails has no placements. -/
theorem placementsOf_append_error (results : List (Except Failure (List Placement)))
    (failure : Failure) : placementsOf (results ++ [.error failure]) = placementsOf results := by
  rw [placementsOf, List.flatMap_append]
  exact List.append_nil _

theorem placementsOf_append_ok (results : List (Except Failure (List Placement)))
    (placed : List Placement) :
    placementsOf (results ++ [.ok placed]) = placementsOf results ++ placed := by
  rw [placementsOf, List.flatMap_append, List.flatMap_singleton]
  rfl

/-- What holds at the start and is kept by every predicate, be it planned or not, holds in the end.
    It may speak of the results so far. A predicate that is not planned leaves the plan as it was. -/
theorem planEach_induction {motive : Plan → List (Except Failure (List Placement)) → Prop}
    {id : NodeId} {restricted : Bool} {predicates : List Expr}
    (failed : ∀ plan results p failure, p ∈ predicates →
      plan.planFilter id restricted p = (.error failure, plan) → motive plan results →
      motive plan (results ++ [.error failure]))
    (planned : ∀ plan plan' results p placed, p ∈ predicates →
      plan.planFilter id restricted p = (.ok placed, plan') → motive plan results →
      motive plan' (results ++ [.ok placed]))
    {plan plan' : Plan} {results : List (Except Failure (List Placement))} (h : motive plan [])
    (hrun : plan.planEach id restricted predicates = (results, plan')) : motive plan' results := by
  -- some results may be there already
  suffices hsome : ∀ before, motive plan before → motive plan' (before ++ results) from hsome [] h
  clear h
  induction predicates generalizing plan results with
  | nil =>
    intro before h
    obtain ⟨rfl, rfl⟩ := Prod.mk.inj hrun
    rwa [List.append_nil]
  | cons p predicates ih =>
    intro before h
    have hmem : ∀ x ∈ predicates, x ∈ p :: predicates := fun x => List.mem_cons_of_mem p
    rcases hp : plan.planFilter id restricted p with ⟨result, next⟩
    obtain ⟨rfl, rfl⟩ : result :: (next.planEach id restricted predicates).1 = results ∧
        (next.planEach id restricted predicates).2 = plan' := by
      rw [planEach, hp] at hrun
      exact Prod.mk.inj hrun
    have hnext : motive next (before ++ [result]) := by
      cases result with
      | error failure =>
        obtain rfl := eq_of_planFilter_error hp
        exact failed next before p failure List.mem_cons_self hp h
      | ok placed => exact planned plan next before p placed List.mem_cons_self hp h
    have hrest := ih (fun plan results x failure hx => failed plan results x failure (hmem x hx))
      (fun plan plan' results x placed hx => planned plan plan' results x placed (hmem x hx))
      rfl _ hnext
    rwa [List.append_assoc] at hrest

end Plan

end PushDown
