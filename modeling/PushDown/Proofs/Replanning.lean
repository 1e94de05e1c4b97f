import PushDown.Proofs.Leaves
import PushDown.Proofs.Planning

/-! # Planning a predicate again

    Until a plan is cleared it only gets larger: nodes are added to the tree and
    entries to the records (`LeadsTo.within`). So a predicate that was planned
    once is bound to the same conjuncts ever after, and every one of them is
    found with the owner that it had then.

    What was placed by itself the first time is found in the record of the node,
    too. Placing it again adds nothing (`placeAll_eq_self`), and so planning the
    predicate again leaves the plan as it is (`planFilter_again`).
-/

namespace PushDown

/-! ## §1. In what has grown -/

/-- Predicates are bound as they were before nodes were added. -/
theorem PlanTree.Within.bindAll_eq {tree tree' : PlanTree} {id : NodeId} (h : tree.Within tree')
    (hid : id < tree.size) (es : List Expr) : tree'.bindAll id es = tree.bindAll id es := by
  rw [PlanTree.bindAll_eq_bindAllWith, PlanTree.bindAll_eq_bindAllWith, h.resolve_eq hid]

namespace Site

variable {site : Site} {es : List Expr} {own own' : Ownership}

/-- Expressions whose parts are all recorded, as far as they are placed by themselves, can be placed
    without effect. -/
theorem placeAll_eq_self (h : ∀ e ∈ es, ∀ x, site.Places e x → own.contains x = true) :
    site.placeAll es own = own := by
  refine placeAll_induction_of_mem (motive := fun next => next = own) ?_ rfl
  intro next owner e x he hx _ hnext
  rw [hnext, Ownership.add_of_contains (h e he x hx)]

/-- What was placed once can be placed again without effect, whatever was recorded since. -/
theorem placeAll_again (h : (site.placeAll es own).Within own') : site.placeAll es own' = own' := by
  refine placeAll_eq_self fun e he x hx => ?_
  obtain ⟨r, hr⟩ := exists_find?_placeAll_of_place he hx.exists_find? own
  rw [Ownership.contains, h.find?_of_some hr]
  rfl

/-- What was placed once has the same owner in every larger record that follows the policy. -/
theorem ownerOf?_eq_of_within {tree tree' : PlanTree} {e : Expr} (he : e ∈ es)
    (hown : (site.placeAll es own).All (tree.Owns site.id)) (hown' : own'.All (tree'.Owns site.id))
    (h : (site.placeAll es own).Within own') :
    own'.ownerOf? e = (site.placeAll es own).ownerOf? e := by
  rw [Ownership.ownerOf?, Ownership.ownerOf?]
  cases howner : site.owner? e with
  | none =>
    -- a constant is found in neither of the records
    rw [find?_eq_none_of_owner? hown howner, find?_eq_none_of_owner? hown' howner]
  | some owner =>
    obtain ⟨r, hr⟩ : ∃ r, (site.placeAll es own).find? e = some r := exists_find?_placeAll he howner
    rw [hr, h.find?_of_some hr]

end Site

namespace Plan

variable {plan plan' next later : Plan} {id : NodeId}

theorem update_eq_self {f : Ownership → Ownership} (h : f (plan.ownership id) = plan.ownership id) :
    plan.update id f = plan := by
  have howned : plan.owned.modify id f = plan.owned := by
    refine List.ext_getElem? fun i => ?_
    rw [List.getElem?_modify]
    split
    · next heq =>
      subst heq
      rw [ownership] at h
      cases hown : plan.owned[id]? with
      | none => rfl
      | some own =>
        rw [hown, Option.getD_some] at h
        exact congrArg some h
    · exact id_map' _
  simp only [update, howned]

/-! ## §2. Until the plan is cleared -/

/-- The second plan has the nodes and the entries of the first one, and maybe more. -/
structure Within (plan later : Plan) : Prop where
  tree      : plan.tree.Within later.tree
  ownership : ∀ id, (plan.ownership id).Within (later.ownership id)

theorem Within.refl (plan : Plan) : plan.Within plan :=
  ⟨.refl _, fun _ => .refl _⟩

theorem Within.trans (h : plan.Within next) (h' : next.Within later) : plan.Within later :=
  ⟨h.tree.trans h'.tree, fun id => (h.ownership id).trans (h'.ownership id)⟩

/-- The second plan comes from the first by actions that succeed and do not clear it. An action that
    fails changes nothing. -/
inductive LeadsTo (plan : Plan) : Plan → Prop
  | refl : LeadsTo plan plan
  | step {next later : Plan} (action : Action) :
      LeadsTo plan next → action ≠ .clear → next.step action = .ok later → LeadsTo plan later

/-- **Step.** An action that does not clear the plan keeps all nodes and entries. -/
theorem within_of_step {action : Action} (hkeeps : action ≠ .clear)
    (h : plan.step action = .ok later) : plan.Within later := by
  rcases step_cases h with ⟨node, hgrow⟩ | ⟨site, es, hplace, _⟩ | ⟨hclear, _⟩
  · obtain ⟨hnode, htree⟩ := hgrow.tree
    refine ⟨htree ▸ PlanTree.within_push hnode, fun id => ?_⟩
    rw [hgrow.ownership id]
    exact .refl _
  · refine ⟨hplace.tree ▸ .refl _, fun id => ?_⟩
    rw [hplace.ownership id]
    split
    · exact Site.within_placeAll site es _
    · exact .refl _
  · exact absurd hclear hkeeps

/-- **Run.** Until the plan is cleared, all nodes and entries stay. -/
theorem LeadsTo.within (h : plan.LeadsTo later) : plan.Within later := by
  induction h with
  | refl => exact .refl plan
  | step action _ hkeeps hstep ih => exact ih.trans (within_of_step hkeeps hstep)

theorem Reachable.leadsTo (h : plan.Reachable) (hlater : plan.LeadsTo later) : later.Reachable := by
  induction hlater with
  | refl => exact h
  | step action _ _ hstep ih => exact ih.step action hstep

/-! ## §3. Planning again -/

/-- A predicate that was planned is planned again with the same placements, whatever was done to the
    plan since, as long as it was not cleared, and whether push-down is restricted or not. If it is
    restricted as it was the first time, the plan is left as it is. -/
theorem planFilter_again {first : Plan} {restricted : Bool} {predicate : Expr}
    {placed : List Placement} (h : plan.Reachable)
    (hfirst : plan.planFilter id restricted predicate = (.ok placed, first))
    (hlater : first.LeadsTo later) (restricted' : Bool) :
    ∃ again, later.planFilter id restricted' predicate = (.ok placed, again) ∧
      (restricted' = restricted → again = later) := by
  obtain ⟨node, _, _, hplace⟩ := placedAt_of_planFilter hfirst
  have htree : first.tree = plan.tree := hplace.tree
  have hreach : first.Reachable := h.step _ (step_planFilter hfirst)
  have hpolicy : later.FollowsPolicy := (hreach.leadsTo hlater).followsPolicy
  have hwithin := hlater.within
  let site : Site := ⟨id, node, restricted⟩
  let site' : Site := ⟨id, node, restricted'⟩
  have hnode : plan.tree.node? site.id = some site.node := hplace.node
  obtain ⟨bound, hbound, hown, hplaced⟩ := h.followsPolicy.of_planFilter hnode hfirst
  have hgrown : (site.placeAll bound (plan.ownership id)).Within (later.ownership id) :=
    hown ▸ hwithin.ownership id
  -- the node is still there, and the predicate is bound as it was
  have hlt : id < first.tree.size := htree ▸ PlanTree.lt_of_node? hnode
  have hnodeLater : later.tree.node? site'.id = some site'.node := by
    rw [hwithin.tree.node? id hlt, htree, hplace.node]
  have hboundLater : later.tree.bindAll site'.id predicate.conjuncts = .ok bound := by
    rw [hwithin.tree.bindAll_eq hlt, htree, hbound]
  -- every conjunct has the owner that it had
  have hownFirst : (site.placeAll bound (plan.ownership id)).All (first.tree.Owns site.id) :=
    hown ▸ hreach.followsPolicy id
  have hownLater := Site.all_placeAll hnodeLater (hpolicy id) bound
  have hgrownLater := hgrown.trans (Site.within_placeAll site' bound (later.ownership id))
  have hplacedLater : placed = bound.map fun b =>
      ⟨b, ((site'.placeAll bound (later.ownership id)).ownerOf? b).getD id⟩ := by
    rw [hplaced, hown]
    refine List.map_congr_left fun b hb => ?_
    rw [Site.ownerOf?_eq_of_within hb hownFirst hownLater hgrownLater]
  rw [hplacedLater]
  refine ⟨_, hpolicy.planFilter_eq_ok hnodeLater hboundLater, ?_⟩
  rintro rfl
  exact update_eq_self (Site.placeAll_again hgrown)

end Plan

namespace Plan.Shop

/-- `orders.amount IS NULL` is planned at the join, above the outer side. After another predicate was
    planned there, with push-down restricted, and a node was added, it is planned at the join again,
    and nothing changes. -/
theorem planFilter_again_isNull :
    plan.Reachable ∧ ∃ placed first second next,
      plan.planFilter 2 false (.isNull (.field amount)) = (.ok placed, first) ∧
      first.planFilter 2 true (.gt (.field amount) (.literal (.int 5))) = (.ok second, next) ∧
      next.addNoName.1.planFilter 2 false (.isNull (.field amount)) = (.ok placed, next.addNoName.1) ∧
      placed.map (·.owner) = [2] := by
  obtain ⟨placed, first, second, next, hfirst, hsecond, hplaced⟩ : ∃ placed first second next,
      plan.planFilter 2 false (.isNull (.field amount)) = (.ok placed, first) ∧
        first.planFilter 2 true (.gt (.field amount) (.literal (.int 5))) = (.ok second, next) ∧
        placed.map (·.owner) = [2] := ⟨_, _, _, _, rfl, rfl, rfl⟩
  have hlater : first.LeadsTo next.addNoName.1 :=
    (LeadsTo.refl.step _ (by simp) (step_planFilter hsecond)).step .addNoName (by simp) rfl
  obtain ⟨again, hagain, hsame⟩ := planFilter_again reachable_plan hfirst hlater false
  rw [hsame rfl] at hagain
  exact ⟨reachable_plan, placed, first, second, next, hfirst, hsecond, hagain, hplaced⟩

end Plan.Shop

end PushDown
