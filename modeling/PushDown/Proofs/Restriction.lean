import PushDown.Proofs.History

/-! # Restricted placement

    Restricting push-down leaves the arguments of calls on several tables alone
    and changes nothing else. The owner that a site has for an expression stays
    the same (`owner?_mk`), and what is placed by itself under the restriction
    is placed by itself without it (`Places.unrestrict`). What is placed by
    itself only without it lies below a call that the restriction leaves alone
    (`Places.restrict_or_leftAlone`).

    A record keeps the first expression of an identity, so the two records can
    hold different expressions for one identity. Where expressions of one
    identity agree on facts and tables, that makes no difference to the owners
    (`agrees_of_restricted`).
-/

namespace PushDown

/-! ## §1. Expressions -/

namespace Expr

/-- Parts of the expression that a record takes for the same have the same facts and tables. -/
def Unambiguous (x : Expr) : Prop :=
  ∀ y z : Expr, y.PartOf x → z.PartOf x → y.same z = true → y.facts = z.facts ∧ y.tables = z.tables

/-- The expression is strictly below a call in the other one that has no aggregate and depends on
    several tables. -/
def LeftAloneIn (e x : Expr) : Prop :=
  ∃ f args state arg, (call f args state).PartOf x ∧ state.facts.aggregate = false ∧
    (∃ a b, a ∈ state.tables ∧ b ∈ state.tables ∧ a ≠ b) ∧ arg ∈ args ∧ e.PartOf arg

end Expr

/-! ## §2. Sites -/

namespace Site

variable {id : NodeId} {node : PlanNode} {restricted : Bool} {facts : Facts} {tables : NodeSet}
  {e x : Expr} {tree : PlanTree}

/-- The owner of an expression does not depend on the restriction. -/
theorem owner?_mk (id : NodeId) (node : PlanNode) (restricted : Bool) (e : Expr) :
    (Site.mk id node restricted).owner? e = (Site.mk id node false).owner? e := by
  cases e <;> rfl

/-- A call that is taken apart under the restriction is taken apart without it. -/
theorem descends_of_restricted (h : (Site.mk id node true).descends facts tables = true) :
    (Site.mk id node false).descends facts tables = true := by
  unfold descends at h ⊢
  split at h
  · next hagg => rw [if_pos hagg]
  · next hagg =>
    rw [if_neg hagg]
    split at h
    · cases h
    · exact h
    · cases h

/-- A call that is taken apart only without the restriction is on several tables. -/
theorem spans_of_not_descends (h : (Site.mk id node false).descends facts tables = true)
    (hnot : ¬ (Site.mk id node true).descends facts tables = true) :
    facts.aggregate = false ∧ ∃ a b, a ∈ tables ∧ b ∈ tables ∧ a ≠ b := by
  unfold descends at h hnot
  by_cases hagg : facts.aggregate = true
  · rw [if_pos hagg] at hnot
    exact absurd rfl hnot
  · rw [if_neg hagg] at h hnot
    refine ⟨Bool.eq_false_iff.mpr hagg, ?_⟩
    split at h
    · cases h
    · next hids =>
      rw [hids] at hnot
      exact absurd h hnot
    · next a b rest hids =>
      obtain ⟨ha, hb, hne⟩ := NodeSet.exists_ne_of_ids_eq hids
      exact ⟨a, b, ha, hb, hne⟩

theorem Places.unrestrict (h : (Site.mk id node true).Places e x) :
    (Site.mk id node false).Places e x := by
  induction h with
  | self howner =>
    rw [owner?_mk] at howner
    exact .self howner
  | arg hdescends harg _ ih => exact .arg (descends_of_restricted hdescends) harg ih

/-- What is placed by itself is so under the restriction too, or lies below a call that is left
    alone. -/
theorem Places.restrict_or_leftAlone (h : (Site.mk id node false).Places e x) :
    (Site.mk id node true).Places e x ∨ x.LeftAloneIn e := by
  induction h with
  | self howner =>
    rw [← owner?_mk id node true] at howner
    exact .inl (.self howner)
  | @arg f args state arg x hdescends harg hplaces ih =>
    by_cases hrestricted : (Site.mk id node true).descends state.facts state.tables = true
    · rcases ih with hplaces | ⟨g, brgs, inner, brg, hcall, haggregate, hspans, hbrg, hx⟩
      · exact .inl (.arg hrestricted harg hplaces)
      · exact .inr ⟨g, brgs, inner, brg, .arg harg hcall, haggregate, hspans, hbrg, hx⟩
    · -- the call itself is left alone
      obtain ⟨haggregate, hspans⟩ := spans_of_not_descends hdescends hrestricted
      exact .inr ⟨f, args, state, arg, .refl, haggregate, hspans, harg, hplaces.partOf⟩

/-! ## §3. Records -/

variable {site : Site} {owner : NodeId}

/-- From an empty record on, what is recorded is what is placed by itself. -/
theorem all_place_empty (site : Site) (e : Expr) :
    (site.place e .empty).All fun owner x => site.Places e x ∧ site.owner? x = some owner :=
  place_induction (motive := fun own => own.All fun owner x =>
      site.Places e x ∧ site.owner? x = some owner)
    (fun _ _ _ hx howner hown => hown.add ⟨hx, howner⟩) (Ownership.all_empty _)

theorem grouped_place_empty (site : Site) (e : Expr) : (site.place e .empty).Grouped :=
  place_induction (motive := Ownership.Grouped) (fun _ owner x _ _ hown => hown.add owner x)
    Ownership.grouped_empty

/-- In an unambiguous expression, whatever is placed by itself is found under its own owner. -/
theorem exists_find?_place_empty (hx : x.Unambiguous) (h : site.Places x e)
    (howner : site.owner? e = some owner) :
    ∃ r, (site.place x .empty).find? e = some r ∧ r.owner = owner := by
  obtain ⟨r, hr⟩ := h.exists_find? .empty
  obtain ⟨hplaces, hrecorded⟩ := (all_place_empty site x).index r (Ownership.mem_of_find? hr)
  obtain ⟨hfacts, htables⟩ := hx _ _ hplaces.partOf h.partOf (Ownership.same_of_find? hr)
  have hfound := owner?_of_find? hr hrecorded hfacts htables
  exact ⟨r, hr, Option.some.inj (hfound.symm.trans howner)⟩

/-- The first expression that is placed has the owner that the site has for it. -/
theorem ownerOf?_place_empty (site : Site) (x : Expr) :
    (site.place x .empty).ownerOf? x = site.owner? x := by
  cases howner : site.owner? x with
  | none =>
    -- constants and unbound columns are not recorded
    cases x with
    | literal v => rfl
    | column ref => rfl
    | field f => cases howner
    | call f args state => cases howner
    | subquery q => cases howner
  | some owner =>
    have hself := find?_place_self .empty howner
    rw [Ownership.ownerOf?, hself]
    rfl

/-- What the restricted run records is recorded under the same owner without the restriction. -/
theorem recorded_of_restricted (hx : x.Unambiguous)
    (he : e ∈ ((Site.mk id node true).place x .empty).ownedBy owner) :
    ((Site.mk id node false).place x .empty).ownerOf? e = some owner ∧
      ∃ e' ∈ ((Site.mk id node false).place x .empty).ownedBy owner, e'.same e = true := by
  obtain ⟨hplaces, howner⟩ := (all_place_empty _ x).of_mem_ownedBy he
  rw [owner?_mk] at howner
  obtain ⟨r, hr, rfl⟩ := exists_find?_place_empty hx hplaces.unrestrict howner
  refine ⟨by rw [Ownership.ownerOf?, hr]; rfl, r.expr, ?_, Ownership.same_of_find? hr⟩
  exact (grouped_place_empty _ x).mem (Ownership.mem_of_find? hr)

/-- What is recorded only without the restriction is below a call that the restriction leaves alone. -/
theorem leftAlone_of_unrestricted
    (he : e ∈ ((Site.mk id node false).place x .empty).ownedBy owner)
    (hnone : ((Site.mk id node true).place x .empty).ownerOf? e = none) : e.LeftAloneIn x := by
  obtain ⟨hplaces, _⟩ := (all_place_empty _ x).of_mem_ownedBy he
  rcases hplaces.restrict_or_leftAlone with hplaces | halone
  · -- the restricted run would have recorded it
    obtain ⟨r, hr⟩ := hplaces.exists_find? .empty
    rw [Ownership.ownerOf?, hr] at hnone
    cases hnone
  · exact halone

end Site

/-! ## §4. Both runs -/

namespace Plan

/-- With nothing recorded at a node, an unambiguous expression is placed there with push-down
    restricted and without. It has the same owner both times, the one that the policy has for it. What
    the restricted run records is recorded under the same owner in the other run. What only the other
    run records is strictly below a call that has no aggregate and depends on several tables. -/
theorem agrees_of_restricted {plan : Plan} {id : NodeId} {node : PlanNode}
    (hnode : plan.tree.node? id = some node) (hempty : plan.ownership id = .empty) {x : Expr}
    (hx : x.Unambiguous) :
    ∃ restricted unrestricted, plan.place id true x = .ok restricted ∧
      plan.place id false x = .ok unrestricted ∧
      (∀ owner, (restricted.ownership id).ownerOf? x = some owner ↔ plan.tree.Owns id owner x) ∧
      (∀ owner, (unrestricted.ownership id).ownerOf? x = some owner ↔ plan.tree.Owns id owner x) ∧
      (∀ owner, ∀ e ∈ (restricted.ownership id).ownedBy owner,
        (unrestricted.ownership id).ownerOf? e = some owner ∧
          ∃ e' ∈ (unrestricted.ownership id).ownedBy owner, e'.same e = true) ∧
      ∀ owner, ∀ e ∈ (unrestricted.ownership id).ownedBy owner,
        (restricted.ownership id).ownerOf? e = none → e.LeftAloneIn x := by
  have hplace : ∀ restricted, ∃ placed, plan.place id restricted x = .ok placed ∧
      placed.ownership id = (Site.mk id node restricted).place x .empty := by
    intro restricted
    let site : Site := ⟨id, node, restricted⟩
    have hsite : plan.tree.node? site.id = some site.node := hnode
    refine ⟨_, place_eq_ok hsite x, ?_⟩
    rw [ownership_update (PlanTree.lt_of_node? hnode), if_pos rfl, hempty]
  obtain ⟨restricted, hrestricted, hown⟩ := hplace true
  obtain ⟨unrestricted, hunrestricted, hown'⟩ := hplace false
  refine ⟨restricted, unrestricted, hrestricted, hunrestricted, ?_, ?_, ?_, ?_⟩
  · intro owner
    rw [hown, Site.ownerOf?_place_empty]
    exact Site.owner?_eq_some_iff hnode
  · intro owner
    rw [hown', Site.ownerOf?_place_empty]
    exact Site.owner?_eq_some_iff hnode
  · intro owner e he
    rw [hown] at he
    rw [hown']
    exact Site.recorded_of_restricted hx he
  · intro owner e he hnone
    rw [hown'] at he
    rw [hown] at hnone
    exact Site.leftAlone_of_unrestricted he hnone

namespace Shop

/-- `users.id`, at node 0. -/
def ident : BoundColumn :=
  ⟨0, "users", Column.ofType "id" .long⟩

/-- The parts of a comparison of the two columns are told apart. -/
theorem unambiguous_amountAboveIdent (state : CallState) :
    (Expr.call (.builtin .gt) [.field amount, .field ident] state).Unambiguous := by
  have hparts : ∀ y : Expr, y.PartOf (.call (.builtin .gt) [.field amount, .field ident] state) →
      y = .call (.builtin .gt) [.field amount, .field ident] state ∨ y = .field amount ∨
        y = .field ident := by
    intro y hy
    rcases Expr.partOf_call_iff.mp hy with rfl | ⟨arg, harg, hy⟩
    · exact .inl rfl
    · rcases List.mem_cons.mp harg with rfl | harg
      · cases hy
        exact .inr (.inl rfl)
      · obtain rfl := List.mem_singleton.mp harg
        cases hy
        exact .inr (.inr rfl)
  intro y z hy hz hsame
  have halike := (Expr.same_iff.mp hsame).2
  rcases hparts y hy with rfl | rfl | rfl <;> rcases hparts z hz with rfl | rfl | rfl
  all_goals first | exact ⟨rfl, rfl⟩ | cases halike

/-- At the join, `orders.amount > users.id` stays. Without the restriction both columns are recorded
    as well, under their tables. -/
theorem agrees_of_restricted_amountAboveIdent :
    plan.tree.node? 2 = some (.join .leftOuter 0 1) ∧ plan.ownership 2 = .empty ∧
      ∃ x restricted unrestricted, plan.tree.bind 2 (.gt (.field amount) (.field ident)) = .ok x ∧
        x.Unambiguous ∧ plan.place 2 true x = .ok restricted ∧
        plan.place 2 false x = .ok unrestricted ∧
        (restricted.ownership 2).index.map (·.owner) = [2] ∧
        (unrestricted.ownership 2).index.map (·.owner) = [2, 1, 0] ∧
        (∀ owner, (restricted.ownership 2).ownerOf? x = some owner ↔ plan.tree.Owns 2 owner x) ∧
        ∀ owner, ∀ e ∈ (unrestricted.ownership 2).ownedBy owner,
          (restricted.ownership 2).ownerOf? e = none → e.LeftAloneIn x := by
  have hnode : plan.tree.node? 2 = some (.join .leftOuter 0 1) := rfl
  obtain ⟨state, hbind, hrestricted, hunrestricted⟩ : ∃ state,
      plan.tree.bind 2 (.gt (.field amount) (.field ident)) =
        .ok (.call (.builtin .gt) [.field amount, .field ident] state) ∧
      (plan.place 2 true (.call (.builtin .gt) [.field amount, .field ident] state)).map
        (fun placed => (placed.ownership 2).index.map (·.owner)) = .ok [2] ∧
      (plan.place 2 false (.call (.builtin .gt) [.field amount, .field ident] state)).map
        (fun placed => (placed.ownership 2).index.map (·.owner)) = .ok [2, 1, 0] :=
    ⟨_, rfl, rfl, rfl⟩
  have hx := unambiguous_amountAboveIdent state
  obtain ⟨restricted, unrestricted, hplace, hplace', howner, _, _, honly⟩ :=
    agrees_of_restricted hnode rfl hx
  rw [hplace] at hrestricted
  rw [hplace'] at hunrestricted
  exact ⟨hnode, rfl, _, restricted, unrestricted, hbind, hx, hplace, hplace',
    Except.ok.inj hrestricted, Except.ok.inj hunrestricted, howner, honly⟩

end Shop

end Plan

end PushDown
