import PushDown.Proofs.Agreement
import PushDown.Proofs.Leaves
import PushDown.Proofs.Planning

/-! # What a placement owes to earlier ones

    A record tells expressions apart by what they are and by their text. So two
    predicates with one text are one expression to it, even when subqueries in
    them refer to different outer tables, and the second is placed at the owner
    of the first.

    Nothing else of what was placed before matters. Everything recorded at a node
    is part of something that came there (`ReachableWith.recorded`). So a
    conjunct is placed where it would be placed alone, unless two expressions
    that came to the node are alike and the policy sees a difference between
    parts of them. Between ordinary expressions it never does, nor between
    others that cannot be mistaken. In any case a conjunct is placed where it
    would be placed alone if and only if that is where the policy has the
    expression that is recorded for it.
-/

namespace PushDown

namespace Plan

/-! ## §1. What comes to a node -/

/-- The plan can come about by actions that bring only such expressions to the node. A predicate that
    cannot be bound changes nothing, and so it may come in between. -/
inductive ReachableWith (id : NodeId) (P : PlanTree → Expr → Prop) : Plan → Prop
  | empty : ReachableWith id P .empty
  | step {plan plan' : Plan} (action : Action) :
      ReachableWith id P plan → (∀ b, action.Brings plan id b → P plan.tree b) →
      plan.step action = .ok plan' → ReachableWith id P plan'

variable {plan plan' : Plan} {id : NodeId} {P Q : PlanTree → Expr → Prop}

theorem ReachableWith.mono (h : plan.ReachableWith id P) (hPQ : ∀ tree b, P tree b → Q tree b) :
    plan.ReachableWith id Q := by
  induction h with
  | empty => exact .empty
  | step action _ hbrings hstep ih => exact ih.step action (fun b hb => hPQ _ b (hbrings b hb)) hstep

/-- What holds of all that came to a node holds of all that is recorded there, if it also holds of the
    parts and is kept when the tree grows. -/
theorem ReachableWith.recorded (h : plan.ReachableWith id P)
    (hparts : ∀ {tree e x}, x.PartOf e → P tree e → P tree x)
    (hgrown : ∀ {tree tree' e}, tree.Within tree' → id < tree.size → P tree e → P tree' e) :
    (plan.ownership id).All fun _ e => P plan.tree e := by
  induction h with
  | empty =>
    rw [ownership_eq_empty (Nat.zero_le _)]
    exact Ownership.all_empty _
  | @step plan plan' action _ hbrings hstep ih =>
    rcases step_cases hstep with ⟨node, hgrow⟩ | ⟨site, es, hplace, hes⟩ | ⟨_, rfl⟩
    · rw [hgrow.ownership id]
      obtain ⟨hnode, htree⟩ := hgrow.tree
      by_cases hid : id < plan.tree.size
      · have hwithin : plan.tree.Within plan'.tree := htree ▸ PlanTree.within_push hnode
        exact ih.mono fun _ e he => hgrown hwithin hid he
      · -- the node was not there, so nothing is recorded at it
        rw [ownership_eq_empty (Nat.le_of_not_lt hid)]
        exact Ownership.all_empty _
    · rw [hplace.ownership id, hplace.tree]
      split
      · next hid =>
        subst hid
        exact Site.all_placeAll_of_parts (fun e he x hx => hparts hx (hbrings e (hes e he))) ih
      · exact ih
    · rw [ownership_clear]
      exact Ownership.all_empty _

/-- Everything that came to the node has the property, and so do the conjuncts of the predicate that
    comes now. -/
structure ComesWith (plan : Plan) (id : NodeId) (predicate : Expr) (P : PlanTree → Expr → Prop) :
    Prop where
  earlier : plan.ReachableWith id P
  now     : ∀ e ∈ predicate.conjuncts, ∀ b, plan.tree.bind id e = .ok b → P plan.tree b

theorem ComesWith.mono {predicate : Expr} (h : plan.ComesWith id predicate P)
    (hPQ : ∀ tree b, P tree b → Q tree b) : plan.ComesWith id predicate Q :=
  ⟨h.earlier.mono hPQ, fun e he b hb => hPQ _ b (h.now e he b hb)⟩

/-- Once the predicate is planned, it has come to the node, too. -/
theorem ComesWith.reachableWith {restricted : Bool} {predicate : Expr} {placed : List Placement}
    (h : plan.ComesWith id predicate P)
    (hplanned : plan.planFilter id restricted predicate = (.ok placed, plan')) :
    plan'.ReachableWith id P := by
  refine h.earlier.step _ (fun b hb => ?_) (step_planFilter hplanned)
  cases hb with
  | planFilter he hbind => exact h.now _ he b hbind

end Plan

/-! ## §2. Owners in a record -/

/-- The placement is at a given node, and if this is not the node at which the predicate was written,
    the predicate depends on no table besides. -/
structure Placement.IsAt (p : Placement) (id owner : NodeId) : Prop where
  owner_eq : p.owner = owner
  tables   : p.owner ≠ id → ∀ table ∈ p.predicate.tables, table = p.owner

namespace Site

variable {tree : PlanTree} {site : Site} {own : Ownership} {b : Expr}

/-- In a record in which an expression is found if it has an owner, its owner is the one that the site
    has for it if and only if this is the owner that the policy has for what is found. -/
theorem getD_ownerOf?_eq_iff (hnode : tree.node? site.id = some site.node)
    (hown : own.All (tree.Owns site.id))
    (hfound : ∀ owner, site.owner? b = some owner → ∃ r, own.find? b = some r) :
    (own.ownerOf? b).getD site.id = (site.owner? b).getD site.id ↔
      ∀ r, own.find? b = some r → tree.Owns site.id ((site.owner? b).getD site.id) r.expr := by
  rw [Ownership.ownerOf?]
  cases howner : site.owner? b with
  | none =>
    -- nothing is recorded for it, so it stays
    rw [find?_eq_none_of_owner? hown howner]
    simp
  | some owner =>
    obtain ⟨r, hr⟩ := hfound owner howner
    have howns : tree.Owns site.id r.owner r.expr := hown.index r (Ownership.mem_of_find? hr)
    rw [hr]
    simp only [Option.map_some, Option.getD_some, Option.some.injEq, forall_eq']
    constructor
    · intro heq
      rw [← heq]
      exact howns
    · exact owns_unique hnode howns

/-- If what is found agrees with the expression, its owner is the one that the site has for it. -/
theorem getD_ownerOf?_of_agreesWith (hnode : tree.node? site.id = some site.node)
    (hown : own.All (tree.Owns site.id))
    (hfound : ∀ owner, site.owner? b = some owner → ∃ r, own.find? b = some r)
    (hagrees : ∀ r, own.find? b = some r → r.expr.AgreesWith b) :
    Placement.IsAt ⟨b, (own.ownerOf? b).getD site.id⟩ site.id ((site.owner? b).getD site.id) := by
  rw [Ownership.ownerOf?]
  cases howner : site.owner? b with
  | none =>
    rw [find?_eq_none_of_owner? hown howner]
    exact ⟨rfl, fun haway => absurd rfl haway⟩
  | some owner =>
    obtain ⟨r, hr⟩ := hfound owner howner
    have howns : tree.Owns site.id r.owner r.expr := hown.index r (Ownership.mem_of_find? hr)
    have halike := (Expr.same_iff.mp (Ownership.same_of_find? hr)).2
    have hrecorded : site.owner? r.expr = some r.owner := owner?_of_owns hnode howns
    rw [owner?_eq_of_agreesWith halike (hagrees r hr), howner] at hrecorded
    rw [hr]
    refine ⟨(Option.some.inj hrecorded).symm, fun haway table htable => ?_⟩
    rw [← (hagrees r hr).tables] at htable
    exact howns.eq_of_mem_tables haway htable

end Site

/-! ## §3. Any history -/

namespace Plan

variable {plan plan' : Plan} {id : NodeId}

/-- What is found for a conjunct agrees with it, if what came to the node cannot be mistaken. -/
theorem ComesWith.agreesWith {registry : Registry} {outer : String → NodeSet} {restricted : Bool}
    {predicate e b : Expr} {placed : List Placement} {r : Recorded}
    (h : plan.ComesWith id predicate (Expr.Unmistakable registry outer id))
    (hplanned : plan.planFilter id restricted predicate = (.ok placed, plan'))
    (he : e ∈ predicate.conjuncts) (hbind : plan.tree.bind id e = .ok b)
    (hr : (plan'.ownership id).find? b = some r) : r.expr.AgreesWith b := by
  obtain ⟨_, _, _, hplace⟩ := placedAt_of_planFilter hplanned
  have hrecorded := (h.reachableWith hplanned).recorded
    (fun hpart hx => hx.of_partOf hpart) fun hwithin hid hx => hx.of_resolve_eq (hwithin.resolve_eq hid)
  have hfound := hrecorded.index r (Ownership.mem_of_find? hr)
  rw [hplace.tree] at hfound
  exact hfound.agreesWith (h.now e he b hbind) (Expr.same_iff.mp (Ownership.same_of_find? hr)).2

/-- What is found for a conjunct agrees with it, if what came to the node is coherent. -/
theorem ComesWith.agreesWith_of_coherent {S : Expr → Prop} {restricted : Bool} {predicate e b : Expr}
    {placed : List Placement} {r : Recorded} (h : plan.ComesWith id predicate fun _ => S)
    (hplanned : plan.planFilter id restricted predicate = (.ok placed, plan'))
    (hcoherent : Expr.Coherent S) (he : e ∈ predicate.conjuncts)
    (hbind : plan.tree.bind id e = .ok b) (hr : (plan'.ownership id).find? b = some r) :
    r.expr.AgreesWith b := by
  -- what is recorded is part of something that came
  have hwith : plan'.ReachableWith id fun _ x => ∃ a, S a ∧ x.PartOf a :=
    (h.reachableWith hplanned).mono fun _ b hb => ⟨b, hb, .refl⟩
  have hrecorded := hwith.recorded (fun hpart ⟨a, ha, hx⟩ => ⟨a, ha, hpart.trans hx⟩)
    fun _ _ hx => hx
  obtain ⟨a, ha, hpart⟩ := hrecorded.index r (Ownership.mem_of_find? hr)
  have halike := (Expr.same_iff.mp (Ownership.same_of_find? hr)).2
  exact hcoherent ha (h.now e he b hbind) hpart .refl halike

/-- Whatever was done to a plan before, a conjunct is placed where it would be placed with nothing
    recorded; and if it goes to another node, it depends on that node alone. This holds if what came to
    the node is coherent, if it cannot be mistaken, and so if it is what ordinary predicates are bound
    to. In any case the conjunct is placed there if and only if that is where the policy has the
    expression recorded for it. -/
theorem owner_of_planFilter {restricted : Bool} {predicate : Expr} {placed : List Placement}
    {p : Placement} (h : plan.Reachable)
    (hplanned : plan.planFilter id restricted predicate = (.ok placed, plan')) (hp : p ∈ placed) :
    ∃ e ∈ predicate.conjuncts, plan.tree.bind id e = .ok p.predicate ∧
      ∃ alone cleared, plan.clear.planFilter id restricted e = (.ok [⟨p.predicate, alone⟩], cleared) ∧
        (∀ S, Expr.Coherent S → plan.ComesWith id predicate (fun _ => S) → p.IsAt id alone) ∧
        (∀ registry outer, plan.ComesWith id predicate (Expr.Unmistakable registry outer id) →
          p.IsAt id alone) ∧
        (plan.ComesWith id predicate (Expr.PlainlyBound id) → p.IsAt id alone) ∧
        (p.owner = alone ↔ ∀ r, (plan'.ownership id).find? p.predicate = some r →
          plan.tree.Owns id alone r.expr) := by
  obtain ⟨_, site, _, hsite, _, _⟩ := of_planFilter hplanned
  obtain ⟨node, hnode, hsite'⟩ := site_eq_ok_iff.mp hsite
  obtain ⟨rfl, rfl, rfl⟩ : site.id = id ∧ site.node = node ∧ site.restricted = restricted := by
    rw [hsite']
    exact ⟨rfl, rfl, rfl⟩
  obtain ⟨bound, hbound, hown, rfl⟩ := h.followsPolicy.of_planFilter hnode hplanned
  obtain ⟨b, hb, rfl⟩ := List.mem_map.mp hp
  obtain ⟨e, he, hbind⟩ := Expr.exists_of_mem_right (PlanTree.bindAll_eq_ok_iff.mp hbound) hb
  -- alone, the conjunct has the owner that the site has for it
  obtain ⟨cleared, halone⟩ := exists_planFilter_alone site hnode (Expr.conjuncts_of_mem he) hbind
  have hall : (plan'.ownership site.id).All (plan.tree.Owns site.id) := by
    rw [hown]
    exact Site.all_placeAll hnode (h.followsPolicy site.id) bound
  have hfound : ∀ owner, site.owner? b = some owner →
      ∃ r, (plan'.ownership site.id).find? b = some r := by
    intro owner howner
    rw [hown]
    exact Site.exists_find?_placeAll hb howner
  have hagree := Site.getD_ownerOf?_of_agreesWith hnode hall hfound
  have hunmistakable : ∀ registry outer,
      plan.ComesWith site.id predicate (Expr.Unmistakable registry outer site.id) →
        Placement.IsAt _ site.id _ := fun registry outer hcomes =>
    hagree fun r hr => hcomes.agreesWith hplanned he hbind hr
  refine ⟨e, he, hbind, _, cleared, halone, ?_, hunmistakable, ?_,
    Site.getD_ownerOf?_eq_iff hnode hall hfound⟩
  · intro S hcoherent hcomes
    exact hagree fun r hr => hcomes.agreesWith_of_coherent hplanned hcoherent he hbind hr
  · intro hcomes
    exact hunmistakable .builtins (fun _ => .empty)
      (hcomes.mono fun _ b hb => hb.unmistakable _)

end Plan

namespace Plan.Shop

/-- No expression comes to a node while the plan is made. -/
theorem reachableWith_plan (id : NodeId) (P : PlanTree → Expr → Prop) : plan.ReachableWith id P := by
  have husers : (Plan.empty.addTable users none).1.ReachableWith id P :=
    .step (.addTable users none) .empty nofun rfl
  have horders := husers.step (.addTable orders none) nofun rfl
  have hjoin := horders.step (.addJoin .leftOuter 0 1) nofun rfl
  exact hjoin.step (.addQuery 2) nofun rfl

/-- Predicates on one column come to the join plainly bound. -/
theorem comesWith_above {next : Plan} (hwith : next.ReachableWith 2 (Expr.PlainlyBound 2))
    (htree : next.tree = tree) (ref : ColumnRef) :
    next.ComesWith 2 (.gt (.column ref) (.literal (.int 5))) (Expr.PlainlyBound 2) := by
  have hnames : tree.PlainNames 2 := by decide +kernel
  refine ⟨hwith, fun e he b hbind => ⟨htree ▸ hnames, e, ?_, hbind⟩⟩
  -- the predicate is its only conjunct
  obtain rfl := List.mem_singleton.mp he
  exact ordinary_above ref

/-- A predicate on `amount` was planned at the join. -/
def amountPlanned : Plan :=
  (plan.planFilter 2 false amountAbove).2

/-- The same predicate with the table named is planned next, and goes to `orders` as it does alone. -/
theorem owner_of_planFilter_amountAbove :
    amountPlanned.Reachable ∧ amountPlanned.ComesWith 2 ordersAmountAbove (Expr.PlainlyBound 2) ∧
      ∃ b plan' alone cleared,
        amountPlanned.planFilter 2 false ordersAmountAbove = (.ok [⟨b, 1⟩], plan') ∧
        amountPlanned.clear.planFilter 2 false ordersAmountAbove = (.ok [⟨b, alone⟩], cleared) ∧
        Placement.IsAt ⟨b, 1⟩ 2 alone := by
  have hfirst : ((plan.planFilter 2 false amountAbove).1.map fun placed =>
      placed.map (·.owner)) = .ok [1] := by decide +kernel
  obtain ⟨first, hfirst, _⟩ := Result.exists_of_map hfirst
  have hplanned : plan.planFilter 2 false amountAbove = (.ok first, amountPlanned) :=
    Prod.ext hfirst rfl
  obtain ⟨_, _, _, hplace⟩ := placedAt_of_planFilter hplanned
  have hreachable : amountPlanned.Reachable := reachable_plan.step _ (step_planFilter hplanned)
  have hwith := (comesWith_above (reachableWith_plan 2 _) rfl _).reachableWith hplanned
  have hcomes := comesWith_above hwith hplace.tree (.parse "orders.AMOUNT")
  have hsecond : ((amountPlanned.planFilter 2 false ordersAmountAbove).1.map fun placed =>
      placed.map (·.owner)) = .ok [1] := by decide +kernel
  obtain ⟨second, hsecond, howners⟩ := Result.exists_of_map hsecond
  obtain ⟨⟨b, owner⟩, rfl, rfl⟩ := List.map_eq_singleton_iff.mp howners
  have hagain : amountPlanned.planFilter 2 false ordersAmountAbove =
      (.ok [⟨b, 1⟩], (amountPlanned.planFilter 2 false ordersAmountAbove).2) := Prod.ext hsecond rfl
  obtain ⟨e, he, _, alone, cleared, halone, _, _, hsame, _⟩ :=
    owner_of_planFilter hreachable hagain List.mem_cons_self
  obtain rfl := List.mem_singleton.mp he
  exact ⟨hreachable, hcomes, b, _, alone, cleared, hagain, halone, hsame hcomes⟩

/-- A predicate over a subquery is placed at `orders` alone, and at `users` after one with its text. -/
theorem owner_of_repeated_text :
    plan.Reachable ∧ plan.tree.tablesUnder 2 = [0, 1] ∧
      ∃ b first plan₁ plan₂ cleared,
        plan.tree.bind 2 overOrders = .ok b ∧ b.tables = .singleton 1 ∧
          plan.planFilter 2 false overUsers = (.ok first, plan₁) ∧
          plan₁.planFilter 2 false overOrders = (.ok [⟨b, 0⟩], plan₂) ∧
          plan₁.clear.planFilter 2 false overOrders = (.ok [⟨b, 1⟩], cleared) :=
  ⟨reachable_plan, by decide +kernel, _, _, _, _, _, rfl, rfl, rfl, rfl, rfl⟩

end Plan.Shop

end PushDown
