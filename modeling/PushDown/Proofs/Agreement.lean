import PushDown.Proofs.Identity
import PushDown.Proofs.Policy
import PushDown.Proofs.Rebinding
import PushDown.Registry

/-! # What the policy sees of an expression

    Where an expression goes is decided by two of its facts and by the tables
    that it depends on. A record goes by texts and may find another expression
    in its place. That does no harm as long as the policy sees no difference
    between the two (`owner?_of_find?`).

    It sees none if the texts tell enough. Two legible expressions with one text
    are parallel, so what they depend on is the same once it is the same for
    their leaves and functions. For a bound column this follows from the scope.
    A function shows its name alone, and a subquery shows nothing of the tables
    it refers to: there it has to be known which of them go with which text
    (`Resolved.agree`).
-/

namespace PushDown

/-! ## §1. Agreement -/

/-- The policy sees no difference between the two, if they are alike. -/
structure Expr.AgreesWith (a b : Expr) : Prop where
  aggregate : a.facts.aggregate = b.facts.aggregate
  nullTest  : a.facts.nullTest = b.facts.nullTest
  tables    : a.tables = b.tables

namespace Site

variable {tree : PlanTree} {site : Site}

theorem owner?_eq_of_agreesWith {a b : Expr} (halike : a.alike b = true) (h : a.AgreesWith b) :
    site.owner? a = site.owner? b := by
  cases a with
  | literal v => cases b <;> first | rfl | cases halike
  | column ref => cases b <;> first | rfl | cases halike
  | field f =>
    cases b with
    | field g =>
      simp only [Expr.alike, Bool.and_eq_true, beq_iff_eq] at halike
      simp only [owner?, halike.1]
    | literal v => cases halike
    | column ref => cases halike
    | call f args state => cases halike
    | subquery q => cases halike
  | call f args state =>
    cases b with
    | call g brgs state' =>
      obtain ⟨haggregate, hnullTest, htables⟩ := h
      simp only [Expr.facts, Expr.tables] at haggregate hnullTest htables
      simp only [owner?, callOwner, haggregate, hnullTest, htables]
    | literal v => cases halike
    | column ref => cases halike
    | field f => cases halike
    | subquery q => cases halike
  | subquery q => cases b <;> first | rfl | cases halike

/-- An expression has the owner of the entry that is found for it, if the entry has the same facts and
    tables. -/
theorem owner?_of_find? {own : Ownership} {x : Expr} {r : Recorded} (hr : own.find? x = some r)
    (hrecorded : site.owner? r.expr = some r.owner) (hfacts : r.expr.facts = x.facts)
    (htables : r.expr.tables = x.tables) : site.owner? x = some r.owner := by
  have halike := (Expr.same_iff.mp (Ownership.same_of_find? hr)).2
  have hagrees : r.expr.AgreesWith x := ⟨by rw [hfacts], by rw [hfacts], htables⟩
  rw [← owner?_eq_of_agreesWith halike hagrees, hrecorded]

end Site

/-- What goes to another node depends on no node besides. -/
theorem PlanTree.Owns.eq_of_mem_tables {tree : PlanTree} {id owner : NodeId} {e : Expr}
    (h : tree.Owns id owner e) (haway : owner ≠ id) {table : NodeId} (htable : table ∈ e.tables) :
    table = owner := by
  cases h with
  | field f => exact NodeSet.mem_singleton.mp htable
  | subquery q => exact absurd rfl haway
  | aggregate _ => exact absurd rfl haway
  | constantHere _ _ _ => exact absurd rfl haway
  | constantBelow _ htables _ _ =>
    simp only [Expr.tables, htables] at htable
    exact absurd htable NodeSet.not_mem_empty
  | nullTest _ _ _ _ => exact absurd rfl haway
  | oneTable _ htables _ =>
    simp only [Expr.tables, htables] at htable
    exact NodeSet.mem_singleton.mp htable
  | severalTables _ _ _ _ => exact absurd rfl haway

/-! ## §2. What is known of leaves and functions -/

/-- Every built-in function is found by its name. -/
theorem Registry.func?_builtins (f : Builtin) : builtins.func? f.name = some (.builtin f) := by
  have hall : ∀ f ∈ Builtin.all, builtins.func? f.name = some (.builtin f) := by decide +kernel
  exact hall f (Builtin.mem_all f)

namespace Expr

variable {registry : Registry} {outer : String → NodeSet}
  {resolve : ColumnRef → Except Failure BoundColumn} {tree : PlanTree} {scope : NodeId}
  {e b c x : Expr}

/-- The function of a call is the one of its name in the registry, a bound column is one that resolves,
    and a subquery refers to the tables that go with its text. -/
def Told (registry : Registry) (outer : String → NodeSet)
    (resolve : ColumnRef → Except Failure BoundColumn) : Expr → Prop
  | call f _ _ => registry.func? f.name = some f
  | field f => ∃ ref, resolve ref = .ok f
  | subquery q => q.outer = outer q.label
  | literal _ | column _ => True

/-- All parts of the expression are told by their texts. -/
def Known (registry : Registry) (outer : String → NodeSet)
    (resolve : ColumnRef → Except Failure BoundColumn) (e : Expr) : Prop :=
  ∀ x : Expr, x.PartOf e → x.Told registry outer resolve

theorem Known.of_partOf (h : e.Known registry outer resolve) (hpart : x.PartOf e) :
    x.Known registry outer resolve :=
  fun y hy => h y (hy.trans hpart)

/-- Binding changes nothing but columns, and these resolve. -/
theorem Known.of_bind (h : e.Known registry outer resolve) (hbind : bind resolve e = .ok b) :
    b.Known registry outer resolve := by
  refine bind_induction (motive := fun e b =>
    e.Known registry outer resolve → b.Known registry outer resolve)
    ?literal ?column ?field ?call ?subquery hbind h
  case literal => exact fun v hv => hv
  case field => exact fun f hf => hf
  case subquery => exact fun q hq => hq
  case column =>
    intro ref f hf _ x hx
    cases hx
    exact ⟨ref, hf⟩
  case call =>
    intro f args bound state settled hargs _ hcall x hx
    rcases partOf_call_iff.mp hx with rfl | ⟨b, hb, hx⟩
    · have hf : registry.func? f.name = some f := hcall _ .refl
      exact hf
    · obtain ⟨arg, harg, hbound⟩ := exists_of_mem_right hargs hb
      exact hbound (hcall.of_partOf (.arg harg .refl)) x hx

/-- A bound expression all parts of which are told by their texts. -/
structure Resolved (registry : Registry) (outer : String → NodeSet)
    (resolve : ColumnRef → Except Failure BoundColumn) (b : Expr) : Prop where
  settled : b.Settled
  known   : b.Known registry outer resolve

theorem Known.resolved (h : e.Known registry outer resolve) (hbind : bind resolve e = .ok b) :
    b.Resolved registry outer resolve :=
  ⟨settled_of_bind hbind, h.of_bind hbind⟩

theorem Resolved.of_partOf (h : b.Resolved registry outer resolve) (hpart : x.PartOf b) :
    x.Resolved registry outer resolve :=
  ⟨h.settled.of_partOf hpart, h.known.of_partOf hpart⟩

/-- A bound expression depends on the tables of all its parts. -/
theorem Resolved.mem_tables (h : b.Resolved registry outer resolve) (hpart : x.PartOf b)
    {id : NodeId} (hid : id ∈ x.tables) : id ∈ b.tables := by
  have hself : bind resolve b = .ok b := h.settled.bind_eq
  exact tables_of_bind hself hpart hid

/-- Parallel legible expressions that are bound in one scope have the same facts and tables. -/
theorem Resolved.agree (hb : b.Resolved registry outer (tree.resolve scope))
    (hc : c.Resolved registry outer (tree.resolve scope)) (hblegible : b.Legible)
    (hclegible : c.Legible) (h : Parallel b c) : b.facts = c.facts ∧ b.tables = c.tables := by
  obtain ⟨hbsettled, hb⟩ := hb
  obtain ⟨hcsettled, hc⟩ := hc
  induction hbsettled generalizing c with
  | literal v =>
    cases h with
    | leaf _ hleaf hlabel =>
      cases hcsettled with
      | literal w => exact ⟨rfl, rfl⟩
      | field f => exact absurd hlabel (text_ne_boundColumn hblegible f)
      | subquery q => exact absurd hlabel (text_ne_subquery hblegible q)
      | call => cases hleaf
  | field f =>
    cases h with
    | leaf _ hleaf hlabel =>
      cases hcsettled with
      | literal w => exact absurd hlabel.symm (text_ne_boundColumn hclegible f)
      | field g =>
        obtain ⟨_, hf⟩ := hb _ .refl
        obtain ⟨_, hg⟩ := hc _ .refl
        obtain ⟨htable, hcolumn⟩ := names_eq_of_text hblegible hclegible hlabel
        rw [PlanTree.eq_of_resolve hf hg htable hcolumn]
        exact ⟨rfl, rfl⟩
      | subquery q => exact absurd hlabel (text_boundColumn_ne_subquery f q)
      | call => cases hleaf
  | subquery q =>
    cases h with
    | leaf _ hleaf hlabel =>
      cases hcsettled with
      | literal w => exact absurd hlabel.symm (text_ne_subquery hclegible q)
      | field g => exact absurd hlabel.symm (text_boundColumn_ne_subquery g q)
      | subquery r =>
        have hq : q.outer = outer q.label := hb _ .refl
        have hr : r.outer = outer r.label := hc _ .refl
        have houter : q.outer = r.outer := by rw [hq, hr, subquery_label_injective hlabel]
        exact ⟨rfl, houter⟩
      | call => cases hleaf
  | @call f args state _ hsettle ih =>
    cases h with
    | leaf hleaf => cases hleaf
    | @call _ g _ brgs _ state' hname hargs =>
      cases hcsettled with
      | call hbrgs hsettle' =>
        have hf : registry.func? f.name = some f := hb _ .refl
        have hg : registry.func? g.name = some g := hc _ .refl
        obtain rfl : f = g := by
          rw [hname, hg] at hf
          exact (Option.some.inj hf).symm
        have hboth : ∀ a ∈ args, ∀ b ∈ brgs, Parallel a b →
            a.facts = b.facts ∧ a.tables = b.tables := fun a ha b hb' hab =>
          ih a ha (hblegible.args a ha) (hclegible.args b hb') hab (hb.of_partOf (.arg ha .refl))
            (hbrgs b hb') (hc.of_partOf (.arg hb' .refl))
        have hargfacts : args.map facts = brgs.map facts :=
          map_eq_of_forall₂ hargs fun a ha b hb hab => (hboth a ha b hb hab).1
        have hargtables : args.map tables = brgs.map tables :=
          map_eq_of_forall₂ hargs fun a ha b hb hab => (hboth a ha b hb hab).2
        -- facts and tables of a call are collected from those of its arguments
        obtain ⟨_, hfacts, htables⟩ := of_settle hsettle
        obtain ⟨_, hfacts', htables'⟩ := of_settle hsettle'
        constructor
        · show state.facts = state'.facts
          rw [hfacts, hfacts', factsOf, factsOf, ← List.foldl_map, hargfacts, List.foldl_map]
        · show state.tables = state'.tables
          rw [htables, htables', tablesOf, tablesOf, ← List.foldl_map, hargtables, List.foldl_map]

/-! ## §3. Expressions that cannot be mistaken -/

/-- Of two parts of expressions in the set that are alike, the policy sees no difference between the
    two. -/
def Coherent (S : Expr → Prop) : Prop :=
  ∀ {a b x y : Expr}, S a → S b → x.PartOf a → y.PartOf b → x.alike y = true → x.AgreesWith y

theorem Legible.of_partOf (h : e.Legible) (hpart : x.PartOf e) : x.Legible := by
  induction hpart with
  | refl => exact h
  | arg harg _ ih => exact ih (h.args _ harg)

/-- A bound expression whose text tells all that the policy looks at. -/
structure Unmistakable (registry : Registry) (outer : String → NodeSet) (scope : NodeId)
    (tree : PlanTree) (b : Expr) : Prop where
  resolved : b.Resolved registry outer (tree.resolve scope)
  legible  : b.Legible

theorem Unmistakable.of_partOf (h : b.Unmistakable registry outer scope tree)
    (hpart : x.PartOf b) : x.Unmistakable registry outer scope tree :=
  ⟨h.resolved.of_partOf hpart, h.legible.of_partOf hpart⟩

/-- Nodes that are added to the tree change nothing below the scope. -/
theorem Unmistakable.of_resolve_eq {tree' : PlanTree} (h : b.Unmistakable registry outer scope tree)
    (hresolve : tree'.resolve scope = tree.resolve scope) :
    b.Unmistakable registry outer scope tree' := by
  refine ⟨?_, h.legible⟩
  rw [hresolve]
  exact h.resolved

/-- The policy sees no difference between expressions that are alike and cannot be mistaken. -/
theorem Unmistakable.agreesWith (hb : b.Unmistakable registry outer scope tree)
    (hc : c.Unmistakable registry outer scope tree) (halike : b.alike c = true) :
    b.AgreesWith c := by
  have hparallel := hb.legible.parallel hc.legible (label_eq_of_alike halike)
  obtain ⟨hfacts, htables⟩ := hb.resolved.agree hc.resolved hb.legible hc.legible hparallel
  exact ⟨by rw [hfacts], by rw [hfacts], htables⟩

theorem Ordinary.of_partOf (h : e.Ordinary) (hpart : x.PartOf e) : x.Ordinary := by
  induction hpart with
  | refl => exact h
  | arg harg _ ih =>
    cases h with
    | call _ _ _ hargs => exact ih (hargs _ harg)

/-- What ordinary expressions are bound to in a scope with plain names. -/
def PlainlyBound (scope : NodeId) (tree : PlanTree) (b : Expr) : Prop :=
  tree.PlainNames scope ∧ ∃ e : Expr, e.Ordinary ∧ tree.bind scope e = .ok b

/-- In a scope with plain names, what ordinary expressions are bound to cannot be mistaken. -/
theorem PlainlyBound.unmistakable (h : b.PlainlyBound scope tree) (outer : String → NodeSet) :
    b.Unmistakable .builtins outer scope tree := by
  obtain ⟨hnames, e, he, hbind⟩ := h
  have hknown : e.Known .builtins outer (tree.resolve scope) := by
    intro x hx
    cases he.of_partOf hx with
    | column ref => trivial
    | literal _ => trivial
    | call _ _ _ _ => exact Registry.func?_builtins _
  refine ⟨hknown.resolved hbind, ?_⟩
  exact (he.bound hbind).legible fun ref f hf => hnames.of_resolve hf

end Expr

end PushDown
