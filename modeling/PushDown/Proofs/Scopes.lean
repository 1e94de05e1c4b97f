import PushDown.Proofs.Columns
import PushDown.Proofs.Leaves

/-! # What a name stands for in a scope

    Which column a reference stands for is decided by counting: the leaves that
    are visible under its table name if it has one, and else the leaves that
    have the column. One is right, none is unknown, and two are too many
    (`StandsFor`). A leaf counts as often as it is reached.

    The leaves below a lower node are some of those below a higher one, in the
    same order. So a reference that resolves in both scopes is bound to one
    column, and a column that is still in scope is still what the reference
    stands for (`resolve_of_below`).
-/

namespace PushDown

/-! ## §1. Leaves -/

namespace TableLeaf

/-- Whether the leaf is visible under the name. -/
def isNamed (leaf : TableLeaf) (name : String) : Bool :=
  Text.sameWord leaf.visibleName name

/-- Whether the table of the leaf has a column of the name. -/
def hasColumn (leaf : TableLeaf) (name : String) : Bool :=
  leaf.table.columns.any fun column => Text.sameWord column.name name

theorem isSome_bound? (id : NodeId) (leaf : TableLeaf) (name : String) :
    (leaf.bound? id name).isSome = leaf.hasColumn name := by
  rw [bound?, Option.isSome_map, Table.column?, hasColumn, Bool.eq_iff_iff, List.find?_isSome,
    List.any_eq_true]

theorem bound?_of_mem {id : NodeId} {leaf : TableLeaf} {name : String} {column : Column}
    (hcolumn : column ∈ leaf.table.columns) (hname : Text.sameWord column.name name = true) :
    leaf.bound? id name = some ⟨id, leaf.visibleName, column⟩ :=
  bound?_eq_some_iff.mpr ⟨rfl, rfl, hcolumn, hname⟩

end TableLeaf

/-! ## §2. References among leaves -/

theorem exists_eq_cons_cons {α : Type} {xs : List α} (h : 2 ≤ xs.length) :
    ∃ first second rest, xs = first :: second :: rest := by
  match xs, h with
  | first :: second :: rest, _ => exact ⟨first, second, rest, rfl⟩

/-- The one element that passes the test is all that a filter leaves. -/
theorem filter_eq_singleton {α : Type} {p : α → Bool} {xs : List α} {x : α} (h : xs.countP p = 1)
    (hx : x ∈ xs) (hp : p x = true) : xs.filter p = [x] := by
  rw [List.countP_eq_length_filter, List.length_eq_one_iff] at h
  obtain ⟨y, hy⟩ := h
  have hmem : x ∈ xs.filter p := List.mem_filter.mpr ⟨hx, hp⟩
  rw [hy] at hmem
  rw [hy, List.mem_singleton.mp hmem]

namespace ColumnRef

variable {ref : ColumnRef} {leaves leaves' : List (NodeId × TableLeaf)} {leaf : NodeId × TableLeaf}
  {table : String} {f : BoundColumn}

/-- There is one match for each leaf that has the column. -/
theorem length_matchesIn (ref : ColumnRef) (leaves : List (NodeId × TableLeaf)) :
    (ref.matchesIn leaves).length = leaves.countP fun leaf => leaf.2.hasColumn ref.column := by
  rw [matchesIn, List.length_filterMap_eq_countP]
  simp only [TableLeaf.isSome_bound?]

theorem resolveAmong_of_none (htable : ref.table = none) :
    ref.resolveAmong leaves = ref.only (ref.matchesIn leaves) := by
  rw [resolveAmong, htable]

theorem resolveAmong_of_named (htable : ref.table = some table)
    (hnamed : (leaves.filter fun leaf => leaf.2.isNamed table) = [leaf]) :
    ref.resolveAmong leaves = ref.only (leaf.2.bound? leaf.1 ref.column).toList := by
  have hmatches : ref.matchesIn [leaf] = (leaf.2.bound? leaf.1 ref.column).toList := by
    cases hbound : leaf.2.bound? leaf.1 ref.column with
    | none => simp [matchesIn, hbound]
    | some f => simp [matchesIn, hbound]
  simp only [TableLeaf.isNamed] at hnamed
  simp only [resolveAmong, htable, hnamed, hmatches]

theorem resolveAmong_of_unnamed (htable : ref.table = some table)
    (hnamed : (leaves.filter fun leaf => leaf.2.isNamed table) = []) :
    ref.resolveAmong leaves = .error (.unknownTable table) := by
  simp only [TableLeaf.isNamed] at hnamed
  simp only [resolveAmong, htable, hnamed]

theorem resolveAmong_of_two_le (htable : ref.table = some table)
    (hcount : 2 ≤ leaves.countP fun leaf => leaf.2.isNamed table) :
    ref.resolveAmong leaves = .error (.nonUniqueTable table) := by
  rw [List.countP_eq_length_filter] at hcount
  obtain ⟨first, second, rest, hnamed⟩ := exists_eq_cons_cons hcount
  simp only [TableLeaf.isNamed] at hnamed
  simp only [resolveAmong, htable, hnamed]

theorem only_of_two_le {found : List BoundColumn} (h : 2 ≤ found.length) :
    ref.only found = .error (.ambiguousColumn ref.text) := by
  obtain ⟨first, second, rest, rfl⟩ := exists_eq_cons_cons h
  rfl

theorem resolveAmong_eq_ok_iff_of_some (htable : ref.table = some table) :
    ref.resolveAmong leaves = .ok f ↔
      ∃ leaf, (leaves.filter fun leaf => leaf.2.isNamed table) = [leaf] ∧
        leaf.2.bound? leaf.1 ref.column = some f := by
  constructor
  · intro h
    cases hnamed : leaves.filter fun leaf => leaf.2.isNamed table with
    | nil =>
      rw [resolveAmong_of_unnamed htable hnamed] at h
      cases h
    | cons leaf rest =>
      cases rest with
      | nil =>
        rw [resolveAmong_of_named htable hnamed, only_eq_ok_iff, Option.toList_eq_singleton_iff] at h
        exact ⟨leaf, rfl, h⟩
      | cons second rest =>
        rw [resolveAmong_of_two_le htable (by simp [List.countP_eq_length_filter, hnamed])] at h
        cases h
  · rintro ⟨leaf, hnamed, hbound⟩
    rw [resolveAmong_of_named htable hnamed, hbound]
    rfl

/-- Among some of the leaves, what the reference stood for is all that it can stand for. -/
theorem resolveAmong_of_sublist (h : leaves'.Sublist leaves)
    (hok : ref.resolveAmong leaves = .ok f) :
    ref.resolveAmong leaves' = .ok f ∨
      (∃ e, ref.resolveAmong leaves' = .error e) ∧
        ∀ leaf ∈ leaves', leaf.2.bound? leaf.1 ref.column ≠ some f := by
  cases htable : ref.table with
  | none =>
    rw [resolveAmong_of_none htable] at hok ⊢
    have hmatches : (ref.matchesIn leaves').Sublist [f] :=
      only_eq_ok_iff.mp hok ▸ h.filterMap _
    rcases List.sublist_singleton.mp hmatches with hnone | hone
    · refine .inr ⟨⟨_, by rw [hnone]; rfl⟩, fun leaf hleaf hbound => ?_⟩
      have hmem := mem_matchesIn.mpr ⟨leaf, hleaf, hbound⟩
      rw [hnone] at hmem
      cases hmem
    · exact .inl (only_eq_ok_iff.mpr hone)
  | some table =>
    obtain ⟨leaf, hnamed, hbound⟩ := (resolveAmong_eq_ok_iff_of_some htable).mp hok
    have hnamed' : (leaves'.filter fun leaf => leaf.2.isNamed table).Sublist [leaf] :=
      hnamed ▸ h.filter _
    rcases List.sublist_singleton.mp hnamed' with hnone | hone
    · refine .inr ⟨⟨_, resolveAmong_of_unnamed htable hnone⟩, fun other hother hbound' => ?_⟩
      -- a leaf with the column would be visible under the same name
      have hname : other.2.isNamed table = true := by
        have hmem : leaf ∈ leaves.filter fun leaf => leaf.2.isNamed table :=
          hnamed ▸ List.mem_singleton_self leaf
        have hleaf := (List.mem_filter.mp hmem).2
        rw [TableLeaf.isNamed, ← (TableLeaf.bound?_eq_some_iff.mp hbound).2.1] at hleaf
        rw [TableLeaf.isNamed, ← (TableLeaf.bound?_eq_some_iff.mp hbound').2.1]
        exact hleaf
      have hmem : other ∈ leaves'.filter fun leaf => leaf.2.isNamed table :=
        List.mem_filter.mpr ⟨hother, hname⟩
      rw [hnone] at hmem
      cases hmem
    · exact .inl ((resolveAmong_eq_ok_iff_of_some htable).mpr ⟨leaf, hone, hbound⟩)

end ColumnRef

/-! ## §3. Counting in a scope -/

namespace PlanTree

variable {tree : PlanTree} {scope : NodeId} {ref : ColumnRef}

/-- How many of the leaves below the scope pass the test. A leaf counts for each path to it. -/
def countUnder (tree : PlanTree) (scope : NodeId) (test : TableLeaf → Bool) : Nat :=
  (tree.tablesUnder scope).countP fun id => (tree.leaf? id).any test

theorem countP_leavesUnder (tree : PlanTree) (scope : NodeId) (test : TableLeaf → Bool) :
    (tree.leavesUnder scope).countP (fun leaf => test leaf.2) = tree.countUnder scope test := by
  rw [leavesUnder, List.countP_filterMap, countUnder]
  refine List.countP_congr fun id _ => ?_
  cases tree.leaf? id with
  | none => simp
  | some leaf => simp

/-- What a reference stands for in a scope, by the number of leaves that match. -/
inductive StandsFor (tree : PlanTree) (scope : NodeId) (ref : ColumnRef) :
    Except Failure BoundColumn → Prop
  /-- No leaf is visible under the table name. -/
  | unknownTable {table : String} :
      ref.table = some table → tree.countUnder scope (·.isNamed table) = 0 →
      StandsFor tree scope ref (.error (.rejected (.unknownTable table)))
  | nonUniqueTable {table : String} :
      ref.table = some table → 2 ≤ tree.countUnder scope (·.isNamed table) →
      StandsFor tree scope ref (.error (.rejected (.nonUniqueTable table)))
  /-- The one leaf of the table name does not have the column. -/
  | notInTable {table : String} {id : NodeId} {leaf : TableLeaf} :
      ref.table = some table → tree.countUnder scope (·.isNamed table) = 1 →
      (id, leaf) ∈ tree.leavesUnder scope → leaf.isNamed table = true →
      leaf.hasColumn ref.column = false →
      StandsFor tree scope ref (.error (.rejected (.unknownColumn ref.text)))
  | inTable {table : String} {id : NodeId} {leaf : TableLeaf} {column : Column} :
      ref.table = some table → tree.countUnder scope (·.isNamed table) = 1 →
      (id, leaf) ∈ tree.leavesUnder scope → leaf.isNamed table = true →
      column ∈ leaf.table.columns → Text.sameWord column.name ref.column = true →
      StandsFor tree scope ref (.ok ⟨id, leaf.visibleName, column⟩)
  /-- No leaf has the column. -/
  | unknownColumn :
      ref.table = none → tree.countUnder scope (·.hasColumn ref.column) = 0 →
      StandsFor tree scope ref (.error (.rejected (.unknownColumn ref.text)))
  | ambiguousColumn :
      ref.table = none → 2 ≤ tree.countUnder scope (·.hasColumn ref.column) →
      StandsFor tree scope ref (.error (.rejected (.ambiguousColumn ref.text)))
  | anywhere {id : NodeId} {leaf : TableLeaf} {column : Column} :
      ref.table = none → tree.countUnder scope (·.hasColumn ref.column) = 1 →
      (id, leaf) ∈ tree.leavesUnder scope → column ∈ leaf.table.columns →
      Text.sameWord column.name ref.column = true →
      StandsFor tree scope ref (.ok ⟨id, leaf.visibleName, column⟩)

theorem resolve_of_lt (hscope : scope < tree.size) (ref : ColumnRef) :
    tree.resolve scope ref = (ref.resolveAmong (tree.leavesUnder scope)).mapError .rejected := by
  obtain ⟨node, hnode⟩ := exists_node?_of_lt hscope
  rw [resolve, hnode]

/-- What the counts say is what is found. -/
theorem StandsFor.resolveAmong_eq {answer : Except Failure BoundColumn}
    (h : tree.StandsFor scope ref answer) :
    (ref.resolveAmong (tree.leavesUnder scope)).mapError .rejected = answer := by
  cases h with
  | unknownTable htable hcount =>
    rw [← countP_leavesUnder, List.countP_eq_zero, ← List.filter_eq_nil_iff] at hcount
    rw [ColumnRef.resolveAmong_of_unnamed htable hcount]
    rfl
  | nonUniqueTable htable hcount =>
    rw [← countP_leavesUnder] at hcount
    rw [ColumnRef.resolveAmong_of_two_le htable hcount]
    rfl
  | @notInTable table id leaf htable hcount hleaf hnamed hcolumn =>
    rw [← countP_leavesUnder] at hcount
    have hnone : leaf.bound? id ref.column = none := by
      rw [← Option.isNone_iff_eq_none, ← Option.not_isSome, TableLeaf.isSome_bound?, hcolumn]
      rfl
    rw [ColumnRef.resolveAmong_of_named htable (filter_eq_singleton hcount hleaf hnamed), hnone]
    rfl
  | @inTable table id leaf column htable hcount hleaf hnamed hcolumn hname =>
    rw [← countP_leavesUnder] at hcount
    rw [ColumnRef.resolveAmong_of_named htable (filter_eq_singleton hcount hleaf hnamed),
      TableLeaf.bound?_of_mem hcolumn hname]
    rfl
  | unknownColumn htable hcount =>
    rw [← countP_leavesUnder, ← ColumnRef.length_matchesIn, List.length_eq_zero_iff] at hcount
    rw [ColumnRef.resolveAmong_of_none htable, hcount]
    rfl
  | ambiguousColumn htable hcount =>
    rw [← countP_leavesUnder, ← ColumnRef.length_matchesIn] at hcount
    rw [ColumnRef.resolveAmong_of_none htable, ColumnRef.only_of_two_le hcount]
    rfl
  | @anywhere id leaf column htable hcount hleaf hcolumn hname =>
    rw [← countP_leavesUnder, ← ColumnRef.length_matchesIn, List.length_eq_one_iff] at hcount
    obtain ⟨found, hfound⟩ := hcount
    -- the column of the leaf is the one match
    have hmem := ColumnRef.mem_matchesIn.mpr
      ⟨(id, leaf), hleaf, TableLeaf.bound?_of_mem hcolumn hname⟩
    rw [hfound] at hmem
    rw [ColumnRef.resolveAmong_of_none htable, hfound, ← List.mem_singleton.mp hmem]
    rfl

theorem exists_of_countUnder_eq_one {test : TableLeaf → Bool} (h : tree.countUnder scope test = 1) :
    ∃ id leaf, (id, leaf) ∈ tree.leavesUnder scope ∧ test leaf = true := by
  rw [← countP_leavesUnder] at h
  have hpos : 0 < (tree.leavesUnder scope).countP fun leaf => test leaf.2 := by omega
  obtain ⟨⟨id, leaf⟩, hleaf, htest⟩ := List.countP_pos_iff.mp hpos
  exact ⟨id, leaf, hleaf, htest⟩

/-- There is always an answer. -/
theorem exists_standsFor (tree : PlanTree) (scope : NodeId) (ref : ColumnRef) :
    ∃ answer, tree.StandsFor scope ref answer := by
  have hcount : ∀ count : Nat, count = 0 ∨ count = 1 ∨ 2 ≤ count := by omega
  cases htable : ref.table with
  | none =>
    rcases hcount (tree.countUnder scope (·.hasColumn ref.column)) with hzero | hone | htwo
    · exact ⟨_, .unknownColumn htable hzero⟩
    · obtain ⟨id, leaf, hleaf, hhas⟩ := exists_of_countUnder_eq_one hone
      obtain ⟨column, hcolumn, hname⟩ := List.any_eq_true.mp hhas
      exact ⟨_, .anywhere htable hone hleaf hcolumn hname⟩
    · exact ⟨_, .ambiguousColumn htable htwo⟩
  | some table =>
    rcases hcount (tree.countUnder scope (·.isNamed table)) with hzero | hone | htwo
    · exact ⟨_, .unknownTable htable hzero⟩
    · obtain ⟨id, leaf, hleaf, hnamed⟩ := exists_of_countUnder_eq_one hone
      cases hhas : leaf.hasColumn ref.column with
      | false => exact ⟨_, .notInTable htable hone hleaf hnamed hhas⟩
      | true =>
        obtain ⟨column, hcolumn, hname⟩ := List.any_eq_true.mp hhas
        exact ⟨_, .inTable htable hone hleaf hnamed hcolumn hname⟩
    · exact ⟨_, .nonUniqueTable htable htwo⟩

/-- In the scope of a node, a reference resolves to what it stands for by count, and in no other way.
    As one reference has one answer, the leaf and the column that it names are the only ones. Without
    the node there is no scope. -/
theorem resolve_eq_iff (tree : PlanTree) (scope : NodeId) (ref : ColumnRef)
    (answer : Except Failure BoundColumn) :
    tree.resolve scope ref = answer ↔
      (scope < tree.size ∧ tree.StandsFor scope ref answer) ∨
        (tree.size ≤ scope ∧ answer = .error (.broken (.noSuchNode scope))) := by
  by_cases hscope : scope < tree.size
  · rw [resolve_of_lt hscope]
    constructor
    · rintro rfl
      obtain ⟨answer, hanswer⟩ := exists_standsFor tree scope ref
      rw [hanswer.resolveAmong_eq]
      exact .inl ⟨hscope, hanswer⟩
    · rintro (⟨_, hanswer⟩ | ⟨hle, _⟩)
      · exact hanswer.resolveAmong_eq
      · exact absurd hscope (Nat.not_lt.mpr hle)
  · have hnode : tree.node? scope = none := List.getElem?_eq_none (Nat.not_lt.mp hscope)
    rw [resolve, hnode]
    constructor
    · rintro rfl
      exact .inr ⟨Nat.not_lt.mp hscope, rfl⟩
    · rintro (⟨hlt, _⟩ | ⟨_, rfl⟩)
      · exact absurd hlt hscope
      · rfl

end PlanTree

namespace Plan.Shop

/-- The plan of the shop below a join that reaches `orders` a second time. -/
def reunion : PlanTree :=
  tree.push (.join .inner 1 3) (by decide)

/-- Both the name and the column of the leaf that is reached twice are ambiguous. -/
theorem resolve_eq_iff_reunion :
    reunion.resolve 4 ⟨some "Orders", "amount"⟩ = .error (.rejected (.nonUniqueTable "Orders")) ∧
      reunion.resolve 4 ⟨none, "amount"⟩ = .error (.rejected (.ambiguousColumn "`amount`")) ∧
      reunion.resolve 4 ⟨some "users", "amount"⟩ =
        .error (.rejected (.unknownColumn "`users`.`amount`")) ∧
      reunion.resolve 4 ⟨none, "ID"⟩ = .ok ⟨0, "users", Column.ofType "id" .long⟩ ∧
      reunion.resolve 5 ⟨none, "id"⟩ = .error (.broken (.noSuchNode 5)) := by
  have hscope : 4 < reunion.size := by decide
  have husers : (0, ⟨users, none⟩) ∈ reunion.leavesUnder 4 :=
    PlanTree.mem_leavesUnder.mpr ⟨by decide +kernel, rfl⟩
  refine ⟨(reunion.resolve_eq_iff 4 _ _).mpr (.inl ⟨hscope, ?_⟩),
    (reunion.resolve_eq_iff 4 _ _).mpr (.inl ⟨hscope, ?_⟩),
    (reunion.resolve_eq_iff 4 _ _).mpr (.inl ⟨hscope, ?_⟩),
    (reunion.resolve_eq_iff 4 _ _).mpr (.inl ⟨hscope, ?_⟩),
    (reunion.resolve_eq_iff 5 _ _).mpr (.inr ⟨by decide, rfl⟩)⟩
  · exact .nonUniqueTable rfl (by decide +kernel)
  · exact .ambiguousColumn rfl (by decide +kernel)
  · exact .notInTable rfl (by decide +kernel) husers (by decide +kernel) (by decide +kernel)
  · exact .anywhere rfl (by decide +kernel) husers List.mem_cons_self (by decide +kernel)

end Plan.Shop

/-! ## §4. Lower scopes -/

namespace PlanTree

variable {tree : PlanTree} {ref : ColumnRef} {high low : NodeId}

theorem Below.lt_size (h : tree.Below low high) (hhigh : high < tree.size) : low < tree.size := by
  induction h with
  | refl => exact hhigh
  | step hchild _ ih => exact ih (Nat.lt_trans (lt_of_mem_children hchild) hhigh)

/-- The leaves below a lower node are some of those below a higher one, in the same order. -/
theorem Below.tablesUnder_sublist (h : tree.Below low high) :
    (tree.tablesUnder low).Sublist (tree.tablesUnder high) := by
  induction h with
  | refl => exact .refl _
  | @step child high hchild _ ih =>
    -- a node with children is no leaf
    have hinner : tree.leaf? high = none := by
      refine Option.eq_none_iff_forall_ne_some.mpr fun leaf hleaf => ?_
      rw [children_of_leaf? hleaf] at hchild
      cases hchild
    rw [tablesUnder_of_inner hinner, List.flatMap]
    exact ih.trans (List.sublist_flatten_of_mem (List.mem_map_of_mem hchild))

theorem Below.leavesUnder_sublist (h : tree.Below low high) :
    (tree.leavesUnder low).Sublist (tree.leavesUnder high) :=
  h.tablesUnder_sublist.filterMap _

/-- A column that is still in scope is still what a reference stands for. -/
theorem Below.resolve_of_mem (h : tree.Below low high) {f : BoundColumn}
    (hhigh : tree.resolve high ref = .ok f) (hmem : f.table ∈ tree.tablesUnder low) :
    tree.resolve low ref = .ok f := by
  obtain ⟨⟨node, hnode⟩, hamong⟩ := resolve_eq_ok_iff.mp hhigh
  have hlow := exists_node?_of_lt (h.lt_size (lt_of_node? hnode))
  refine resolve_eq_ok_iff.mpr ⟨hlow, ?_⟩
  rcases ColumnRef.resolveAmong_of_sublist h.leavesUnder_sublist hamong with hok | ⟨_, hnot⟩
  · exact hok
  · -- the leaf that the reference is bound to is one of those below the lower node
    obtain ⟨⟨id, leaf⟩, hleaf, hbound⟩ := ColumnRef.exists_of_resolveAmong hamong
    obtain ⟨rfl, _⟩ := TableLeaf.bound?_eq_some_iff.mp hbound
    have hleaf' := mem_leavesUnder.mpr ⟨hmem, (mem_leavesUnder.mp hleaf).2⟩
    exact absurd hbound (hnot _ hleaf')

/-- A reference that resolves in both scopes is bound to one column. -/
theorem Below.eq_of_resolve (h : tree.Below low high) {f g : BoundColumn}
    (hhigh : tree.resolve high ref = .ok f) (hlow : tree.resolve low ref = .ok g) : g = f := by
  have hamong := (resolve_eq_ok_iff.mp hhigh).2
  have hamong' := (resolve_eq_ok_iff.mp hlow).2
  rcases ColumnRef.resolveAmong_of_sublist h.leavesUnder_sublist hamong with hok | ⟨⟨e, herror⟩, _⟩
  · exact Except.ok.inj (hamong'.symm.trans hok)
  · rw [herror] at hamong'
    cases hamong'

end PlanTree

/-! ## §5. Expressions -/

namespace Expr

variable {resolve resolve' : ColumnRef → Except Failure BoundColumn}

theorem bindAllWith_congr {es : List Expr} (h : ∀ e ∈ es, bindWith resolve e = bindWith resolve' e) :
    bindAllWith resolve es = bindAllWith resolve' es := by
  induction es with
  | nil => rfl
  | cons e es ih =>
    have he := h e List.mem_cons_self
    have hes := ih fun x hx => h x (List.mem_cons_of_mem e hx)
    rw [bindAllWith, bindAllWith, he, hes]

/-- Binding looks at nothing but what the columns resolve to. -/
theorem bindWith_congr {e : Expr} (h : ∀ ref ∈ e.columns, resolve ref = resolve' ref) :
    bindWith resolve e = bindWith resolve' e := by
  induction e using Expr.ind with
  | literal v => rfl
  | field f => rfl
  | subquery q => rfl
  | column ref => rw [bindWith, bindWith, h ref (by simp [columns])]
  | call f args state ih =>
    have hargs : bindAllWith resolve args = bindAllWith resolve' args := by
      refine bindAllWith_congr fun arg harg => ih arg harg fun ref href => h ref ?_
      rw [columns, columnsOf_eq_flatMap]
      exact List.mem_flatMap.mpr ⟨arg, harg, href⟩
    rw [bindWith, bindWith, hargs]

end Expr

namespace PlanTree

/-- Narrowing the scope never rebinds a column, and so it never changes what an expression is bound to
    whose columns resolve in both scopes. -/
theorem resolve_of_below (tree : PlanTree) {low high : NodeId} (h : tree.Below low high) :
    (∀ ref f, tree.resolve high ref = .ok f → f.table ∈ tree.tablesUnder low →
      tree.resolve low ref = .ok f) ∧
    (∀ ref f g, tree.resolve high ref = .ok f → tree.resolve low ref = .ok g → g = f) ∧
    ∀ e : Expr, (∀ ref ∈ e.columns, (∃ f, tree.resolve high ref = .ok f) ∧
        ∃ g, tree.resolve low ref = .ok g) →
      tree.bind low e = tree.bind high e ∧ (e.Accepted → ∃ b, tree.bind high e = .ok b) := by
  refine ⟨fun ref f => h.resolve_of_mem, fun ref f g => h.eq_of_resolve, fun e hcolumns => ⟨?_, ?_⟩⟩
  · rw [bind, bind, Expr.bind_eq_bindWith, Expr.bind_eq_bindWith]
    refine Expr.bindWith_congr fun ref href => ?_
    obtain ⟨⟨f, hf⟩, g, hg⟩ := hcolumns ref href
    rw [hf, hg, h.eq_of_resolve hf hg]
  · exact fun he => (Expr.exists_bind_eq_ok_iff he).mpr fun ref href => (hcolumns ref href).1

end PlanTree

namespace Plan.Shop

/-- `ORDERS.Amount > 5`. -/
def qualifiedAboveFive : Expr :=
  .gt (.column ⟨some "ORDERS", "Amount"⟩) (.literal (.int 5))

/-- Below the query over the join there is the leaf `orders`. At both the expression is bound to one
    tree. -/
theorem resolve_of_below_orders :
    plan.tree.Below 1 3 ∧ ∃ f b, plan.tree.resolve 3 ⟨some "ORDERS", "Amount"⟩ = .ok f ∧
      f.table ∈ plan.tree.tablesUnder 1 ∧
      plan.tree.resolve 1 ⟨some "ORDERS", "Amount"⟩ = .ok f ∧
      plan.tree.bind 3 qualifiedAboveFive = .ok b ∧ plan.tree.bind 1 qualifiedAboveFive = .ok b := by
  have hjoin : plan.tree.Below 1 2 := .step (show 1 ∈ plan.tree.children 2 by decide) .refl
  have hbelow : plan.tree.Below 1 3 := .step (show 2 ∈ plan.tree.children 3 by decide) hjoin
  obtain ⟨hkeeps, _, hbinds⟩ := plan.tree.resolve_of_below hbelow
  have hrun : (plan.tree.resolve 3 ⟨some "ORDERS", "Amount"⟩).map (·.table) = .ok 1 := by
    decide +kernel
  obtain ⟨f, hf, htable⟩ := Result.exists_of_map hrun
  have hmem : f.table ∈ plan.tree.tablesUnder 1 := by
    rw [htable]
    decide +kernel
  have hlow := hkeeps _ f hf hmem
  obtain ⟨hsame, hok⟩ := hbinds qualifiedAboveFive (List.forall_mem_singleton.mpr ⟨⟨f, hf⟩, f, hlow⟩)
  have haccepted : qualifiedAboveFive.Accepted :=
    .call rfl (List.forall_mem_cons.mpr ⟨.column _, List.forall_mem_singleton.mpr (.literal _)⟩)
  obtain ⟨b, hb⟩ := hok haccepted
  exact ⟨hbelow, f, b, hf, hmem, hlow, hb, hsame.trans hb⟩

end Plan.Shop

end PushDown
