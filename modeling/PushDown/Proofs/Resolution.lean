import PushDown.Plan.Resolve

/-! # What a column name stands for

    A name picks at most one column of a leaf (`bound?_eq_some_iff`). A
    reference that resolves is bound to a column of one of the leaves in its
    scope, and every column of that text in the scope is the one that it is
    bound to (`eq_of_resolve`). A reference that does not resolve is rejected,
    for one of four reasons (`of_resolve_error`).
-/

namespace PushDown

/-! ## §1. Columns of a leaf -/

/-- Of columns with different names, only one has a given name. -/
theorem Table.eq_of_sameWord (table : Table) {c d : Column} (hc : c ∈ table.columns)
    (hd : d ∈ table.columns) (h : Text.sameWord c.name d.name = true) : c = d := by
  have hpairs := table.distinct
  generalize table.columns = columns at hpairs hc hd
  induction hpairs with
  | nil => cases hc
  | @cons first columns hfirst _ ih =>
    rcases List.mem_cons.mp hc with rfl | hcrest <;> rcases List.mem_cons.mp hd with rfl | hdrest
    · rfl
    · exact absurd h (Bool.eq_false_iff.mp (hfirst d hdrest))
    · rw [Text.sameWord_comm] at h
      exact absurd h (Bool.eq_false_iff.mp (hfirst c hcrest))
    · exact ih hcrest hdrest

theorem Table.column?_eq_some_iff {table : Table} {name : String} {column : Column} :
    table.column? name = some column ↔
      column ∈ table.columns ∧ Text.sameWord column.name name = true := by
  unfold column?
  constructor
  · intro h
    have hname := List.find?_some h
    exact ⟨List.mem_of_find?_eq_some h, hname⟩
  · rintro ⟨hmem, hname⟩
    -- some column is found, and no other one has the name
    have hfound : (table.columns.find? fun c => Text.sameWord c.name name).isSome = true :=
      List.find?_isSome.mpr ⟨column, hmem, hname⟩
    obtain ⟨other, hother⟩ := Option.isSome_iff_exists.mp hfound
    have hotherName := List.find?_some hother
    rw [Text.sameWord_comm] at hname
    rw [hother, table.eq_of_sameWord (List.mem_of_find?_eq_some hother) hmem
      (Text.sameWord_trans hotherName hname)]

namespace TableLeaf

variable {id : NodeId} {leaf : TableLeaf} {name : String} {f : BoundColumn}

theorem bound?_eq_some_iff :
    leaf.bound? id name = some f ↔
      f.table = id ∧ f.tableName = leaf.visibleName ∧ f.column ∈ leaf.table.columns ∧
        Text.sameWord f.column.name name = true := by
  unfold bound?
  rw [Option.map_eq_some_iff]
  constructor
  · rintro ⟨column, hcolumn, rfl⟩
    exact ⟨rfl, rfl, Table.column?_eq_some_iff.mp hcolumn⟩
  · rintro ⟨rfl, htable, hcolumn⟩
    exact ⟨f.column, Table.column?_eq_some_iff.mpr hcolumn, by rw [← htable]⟩

/-- The column of a name is also the column of its own name in any case. -/
theorem bound?_of_sameWord {name' : String} (h : leaf.bound? id name = some f)
    (hname : Text.sameWord f.column.name name' = true) : leaf.bound? id name' = some f := by
  obtain ⟨hid, htable, hcolumn, _⟩ := bound?_eq_some_iff.mp h
  exact bound?_eq_some_iff.mpr ⟨hid, htable, hcolumn, hname⟩

end TableLeaf

/-! ## §2. References among leaves -/

namespace ColumnRef

variable {ref : ColumnRef} {leaves : List (NodeId × TableLeaf)} {f : BoundColumn}

theorem only_eq_ok_iff {found : List BoundColumn} : ref.only found = .ok f ↔ found = [f] := by
  match found with
  | [] => simp [only]
  | [g] => simp [only]
  | _ :: _ :: _ => simp [only]

theorem mem_matchesIn {g : BoundColumn} :
    g ∈ ref.matchesIn leaves ↔ ∃ leaf ∈ leaves, leaf.2.bound? leaf.1 ref.column = some g :=
  List.mem_filterMap

/-- A reference that resolves is bound to a column of some leaf. -/
theorem exists_of_resolveAmong (h : ref.resolveAmong leaves = .ok f) :
    ∃ leaf ∈ leaves, leaf.2.bound? leaf.1 ref.column = some f := by
  unfold resolveAmong at h
  split at h
  · exact mem_matchesIn.mp (only_eq_ok_iff.mp h ▸ List.mem_singleton_self f)
  · split at h
    · cases h
    · next leaf hleaf =>
      obtain ⟨found, hfound, hbound⟩ :=
        mem_matchesIn.mp (only_eq_ok_iff.mp h ▸ List.mem_singleton_self f)
      refine ⟨found, ?_, hbound⟩
      rw [← hleaf] at hfound
      exact (List.mem_filter.mp hfound).1
    · cases h

/-- No other leaf has a column that the reference could have been bound to. -/
theorem eq_of_resolveAmong (h : ref.resolveAmong leaves = .ok f) {leaf : NodeId × TableLeaf}
    (hleaf : leaf ∈ leaves) {g : BoundColumn} (hg : leaf.2.bound? leaf.1 ref.column = some g)
    (htable : g.tableName = f.tableName) : g = f := by
  unfold resolveAmong at h
  split at h
  · have hmem := mem_matchesIn.mpr ⟨leaf, hleaf, hg⟩
    rw [only_eq_ok_iff.mp h] at hmem
    exact List.mem_singleton.mp hmem
  · next table _ =>
    split at h
    · cases h
    · next only honly =>
      have hfound := only_eq_ok_iff.mp h
      -- a leaf of the same visible name passes the same test
      have hvisible : Text.sameWord leaf.2.visibleName table = true := by
        obtain ⟨found, hmem, hbound⟩ := mem_matchesIn.mp (hfound ▸ List.mem_singleton_self f)
        rw [← honly] at hmem
        have hname := (List.mem_filter.mp hmem).2
        rw [← (TableLeaf.bound?_eq_some_iff.mp hg).2.1, htable,
          (TableLeaf.bound?_eq_some_iff.mp hbound).2.1]
        exact hname
      have hmem : leaf ∈ [only] := honly ▸ List.mem_filter.mpr ⟨hleaf, hvisible⟩
      have hg' := mem_matchesIn.mpr ⟨leaf, hmem, hg⟩
      rw [hfound] at hg'
      exact List.mem_singleton.mp hg'
    · cases h

/-- Why a column reference is rejected. -/
def IsRejection : PlanError → Prop
  | .unknownColumn _ | .ambiguousColumn _ | .unknownTable _ | .nonUniqueTable _ => True
  | _ => False

theorem isRejection_of_resolveAmong {e : PlanError} (h : ref.resolveAmong leaves = .error e) :
    IsRejection e := by
  have honly : ∀ found, ref.only found = .error e → IsRejection e := by
    intro found h
    match found, h with
    | [], h => cases h; trivial
    | _ :: _ :: _, h => cases h; trivial
  unfold resolveAmong at h
  split at h
  · exact honly _ h
  · split at h
    · cases h; trivial
    · exact honly _ h
    · cases h; trivial

end ColumnRef

/-! ## §3. References in a scope -/

namespace PlanTree

variable {tree : PlanTree} {scope : NodeId} {ref : ColumnRef} {f : BoundColumn}

theorem mem_leavesUnder {leaf : NodeId × TableLeaf} :
    leaf ∈ tree.leavesUnder scope ↔
      leaf.1 ∈ tree.tablesUnder scope ∧ tree.leaf? leaf.1 = some leaf.2 := by
  obtain ⟨id, leaf⟩ := leaf
  simp [leavesUnder]

theorem resolve_eq_ok_iff :
    tree.resolve scope ref = .ok f ↔
      (∃ node, tree.node? scope = some node) ∧
        ref.resolveAmong (tree.leavesUnder scope) = .ok f := by
  unfold resolve
  cases hnode : tree.node? scope with
  | none => simp
  | some node =>
    refine ⟨fun h => ⟨⟨node, rfl⟩, Result.of_mapError h⟩, fun h => ?_⟩
    simp only [h.2]
    rfl

/-- Only table leaves are visited. -/
theorem exists_leaf_of_mem_visit {stack : List NodeId} {id : NodeId} (h : id ∈ tree.visit stack) :
    ∃ leaf, tree.leaf? id = some leaf := by
  induction stack using visit.induct tree with
  | case1 => simp [visit] at h
  | case2 first stack hleaf ih =>
    rw [visit, if_pos hleaf] at h
    rcases List.mem_cons.mp h with rfl | h
    · exact Option.isSome_iff_exists.mp hleaf
    · exact ih h
  | case3 first stack hleaf ih =>
    rw [visit, if_neg hleaf] at h
    exact ih h

/-- A reference that resolves is bound to a leaf in scope. -/
theorem exists_of_resolve (h : tree.resolve scope ref = .ok f) :
    ∃ leaf, (f.table, leaf) ∈ tree.leavesUnder scope ∧ f.tableName = leaf.visibleName ∧
      f.column ∈ leaf.table.columns := by
  obtain ⟨⟨id, leaf⟩, hmem, hbound⟩ := ColumnRef.exists_of_resolveAmong (resolve_eq_ok_iff.mp h).2
  obtain ⟨rfl, htable, hcolumn, _⟩ := TableLeaf.bound?_eq_some_iff.mp hbound
  exact ⟨leaf, hmem, htable, hcolumn⟩

theorem table_mem_of_resolve (h : tree.resolve scope ref = .ok f) :
    f.table ∈ tree.tablesUnder scope := by
  obtain ⟨leaf, hmem, _⟩ := exists_of_resolve h
  exact (mem_leavesUnder.mp hmem).1

/-- Two references in one scope that are bound to columns of one name, in tables of one name, are
    bound to one column. -/
theorem eq_of_resolve {ref' : ColumnRef} {g : BoundColumn} (hf : tree.resolve scope ref = .ok f)
    (hg : tree.resolve scope ref' = .ok g) (htable : f.tableName = g.tableName)
    (hcolumn : f.column.name = g.column.name) : f = g := by
  obtain ⟨leaf, hmem, hbound⟩ := ColumnRef.exists_of_resolveAmong (resolve_eq_ok_iff.mp hg).2
  -- the first reference would have matched the second column, too
  have hname : Text.sameWord g.column.name ref.column = true := by
    obtain ⟨_, _, hbound⟩ := ColumnRef.exists_of_resolveAmong (resolve_eq_ok_iff.mp hf).2
    rw [← hcolumn]
    exact (TableLeaf.bound?_eq_some_iff.mp hbound).2.2.2
  exact (ColumnRef.eq_of_resolveAmong (resolve_eq_ok_iff.mp hf).2 hmem
    (TableLeaf.bound?_of_sameWord hbound hname) htable.symm).symm

/-- In the scope of a node that is there, a reference that does not resolve is rejected. -/
theorem of_resolve_error {node : PlanNode} {failure : Failure} (hnode : tree.node? scope = some node)
    (h : tree.resolve scope ref = .error failure) :
    ∃ e, failure = .rejected e ∧ ColumnRef.IsRejection e := by
  unfold resolve at h
  rw [hnode] at h
  cases hresolve : ref.resolveAmong (tree.leavesUnder scope) with
  | ok f =>
    rw [hresolve] at h
    cases h
  | error e =>
    rw [hresolve] at h
    exact ⟨e, (Except.error.inj h).symm, ColumnRef.isRejection_of_resolveAmong hresolve⟩

end PlanTree

end PushDown
