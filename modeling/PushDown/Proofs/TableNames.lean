import PushDown.Proofs.LetterCase
import PushDown.Proofs.Scopes
import PushDown.Proofs.TableNumbers

/-! # What a table is called

    A table is looked up by name twice: when it is taken from the catalog into a
    plan, and when a column reference names it there. The catalog compares
    lower-case forms, and a plan compares words.

    So a plan takes no spelling that the catalog does not take. For a name of
    ASCII it takes all of them but those with a Kelvin sign. For other names
    there are spellings that only the catalog takes (`resolve_of_spelling`).
-/

namespace PushDown

/-! ## §1. Names in the catalog -/

namespace Catalog

variable {catalog : Catalog} {key : String} {table : Table}

/-- A table is found under the spellings that have its lower-case form. -/
theorem Reachable.table_eq_ok_iff (h : catalog.Reachable) (hentry : (key, table) ∈ catalog.tables)
    (q : String) :
    catalog.table q = .ok table ↔ Text.lowerCase q = Text.lowerCase table.name := by
  have hlookup : catalog.table q = .ok table ↔
      catalog.tables.lookup (Text.lowerCase q) = some table := by
    unfold Catalog.table table?
    cases catalog.tables.lookup (Text.lowerCase q) with
    | none => simp
    | some found => simp
  rw [hlookup]
  constructor
  · intro hfound
    obtain ⟨before, rest, hsplit, _⟩ := List.lookup_eq_some_iff.mp hfound
    have hmem : (Text.lowerCase q, table) ∈ catalog.tables := by
      rw [hsplit]
      exact List.mem_append_right _ List.mem_cons_self
    exact (h.named _ hmem).1
  · intro heq
    obtain ⟨hkey, hfound⟩ := h.named _ hentry
    rw [heq, ← hkey]
    exact hfound

end Catalog

/-! ## §2. Names in a plan -/

namespace PlanTree

variable {tree : PlanTree} {id scope : NodeId} {leaf : TableLeaf} {q name : String} {column : Column}

/-- Without the node there is nothing below it. -/
theorem tablesUnder_of_size_le (h : tree.size ≤ id) : tree.tablesUnder id = [] := by
  have hnode : tree.node? id = none := List.getElem?_eq_none h
  have hleaf : tree.leaf? id = none := by rw [leaf?, hnode, Option.bind_none]
  have hchildren : tree.children id = [] := by rw [children, hnode]
  rw [tablesUnder_of_inner hleaf, hchildren, List.flatMap_nil]

/-- In a scope of one leaf, its columns are found under the name that the leaf is visible by, and under
    no other one. -/
theorem resolve_of_alone (hleaf : tree.leaf? id = some leaf) (halone : tree.tablesUnder scope = [id])
    (hcolumn : column ∈ leaf.table.columns) (hname : Text.sameWord column.name name = true) :
    tree.resolve scope ⟨some q, name⟩ =
      if Text.sameWord leaf.visibleName q then .ok ⟨id, leaf.visibleName, column⟩
      else .error (.rejected (.unknownTable q)) := by
  have hscope : scope < tree.size := by
    refine Nat.lt_of_not_le fun hle => ?_
    rw [tablesUnder_of_size_le hle] at halone
    cases halone
  have hmem : (id, leaf) ∈ tree.leavesUnder scope := by
    rw [mem_leavesUnder, halone]
    exact ⟨List.mem_cons_self, hleaf⟩
  have hcount : tree.countUnder scope (·.isNamed q) = if leaf.isNamed q then 1 else 0 := by
    rw [countUnder, halone, List.countP_singleton, hleaf]
    rfl
  rw [resolve_of_lt hscope]
  by_cases hnamed : leaf.isNamed q = true
  · rw [if_pos hnamed] at hcount
    have hstands : tree.StandsFor scope ⟨some q, name⟩ (.ok ⟨id, leaf.visibleName, column⟩) :=
      .inTable rfl hcount hmem hnamed hcolumn hname
    rw [hstands.resolveAmong_eq]
    exact (if_pos hnamed).symm
  · rw [if_neg hnamed] at hcount
    have hstands : tree.StandsFor scope ⟨some q, name⟩ (.error (.rejected (.unknownTable q))) :=
      .unknownTable rfl hcount
    rw [hstands.resolveAmong_eq]
    exact (if_neg hnamed).symm

end PlanTree

/-! ## §3. One table, two names -/

namespace Catalog

/-- A table of the catalog is found there under every spelling that has its lower-case form. Where it
    is the only leaf in the scope of a plan, its columns are found under the spellings that are the same
    word, and every other one names an unknown table. The catalog takes whatever the plan takes. If the
    name belongs to ASCII, the plan takes whatever the catalog takes and has no Kelvin sign in it. -/
theorem resolve_of_spelling {catalog : Catalog} {key : String} {table : Table} {tree : PlanTree}
    {id scope : NodeId} (hcatalog : catalog.Reachable) (htable : (key, table) ∈ catalog.tables)
    (hleaf : tree.leaf? id = some ⟨table, none⟩) (halone : tree.tablesUnder scope = [id])
    (q : String) :
    (catalog.table q = .ok table ↔ Text.lowerCase q = Text.lowerCase table.name) ∧
      (∀ column ∈ table.columns, ∀ name, Text.sameWord column.name name = true →
        tree.resolve scope ⟨some q, name⟩ =
          if Text.sameWord table.name q then .ok ⟨id, table.name, column⟩
          else .error (.rejected (.unknownTable q))) ∧
      (Text.sameWord table.name q = true → catalog.table q = .ok table) ∧
      (Text.isAscii table.name = true →
        (Text.sameWord table.name q = true ↔
          catalog.table q = .ok table ∧ Text.kelvinSign ∉ q.toList)) := by
  have hfound := hcatalog.table_eq_ok_iff htable q
  refine ⟨hfound, ?_, ?_, ?_⟩
  · intro column hcolumn name hname
    exact PlanTree.resolve_of_alone hleaf halone hcolumn hname
  · intro hword
    exact hfound.mpr (Text.lowerCase_eq_of_sameWord hword).symm
  · intro hascii
    rw [Text.sameWord_iff_of_isAscii hascii, hfound, eq_comm]

namespace Shop

theorem distinct_id : [Column.ofType "id" .long].Pairwise Column.Differs :=
  List.pairwise_singleton _ _

/-- A table whose name has a letter beyond ASCII. -/
def lessons : Table :=
  ⟨1, "École", [Column.ofType "id" .long], distinct_id⟩

/-- A table whose name belongs to ASCII. -/
def stock : Table :=
  ⟨2, "Stock", [Column.ofType "id" .long], distinct_id⟩

/-- The catalog of the two. -/
def school : Catalog :=
  ((Catalog.empty.createTable lessons.name lessons.columns).1.createTable stock.name stock.columns).1

theorem reachable_school : school.Reachable :=
  .createTable _ _ (.createTable _ _ .empty)

/-- The plan that reads one table. -/
def reading (table : Table) : PlanTree :=
  (PlanTree.empty.addTable table none).1

theorem tablesUnder_reading (table : Table) : (reading table).tablesUnder 0 = [0] :=
  PlanTree.tablesUnder_of_leaf? (show (reading table).leaf? 0 = some ⟨table, none⟩ from rfl)

/-- `STOCK` is the same word as `Stock`, and `Stoc` with a Kelvin sign is not. The catalog takes both. -/
theorem resolve_of_spelling_stock :
    school.Reachable ∧ ("stock", stock) ∈ school.tables ∧
      school.table "STOCK" = .ok stock ∧
      (reading stock).resolve 0 ⟨some "STOCK", "ID"⟩ = .ok ⟨0, "Stock", .ofType "id" .long⟩ ∧
      school.table "Stoc\u212A" = .ok stock ∧
      (reading stock).resolve 0 ⟨some "Stoc\u212A", "ID"⟩ =
        .error (.rejected (.unknownTable "Stoc\u212A")) := by
  have hmem : ("stock", stock) ∈ school.tables := by decide +kernel
  have hspelling := resolve_of_spelling reachable_school hmem
    (show (reading stock).leaf? 0 = some ⟨stock, none⟩ from rfl) (tablesUnder_reading stock)
  have hcolumn : Column.ofType "id" .long ∈ stock.columns := List.mem_cons_self
  have hid : Text.sameWord "id" "ID" = true := by decide +kernel
  obtain ⟨_, hword, htakes, _⟩ := hspelling "STOCK"
  have hsame : Text.sameWord "Stock" "STOCK" = true := by decide +kernel
  refine ⟨reachable_school, hmem, htakes hsame, ?_, ?_⟩
  · rw [hword _ hcolumn "ID" hid]
    exact if_pos hsame
  · obtain ⟨hfound, hword, _, hascii⟩ := hspelling "Stoc\u212A"
    have hform : Text.lowerCase "Stoc\u212A" = Text.lowerCase "Stock" := by decide +kernel
    have hother : ¬ Text.sameWord "Stock" "Stoc\u212A" = true := by
      intro hsame
      obtain ⟨_, hkelvin⟩ := (hascii (by decide +kernel)).mp hsame
      exact hkelvin (by decide +kernel)
    refine ⟨hfound.mpr hform, ?_⟩
    rw [hword _ hcolumn "ID" hid]
    exact if_neg hother

/-- The catalog finds `École` as `école`. In the plan that reads it, `école.id` names an unknown table,
    and `École.id` does not. -/
theorem unknownTable_lessons :
    school.Reachable ∧ school.table "École" = .ok lessons ∧ school.table "école" = .ok lessons ∧
      (reading lessons).tablesUnder 0 = [0] ∧
      (reading lessons).resolve 0 ⟨some "École", "id"⟩ = .ok ⟨0, "École", .ofType "id" .long⟩ ∧
      (reading lessons).resolve 0 ⟨some "école", "id"⟩ =
        .error (.rejected (.unknownTable "école")) := by
  refine ⟨reachable_school, by decide +kernel, by decide +kernel, tablesUnder_reading lessons, ?_, ?_⟩
  · decide +kernel
  · decide +kernel

end Shop

end Catalog

end PushDown
