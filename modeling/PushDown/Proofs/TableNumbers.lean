import Mathlib.Data.List.Basic
import PushDown.Catalog.Basic

/-! # What a rejected table leaves behind

    A table is rejected because its name is taken, or because a column name
    occurs twice in it. Nothing is left of the first: the catalog is the one
    that was there before. The second is found only after the table has its
    number, and the number is not given back.

    So a rejected table cannot be told from one that was never asked for by the
    tables that are there. The tables made afterwards have numbers that are
    greater by one, modulo 2^32, and that is all there is to see, whatever is
    asked of the catalog from then on (`run_of_rejected`).

    Numbers come round again, so old and new tables cannot be told apart by
    their numbers. They are told apart by their names, which stay taken.
-/

namespace PushDown

/-! ## §1. Making a table -/

namespace Table

/-- A table is rejected for a repeated column, or has the number, the name and the columns it was
    given. The number has no say in it. -/
theorem create_cases (name : String) (columns : List Column) :
    (∃ column, repeatedColumn? [] columns = some column ∧
        ∀ id, create id name columns = .error (.duplicateColumn name column.name)) ∨
      ∃ distinct, ∀ id, create id name columns = .ok ⟨id, name, columns, distinct⟩ := by
  cases hrepeated : repeatedColumn? [] columns with
  | some column =>
    refine .inl ⟨column, rfl, fun id => ?_⟩
    unfold create
    split
    · next other hother =>
      obtain rfl := Option.some.inj (hrepeated.symm.trans hother)
      rfl
    · next hnone => cases hrepeated.symm.trans hnone
  | none =>
    refine .inr ⟨distinct_of_repeatedColumn? .nil hrepeated, fun id => ?_⟩
    unfold create
    split
    · next other hother => cases hrepeated.symm.trans hother
    · rfl

end Table

namespace Catalog

/-- The catalogs that come about by asking for tables, whether these are made or rejected. -/
inductive Reachable : Catalog → Prop
  | empty : Reachable .empty
  | createTable {catalog : Catalog} (name : String) (columns : List Column) :
      Reachable catalog → Reachable (catalog.createTable name columns).1

variable {catalog : Catalog} {name : String} {columns : List Column}

/-- What asking for a table can come to. -/
theorem createTable_cases (catalog : Catalog) (name : String) (columns : List Column) :
    (catalog.table? name).isSome = true ∧
        catalog.createTable name columns = (catalog, .error (.duplicateTable name)) ∨
      catalog.table? name = none ∧
        ((∃ column, Table.repeatedColumn? [] columns = some column ∧
            catalog.createTable name columns =
              (⟨catalog.tables, catalog.lastId + 1⟩, .error (.duplicateColumn name column.name))) ∨
          ∃ table : Table, table.id = catalog.lastId + 1 ∧ table.name = name ∧
            catalog.createTable name columns =
              (⟨catalog.tables ++ [(Text.lowerCase name, table)], catalog.lastId + 1⟩, .ok table)) := by
  cases hname : catalog.table? name with
  | some table =>
    refine .inl ⟨rfl, ?_⟩
    unfold createTable
    rw [hname]
    rfl
  | none =>
    refine .inr ⟨rfl, ?_⟩
    unfold createTable
    rw [hname]
    rcases Table.create_cases name columns with ⟨column, hcolumn, hcreate⟩ | ⟨distinct, hcreate⟩
    · exact .inl ⟨column, hcolumn, by simp [hcreate]⟩
    · exact .inr ⟨⟨catalog.lastId + 1, name, columns, distinct⟩, rfl, rfl, by simp [hcreate]⟩

/-- Every table is stored under the lower-case form of its name, and is the one that is found under
    it. -/
theorem Reachable.named (h : catalog.Reachable) : ∀ entry ∈ catalog.tables,
    entry.1 = Text.lowerCase entry.2.name ∧ catalog.tables.lookup entry.1 = some entry.2 := by
  induction h with
  | empty => exact fun entry hentry => nomatch hentry
  | @createTable catalog name columns _ ih =>
    rcases createTable_cases catalog name columns with
      ⟨_, h⟩ | ⟨hfree, ⟨_, _, h⟩ | ⟨table, _, hname, h⟩⟩
    · rw [h]
      exact ih
    · rw [h]
      exact ih
    · rw [h]
      intro entry hentry
      rw [List.lookup_append]
      rcases List.mem_append.mp hentry with hold | hnew
      · obtain ⟨hkey, hfound⟩ := ih entry hold
        exact ⟨hkey, by rw [hfound, Option.some_or]⟩
      · -- the new table has a name that nothing was found under
        obtain rfl := List.mem_singleton.mp hnew
        have hnone : catalog.tables.lookup (Text.lowerCase name) = none := hfree
        refine ⟨congrArg Text.lowerCase hname.symm, ?_⟩
        rw [hnone, Option.none_or, List.lookup_cons_self]

/-- A name that is taken stays taken. -/
theorem isSome_table?_createTable {taken : String} (h : (catalog.table? taken).isSome = true)
    (name : String) (columns : List Column) :
    ((catalog.createTable name columns).1.table? taken).isSome = true := by
  rcases createTable_cases catalog name columns with
    ⟨_, hcreate⟩ | ⟨_, ⟨_, _, hcreate⟩ | ⟨_, _, _, hcreate⟩⟩
  · rw [hcreate]
    exact h
  · rw [hcreate]
    exact h
  · rw [hcreate]
    unfold table? at h ⊢
    rw [List.lookup_append, Option.isSome_or, h, Bool.true_or]

/-! ## §2. Requests -/

/-- What a catalog can be asked. -/
inductive Request
  | createTable (name : String) (columns : List Column)
  | table (name : String)
  | tableNames

inductive Answer
  | table (result : Except PlanError Table)
  | names (list : List String)

/-- The catalog after a request, and the answer. -/
def step (catalog : Catalog) : Request → Catalog × Answer
  | .createTable name columns =>
    ((catalog.createTable name columns).1, .table (catalog.createTable name columns).2)
  | .table name => (catalog, .table (catalog.table name))
  | .tableNames => (catalog, .names catalog.tableNames)

/-- The answers to requests that are made one after another. -/
def run (catalog : Catalog) : List Request → List Answer
  | [] => []
  | request :: requests =>
    (catalog.step request).2 :: (catalog.step request).1.run requests

end Catalog

/-! ## §3. A lost number -/

/-- The table with the number that it has when a number is lost between the tables of a catalog and
    those made later. The number after the greatest one is 0. -/
def Table.afterLoss (before : Catalog) (table : Table) : Table :=
  if (before.table? table.name).isSome then table else { table with id := table.id + 1 }

namespace Catalog

variable {before catalog after : Catalog} {name : String} {columns : List Column} {error : PlanError}

/-- The catalog as it is when a number is lost after the tables of `before`. -/
def afterLoss (before catalog : Catalog) : Catalog where
  tables := catalog.tables.map fun entry => (entry.1, entry.2.afterLoss before)
  lastId := catalog.lastId + 1

/-- The answer as it is when a number is lost after the tables of `before`. -/
def Answer.afterLoss (before : Catalog) : Answer → Answer
  | .table result => .table (result.map (Table.afterLoss before))
  | .names list => .names list

/-- The names that are taken in the first catalog are taken in the second. -/
def NamesWithin (before catalog : Catalog) : Prop :=
  ∀ name, (before.table? name).isSome = true → (catalog.table? name).isSome = true

theorem table?_afterLoss (before catalog : Catalog) (name : String) :
    (before.afterLoss catalog).table? name = (catalog.table? name).map (Table.afterLoss before) := by
  unfold table? afterLoss
  induction catalog.tables with
  | nil => rfl
  | cons entry entries ih =>
    rw [List.map_cons, List.lookup_cons, List.lookup_cons]
    split
    · rfl
    · exact ih

theorem table_afterLoss (before catalog : Catalog) (name : String) :
    (before.afterLoss catalog).table name = (catalog.table name).map (Table.afterLoss before) := by
  unfold table
  rw [table?_afterLoss]
  cases catalog.table? name with
  | none => rfl
  | some table => rfl

theorem tableNames_afterLoss (before catalog : Catalog) :
    (before.afterLoss catalog).tableNames = catalog.tableNames := by
  have hname : ∀ table : Table, (table.afterLoss before).name = table.name := by
    intro table
    unfold Table.afterLoss
    split
    · rfl
    · rfl
  unfold tableNames afterLoss
  rw [List.map_map]
  simp only [Function.comp_def, hname]

/-- A table that is made now has a name that is free, so that it has the next number. -/
theorem createTable_afterLoss (hwithin : before.NamesWithin catalog) (name : String)
    (columns : List Column) :
    (before.afterLoss catalog).createTable name columns =
      (before.afterLoss (catalog.createTable name columns).1,
        (catalog.createTable name columns).2.map (Table.afterLoss before)) := by
  unfold createTable
  rw [table?_afterLoss, Option.isSome_map]
  split
  · rfl
  · next hfree =>
    have hnew : ¬ (before.table? name).isSome = true := fun htaken => hfree (hwithin name htaken)
    have hnumber : ∀ distinct, Table.afterLoss before ⟨catalog.lastId + 1, name, columns, distinct⟩ =
        ⟨catalog.lastId + 1 + 1, name, columns, distinct⟩ := by
      intro distinct
      unfold Table.afterLoss
      rw [if_neg hnew]
    rcases Table.create_cases name columns with ⟨column, _, hcreate⟩ | ⟨distinct, hcreate⟩
    · simp only [hcreate]
      rfl
    · simp only [hcreate, Except.map, hnumber]
      simp only [afterLoss, List.map_append, List.map_cons, List.map_nil, hnumber]

/-- **Step.** Every request is answered as it would be, but for numbers. -/
theorem step_afterLoss (hwithin : before.NamesWithin catalog) (request : Request) :
    (before.afterLoss catalog).step request =
      (before.afterLoss (catalog.step request).1, (catalog.step request).2.afterLoss before) := by
  cases request with
  | createTable name columns => simp only [step, createTable_afterLoss hwithin, Answer.afterLoss]
  | table name => simp only [step, table_afterLoss, Answer.afterLoss]
  | tableNames => simp only [step, tableNames_afterLoss, Answer.afterLoss]

theorem NamesWithin.step (h : before.NamesWithin catalog) (request : Request) :
    before.NamesWithin (catalog.step request).1 := by
  cases request with
  | createTable name columns =>
    exact fun taken htaken => isSome_table?_createTable (h taken htaken) name columns
  | table name => exact h
  | tableNames => exact h

/-- **Run.** A lost number shows in nothing but the numbers of the tables that are made later. -/
theorem run_afterLoss (hwithin : before.NamesWithin catalog) (requests : List Request) :
    (before.afterLoss catalog).run requests = (catalog.run requests).map (Answer.afterLoss before) := by
  induction requests generalizing catalog with
  | nil => rfl
  | cons request requests ih =>
    rw [run, run, step_afterLoss hwithin, ih (hwithin.step request), List.map_cons]

/-- The tables that are there keep their numbers. -/
theorem Reachable.afterLoss_self (h : catalog.Reachable) :
    catalog.afterLoss catalog = ⟨catalog.tables, catalog.lastId + 1⟩ := by
  have htables : (catalog.tables.map fun entry => (entry.1, entry.2.afterLoss catalog)) =
      catalog.tables.map id := by
    refine List.map_congr_left fun entry hentry => ?_
    obtain ⟨hkey, hfound⟩ := h.named entry hentry
    have hname : (catalog.table? entry.2.name).isSome = true := by
      rw [table?, ← hkey, hfound]
      rfl
    unfold Table.afterLoss
    rw [if_pos hname]
    rfl
  rw [afterLoss, htables, List.map_id]

/-- A table that is rejected for its name leaves no trace, and one that is rejected for its columns
    loses a number: every later answer is the same, but that the tables made from then on have numbers
    that are greater by one, modulo 2^32. -/
theorem run_of_rejected (h : catalog.Reachable)
    (hrejected : catalog.createTable name columns = (after, .error error)) :
    error = .duplicateTable name ∧ (catalog.table? name).isSome = true ∧ after = catalog ∨
      (∃ column, error = .duplicateColumn name column.name ∧
          Table.repeatedColumn? [] columns = some column) ∧
        after = ⟨catalog.tables, catalog.lastId + 1⟩ ∧
        ∀ requests, after.run requests = (catalog.run requests).map (Answer.afterLoss catalog) := by
  rcases createTable_cases catalog name columns with
    ⟨hname, hcreate⟩ | ⟨_, ⟨column, hcolumn, hcreate⟩ | ⟨table, _, _, hcreate⟩⟩
  · obtain ⟨hcatalog, herror⟩ := Prod.mk.inj (hcreate.symm.trans hrejected)
    exact .inl ⟨(Except.error.inj herror).symm, hname, hcatalog.symm⟩
  · obtain ⟨rfl, herror⟩ := Prod.mk.inj (hcreate.symm.trans hrejected)
    refine .inr ⟨⟨column, (Except.error.inj herror).symm, hcolumn⟩, rfl, fun requests => ?_⟩
    rw [← h.afterLoss_self]
    exact run_afterLoss (fun _ htaken => htaken) requests
  · obtain ⟨_, herror⟩ := Prod.mk.inj (hcreate.symm.trans hrejected)
    cases herror

namespace Shop

def users : Catalog :=
  (Catalog.empty.createTable "users" [.ofType "id" .long]).1

/-- Columns that differ only in case. -/
def repeated : List Column :=
  [.ofType "amount" .newdecimal, .ofType "AMOUNT" .long]

theorem run_of_rejected_orders :
    users.Reachable ∧
      (users.createTable "orders" repeated).2 = .error (.duplicateColumn "orders" "AMOUNT") ∧
      (users.createTable "orders" repeated).1 = ⟨users.tables, 2⟩ ∧
      ∀ requests, (users.createTable "orders" repeated).1.run requests =
        (users.run requests).map (Answer.afterLoss users) := by
  have hreachable : users.Reachable := .createTable "users" [.ofType "id" .long] .empty
  have herror : (users.createTable "orders" repeated).2 =
      .error (.duplicateColumn "orders" "AMOUNT") := by
    decide +kernel
  rcases run_of_rejected hreachable (Prod.ext rfl herror) with ⟨hname, _⟩ | ⟨_, hafter, hrun⟩
  · cases hname
  · exact ⟨hreachable, herror, hafter, hrun⟩

/-- Once `orders` was rejected for its columns, its next attempt gets number 3. Without the first one
    it would get number 2. -/
theorem number_lost_orders :
    users.Reachable ∧
      (users.createTable "orders" repeated).2 = .error (.duplicateColumn "orders" "AMOUNT") ∧
      ((users.createTable "orders" []).2.map Table.id) = .ok 2 ∧
      (((users.createTable "orders" repeated).1.createTable "orders" []).2.map Table.id) = .ok 3 ∧
      (users.createTable "orders" repeated).1.run [.createTable "orders" []] ≠
        users.run [.createTable "orders" []] := by
  have hbefore : ((users.createTable "orders" []).2.map Table.id) = .ok 2 := by decide +kernel
  have hafter : (((users.createTable "orders" repeated).1.createTable "orders" []).2.map Table.id) =
      .ok 3 := by
    decide +kernel
  refine ⟨.createTable "users" _ .empty, by decide +kernel, hbefore, hafter, ?_⟩
  intro heq
  simp only [run, step, List.cons.injEq, Answer.table.injEq] at heq
  rw [heq.1, hbefore] at hafter
  cases hafter

end Shop

end Catalog

end PushDown
