import PushDown.Catalog.Table
import PushDown.Text.LowerCase

/-! # The catalog

    The tables that plans can read, by name. A name is looked up in lower case.
    Tables are numbered from 1 on in the order in which they are made, modulo
    2^32; a table that is rejected for its columns uses up a number.
-/

namespace PushDown

/-- The tables by the lower-case form of their names, in the order in which they were made. -/
structure Catalog where
  tables : List (String × Table)
  /-- The last number given to a table. -/
  lastId : UInt32

namespace Catalog

/-- The catalog without tables. -/
def empty : Catalog := ⟨[], 0⟩

/-- The table with the given name, in any case. -/
def table? (catalog : Catalog) (name : String) : Option Table :=
  catalog.tables.lookup (Text.lowerCase name)

/-- The table with the given name; an error names it as it was asked for. -/
def table (catalog : Catalog) (name : String) : Except PlanError Table :=
  match catalog.table? name with
  | some table => .ok table
  | none => .error (.unknownTable name)

/-- Makes a table. The catalog is answered in both cases, since a repeated column name is found only
    after the table has its number. -/
def createTable (catalog : Catalog) (name : String) (columns : List Column) :
    Catalog × Except PlanError Table :=
  if (catalog.table? name).isSome then
    (catalog, .error (.duplicateTable name))
  else
    let id := catalog.lastId + 1
    match Table.create id name columns with
    | .error e => ({ catalog with lastId := id }, .error e)
    | .ok table => (⟨catalog.tables ++ [(Text.lowerCase name, table)], id⟩, .ok table)

/-- The names of the tables in ascending order of their code points. -/
def tableNames (catalog : Catalog) : List String :=
  (catalog.tables.map (·.2.name)).mergeSort fun a b => a ≤ b

end Catalog

end PushDown
