/-! # Column references -/

namespace PushDown

/-- A column as a query names it, with the table it is looked for in if the query says so. -/
structure ColumnRef where
  table  : Option String
  column : String
  deriving DecidableEq, Repr

namespace ColumnRef

/-- Reads `column` or `table.column`. The first point divides the two, and the column may hold more of
    them. -/
def parse (text : String) : ColumnRef :=
  match text.toList.dropWhile (· ≠ '.') with
  | [] => ⟨none, text⟩
  | _ :: column => ⟨some (String.ofList (text.toList.takeWhile (· ≠ '.'))), String.ofList column⟩

/-- The reference as it is written in a query, each name between backquotes. -/
def text (ref : ColumnRef) : String :=
  match ref.table with
  | some table => "`" ++ table ++ "`.`" ++ ref.column ++ "`"
  | none => "`" ++ ref.column ++ "`"

end ColumnRef

end PushDown
