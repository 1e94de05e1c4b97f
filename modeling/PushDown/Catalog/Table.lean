import PushDown.Catalog.Column
import PushDown.Error
import PushDown.Text.AsciiCase

/-! # Tables

    A table has a number, a name and columns. No two columns have names that
    differ only in ASCII case, so a name picks at most one of them.
-/

namespace PushDown

/-- Whether two columns have different names, ASCII case aside. -/
def Column.Differs (a b : Column) : Prop :=
  Text.sameWord a.name b.name = false

instance (a b : Column) : Decidable (a.Differs b) :=
  inferInstanceAs (Decidable (_ = _))

/-- A table of the catalog. -/
structure Table where
  id       : UInt32
  name     : String
  columns  : List Column
  /-- A name picks at most one column. -/
  distinct : columns.Pairwise Column.Differs
  deriving DecidableEq

namespace Table

/-- The first column whose name occurs before it, where `earlier` comes before all of them. -/
def repeatedColumn? (earlier : List Column) : List Column → Option Column
  | [] => none
  | column :: rest =>
    if earlier.any fun c => Text.sameWord c.name column.name then some column
    else repeatedColumn? (earlier ++ [column]) rest

/-- Columns of which none is repeated are distinct. -/
theorem distinct_of_repeatedColumn? {earlier columns : List Column}
    (hearlier : earlier.Pairwise Column.Differs)
    (h : repeatedColumn? earlier columns = none) : (earlier ++ columns).Pairwise Column.Differs := by
  induction columns generalizing earlier with
  | nil => simpa using hearlier
  | cons column rest ih =>
    unfold repeatedColumn? at h
    split at h
    · cases h
    · next hany =>
      have hnew : (earlier ++ [column]).Pairwise Column.Differs := by
        rw [List.pairwise_append]
        refine ⟨hearlier, List.pairwise_singleton _ _, ?_⟩
        intro c hc d hd
        rw [List.mem_singleton] at hd
        subst hd
        exact Bool.eq_false_iff.mpr (List.any_eq_false.mp (Bool.eq_false_iff.mpr hany) c hc)
      have := ih hnew h
      rwa [List.append_assoc] at this

/-- A table, unless a column name occurs twice. -/
def create (id : UInt32) (name : String) (columns : List Column) : Except PlanError Table :=
  match h : repeatedColumn? [] columns with
  | some column => .error (.duplicateColumn name column.name)
  | none => .ok ⟨id, name, columns, distinct_of_repeatedColumn? .nil h⟩

/-- The column with the given name. -/
def column? (table : Table) (name : String) : Option Column :=
  table.columns.find? fun c => Text.sameWord c.name name

end Table

end PushDown
