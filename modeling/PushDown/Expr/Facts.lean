/-! # Facts about expressions

    Four facts decide where an expression may be evaluated. A fact holds of an
    expression when it holds of any part of it, so facts are combined by union.
-/

namespace PushDown

/-- What is known of an expression, whatever its arguments are. -/
structure Facts where
  /-- It contains an aggregate function. -/
  aggregate : Bool := false
  /-- It can be true on a row of which one side is all `NULL`. -/
  nullTest  : Bool := false
  /-- It contains a subquery. -/
  subquery  : Bool := false
  /-- Its value can differ between two evaluations on the same row. -/
  volatile  : Bool := false
  deriving DecidableEq, Repr

namespace Facts

/-- No fact at all. -/
def none : Facts := {}

instance : Inhabited Facts := ⟨none⟩

/-- What holds of one or the other. -/
def union (a b : Facts) : Facts where
  aggregate := a.aggregate || b.aggregate
  nullTest  := a.nullTest || b.nullTest
  subquery  := a.subquery || b.subquery
  volatile  := a.volatile || b.volatile

instance : Union Facts := ⟨union⟩

@[simp] theorem aggregate_union (a b : Facts) : (a ∪ b).aggregate = (a.aggregate || b.aggregate) := rfl
@[simp] theorem nullTest_union (a b : Facts) : (a ∪ b).nullTest = (a.nullTest || b.nullTest) := rfl
@[simp] theorem subquery_union (a b : Facts) : (a ∪ b).subquery = (a.subquery || b.subquery) := rfl
@[simp] theorem volatile_union (a b : Facts) : (a ∪ b).volatile = (a.volatile || b.volatile) := rfl

theorem union_right_comm (a b c : Facts) : a ∪ b ∪ c = a ∪ c ∪ b := by
  show union (union a b) c = union (union a c) b
  simp only [union, Bool.or_right_comm]

end Facts

end PushDown
