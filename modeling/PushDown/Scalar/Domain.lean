/-! # Evaluation domains

    A value is computed as text, as a real number, as an integer, as a
    fixed-point decimal, or as a row. Arithmetic on operands of two domains
    takes place in a third, their merge.
-/

namespace PushDown

/-- The domain an expression is evaluated in. -/
inductive Domain
  | string
  | real
  | int
  | decimal
  | row
  deriving DecidableEq, Repr

namespace Domain

/-- The domain of arithmetic on two operands. Integers stay integers, a real number, a text or a row
    on either side makes the result real, and what is left is decimal. -/
def merge : Domain → Domain → Domain
  | int, int => int
  | int, decimal | decimal, int | decimal, decimal => decimal
  | _, _ => real

theorem merge_comm (d e : Domain) : d.merge e = e.merge d := by
  cases d <;> cases e <;> rfl

theorem merge_assoc (d e f : Domain) : (d.merge e).merge f = d.merge (e.merge f) := by
  cases d <;> cases e <;> cases f <;> rfl

end Domain

end PushDown
