/-! # Lengths and scales

    A display length is a natural number below `2 ^ 32`. A scale is the number
    of digits after the decimal point; it is fixed, or it is not, in which case
    any number of digits may follow. On the wire a scale is one number, and
    every number from 31 on means that the scale is not fixed.
-/

namespace PushDown

/-! ## §1. Limits -/

/-- The greatest display length, `2 ^ 32 - 1`. Sums of lengths stop here. -/
def maxFieldLength : Nat := 4294967295

/-- The number that stands for a scale that is not fixed. -/
def notFixedRaw : Nat := 31

/-- The greatest number of digits of a fixed-point value. -/
def decimalMaxPrecision : Nat := 65

/-- The greatest scale of a fixed-point value. -/
def decimalMaxScale : Nat := 30

/-- The length a count of characters is recorded as: its low 32 bits. -/
def lengthOfCount (count : Nat) : Nat :=
  count % (maxFieldLength + 1)

theorem lengthOfCount_le (count : Nat) : lengthOfCount count ≤ maxFieldLength := by
  exact Nat.le_of_lt_succ (Nat.mod_lt _ (Nat.succ_pos _))

/-! ## §2. Scales -/

/-- How many digits follow the decimal point. -/
inductive Scale
  | fixed (digits : Nat)
  | notFixed
  deriving DecidableEq, Repr

namespace Scale

instance : Inhabited Scale := ⟨fixed 0⟩

/-- The scale that a number on the wire stands for. -/
def ofRaw (raw : Nat) : Scale :=
  if notFixedRaw ≤ raw then notFixed else fixed raw

/-- The number on the wire for a scale. -/
def raw : Scale → Nat
  | fixed n => n
  | notFixed => notFixedRaw

/-- Whether the number of digits is fixed. -/
def isFixed : Scale → Bool
  | fixed _ => true
  | notFixed => false

/-- The number of digits, when it is fixed. -/
def digits? : Scale → Option Nat
  | fixed n => some n
  | notFixed => none

/-- The wider of two scales; one that is not fixed is wider than any other. -/
def max : Scale → Scale → Scale
  | fixed a, fixed b => fixed (Nat.max a b)
  | _, _ => notFixed

/-- The scale as a number of digits that a fixed-point value can have. -/
def fixedPoint : Scale → Nat
  | fixed n => min n decimalMaxScale
  | notFixed => decimalMaxScale

/-! ### Laws -/

@[simp] theorem max_notFixed (s : Scale) : s.max notFixed = notFixed := by
  cases s <;> rfl

@[simp] theorem notFixed_max (s : Scale) : notFixed.max s = notFixed := by
  cases s <;> rfl

theorem max_comm (s t : Scale) : s.max t = t.max s := by
  cases s <;> cases t <;> simp [max, Nat.max_comm]

theorem max_assoc (s t u : Scale) : (s.max t).max u = s.max (t.max u) := by
  cases s <;> cases t <;> cases u <;> simp [max, Nat.max_assoc]

theorem fixedPoint_le (s : Scale) : s.fixedPoint ≤ decimalMaxScale := by
  cases s with
  | fixed n => exact Nat.min_le_right n decimalMaxScale
  | notFixed => exact Nat.le_refl _

/-- A scale below the reserved number is read back from its number. -/
theorem ofRaw_raw {s : Scale} (h : ∀ n, s = fixed n → n < notFixedRaw) : ofRaw s.raw = s := by
  cases s with
  | fixed n =>
    have := h n rfl
    simp [ofRaw, raw, Nat.not_le.mpr this]
  | notFixed => simp [ofRaw, raw]

end Scale

end PushDown
