import PushDown.Proofs.Binding

/-! # Inference never fails on a call that can be made

    A sum of lengths stays in its range, since a fixed-point value has at most
    65 digits before its point and 30 after it. What is subtracted from a length
    was added to it before. And an accepted count of arguments means that every
    argument that inference looks at is there.

    So a call over fixed arguments is always settled (`exists_settle`), and
    binding fails only where a column does not resolve
    (`exists_resolve_eq_error`).
-/

namespace PushDown

/-! ## §1. Lengths -/

namespace Length

theorem add_eq_ok {a b : Nat} (h : a + b ≤ maxFieldLength) : add a b = .ok (a + b) := by
  rw [add, if_pos h]

theorem sub_eq_ok {a b : Nat} (h : b ≤ a) : sub a b = .ok (a - b) := by
  rw [sub, if_pos h]

end Length

namespace Attributes

variable {args : List Attributes}

/-- A greatest value is below every bound of the values it is taken of. -/
theorem foldl_max_le {f : Attributes → Nat} {start bound : Nat} (hstart : start ≤ bound)
    (h : ∀ arg ∈ args, f arg ≤ bound) :
    args.foldl (fun acc arg => Nat.max acc (f arg)) start ≤ bound := by
  induction args generalizing start with
  | nil => exact hstart
  | cons arg args ih =>
    have hnext : Nat.max start (f arg) ≤ bound :=
      Nat.max_le.mpr ⟨hstart, h arg List.mem_cons_self⟩
    exact ih hnext fun x hx => h x (List.mem_cons_of_mem arg hx)

theorem widestScale_le (args : List Attributes) : widestScale args ≤ decimalMaxScale :=
  foldl_max_le (Nat.zero_le _) fun arg _ => arg.scale.fixedPoint_le

theorem widestIntPart_le (args : List Attributes) : widestIntPart args ≤ decimalMaxPrecision := by
  refine foldl_max_le (Nat.zero_le _) fun arg _ => ?_
  exact Nat.le_trans (Nat.sub_le _ _) (Nat.min_le_right _ _)

/-- An integer part and a scale of fixed-point values together are far below the greatest length. -/
theorem add_le_maxFieldLength {intPart scale : Nat} (hint : intPart ≤ decimalMaxPrecision)
    (hscale : scale ≤ decimalMaxScale) : intPart + scale ≤ maxFieldLength :=
  Nat.le_trans (Nat.add_le_add hint hscale) (by decide)

/-- The decimal rule always has a length: that of the integer part and the scale together. -/
theorem withDecimal_eq_ok (args : List Attributes) (a : Attributes) :
    withDecimal args a = .ok { a with
      maxLength := widestIntPart args + widestScale args, scale := .fixed (widestScale args) } := by
  have hsum := add_le_maxFieldLength (widestIntPart_le args) (widestScale_le args)
  simp only [withDecimal, Length.add_eq_ok hsum]
  rfl

theorem exists_withNumeric (domain : Domain) (args : List Attributes) (a : Attributes) :
    ∃ inferred, withNumeric domain args a = .ok inferred := by
  unfold withNumeric
  split
  · exact ⟨_, rfl⟩
  · rw [withDecimal_eq_ok]
    exact ⟨_, rfl⟩

/-- The scale of a quotient: that of the decimal rule and the digits that a division adds, as far as
    the greatest scale goes. -/
def quotientScale (args : List Attributes) : Nat :=
  min (widestScale args + divisionScale) decimalMaxScale

theorem quotientScale_le (args : List Attributes) : quotientScale args ≤ decimalMaxScale :=
  Nat.min_le_right _ _

/-- A quotient always has a length. The scale that is cut off is part of the length that it is cut
    off from. -/
theorem withQuotient_eq_ok (args : List Attributes) (a : Attributes) :
    withQuotient args a = .ok { a with
      maxLength := widestIntPart args + quotientScale args, scale := .fixed (quotientScale args)
      fieldType := .newdecimal } := by
  have hdigits : widestScale args + divisionScale ≤ maxFieldLength :=
    Nat.le_trans (Nat.add_le_add_right (widestScale_le args) _) (by decide)
  have hsum := add_le_maxFieldLength (widestIntPart_le args) (quotientScale_le args)
  rw [quotientScale] at hsum
  unfold withQuotient
  rw [withDecimal_eq_ok]
  simp only [Bind.bind, Except.bind, Scale.digits?, Option.getD_some,
    Length.sub_eq_ok (Nat.le_add_left _ _), Length.add_eq_ok hdigits, Nat.add_sub_cancel,
    Length.add_eq_ok hsum]
  rfl

end Attributes

/-! ## §2. Calls -/

namespace Expr

variable {args : List Expr}

theorem argument_eq_ok {i : Nat} (h : i < args.length) : argument args i = .ok args[i] := by
  rw [argument, List.getElem?_eq_getElem h]

theorem exists_inferChoice (f : Func) (args : List Expr) (a : Attributes) :
    ∃ inferred, inferChoice f args a = .ok inferred := by
  unfold inferChoice
  split
  · exact ⟨_, rfl⟩
  · exact Attributes.exists_withNumeric _ _ a

/-- The types of fixed arguments can be looked at. -/
theorem exists_temporalType? (hfixed : ∀ arg ∈ args, arg.isFixed = true) :
    ∃ type?, temporalType? args = .ok type? := by
  have hcolumn : ∀ test, ∃ b, anyColumn args test = .ok b := by
    intro test
    rw [anyColumn, if_pos (List.all_eq_true.mpr hfixed)]
    exact ⟨_, rfl⟩
  obtain ⟨datetime, hdatetime⟩ := hcolumn (· == .datetime)
  obtain ⟨date, hdate⟩ := hcolumn fun t => t == .date || t == .datetime
  obtain ⟨time, htime⟩ := hcolumn fun t => t == .time || t == .datetime
  obtain ⟨timestamp, htimestamp⟩ := hcolumn (· == .timestamp)
  simp only [temporalType?, anyDatetime, anyDate, anyTime, anyTimestamp, hdatetime, hdate, htime,
    htimestamp]
  exact ⟨_, rfl⟩

theorem secondDigits_le (args : List Expr) : secondDigits args ≤ 6 := by
  unfold secondDigits
  split
  · exact Nat.min_le_right _ _
  · exact Nat.zero_le _

theorem fractionLength_eq_ok {digits : Nat} (h : digits ≤ 6) :
    fractionLength digits = .ok (if 0 < digits then digits + 1 else 0) := by
  unfold fractionLength
  split
  · exact Length.add_eq_ok (Nat.le_trans (Nat.succ_le_succ h) (by decide))
  · rfl

/-- The length of the current time to so many digits of a second. -/
def nowLength (digits : Nat) : Nat :=
  FieldType.datetime.defaultLength + if 0 < digits then digits + 1 else 0

theorem nowLength_le {digits : Nat} (h : digits ≤ 6) : nowLength digits ≤ 26 := by
  have hdefault : FieldType.datetime.defaultLength = 19 := rfl
  rw [nowLength, hdefault]
  split <;> omega

/-- The current time always has a length. -/
theorem inferBuiltin_now_eq_ok (args : List Expr) (a : Attributes) :
    inferBuiltin .now args a = .ok { a with
      fieldType := .datetime, maxLength := nowLength (secondDigits args)
      scale := .fixed (secondDigits args), maybeNull := false } := by
  have hlength : nowLength (secondDigits args) ≤ maxFieldLength :=
    Nat.le_trans (nowLength_le (secondDigits_le args)) (by decide)
  rw [nowLength] at hlength
  dsimp only [inferBuiltin]
  simp only [fractionLength_eq_ok (secondDigits_le args), Bind.bind, Except.bind,
    Length.add_eq_ok hlength]
  rfl

/-- Inference succeeds for a built-in function over fixed arguments, as many as it accepts. -/
theorem exists_inferBuiltin {f : Builtin} (harity : f.arity.accepts args.length = true)
    (hfixed : ∀ arg ∈ args, arg.isFixed = true) (a : Attributes) :
    ∃ inferred, inferBuiltin f args a = .ok inferred := by
  have hnumeric := fun domain => Attributes.exists_withNumeric domain (attributesOf args) a
  have hquotient := Attributes.withQuotient_eq_ok (attributesOf args) a
  have hchoice := exists_inferChoice (.builtin f) args a
  cases f
  case plus | minus | mul => exact hnumeric _
  case mod | sum => exact Result.exists_bind (hnumeric _) fun _ => ⟨_, rfl⟩
  case div | avg =>
    dsimp only [inferBuiltin]
    split
    · exact Result.exists_bind (hnumeric _) fun _ => ⟨_, rfl⟩
    · exact Result.exists_bind ⟨_, hquotient⟩ fun _ => ⟨_, rfl⟩
  case intDiv =>
    -- the scale that is cut off is part of the length
    dsimp only [inferBuiltin]
    rw [Attributes.withDecimal_eq_ok]
    simp only [Bind.bind, Except.bind, Scale.digits?, Option.getD_some,
      Length.sub_eq_ok (Nat.le_add_left _ _)]
    exact ⟨_, rfl⟩
  case coalesce => exact Result.exists_bind hchoice fun _ => ⟨_, rfl⟩
  case ifNull =>
    have hlength : args.length = 2 := beq_iff_eq.mp harity
    refine Result.exists_bind hchoice fun _ => ?_
    exact Result.exists_bind ⟨_, argument_eq_ok (by omega)⟩ fun _ => ⟨_, rfl⟩
  case greatest | least =>
    refine Result.exists_bind (exists_temporalType? hfixed) fun type? => ?_
    split
    · exact ⟨_, rfl⟩
    · exact hchoice
  case now => exact ⟨_, inferBuiltin_now_eq_ok args a⟩
  case min | max =>
    have hlength : args.length = 1 := beq_iff_eq.mp harity
    exact Result.exists_bind ⟨_, argument_eq_ok (by omega)⟩ fun _ => ⟨_, rfl⟩
  all_goals exact ⟨_, rfl⟩

/-- Inference succeeds for every function over fixed arguments, as many as it accepts. -/
theorem exists_infer {f : Func} (harity : f.arity.accepts args.length = true)
    (hfixed : ∀ arg ∈ args, arg.isFixed = true) (a : Attributes) :
    ∃ inferred, infer f args a = .ok inferred := by
  cases f with
  | builtin f => exact exists_inferBuiltin harity hfixed a
  | user declaration =>
    dsimp only [infer]
    split
    · exact ⟨_, rfl⟩
    · exact Result.exists_bind ⟨_, Attributes.withDecimal_eq_ok _ a⟩ fun _ => ⟨_, rfl⟩
    · exact ⟨_, rfl⟩

/-- A call over fixed arguments, as many as its function accepts, is settled. -/
theorem exists_settle {f : Func} (harity : f.arity.accepts args.length = true)
    (hfixed : ∀ arg ∈ args, arg.isFixed = true) (before : CallState) :
    ∃ state, settle f args before = .ok state :=
  Result.exists_bind (exists_infer harity hfixed _) fun _ => ⟨_, rfl⟩

/-- Fixing such a call settles it. -/
theorem exists_fix_eq {f : Func} (harity : f.arity.accepts args.length = true)
    (hfixed : ∀ arg ∈ args, arg.isFixed = true) {before : CallState}
    (hnew : before.attributes.fixed = false) :
    ∃ state, settle f args before = .ok state ∧ fix (call f args before) = (call f args state, none) := by
  obtain ⟨state, hsettle⟩ := exists_settle harity hfixed before
  have hnot : ¬ before.attributes.fixed = true := by simp [hnew]
  refine ⟨state, hsettle, ?_⟩
  rw [fix, if_neg hnot, fixAll_of_isFixed hfixed]
  simp only [hsettle]

/-! ## §3. Binding -/

/-- Every call in the expression has a count of arguments that its function accepts. -/
inductive Accepted : Expr → Prop
  | literal (v : Value) : Accepted (.literal v)
  | column (ref : ColumnRef) : Accepted (.column ref)
  | field (f : BoundColumn) : Accepted (.field f)
  | subquery (q : Subquery) : Accepted (.subquery q)
  | call {f : Func} {args : List Expr} {state : CallState} :
      f.arity.accepts args.length = true → (∀ arg ∈ args, Accepted arg) →
      Accepted (.call f args state)

variable {resolve : ColumnRef → Except Failure BoundColumn} {failure : Failure}

/-- The first expression of a list that is not bound decides the failure. -/
theorem exists_of_bindAllWith_error {es : List Expr} (h : bindAllWith resolve es = .error failure) :
    ∃ e ∈ es, bindWith resolve e = .error failure := by
  induction es with
  | nil => cases h
  | cons e es ih =>
    rw [bindAllWith] at h
    split at h
    · next he =>
      obtain rfl := Except.error.inj h
      exact ⟨e, List.mem_cons_self, he⟩
    · split at h
      · next hes =>
        obtain rfl := Except.error.inj h
        obtain ⟨x, hx, herror⟩ := ih hes
        exact ⟨x, List.mem_cons_of_mem e hx, herror⟩
      · cases h

/-- Binding fails only where a column does not resolve. -/
theorem exists_resolve_eq_error {e : Expr} (he : e.Accepted)
    (h : bind resolve e = .error failure) : ∃ ref, resolve ref = .error failure := by
  rw [bind_eq_bindWith] at h
  induction he with
  | literal v => cases h
  | field f => cases h
  | subquery q => cases h
  | column ref =>
    refine ⟨ref, ?_⟩
    rw [bindWith] at h
    cases hresolve : resolve ref with
    | ok f => rw [hresolve] at h; cases h
    | error found => rw [hresolve] at h; rw [Except.error.inj h]
  | @call f args state harity _ ih =>
    rw [bindWith] at h
    cases hargs : bindAllWith resolve args with
    | error found =>
      rw [hargs] at h
      obtain rfl := Except.error.inj h
      obtain ⟨arg, harg, herror⟩ := exists_of_bindAllWith_error hargs
      exact ih arg harg herror
    | ok bound =>
      -- bound arguments are as many as before, and fixed
      have hfixed := isFixed_of_bindAllWith hargs
      have hlength := (bindAllWith_eq_ok_iff.mp hargs).length_eq
      obtain ⟨settled, hsettle⟩ := exists_settle (hlength ▸ harity) hfixed (.fresh f)
      simp only [hargs, fix_apply hfixed, hsettle] at h
      cases h

end Expr

end PushDown
