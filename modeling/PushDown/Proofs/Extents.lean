import PushDown.Proofs.Inference

/-! # Length and scale of a call

    Inference comes to a length and a scale in one of ten ways. Which one it
    takes follows from the function and from the domain of its arguments
    (`Expr.extentRule`), and each has one equation (`ExtentRule.extent`). That
    inference does just this is `extent_of_infer`.

    So the bounds of lengths and scales are read off the rules. The real rule is
    a loop that stops to count integer parts midway; §1 takes it apart into
    three loops that do not.
-/

namespace PushDown

/-- A scale that is not fixed, or has at most 30 digits. -/
def Scale.InRange (s : Scale) : Prop :=
  ∀ n, s = .fixed n → n ≤ decimalMaxScale

namespace Scale

theorem inRange_fixed {n : Nat} (h : n ≤ decimalMaxScale) : (fixed n).InRange := by
  intro m hm
  cases hm
  exact h

theorem inRange_notFixed : notFixed.InRange := by
  intro n hn
  cases hn

theorem InRange.max {s t : Scale} (hs : s.InRange) (ht : t.InRange) : (s.max t).InRange := by
  cases s with
  | notFixed => exact inRange_notFixed
  | fixed n =>
    cases t with
    | notFixed => exact inRange_notFixed
    | fixed m => exact inRange_fixed (Nat.max_le.mpr ⟨hs n rfl, ht m rfl⟩)

/-- A scale in range is read back from its number on the wire. -/
theorem InRange.ofRaw_raw {s : Scale} (h : s.InRange) : ofRaw s.raw = s := by
  refine Scale.ofRaw_raw fun n hn => ?_
  have hle : n ≤ 30 := h n hn
  show n < 31
  omega

end Scale

namespace Attributes

variable {args : List Attributes}

/-! ## §1. The real rule by its parts -/

/-- The widest of the scales. -/
def mergedScale (args : List Attributes) : Scale :=
  args.foldl (fun acc arg => arg.scale.max acc) (.fixed 0)

/-- The digits before the point, where the scale is fixed. -/
def digitsBefore (a : Attributes) : Nat :=
  a.maxLength - a.scale.digits?.getD 0

/-- The greatest number of digits before the point. -/
def greatestDigits (args : List Attributes) : Nat :=
  args.foldl (fun acc arg => Nat.max acc arg.digitsBefore) 0

theorem RealExtent.scale_step (extent : RealExtent) (arg : Attributes) :
    (extent.step arg).scale = arg.scale.max extent.scale := by
  unfold RealExtent.step
  cases extent.scale <;> cases arg.scale <;> rfl

theorem RealExtent.maxLength_step (extent : RealExtent) (arg : Attributes) :
    (extent.step arg).maxLength = Nat.max extent.maxLength arg.maxLength := by
  unfold RealExtent.step
  cases extent.scale <;> cases arg.scale <;> rfl

/-- Integer parts count as long as every scale is fixed. -/
theorem RealExtent.intPart_step {extent : RealExtent} {arg : Attributes} {n : Nat}
    (h : (extent.step arg).scale = .fixed n) :
    (extent.step arg).intPart = Nat.max extent.intPart arg.digitsBefore := by
  unfold RealExtent.step at h ⊢
  unfold digitsBefore
  cases hscale : extent.scale <;> cases harg : arg.scale <;> simp_all [Scale.digits?]

/-- Once a scale is not fixed, the widest is not. -/
theorem foldl_notFixed (args : List Attributes) :
    args.foldl (fun acc arg => arg.scale.max acc) .notFixed = .notFixed := by
  induction args with
  | nil => rfl
  | cons arg args ih => simpa using ih

/-- Scale and length of the loop are those of two simpler ones, and so is its integer part, as long as
    the scale in the end is fixed. -/
theorem foldl_step (extent : RealExtent) (args : List Attributes) :
    (args.foldl RealExtent.step extent).scale =
        args.foldl (fun acc arg => arg.scale.max acc) extent.scale ∧
      (args.foldl RealExtent.step extent).maxLength =
        args.foldl (fun acc arg => Nat.max acc arg.maxLength) extent.maxLength ∧
      ∀ n, (args.foldl RealExtent.step extent).scale = .fixed n →
        (args.foldl RealExtent.step extent).intPart =
          args.foldl (fun acc arg => Nat.max acc arg.digitsBefore) extent.intPart := by
  induction args generalizing extent with
  | nil => exact ⟨rfl, rfl, fun _ _ => rfl⟩
  | cons arg args ih =>
    obtain ⟨hscale, hlength, hintPart⟩ := ih (extent.step arg)
    rw [RealExtent.scale_step] at hscale
    rw [RealExtent.maxLength_step] at hlength
    refine ⟨hscale, hlength, fun n hn => ?_⟩
    rw [List.foldl_cons, hintPart n hn]
    -- the scale was fixed after the first argument, too
    cases hstep : (extent.step arg).scale with
    | fixed m => rw [RealExtent.intPart_step hstep, List.foldl_cons]
    | notFixed =>
      rw [RealExtent.scale_step] at hstep
      rw [List.foldl_cons, hscale, hstep, foldl_notFixed] at hn
      cases hn

theorem scale_realExtent (args : List Attributes) : (realExtent args).scale = mergedScale args :=
  (foldl_step .start args).1

/-- If some scale is not fixed, the length is the greatest. -/
theorem length_realExtent_of_notFixed (h : mergedScale args = .notFixed) :
    (realExtent args).length = greatestLength args := by
  obtain ⟨_, hlength, _⟩ := foldl_step .start args
  rw [RealExtent.length, scale_realExtent, h]
  exact hlength

/-- If every scale is fixed, the length is that of the most digits before the point and the widest
    scale. -/
theorem length_realExtent_of_fixed {n : Nat} (h : mergedScale args = .fixed n) :
    (realExtent args).length = Length.saturatingAdd (greatestDigits args) n := by
  have hscale : (realExtent args).scale = .fixed n := by rw [scale_realExtent, h]
  obtain ⟨_, _, hintPart⟩ := foldl_step .start args
  rw [RealExtent.length, hscale]
  show Length.saturatingAdd (realExtent args).intPart n = _
  rw [realExtent, hintPart n hscale]
  rfl

/-! ## §2. Greatest lengths and widest scales -/

/-- The lengths of all arguments are in range. -/
def LengthsInRange (args : List Attributes) : Prop :=
  ∀ arg ∈ args, arg.maxLength ≤ maxFieldLength

/-- The scales of all arguments are in range. -/
def ScalesInRange (args : List Attributes) : Prop :=
  ∀ arg ∈ args, arg.scale.InRange

theorem greatestLength_le (h : LengthsInRange args) : greatestLength args ≤ maxFieldLength :=
  foldl_max_le (Nat.zero_le _) h

/-- A sum that stops at the greatest length is in range, whatever is added. -/
theorem totalLength_le (args : List Attributes) : totalLength args ≤ maxFieldLength := by
  suffices h : ∀ start, start ≤ maxFieldLength →
      args.foldl (fun acc arg => Length.saturatingAdd acc arg.maxLength) start ≤ maxFieldLength from
    h 0 (Nat.zero_le _)
  induction args with
  | nil => exact fun start hstart => hstart
  | cons arg args ih => exact fun start _ => ih _ (Nat.min_le_right _ _)

theorem length_realExtent_le (h : LengthsInRange args) :
    (realExtent args).length ≤ maxFieldLength := by
  cases hscale : mergedScale args with
  | fixed n =>
    rw [length_realExtent_of_fixed hscale]
    exact Nat.min_le_right _ _
  | notFixed =>
    rw [length_realExtent_of_notFixed hscale]
    exact greatestLength_le h

theorem mergedScale_inRange (h : ScalesInRange args) : (mergedScale args).InRange := by
  suffices hfrom : ∀ start : Scale, start.InRange →
      (args.foldl (fun acc arg => arg.scale.max acc) start).InRange from
    hfrom (.fixed 0) (Scale.inRange_fixed (Nat.zero_le _))
  induction args with
  | nil => exact fun start hstart => hstart
  | cons arg args ih =>
    intro start hstart
    refine ih (fun x hx => h x (List.mem_cons_of_mem arg hx)) _ ?_
    exact (h arg List.mem_cons_self).max hstart

end Attributes

/-! ## §3. Rules -/

/-- How a call comes to its length and scale. -/
inductive ExtentRule
  /-- The function decides by itself. -/
  | constant (length : Nat) (scale : Scale)
  /-- They stay as they are. -/
  | unchanged
  | real
  | decimal
  /-- The decimal rule, with the digits that a division adds. -/
  | quotient
  /-- The decimal rule, without the scale. -/
  | whole
  /-- They are those of the first argument. -/
  | first
  /-- They are those of the first argument, with room for a sign. -/
  | signed
  /-- The sum of the lengths. -/
  | total
  /-- The greatest of the lengths. -/
  | greatest

namespace ExtentRule

open Attributes

/-- Length and scale by the rule, over the arguments and from what there was before. -/
def extent (args : List Attributes) (before : Attributes) : ExtentRule → Nat × Scale
  | constant length scale => (length, scale)
  | unchanged => (before.maxLength, before.scale)
  | real => ((realExtent args).length, (realExtent args).scale)
  | decimal => (widestIntPart args + widestScale args, .fixed (widestScale args))
  | quotient => (widestIntPart args + quotientScale args, .fixed (quotientScale args))
  | whole => (widestIntPart args, .fixed 0)
  | first => ((args.head?.map (·.maxLength)).getD 0, (args.head?.map (·.scale)).getD (.fixed 0))
  | signed =>
    (Length.saturatingAdd ((args.head?.map (·.maxLength)).getD 0) 1,
      (args.head?.map (·.scale)).getD (.fixed 0))
  | total => (totalLength args, .notFixed)
  | greatest => (greatestLength args, .notFixed)

/-- The rule of a number in the given domain. -/
def ofDomain (domain : Domain) : ExtentRule :=
  if domain = .real then real else decimal

/-- The text rule of a function. -/
def ofText : Func → ExtentRule
  | .builtin .concat => total
  | .builtin .castChar | .builtin .coalesce | .builtin .ifNull | .builtin .greatest
  | .builtin .least => greatest
  | _ => unchanged

/-- The rule of a choice between the arguments. -/
def ofChoice (f : Func) (args : List Attributes) : ExtentRule :=
  if mergedDomain args = .string then ofText f else ofDomain (mergedDomain args)

end ExtentRule

namespace Expr

open ExtentRule

/-- The rule of a built-in function over arguments. -/
def builtinRule (f : Builtin) (args : List Expr) : ExtentRule :=
  let domain := Attributes.numericDomain (attributesOf args)
  match f with
  | .eq | .ne | .lt | .le | .gt | .ge | .like | .and | .or | .xor | .not | .between | .inList
  | .stContains | .stIntersects | .stWithin | .nullSafeEq | .isNull | .isNotNull =>
    constant 1 (.fixed 0)
  | .plus | .minus | .mul | .mod | .sum => ofDomain domain
  | .div | .avg => if domain = .real then real else quotient
  | .intDiv => whole
  | .neg => signed
  | .abs | .min | .max => first
  | .concat | .castChar => ofText (.builtin f)
  | .coalesce | .ifNull => ofChoice (.builtin f) (attributesOf args)
  | .greatest | .least =>
    match temporalType? args with
    | .ok (some fieldType) => constant fieldType.defaultLength (.fixed 0)
    | _ => ofChoice (.builtin f) (attributesOf args)
  | .now => constant (nowLength (secondDigits args)) (.fixed (secondDigits args))
  | .rand => constant FieldType.double.defaultLength .notFixed
  | .uuid => constant 36 .notFixed
  | .userVar | .sysVar => constant FieldType.varstring.defaultLength .notFixed
  | .count => constant 21 (.fixed 0)

/-- The rule of a function over arguments. -/
def extentRule (f : Func) (args : List Expr) : ExtentRule :=
  match f with
  | .builtin b => builtinRule b args
  | .user declaration =>
    match declaration.rule with
    | .real => real
    | .decimal => decimal
    | .string => unchanged

end Expr

/-! ## §4. Inference follows the rules -/

/-- Length and scale. -/
def Attributes.extent (a : Attributes) : Nat × Scale :=
  (a.maxLength, a.scale)

namespace Attributes

variable {args : List Attributes} {a inferred : Attributes}

theorem extent_of_withNumeric {domain : Domain} (h : withNumeric domain args a = .ok inferred) :
    inferred.extent = (ExtentRule.ofDomain domain).extent args a := by
  unfold withNumeric at h
  unfold ExtentRule.ofDomain
  by_cases hreal : domain = .real
  · rw [if_pos hreal] at h ⊢
    cases h
    rfl
  · rw [if_neg hreal, withDecimal_eq_ok] at h
    rw [if_neg hreal]
    cases h
    rfl

theorem extent_of_withQuotient (h : withQuotient args a = .ok inferred) :
    inferred.extent = ExtentRule.quotient.extent args a := by
  rw [withQuotient_eq_ok] at h
  cases h
  rfl

/-- A division is real or a quotient, whatever else is done that leaves length and scale alone. -/
theorem extent_of_division {domain : Domain} {rest : Attributes → Except Fault Attributes}
    (hrest : ∀ b r, rest b = .ok r → r.extent = b.extent)
    (h : (if domain = .real then withNumeric domain args a >>= rest
      else withQuotient args a >>= rest) = .ok inferred) :
    inferred.extent =
      (if domain = .real then ExtentRule.real else .quotient).extent args a := by
  by_cases hreal : domain = .real
  · rw [if_pos hreal] at h ⊢
    obtain ⟨b, hb, hr⟩ := Result.exists_of_bind h
    rw [hrest b inferred hr, extent_of_withNumeric hb, hreal]
    rfl
  · rw [if_neg hreal] at h ⊢
    obtain ⟨b, hb, hr⟩ := Result.exists_of_bind h
    rw [hrest b inferred hr, extent_of_withQuotient hb]

end Attributes

namespace Expr

variable {f : Func} {args : List Expr} {a inferred : Attributes}

theorem extent_inferText (f : Func) (args : List Expr) (a : Attributes) :
    (inferText f args a).extent = (ExtentRule.ofText f).extent (attributesOf args) a := by
  cases f with
  | builtin f => cases f <;> rfl
  | user declaration => rfl

theorem extent_of_inferChoice (h : inferChoice f args a = .ok inferred) :
    inferred.extent = (ExtentRule.ofChoice f (attributesOf args)).extent (attributesOf args) a := by
  unfold inferChoice at h
  unfold ExtentRule.ofChoice
  split at h
  · next hstring =>
    rw [if_pos hstring]
    cases h
    exact extent_inferText f args a
  · next hother =>
    rw [if_neg hother]
    exact Attributes.extent_of_withNumeric h

theorem head?_of_argument {arg : Expr} (h : argument args 0 = .ok arg) :
    (attributesOf args).head? = some arg.attributes := by
  cases args with
  | nil => cases h
  | cons first rest =>
    cases h
    rfl

/-- A division by zero has a say in nullability only. -/
theorem extent_asQuotient (args : List Expr) (a : Attributes) :
    (asQuotient args a).extent = a.extent := by
  unfold asQuotient
  split <;> rfl

/-- A sum is a decimal where it is not real. -/
theorem ofDomain_of_sum (domain : Domain) :
    ExtentRule.ofDomain (if domain = .real then .real else .decimal) = .ofDomain domain := by
  cases domain <;> rfl

theorem extent_of_inferBuiltin {f : Builtin} (h : inferBuiltin f args a = .ok inferred) :
    inferred.extent = (builtinRule f args).extent (attributesOf args) a := by
  cases f
  case plus | minus | mul => exact Attributes.extent_of_withNumeric h
  case mod =>
    obtain ⟨b, hb, hinferred⟩ := Result.exists_of_bind h
    obtain rfl := Except.ok.inj hinferred
    rw [extent_asQuotient]
    exact Attributes.extent_of_withNumeric hb
  case sum =>
    obtain ⟨b, hb, hinferred⟩ := Result.exists_of_bind h
    obtain rfl := Except.ok.inj hinferred
    have hextent := Attributes.extent_of_withNumeric hb
    rw [ofDomain_of_sum] at hextent
    exact hextent
  case div =>
    refine Attributes.extent_of_division (fun b r hr => ?_) h
    obtain rfl := Except.ok.inj hr
    exact extent_asQuotient args _
  case avg =>
    refine Attributes.extent_of_division (fun b r hr => ?_) h
    obtain rfl := Except.ok.inj hr
    rfl
  case intDiv =>
    obtain ⟨b, hb, h⟩ := Result.exists_of_bind h
    obtain ⟨maxLength, hsub, hinferred⟩ := Result.exists_of_bind h
    obtain rfl := Except.ok.inj hinferred
    rw [Attributes.withDecimal_eq_ok] at hb
    obtain rfl := Except.ok.inj hb
    rw [Scale.digits?, Option.getD_some, Length.sub_eq_ok (Nat.le_add_left _ _),
      Nat.add_sub_cancel] at hsub
    obtain rfl := Except.ok.inj hsub
    exact extent_asQuotient args _
  case coalesce =>
    obtain ⟨b, hb, hinferred⟩ := Result.exists_of_bind h
    obtain rfl := Except.ok.inj hinferred
    have hextent := extent_of_inferChoice hb
    exact hextent
  case ifNull =>
    obtain ⟨b, hb, h⟩ := Result.exists_of_bind h
    obtain ⟨second, _, hinferred⟩ := Result.exists_of_bind h
    obtain rfl := Except.ok.inj hinferred
    have hextent := extent_of_inferChoice hb
    exact hextent
  case greatest | least =>
    obtain ⟨type?, htype, h⟩ := Result.exists_of_bind h
    rw [builtinRule, htype]
    cases type? with
    | some fieldType =>
      obtain rfl := Except.ok.inj h
      rfl
    | none => exact extent_of_inferChoice h
  case now =>
    rw [inferBuiltin_now_eq_ok] at h
    obtain rfl := Except.ok.inj h
    rfl
  case min | max =>
    obtain ⟨first, hfirst, hinferred⟩ := Result.exists_of_bind h
    obtain rfl := Except.ok.inj hinferred
    rw [builtinRule, ExtentRule.extent, head?_of_argument hfirst]
    rfl
  case concat | castChar =>
    obtain rfl := Except.ok.inj h
    exact extent_inferText _ args a
  all_goals
    obtain rfl := Except.ok.inj h
    rfl

/-- Length and scale of a call are those of the rule that its function takes over its arguments. -/
theorem extent_of_infer (h : infer f args a = .ok inferred) :
    inferred.extent = (extentRule f args).extent (attributesOf args) a := by
  cases f with
  | builtin f => exact extent_of_inferBuiltin h
  | user declaration =>
    rw [extentRule]
    dsimp only [infer] at h
    cases hrule : declaration.rule with
    | real =>
      rw [hrule] at h
      obtain rfl := Except.ok.inj h
      rfl
    | decimal =>
      rw [hrule] at h
      obtain ⟨b, hb, hinferred⟩ := Result.exists_of_bind h
      obtain rfl := Except.ok.inj hinferred
      rw [Attributes.withDecimal_eq_ok] at hb
      obtain rfl := Except.ok.inj hb
      rfl
    | string =>
      rw [hrule] at h
      obtain rfl := Except.ok.inj h
      rfl

/-- So are those of a settled call, from nothing. -/
theorem extent_of_settle {state : CallState} (h : settle f args (.fresh f) = .ok state) :
    state.attributes.extent = (extentRule f args).extent (attributesOf args) .unfixed := by
  obtain ⟨inferred, hinferred, hstate⟩ := Result.exists_of_bind h
  obtain rfl := Except.ok.inj hstate
  have hextent := extent_of_infer hinferred
  -- the rules do not look at the nullability that inference starts from
  cases hrule : extentRule f args <;> rw [hrule] at hextent <;> exact hextent

end Expr

/-! ## §5. Bounds -/

namespace ExtentRule

open Attributes

variable {rule : ExtentRule} {args : List Attributes} {before : Attributes}

/-- What a function decides by itself is in range. -/
def OwnInRange : ExtentRule → Prop
  | constant length scale => length ≤ maxFieldLength ∧ scale.InRange
  | _ => True

theorem ownInRange_ofDomain (domain : Domain) : (ofDomain domain).OwnInRange := by
  unfold ofDomain
  split <;> trivial

theorem ownInRange_ofText (f : Func) : (ofText f).OwnInRange := by
  unfold ofText
  split <;> trivial

theorem ownInRange_ofChoice (f : Func) (args : List Attributes) : (ofChoice f args).OwnInRange := by
  unfold ofChoice
  split
  · exact ownInRange_ofText f
  · exact ownInRange_ofDomain _

/-- Whatever the rule, a length is in range if those it comes from are. -/
theorem length_extent_le (hown : rule.OwnInRange) (hargs : LengthsInRange args)
    (hbefore : before.maxLength ≤ maxFieldLength) :
    (rule.extent args before).1 ≤ maxFieldLength := by
  have hfirst : (args.head?.map (·.maxLength)).getD 0 ≤ maxFieldLength := by
    cases args with
    | nil => exact Nat.zero_le _
    | cons arg args => exact hargs arg List.mem_cons_self
  have hint := widestIntPart_le args
  cases rule with
  | constant length scale => exact hown.1
  | unchanged => exact hbefore
  | real => exact length_realExtent_le hargs
  | decimal => exact add_le_maxFieldLength hint (widestScale_le args)
  | quotient => exact add_le_maxFieldLength hint (quotientScale_le args)
  | whole => exact Nat.le_trans hint (by decide)
  | first => exact hfirst
  | signed => exact Nat.min_le_right _ _
  | total => exact totalLength_le args
  | greatest => exact greatestLength_le hargs

/-- Whatever the rule, a scale is in range if those it comes from are. -/
theorem scale_extent_inRange (hown : rule.OwnInRange) (hargs : ScalesInRange args)
    (hbefore : before.scale.InRange) : (rule.extent args before).2.InRange := by
  have hfirst : Scale.InRange ((args.head?.map Attributes.scale).getD (.fixed 0)) := by
    cases args with
    | nil => exact Scale.inRange_fixed (Nat.zero_le _)
    | cons arg args => exact hargs arg List.mem_cons_self
  cases rule with
  | constant length scale => exact hown.2
  | unchanged => exact hbefore
  | real =>
    rw [extent, scale_realExtent]
    exact mergedScale_inRange hargs
  | decimal => exact Scale.inRange_fixed (widestScale_le args)
  | quotient => exact Scale.inRange_fixed (quotientScale_le args)
  | whole => exact Scale.inRange_fixed (Nat.zero_le _)
  | first => exact hfirst
  | signed => exact hfirst
  | total => exact Scale.inRange_notFixed
  | greatest => exact Scale.inRange_notFixed

/-- A length and a scale that a fixed-point value can have: the scale is part of the length. -/
def FixedPoint (extent : Nat × Scale) : Prop :=
  ∃ n, extent.2 = .fixed n ∧ n ≤ 30 ∧ n ≤ extent.1 ∧ extent.1 ≤ 95

theorem fixedPoint_decimal (args : List Attributes) (before : Attributes) :
    FixedPoint (decimal.extent args before) := by
  have hint : widestIntPart args ≤ 65 := widestIntPart_le args
  have hscale : widestScale args ≤ 30 := widestScale_le args
  refine ⟨widestScale args, rfl, hscale, Nat.le_add_left _ _, ?_⟩
  show widestIntPart args + widestScale args ≤ 95
  omega

theorem fixedPoint_quotient (args : List Attributes) (before : Attributes) :
    FixedPoint (quotient.extent args before) := by
  have hint : widestIntPart args ≤ 65 := widestIntPart_le args
  have hscale : quotientScale args ≤ 30 := quotientScale_le args
  refine ⟨quotientScale args, rfl, hscale, Nat.le_add_left _ _, ?_⟩
  show widestIntPart args + quotientScale args ≤ 95
  omega

end ExtentRule

namespace Expr

theorem ownInRange_builtinRule (f : Builtin) (args : List Expr) :
    (builtinRule f args).OwnInRange := by
  cases f
  case plus | minus | mul | mod | sum => exact ExtentRule.ownInRange_ofDomain _
  case div | avg =>
    rw [builtinRule]
    split <;> trivial
  case coalesce | ifNull => exact ExtentRule.ownInRange_ofChoice _ _
  case greatest | least =>
    rw [builtinRule]
    split
    · next fieldType _ =>
      exact ⟨fieldType.defaultLength_le, Scale.inRange_fixed (Nat.zero_le _)⟩
    · exact ExtentRule.ownInRange_ofChoice _ _
  case now =>
    have hdigits := secondDigits_le args
    refine ⟨Nat.le_trans (nowLength_le hdigits) (by decide), Scale.inRange_fixed ?_⟩
    exact Nat.le_trans hdigits (by decide)
  case rand | userVar | sysVar => exact ⟨FieldType.defaultLength_le _, Scale.inRange_notFixed⟩
  case uuid => exact ⟨by decide, Scale.inRange_notFixed⟩
  case intDiv | neg | abs | min | max | concat | castChar => trivial
  all_goals exact ⟨by decide, Scale.inRange_fixed (Nat.zero_le _)⟩

theorem ownInRange_extentRule (f : Func) (args : List Expr) : (extentRule f args).OwnInRange := by
  cases f with
  | builtin f => exact ownInRange_builtinRule f args
  | user declaration =>
    rw [extentRule]
    split <;> trivial

end Expr

end PushDown
