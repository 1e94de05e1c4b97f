import Mathlib.Data.List.Perm.Basic
import PushDown.Proofs.Forming

/-! # The order of arguments

    Inference goes through the arguments of a call with loops: greatest values,
    sums that stop at the greatest length, merges of domains and of scales, and
    searches. Two steps of each can be exchanged, so that a loop over the
    arguments in another order comes to the same.

    A few functions look at the argument in a certain place. Most of these take
    no more than one. What is left are the divisions, for which a divisor of zero
    is something else than a dividend of zero, and `ifnull`
    (`Func.placesMatter`). For all other functions a call is settled alike
    whatever the order of its arguments is (`settled_of_perm`).
-/

namespace PushDown

/-! ## §1. Loops -/

namespace Attributes

variable {args args' : List Attributes}

theorem foldl_max_perm (f : Attributes → Nat) (h : args.Perm args') :
    args.foldl (fun acc arg => Nat.max acc (f arg)) 0 =
      args'.foldl (fun acc arg => Nat.max acc (f arg)) 0 := by
  refine h.foldl_eq' (fun x _ y _ acc => ?_) 0
  show max (max acc (f x)) (f y) = max (max acc (f y)) (f x)
  omega

theorem totalLength_perm (h : args.Perm args') : totalLength args = totalLength args' := by
  refine h.foldl_eq' (fun x _ y _ acc => ?_) 0
  unfold Length.saturatingAdd
  omega

theorem mergedScale_perm (h : args.Perm args') : mergedScale args = mergedScale args' := by
  refine h.foldl_eq' (fun x _ y _ acc => ?_) (Scale.fixed 0)
  rw [← Scale.max_assoc, Scale.max_comm y.scale, Scale.max_assoc]

theorem numericDomain_perm (h : args.Perm args') : numericDomain args = numericDomain args' := by
  have hdomains := (h.filter fun arg => arg.fieldType != .null).map domain
  refine hdomains.foldl_eq' (fun x _ y _ acc => ?_) Domain.int
  rw [Domain.merge_assoc, Domain.merge_comm x, ← Domain.merge_assoc]

theorem mergedDomain_perm (h : args.Perm args') : mergedDomain args = mergedDomain args' := by
  have htyped := h.filter fun arg => arg.fieldType != .null
  unfold mergedDomain
  rw [htyped.all_eq, numericDomain_perm h]

theorem withReal_perm (h : args.Perm args') (a : Attributes) : withReal args a = withReal args' a := by
  have hscale := mergedScale_perm h
  have hlength : (realExtent args).length = (realExtent args').length := by
    cases hmerged : mergedScale args with
    | fixed n =>
      rw [length_realExtent_of_fixed hmerged, length_realExtent_of_fixed (hscale ▸ hmerged),
        greatestDigits, greatestDigits, foldl_max_perm _ h]
    | notFixed =>
      rw [length_realExtent_of_notFixed hmerged, length_realExtent_of_notFixed (hscale ▸ hmerged)]
      exact foldl_max_perm _ h
  unfold withReal
  dsimp only
  rw [hlength, scale_realExtent, scale_realExtent, hscale]

theorem withDecimal_perm (h : args.Perm args') (a : Attributes) :
    withDecimal args a = withDecimal args' a := by
  have hscale : widestScale args = widestScale args' := foldl_max_perm _ h
  have hint : widestIntPart args = widestIntPart args' := foldl_max_perm _ h
  unfold withDecimal
  rw [hscale, hint]

theorem withNumeric_perm (h : args.Perm args') (domain : Domain) (a : Attributes) :
    withNumeric domain args a = withNumeric domain args' a := by
  unfold withNumeric
  rw [withReal_perm h, withDecimal_perm h]

end Attributes

/-! ## §2. Functions -/

/-- Whether the function tells its arguments apart by their places: the divisions look at the divisor,
    and `ifnull` at the value that stands in. -/
def Func.placesMatter : Func → Bool
  | .builtin .div | .builtin .intDiv | .builtin .mod | .builtin .ifNull => true
  | _ => false

namespace Expr

variable {f : Func} {args args' : List Expr}

theorem eq_of_perm_of_length_le_one (h : args.Perm args') (hlength : args.length ≤ 1) :
    args = args' := by
  match args, hlength with
  | [], _ => exact h.nil_eq
  | [arg], _ => exact List.singleton_perm.mp h

theorem anyColumn_perm (h : args.Perm args') (test : FieldType → Bool) :
    anyColumn args test = anyColumn args' test := by
  unfold anyColumn
  rw [h.all_eq, h.any_eq]

theorem temporalType?_perm (h : args.Perm args') : temporalType? args = temporalType? args' := by
  unfold temporalType? anyDatetime anyDate anyTime anyTimestamp
  simp only [anyColumn_perm h]

theorem attributesOf_perm (h : args.Perm args') : (attributesOf args).Perm (attributesOf args') :=
  h.map attributes

theorem inferText_perm (h : args.Perm args') (f : Func) (a : Attributes) :
    inferText f args a = inferText f args' a := by
  have htotal := Attributes.totalLength_perm (attributesOf_perm h)
  have hgreatest : Attributes.greatestLength (attributesOf args) =
      Attributes.greatestLength (attributesOf args') :=
    Attributes.foldl_max_perm _ (attributesOf_perm h)
  unfold inferText
  rw [htotal, hgreatest]

theorem inferChoice_perm (h : args.Perm args') (f : Func) (a : Attributes) :
    inferChoice f args a = inferChoice f args' a := by
  unfold inferChoice
  rw [Attributes.mergedDomain_perm (attributesOf_perm h), inferText_perm h]
  simp only [Attributes.withNumeric_perm (attributesOf_perm h)]

/-- A function that takes at most one argument has nothing to exchange; the others look at no place. -/
theorem inferBuiltin_perm {f : Builtin} (hf : (Func.builtin f).placesMatter = false)
    (harity : f.arity.accepts args.length = true) (h : args.Perm args') (a : Attributes) :
    inferBuiltin f args a = inferBuiltin f args' a := by
  have hattributes := attributesOf_perm h
  have hone : args.length ≤ 1 → inferBuiltin f args a = inferBuiltin f args' a := by
    intro hlength
    rw [eq_of_perm_of_length_le_one h hlength]
  cases f
  case div | intDiv | mod | ifNull => cases hf
  case plus | minus | mul =>
    dsimp only [inferBuiltin]
    rw [Attributes.numericDomain_perm hattributes, Attributes.withNumeric_perm hattributes]
  case concat =>
    dsimp only [inferBuiltin]
    rw [inferText_perm h]
  case coalesce =>
    dsimp only [inferBuiltin]
    rw [inferChoice_perm h, hattributes.all_eq]
  case greatest | least =>
    dsimp only [inferBuiltin]
    rw [temporalType?_perm h, inferChoice_perm h]
  case neg | abs | castChar | sum | avg | min | max =>
    have hlength : args.length = 1 := beq_iff_eq.mp harity
    exact hone (Nat.le_of_eq hlength)
  case now =>
    have hlength : 0 ≤ args.length ∧ args.length ≤ 1 := by
      simpa [Builtin.arity, Arity.accepts] using harity
    exact hone hlength.2
  all_goals rfl

theorem infer_perm (hf : f.placesMatter = false) (harity : f.arity.accepts args.length = true)
    (h : args.Perm args') (a : Attributes) : infer f args a = infer f args' a := by
  cases f with
  | builtin f => exact inferBuiltin_perm hf harity h a
  | user declaration =>
    have hattributes := attributesOf_perm h
    dsimp only [infer]
    rw [Attributes.withReal_perm hattributes, Attributes.withDecimal_perm hattributes,
      inferText_perm h]

theorem factsOf_perm (h : args.Perm args') (f : Func) : factsOf f args = factsOf f args' := by
  exact h.foldl_eq' (fun x _ y _ acc => Facts.union_right_comm acc x.facts y.facts) f.ownFacts

theorem tablesOf_perm (h : args.Perm args') : tablesOf args = tablesOf args' := by
  ext id
  rw [mem_tablesOf, mem_tablesOf]
  simp only [h.mem_iff]

/-- Calls over the same arguments in two orders are settled alike. -/
theorem settle_perm (hf : f.placesMatter = false) (harity : f.arity.accepts args.length = true)
    (h : args.Perm args') (before : CallState) : settle f args before = settle f args' before := by
  unfold settle
  rw [h.any_eq, factsOf_perm h, tablesOf_perm h]
  simp only [infer_perm hf harity h]

/-! ## §3. Calls -/

/-- What arguments are made into, one by one, settles a call alike whatever their order is. -/
theorem exists_settle_of_perm {R : Expr → Expr → Prop} {bs : List Expr}
    (hf : f.placesMatter = false) (harity : f.arity.accepts args.length = true)
    (h : args.Perm args') (hargs : List.Forall₂ R args bs) (hfixed : ∀ b ∈ bs, b.isFixed = true)
    (before : CallState) :
    ∃ bs' state, List.Forall₂ R args' bs' ∧ bs.Perm bs' ∧
      settle f bs before = .ok state ∧ settle f bs' before = .ok state := by
  obtain ⟨bs', hargs', hperm⟩ := List.perm_comp_forall₂ h.symm hargs
  have hbound : f.arity.accepts bs.length = true := hargs.length_eq ▸ harity
  obtain ⟨state, hsettle⟩ := exists_settle hbound hfixed before
  refine ⟨bs', state, hargs', hperm.symm, hsettle, ?_⟩
  rw [← settle_perm hf hbound hperm.symm before]
  exact hsettle

/-- Fixing or binding calls over the same arguments in two orders gives them the same state. -/
theorem settled_of_perm (hf : f.placesMatter = false)
    (harity : f.arity.accepts args.length = true) (h : args.Perm args') (before : CallState) :
    (∀ bs, before.attributes.fixed = false → fixAll args = (bs, none) →
      ∃ bs' state, fixAll args' = (bs', none) ∧ bs.Perm bs' ∧
        fix (call f args before) = (call f bs state, none) ∧
        fix (call f args' before) = (call f bs' state, none)) ∧
      ∀ resolve bs, bindAllWith resolve args = .ok bs →
        ∃ bs' state, bindAllWith resolve args' = .ok bs' ∧ bs.Perm bs' ∧
          bind resolve (call f args before) = .ok (call f bs state) ∧
          bind resolve (call f args' before) = .ok (call f bs' state) := by
  constructor
  · intro bs hnew hbs
    have hnot : ¬ before.attributes.fixed = true := by simp [hnew]
    obtain ⟨bs', state, hargs', hperm, hsettle, hsettle'⟩ :=
      exists_settle_of_perm hf harity h (fixAll_eq_iff.mp hbs) (isFixed_of_fixAll hbs) before
    have hbs' := fixAll_eq_iff.mpr hargs'
    refine ⟨bs', state, hbs', hperm, ?_, ?_⟩
    · rw [fix, if_neg hnot, hbs]
      simp only [hsettle]
    · rw [fix, if_neg hnot, hbs']
      simp only [hsettle']
  · intro resolve bs hbs
    -- binding starts every call anew
    obtain ⟨bs', state, hargs', hperm, hsettle, hsettle'⟩ :=
      exists_settle_of_perm hf harity h (bindAllWith_eq_ok_iff.mp hbs)
        (isFixed_of_bindAllWith hbs) (.fresh f)
    have hbs' := bindAllWith_eq_ok_iff.mpr hargs'
    refine ⟨bs', state, hbs', hperm, ?_, ?_⟩
    · rw [bind_eq_bindWith]
      exact bindWith_call_eq_ok_iff.mpr ⟨bs, state, hbs, hsettle, rfl⟩
    · rw [bind_eq_bindWith]
      exact bindWith_call_eq_ok_iff.mpr ⟨bs', state, hbs', hsettle', rfl⟩

end Expr

namespace Plan.Shop

/-- The arguments of `greatest(wide, NULL, 12.50)`. -/
def wideNullPrice : List Expr :=
  [.field wide, .literal .null, .literal (.decimal "12.50")]

/-- A column of the greatest length, a literal that counts for no domain, and a decimal. -/
theorem settled_of_perm_greatest :
    (Func.builtin .greatest).placesMatter = false ∧ wideNullPrice.Perm wideNullPrice.reverse ∧
      ∃ state : CallState,
        (Expr.apply (.builtin .greatest) wideNullPrice).fix =
          (.call (.builtin .greatest) wideNullPrice state, none) ∧
        (Expr.apply (.builtin .greatest) wideNullPrice.reverse).fix =
          (.call (.builtin .greatest) wideNullPrice.reverse state, none) := by
  have hperm : wideNullPrice.Perm wideNullPrice.reverse := wideNullPrice.reverse_perm.symm
  have harity : (Func.builtin .greatest).arity.accepts wideNullPrice.length = true := rfl
  obtain ⟨hfix, _⟩ := Expr.settled_of_perm rfl harity hperm (.fresh (.builtin .greatest))
  obtain ⟨bs', state, hbs', _, hfirst, hsecond⟩ := hfix wideNullPrice rfl rfl
  obtain rfl : wideNullPrice.reverse = bs' := congrArg Prod.fst hbs'
  exact ⟨rfl, hperm, state, hfirst, hsecond⟩

/-- For the divisions the order matters: what is divided by the literal `0` is `NULL`, and `0` divided
    by another literal is not. -/
example :
    (Expr.apply (.builtin .div) [.literal (.int 0), .literal (.int 1)]).fix.1.attributes.nullValue =
        false ∧
      (Expr.apply (.builtin .div) [.literal (.int 1), .literal (.int 0)]).fix.1.attributes.nullValue =
        true := by
  decide +kernel

end Plan.Shop

end PushDown
