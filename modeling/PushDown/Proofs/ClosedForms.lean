import Mathlib.Algebra.GroupWithZero.Nat
import PushDown.Proofs.Forming
import PushDown.Proofs.Rebinding

/-! # Lengths in closed form

    Length and scale are inferred by loops over the arguments. What the loops
    come to can be said without them: it takes the greatest value of the
    arguments in one respect (`Attributes.greatest`), and sums.

    The sum of the lengths of a concatenation stops at the greatest length, at
    whatever argument it gets there. That comes to the same as taking the whole
    sum and cutting it off once (`Attributes.totalLength_eq`). So the length of
    nested concatenations depends on their pieces, and not on how these are
    grouped (`Expr.Settled.maxLength_concat`, `Expr.lengths_of_arguments`).
-/

namespace PushDown

namespace Attributes

variable {args : List Attributes}

/-! ## §1. Greatest values -/

/-- The greatest value over the arguments, and 0 if there are none. -/
def greatest (f : Attributes → Nat) (args : List Attributes) : Nat :=
  (args.map f).max?.getD 0

theorem foldl_max_eq_greatest (f : Attributes → Nat) (args : List Attributes) :
    args.foldl (fun acc arg => Nat.max acc (f arg)) 0 = greatest f args := by
  have hfold : (args.map f).foldl max 0 = max 0 (greatest f args) := List.foldl_max
  rw [Nat.zero_max, List.foldl_map] at hfold
  exact hfold

/-- The digits after the point, where their number is fixed. -/
def digitsAfter (a : Attributes) : Nat :=
  a.scale.digits?.getD 0

/-- The scales merge to the widest, and to one that is not fixed if any is not. -/
theorem mergedScale_eq (args : List Attributes) :
    mergedScale args =
      if args.all fun arg => arg.scale.isFixed then .fixed (greatest digitsAfter args)
      else .notFixed := by
  suffices h : ∀ n, args.foldl (fun acc arg => arg.scale.max acc) (.fixed n) =
      if args.all fun arg => arg.scale.isFixed then
        Scale.fixed (args.foldl (fun acc arg => Nat.max acc (digitsAfter arg)) n)
      else .notFixed by
    rw [← foldl_max_eq_greatest]
    exact h 0
  induction args with
  | nil => simp
  | cons arg args ih =>
    intro n
    rw [List.foldl_cons, List.foldl_cons, List.all_cons]
    cases hscale : arg.scale with
    | notFixed =>
      rw [Scale.notFixed_max, foldl_notFixed]
      simp [Scale.isFixed]
    | fixed m =>
      have hdigits : Nat.max n (digitsAfter arg) = Nat.max m n := by
        rw [digitsAfter, hscale]
        exact Nat.max_comm n m
      rw [hdigits]
      exact ih _

/-! ## §2. The rules -/

/-- The real rule: as long as all scales are fixed, the most digits before the point and the most after
    it, and else the greatest length. -/
theorem withReal_eq (args : List Attributes) (a : Attributes) :
    withReal args a =
      if args.all fun arg => arg.scale.isFixed then
        { a with
          maxLength := min maxFieldLength (greatest digitsAfter args + greatest digitsBefore args)
          scale := .fixed (greatest digitsAfter args) }
      else { a with maxLength := greatest maxLength args, scale := .notFixed } := by
  have hmerged := mergedScale_eq args
  unfold withReal
  dsimp only
  rw [scale_realExtent]
  split
  · next hfixed =>
    rw [if_pos hfixed] at hmerged
    rw [length_realExtent_of_fixed hmerged, hmerged, greatestDigits, foldl_max_eq_greatest,
      Length.saturatingAdd, Nat.min_comm, Nat.add_comm]
  · next hnot =>
    rw [if_neg hnot] at hmerged
    rw [length_realExtent_of_notFixed hmerged, hmerged, greatestLength, foldl_max_eq_greatest]

/-- The decimal rule. -/
theorem withDecimal_eq (args : List Attributes) (a : Attributes) :
    withDecimal args a = .ok { a with
      maxLength := greatest (·.scale.fixedPoint) args +
        greatest (fun arg => min arg.maxLength decimalMaxPrecision - arg.scale.fixedPoint) args
      scale := .fixed (greatest (·.scale.fixedPoint) args) } := by
  have hscale : widestScale args = greatest (·.scale.fixedPoint) args := foldl_max_eq_greatest _ args
  have hint : widestIntPart args = greatest intPart args := foldl_max_eq_greatest _ args
  rw [withDecimal_eq_ok, hscale, hint, Nat.add_comm]
  rfl

/-- Stopping at the greatest length on the way is cutting off the whole sum. -/
theorem totalLength_eq (args : List Attributes) :
    totalLength args = min maxFieldLength (args.map maxLength).sum := by
  suffices h : ∀ start, args.foldl (fun acc arg => Length.saturatingAdd acc arg.maxLength)
      (min maxFieldLength start) = min maxFieldLength (start + (args.map maxLength).sum) by
    have hzero := h 0
    rw [Nat.zero_add, Nat.min_zero] at hzero
    exact hzero
  induction args with
  | nil => simp
  | cons arg args ih =>
    intro start
    have hnext : Length.saturatingAdd (min maxFieldLength start) arg.maxLength =
        min maxFieldLength (start + arg.maxLength) := by
      unfold Length.saturatingAdd
      omega
    rw [List.foldl_cons, hnext, ih, List.map_cons, List.sum_cons, Nat.add_assoc]

end Attributes

/-! ## §3. Pieces -/

namespace Expr

variable {e e' b b' : Expr} {args args' : List Expr} {state state' : CallState}
  {resolve : ColumnRef → Except Failure BoundColumn}

mutual

/-- What is joined in nested concatenations, left to right. -/
def pieces : Expr → List Expr
  | call f args state => if f = .builtin .concat then piecesOf args else [call f args state]
  | e => [e]

/-- The pieces of a list of expressions. -/
def piecesOf : List Expr → List Expr
  | [] => []
  | e :: es => pieces e ++ piecesOf es

end

theorem piecesOf_eq_flatten (es : List Expr) : piecesOf es = (es.map pieces).flatten := by
  induction es with
  | nil => rfl
  | cons e es ih => simp [piecesOf, ih]

/-- Whether the expression is a concatenation of its arguments. -/
def isConcat : Expr → Bool
  | call f _ _ => f == .builtin .concat
  | literal _ | column _ | field _ | subquery _ => false

theorem pieces_concat (args : List Expr) (state : CallState) :
    (call (.builtin .concat) args state).pieces = (args.map pieces).flatten := by
  rw [pieces, if_pos rfl, piecesOf_eq_flatten]

/-- What is no concatenation is its only piece. -/
theorem pieces_of_not_isConcat (h : e.isConcat = false) : e.pieces = [e] := by
  cases e with
  | call f args state =>
    have hf : ¬ f = .builtin .concat := by simpa [isConcat] using h
    rw [pieces, if_neg hf]
  | literal v => rfl
  | column ref => rfl
  | field f => rfl
  | subquery q => rfl

/-- What holds of everything but concatenations, and of a concatenation whenever it holds of its
    arguments, holds of all expressions. -/
theorem concat_induction {motive : Expr → Prop} (other : ∀ e, e.isConcat = false → motive e)
    (concat : ∀ args state, (∀ arg ∈ args, motive arg) →
      motive (call (.builtin .concat) args state)) (e : Expr) : motive e := by
  induction e using Expr.ind with
  | call f args state ih =>
    by_cases hf : f = .builtin .concat
    · subst hf
      exact concat args state ih
    · exact other _ (by simpa [isConcat] using hf)
  | literal v => exact other _ rfl
  | column ref => exact other _ rfl
  | field f => exact other _ rfl
  | subquery q => exact other _ rfl

/-! ## §4. The length of a concatenation -/

/-- There is always room for a concatenation. -/
theorem exists_settle_concat (args : List Expr) (before : CallState) :
    ∃ state, settle (.builtin .concat) args before = .ok state :=
  ⟨_, rfl⟩

theorem maxLength_of_settle_concat (h : settle (.builtin .concat) args (.fresh (.builtin .concat)) =
    .ok state) :
    state.attributes.maxLength =
      min maxFieldLength (args.map fun arg => arg.attributes.maxLength).sum := by
  have hextent := congrArg Prod.fst (extent_of_settle h)
  have htotal := Attributes.totalLength_eq (attributesOf args)
  rw [attributesOf, List.map_map] at htotal
  exact hextent.trans htotal

/-- Cutting off lengths and then their sum is cutting off the whole sum. -/
theorem min_sum_flatten {f : Expr → List Nat} {es : List Expr}
    (h : ∀ e ∈ es, min maxFieldLength e.attributes.maxLength = min maxFieldLength (f e).sum) :
    min maxFieldLength (es.map fun e => e.attributes.maxLength).sum =
      min maxFieldLength ((es.map f).flatten).sum := by
  induction es with
  | nil => rfl
  | cons e es ih =>
    have he := h e List.mem_cons_self
    have hes := ih fun x hx => h x (List.mem_cons_of_mem e hx)
    rw [List.map_cons, List.sum_cons, List.map_cons, List.flatten_cons, List.sum_append]
    omega

/-- Cut off at the greatest length, an expression is as long as its pieces together. -/
theorem Settled.min_maxLength (h : e.Settled) :
    min maxFieldLength e.attributes.maxLength =
      min maxFieldLength (e.pieces.map fun x => x.attributes.maxLength).sum := by
  induction e using concat_induction with
  | other e hother => simp [pieces_of_not_isConcat hother]
  | concat args state ih =>
    cases h with
    | call hargs hsettle =>
      have hsum := min_sum_flatten fun arg harg => ih arg harg (hargs arg harg)
      rw [attributes, maxLength_of_settle_concat hsettle, hsum, pieces_concat, List.map_flatten,
        List.map_map]
      exact Nat.min_eq_right (Nat.min_le_left _ _)

/-- The length of nested concatenations is that of their pieces together, up to the greatest length. -/
theorem Settled.maxLength_concat (h : e.Settled) (hconcat : e.isConcat = true) :
    e.attributes.maxLength =
      min maxFieldLength (e.pieces.map fun x => x.attributes.maxLength).sum := by
  rw [← h.min_maxLength]
  cases h with
  | @call f args state hargs hsettle =>
    obtain rfl : f = .builtin .concat := by simpa [isConcat] using hconcat
    rw [attributes, maxLength_of_settle_concat hsettle]
    exact (Nat.min_eq_right (Nat.min_le_left _ _)).symm
  | literal v => cases hconcat
  | field f => cases hconcat
  | subquery q => cases hconcat

/-! ## §5. Regrouping -/

/-- A relation that goes from concatenations to concatenations, over their arguments, and from other
    expressions to others. -/
structure KeepsConcat (R : Expr → Expr → Prop) : Prop where
  isConcat {e b : Expr} : R e b → b.isConcat = e.isConcat
  args {args : List Expr} {state : CallState} {b : Expr} :
    R (.call (.builtin .concat) args state) b →
      ∃ bs settled, b = .call (.builtin .concat) bs settled ∧ List.Forall₂ R args bs

/-- Such a relation goes piece by piece. -/
theorem KeepsConcat.pieces {R : Expr → Expr → Prop} (hR : KeepsConcat R) (h : R e b) :
    List.Forall₂ R e.pieces b.pieces := by
  induction e using concat_induction generalizing b with
  | other e hother =>
    have hb : b.isConcat = false := (hR.isConcat h).trans hother
    rw [pieces_of_not_isConcat hother, pieces_of_not_isConcat hb]
    exact .cons h .nil
  | concat args state ih =>
    obtain ⟨bs, settled, rfl, hargs⟩ := hR.args h
    rw [pieces_concat, pieces_concat]
    clear h
    induction hargs with
    | nil => exact .nil
    | @cons arg b args bs hb _ ihargs =>
      rw [List.map_cons, List.map_cons, List.flatten_cons, List.flatten_cons]
      exact List.rel_append (ih arg List.mem_cons_self hb)
        (ihargs fun x hx => ih x (List.mem_cons_of_mem arg hx))

theorem keepsConcat_bind (resolve : ColumnRef → Except Failure BoundColumn) :
    KeepsConcat fun e b => bind resolve e = .ok b where
  isConcat h := by
    refine bind_induction (motive := fun e b => b.isConcat = e.isConcat)
      ?literal ?column ?field ?call ?subquery h
    case literal => exact fun _ => rfl
    case column => exact fun _ _ _ => rfl
    case field => exact fun _ => rfl
    case call => exact fun _ _ _ _ _ _ _ => rfl
    case subquery => exact fun _ => rfl
  args h := by
    rw [bind_eq_bindWith] at h
    obtain ⟨bs, settled, hargs, _, rfl⟩ := bindWith_call_eq_ok_iff.mp h
    simp only [bind_eq_bindWith]
    exact ⟨bs, settled, rfl, bindAllWith_eq_ok_iff.mp hargs⟩

theorem isConcat_bare (e : Expr) : e.bare.isConcat = e.isConcat := by
  cases e with
  | call f args state => rw [bare_call, apply, isConcat, isConcat]
  | literal v => rfl
  | column ref => rfl
  | field f => rfl
  | subquery q => rfl

theorem keepsConcat_fix (good : Column → Prop) :
    KeepsConcat fun e b => e.BottomUp good ∧ fix e = (b, none) where
  isConcat {e b} h := by
    have hbare : b.bare = e.bare := by
      rw [← bare_fix e, h.2]
    rw [← isConcat_bare b, hbare, isConcat_bare]
  args {args state b} h := by
    obtain ⟨hbottomUp, hb⟩ := h
    cases hbottomUp with
    | new harity hargs =>
      rcases fix_new harity with ⟨bs, failure, _, hfix⟩ | ⟨bs, settled, hbs, _, hfix⟩
      · rw [hb] at hfix
        cases hfix
      · rw [hb] at hfix
        obtain ⟨rfl, _⟩ := Prod.mk.inj hfix
        exact ⟨bs, settled, rfl, (List.forall₂_and_left _ _).mpr ⟨hargs, fixAll_eq_iff.mp hbs⟩⟩
    | settled harity hargs hfixed hsettle =>
      -- what is fixed is left alone, and so are its arguments
      have hcall : (call (.builtin .concat) args state).isFixed = true := (of_settle hsettle).1
      rw [fix_of_isFixed hcall] at hb
      obtain ⟨rfl, _⟩ := Prod.mk.inj hb
      refine ⟨args, state, rfl, List.forall₂_same.mpr fun arg harg => ?_⟩
      exact ⟨hargs arg harg, fix_of_isFixed (hfixed arg harg)⟩

/-- Two concatenations that go piece by piece to settled ones, with the same pieces, are equally long
    afterwards. -/
theorem KeepsConcat.maxLength_eq {R : Expr → Expr → Prop} (hR : KeepsConcat R)
    (hunique : Relator.RightUnique R) (he : e.isConcat = true) (he' : e'.isConcat = true)
    (h : e.pieces = e'.pieces) (hb : R e b) (hb' : R e' b') (hsettled : b.Settled)
    (hsettled' : b'.Settled) : b'.attributes.maxLength = b.attributes.maxLength := by
  have hpieces : List.Forall₂ R e.pieces b'.pieces := h ▸ hR.pieces hb'
  have hsame : b'.pieces = b.pieces := List.right_unique_forall₂' hunique hpieces (hR.pieces hb)
  rw [hsettled.maxLength_concat ((hR.isConcat hb).trans he),
    hsettled'.maxLength_concat ((hR.isConcat hb').trans he'), hsame]

theorem exists_bindAllWith {es : List Expr} (h : ∀ e ∈ es, ∃ b, bindWith resolve e = .ok b) :
    ∃ bs, bindAllWith resolve es = .ok bs := by
  induction es with
  | nil => exact ⟨[], rfl⟩
  | cons e es ih =>
    obtain ⟨b, hb⟩ := h e List.mem_cons_self
    obtain ⟨bs, hbs⟩ := ih fun x hx => h x (List.mem_cons_of_mem e hx)
    exact ⟨b :: bs, by rw [bindAllWith, hb, hbs]⟩

/-- What has pieces that can be bound can be bound. -/
theorem exists_bind_of_pieces (h : ∀ x ∈ e.pieces, ∃ b, bind resolve x = .ok b) :
    ∃ b, bind resolve e = .ok b := by
  induction e using concat_induction with
  | other e hother =>
    rw [pieces_of_not_isConcat hother] at h
    exact h e List.mem_cons_self
  | concat args state ih =>
    have hargs : ∀ arg ∈ args, ∃ b, bindWith resolve arg = .ok b := by
      intro arg harg
      rw [← bind_eq_bindWith]
      refine ih arg harg fun x hx => h x ?_
      rw [pieces_concat]
      exact List.mem_flatten_of_mem (List.mem_map_of_mem harg) hx
    obtain ⟨bs, hbs⟩ := exists_bindAllWith hargs
    obtain ⟨settled, hsettle⟩ := exists_settle_concat bs (.fresh (.builtin .concat))
    rw [bind_eq_bindWith]
    exact ⟨_, bindWith_call_eq_ok_iff.mpr ⟨bs, settled, hbs, hsettle, rfl⟩⟩

/-- The columns of an expression are those of its pieces. -/
theorem columns_eq_flatMap_pieces (e : Expr) : e.columns = e.pieces.flatMap columns := by
  induction e using concat_induction with
  | other e hother => simp [pieces_of_not_isConcat hother]
  | concat args state ih =>
    rw [columns, columnsOf_eq_flatMap, pieces_concat, ← List.flatMap_def, List.flatMap_assoc]
    exact List.flatMap_congr ih

/-- What is fixed is settled. -/
theorem BottomUp.settled_of_isFixed {good : Column → Prop} (h : e.BottomUp good)
    (hfixed : e.isFixed = true) : e.Settled := by
  induction h with
  | literal v => exact .literal v
  | column ref => cases hfixed
  | @field f _ => exact .field f
  | subquery q => exact .subquery q
  | new _ _ _ => cases hfixed
  | settled _ _ hargs hsettle ih => exact .call (fun arg harg => ih arg harg (hargs arg harg)) hsettle

theorem maxLength_bind_of_pieces_eq (he : e.isConcat = true) (he' : e'.isConcat = true)
    (h : e.pieces = e'.pieces) (hb : bind resolve e = .ok b) :
    ∃ b', bind resolve e' = .ok b' ∧ b'.attributes.maxLength = b.attributes.maxLength := by
  have hR := keepsConcat_bind resolve
  have hbound : ∀ x ∈ e'.pieces, ∃ c, bind resolve x = .ok c := by
    intro x hx
    rw [← h] at hx
    obtain ⟨c, _, hc⟩ := exists_of_mem_right (hR.pieces hb).flip hx
    exact ⟨c, hc⟩
  obtain ⟨b', hb'⟩ := exists_bind_of_pieces hbound
  refine ⟨b', hb', hR.maxLength_eq ?_ he he' h hb hb' (settled_of_bind hb) (settled_of_bind hb')⟩
  intro x c d hc hd
  exact Except.ok.inj (hc.symm.trans hd)

theorem maxLength_fix_of_pieces_eq {good : Column → Prop} (he : e.isConcat = true)
    (he' : e'.isConcat = true) (h : e.pieces = e'.pieces) (hformed : e.Formed good)
    (hformed' : e'.Formed good) (hb : fix e = (b, none)) :
    ∃ b', fix e' = (b', none) ∧ b'.attributes.maxLength = b.attributes.maxLength := by
  have hbottomUp := hformed.bottomUp
  have hbottomUp' := hformed'.bottomUp
  have hsettled : ∀ {x c : Expr}, x.BottomUp good → fix x = (c, none) → c.Settled := by
    intro x c hx hc
    have hleft := hx.fix
    rw [hc] at hleft
    exact hleft.settled_of_isFixed (isFixed_of_fix hc)
  -- the columns are the same ones, and there are none
  have hnone : (fix e').2 = none := by
    rw [hbottomUp'.snd_fix, columns_eq_flatMap_pieces, ← h, ← columns_eq_flatMap_pieces,
      ← hbottomUp.snd_fix, hb]
  have hb' : fix e' = ((fix e').1, none) := Prod.ext rfl hnone
  refine ⟨_, hb', (keepsConcat_fix good).maxLength_eq ?_ he he' h ⟨hbottomUp, hb⟩ ⟨hbottomUp', hb'⟩
    (hsettled hbottomUp hb) (hsettled hbottomUp' hb')⟩
  intro x c d hc hd
  exact congrArg Prod.fst (hc.2.symm.trans hd.2)

/-! ## §6. All rules -/

open Attributes in
/-- The real and the decimal rule come to greatest values over the arguments, whatever the arguments
    are and wherever the first scale stands that is not fixed. The text rule of a concatenation comes to
    the sum of the lengths. So a settled concatenation is as long as its pieces together, and grouping
    the same pieces in another way changes neither whether a concatenation can be bound or fixed nor
    how long it is. -/
theorem lengths_of_arguments :
    (∀ (args : List Attributes) (a : Attributes), withReal args a =
      if args.all fun arg => arg.scale.isFixed then
        { a with
          maxLength := min maxFieldLength (greatest digitsAfter args + greatest digitsBefore args)
          scale := .fixed (greatest digitsAfter args) }
      else { a with maxLength := greatest maxLength args, scale := .notFixed }) ∧
    (∀ a : Attributes, withReal [] a = { a with maxLength := 0, scale := .fixed 0 }) ∧
    (∀ (args : List Attributes) (a : Attributes), withDecimal args a = .ok { a with
      maxLength := greatest (·.scale.fixedPoint) args +
        greatest (fun arg => min arg.maxLength decimalMaxPrecision - arg.scale.fixedPoint) args
      scale := .fixed (greatest (·.scale.fixedPoint) args) }) ∧
    (∀ (args : List Expr) (a : Attributes), inferText (.builtin .concat) args a = { a with
      maxLength := min maxFieldLength (args.map fun arg => arg.attributes.maxLength).sum
      scale := .notFixed, fieldType := .varstring }) ∧
    (∀ e : Expr, e.Settled → e.isConcat = true → e.attributes.maxLength =
      min maxFieldLength (e.pieces.map fun x => x.attributes.maxLength).sum) ∧
    ∀ e e' b : Expr, e.isConcat = true → e'.isConcat = true → e.pieces = e'.pieces →
      (∀ resolve, bind resolve e = .ok b → ∃ b', bind resolve e' = .ok b' ∧
        b'.attributes.maxLength = b.attributes.maxLength) ∧
      ∀ good, e.Formed good → e'.Formed good → fix e = (b, none) → ∃ b', fix e' = (b', none) ∧
        b'.attributes.maxLength = b.attributes.maxLength := by
  refine ⟨withReal_eq, fun _ => rfl, withDecimal_eq, ?text, fun e h hconcat => h.maxLength_concat hconcat,
    ?regroup⟩
  case text =>
    intro args a
    rw [inferText, totalLength_eq, attributesOf, List.map_map]
    rfl
  case regroup =>
    intro e e' b he he' h
    constructor
    · intro resolve hb
      exact maxLength_bind_of_pieces_eq he he' h hb
    · intro good hformed hformed' hb
      exact maxLength_fix_of_pieces_eq he he' h hformed hformed' hb

end Expr

namespace Plan.Shop

/-- `concat(concat(wide, 'ab'), 1.5)`. -/
def leftNested : Expr :=
  .apply (.builtin .concat) [.apply (.builtin .concat) [.field wide, .literal (.string "ab")],
    .literal (.decimal "1.5")]

/-- `concat(wide, concat('ab', 1.5))`. -/
def rightNested : Expr :=
  .apply (.builtin .concat) [.field wide,
    .apply (.builtin .concat) [.literal (.string "ab"), .literal (.decimal "1.5")]]

theorem formed_concat {good : Column → Prop} {a b : Expr} (ha : a.Formed good) (hb : b.Formed good) :
    (Expr.apply (.builtin .concat) [a, b]).Formed good := by
  refine .builtin rfl ?_
  intro arg harg
  rcases List.mem_cons.mp harg with rfl | harg
  · exact ha
  · rw [List.mem_singleton.mp harg]
    exact hb

theorem formed_nested :
    (leftNested.Formed fun _ => True) ∧ rightNested.Formed fun _ => True := by
  have hwide : (Expr.field wide).Formed fun _ => True := .field trivial
  constructor
  · exact formed_concat (formed_concat hwide (.literal _)) (.literal _)
  · exact formed_concat hwide (formed_concat (.literal _) (.literal _))

/-- In the first nest the greatest length is reached inside, and in the second one outside. -/
theorem lengths_of_arguments_nested :
    leftNested.pieces = rightNested.pieces ∧
      (∃ b b', leftNested.fix = (b, none) ∧ rightNested.fix = (b', none) ∧
        b.attributes.maxLength = maxFieldLength ∧ b'.attributes.maxLength = maxFieldLength) ∧
      ∃ b b', tree.bind 2 leftNested = .ok b ∧ tree.bind 2 rightNested = .ok b' ∧
        b.Settled ∧ b.isConcat = true ∧
        min maxFieldLength (b.pieces.map fun x => x.attributes.maxLength).sum = maxFieldLength ∧
        b'.attributes.maxLength = maxFieldLength := by
  obtain ⟨_, _, _, _, hlength, hregroup⟩ := Expr.lengths_of_arguments
  have hpieces : leftNested.pieces = rightNested.pieces := rfl
  refine ⟨hpieces, ?fixed, ?bound⟩
  case fixed =>
    have hrun : leftNested.fix.2 = none := by decide +kernel
    have hmax : leftNested.fix.1.attributes.maxLength = maxFieldLength := by decide +kernel
    have hfix : leftNested.fix = (leftNested.fix.1, none) := Prod.ext rfl hrun
    obtain ⟨_, hafter⟩ := hregroup leftNested rightNested leftNested.fix.1 rfl rfl hpieces
    obtain ⟨b', hb', heq⟩ := hafter _ formed_nested.1 formed_nested.2 hfix
    exact ⟨_, b', hfix, hb', hmax, heq.trans hmax⟩
  case bound =>
    have hrun : (tree.bind 2 leftNested).map (fun b => (b.isConcat, b.attributes.maxLength)) =
        .ok (true, maxFieldLength) := by decide +kernel
    obtain ⟨b, hb, hseen⟩ := Result.exists_of_map hrun
    obtain ⟨hconcat, hmax⟩ := Prod.mk.inj hseen
    have hsettled := Expr.settled_of_bind hb
    obtain ⟨hafter, _⟩ := hregroup leftNested rightNested b rfl rfl hpieces
    obtain ⟨b', hb', heq⟩ := hafter _ hb
    exact ⟨b, b', hb, hb', hsettled, hconcat, (hlength b hsettled hconcat).symm.trans hmax,
      heq.trans hmax⟩

end Plan.Shop

end PushDown
