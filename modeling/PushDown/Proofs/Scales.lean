import PushDown.Proofs.Forming

/-! # Scales that can be written on the wire

    On the wire a scale is one number, and 31 stands for a scale that is not
    fixed. So a scale keeps its meaning there if it is not fixed or has at most
    30 digits (`Scale.InRange`).

    Types have such a scale by default, and a column stores no other one,
    whatever it is made with (`Column.Declared.scale_inRange`). Inference makes
    none that is out of range, but hands on what it is given. What is left is the
    constant that is written with more digits: it alone decides whether
    everything in an expression is in range (`scales_inRange_iff`).
-/

namespace PushDown

/-! ## §1. Leaves -/

theorem Scale.ofRaw_inRange (raw : Nat) : (ofRaw raw).InRange := by
  unfold ofRaw
  split
  · exact inRange_notFixed
  · next hlt =>
    have hraw : ¬ 31 ≤ raw := hlt
    refine inRange_fixed ?_
    show raw ≤ 30
    omega

theorem FieldType.defaultScale_inRange (t : FieldType) : t.defaultScale.InRange := by
  have hzero : (Scale.fixed 0).InRange := Scale.inRange_fixed (Nat.zero_le _)
  unfold defaultScale
  cases t.domain with
  | int => exact hzero
  | decimal => exact hzero
  | string | real | row =>
    dsimp only
    split
    · exact hzero
    · exact Scale.inRange_notFixed

/-- A column of some type, with whatever length, scale and nullability it was given since. -/
inductive Column.Declared : Column → Prop
  | ofType (name : String) (fieldType : FieldType) : Declared (.ofType name fieldType)
  | withLength {column : Column} (maxLength : Nat) :
      Declared column → Declared (column.withLength maxLength)
  | withScale {column : Column} (scale : Scale) :
      Declared column → Declared (column.withScale scale)
  | notNull {column : Column} : Declared column → Declared column.notNull

theorem Column.Declared.scale_inRange {column : Column} (h : column.Declared) :
    column.scale.InRange := by
  induction h with
  | ofType name fieldType => exact fieldType.defaultScale_inRange
  | withLength maxLength _ ih => exact ih
  | withScale scale _ _ => exact Scale.ofRaw_inRange scale.raw
  | notNull _ ih => exact ih

/-- Only a decimal can be written with a scale that is out of range. -/
theorem Value.scale_inRange {v : Value}
    (h : ∀ text, v = .decimal text → v.scale.InRange) : v.scale.InRange := by
  have hzero : (Scale.fixed 0).InRange := Scale.inRange_fixed (Nat.zero_le _)
  cases v with
  | null => exact hzero
  | int n => exact hzero
  | real x => exact Scale.inRange_notFixed
  | decimal text => exact h text rfl
  | string text => exact Scale.inRange_notFixed

/-! ## §2. Expressions -/

namespace Expr

variable {e : Expr}

/-- The scale of an expression is in range if those of the decimals in it are. -/
theorem BottomUp.scale_inRange (h : e.BottomUp Column.Declared)
    (hdecimals : ∀ text, (Expr.literal (.decimal text)).PartOf e →
      (Value.decimal text).scale.InRange) : e.attributes.scale.InRange := by
  induction h with
  | literal v =>
    refine Value.scale_inRange ?_
    rintro text rfl
    exact hdecimals text .refl
  | column ref => exact Scale.inRange_notFixed
  | field hf => exact hf.scale_inRange
  | subquery q => exact q.fieldType.defaultScale_inRange
  | new _ _ _ => exact Scale.inRange_fixed (Nat.zero_le _)
  | @settled f args state _ _ _ hsettle ih =>
    have hargs : Attributes.ScalesInRange (attributesOf args) := by
      intro a ha
      obtain ⟨arg, harg, rfl⟩ := List.mem_map.mp ha
      exact ih arg harg fun text hpart => hdecimals text (.arg harg hpart)
    have hscale : state.attributes.scale =
        ((extentRule f args).extent (attributesOf args) .unfixed).2 :=
      congrArg Prod.snd (extent_of_settle hsettle)
    show state.attributes.scale.InRange
    rw [hscale]
    refine ExtentRule.scale_extent_inRange (ownInRange_extentRule f args) hargs ?_
    exact Scale.inRange_fixed (Nat.zero_le _)

/-- Everything in an expression that was formed over declared columns has a scale in range, and is read
    back from the wire with the same scale, as soon as the decimals that are written in it have one. -/
theorem scales_inRange_iff {e : Expr} (h : e.Formed Column.Declared) :
    (∀ x : Expr, x.PartOf e → x.attributes.scale.InRange ∧
        Scale.ofRaw x.attributes.scale.raw = x.attributes.scale) ↔
      ∀ text, (literal (.decimal text)).PartOf e → (Value.decimal text).scale.InRange := by
  constructor
  · intro hparts text hpart
    exact (hparts _ hpart).1
  · intro hdecimals x hpart
    have hx := h.bottomUp.of_partOf hpart
    have hscale : x.attributes.scale.InRange :=
      hx.scale_inRange fun text htext => hdecimals text (htext.trans hpart)
    exact ⟨hscale, hscale.ofRaw_raw⟩

end Expr

namespace Plan.Shop

/-- A price with a scale that no fixed-point value has. It is stored as not fixed. -/
def price : BoundColumn :=
  ⟨1, "orders", (Column.ofType "price" .newdecimal).withScale (.fixed 40)⟩

/-- `coalesce(price, 12.50)`. -/
def priceOrDefault : Expr :=
  .apply (.builtin .coalesce) [.field price, .literal (.decimal "12.50")]

/-- The scale that is not fixed becomes the greatest that a fixed-point value can have. -/
theorem scales_inRange_iff_priceOrDefault :
    priceOrDefault.Formed Column.Declared ∧ priceOrDefault.fix.2 = none ∧
      priceOrDefault.fix.1.attributes.scale = .fixed 30 ∧
      ∀ x : Expr, x.PartOf priceOrDefault.fix.1 → x.attributes.scale.InRange ∧
        Scale.ofRaw x.attributes.scale.raw = x.attributes.scale := by
  have hprice : price.column.Declared := .withScale _ (.ofType _ _)
  have hformed : priceOrDefault.Formed Column.Declared :=
    .builtin rfl (List.forall_mem_cons.mpr
      ⟨.field hprice, List.forall_mem_singleton.mpr (.literal _)⟩)
  refine ⟨hformed, by decide +kernel, by decide +kernel, ?_⟩
  refine (Expr.scales_inRange_iff hformed.fixed).mpr fun text hpart => ?_
  have hargs : ∀ arg ∈ priceOrDefault.args, arg.isFixed = true :=
    List.forall_mem_cons.mpr ⟨rfl, List.forall_mem_singleton.mpr rfl⟩
  obtain ⟨state, _, hfix⟩ := @Expr.exists_fix_eq _ (.builtin .coalesce) rfl hargs (.fresh _) rfl
  have hcall : priceOrDefault.fix.1 = .call (.builtin .coalesce) priceOrDefault.args state :=
    congrArg Prod.fst hfix
  rw [hcall] at hpart
  -- the only decimal in it is the second argument
  rcases Expr.partOf_call_iff.mp hpart with heq | ⟨arg, harg, hpart⟩
  · cases heq
  · rcases List.mem_cons.mp harg with rfl | harg
    · cases hpart
    · obtain rfl := List.mem_singleton.mp harg
      cases hpart
      exact Scale.inRange_fixed (by decide +kernel)

/-- `abs(0.0000000000000000000000000000001)`, with 31 digits after the point. -/
def absTiny : Expr :=
  .apply (.builtin .abs) [.literal (.decimal "0.0000000000000000000000000000001")]

/-- A decimal with 31 digits after the point has a scale that is read back from the wire as one that
    is not fixed, and hands it on. -/
theorem scale_out_of_range_absTiny :
    absTiny.Formed Column.Declared ∧ absTiny.fix.2 = none ∧
      absTiny.fix.1.attributes.scale = .fixed 31 ∧ ¬ absTiny.fix.1.attributes.scale.InRange ∧
      Scale.ofRaw absTiny.fix.1.attributes.scale.raw = .notFixed := by
  have hscale : absTiny.fix.1.attributes.scale = .fixed 31 := by decide +kernel
  refine ⟨.builtin rfl (List.forall_mem_singleton.mpr (.literal _)), by decide +kernel, hscale, ?_, ?_⟩
  · intro hrange
    have hle : 31 ≤ 30 := hrange 31 hscale
    omega
  · rw [hscale]
    rfl

end Plan.Shop

end PushDown
