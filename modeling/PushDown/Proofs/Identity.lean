import PushDown.Proofs.Binding
import PushDown.Proofs.Ownership
import PushDown.Proofs.Reachable
import PushDown.Proofs.Reading
import PushDown.Proofs.Resolution

/-! # What identity keeps apart

    A record keeps one expression of each identity, and identity is read off
    the label. Two questions follow.

    Does identity ever merge different expressions? Not in the ordinary language
    of columns, whole numbers, texts, `NULL` and built-in functions, as long as
    no name has a backquote in it: what is alike is bound to the same expression
    (`eq_of_alike`).

    Do expressions that are alike have one hash code? They do when both are
    legible (`hashCode_eq_of_alike`). Variables can have any name, so arguments
    can be divided in two ways with one text, and then the codes differ
    (`hashCode_ne_of_variables`).
-/

namespace PushDown

namespace Expr

open Text (inWord opening)

/-! ## §1. Constants -/

theorem toList_text_ofNat (n : Nat) : (Value.int (.ofNat n)).text.toList = Nat.toDigits 10 n :=
  Nat.toList_repr

theorem toList_text_negSucc (n : Nat) :
    (Value.int (.negSucc n)).text.toList = '-' :: Nat.toDigits 10 (n + 1) := by
  have htext : (Value.int (.negSucc n)).text = "-" ++ (n + 1).repr := rfl
  rw [htext, String.toList_append, Nat.toList_repr]
  rfl

/-- A whole number is written with a minus and digits. -/
theorem of_mem_text_int {n : Int} {c : Char} (h : c ∈ (Value.int n).text.toList) :
    c = '-' ∨ c.isDigit = true := by
  have hdigits : ∀ {k : Nat}, c ∈ Nat.toDigits 10 k → c.isDigit = true :=
    Nat.isDigit_of_mem_toDigits (by decide) (by decide)
  cases n with
  | ofNat n =>
    rw [toList_text_ofNat] at h
    exact .inr (hdigits h)
  | negSucc n =>
    rw [toList_text_negSucc] at h
    exact (List.mem_cons.mp h).imp id hdigits

/-- No other character occurs in a whole number. -/
theorem not_mem_text_int {c : Char} (hminus : c ≠ '-') (hdigit : c.isDigit = false) (n : Int) :
    c ∉ (Value.int n).text.toList := by
  intro hmem
  rcases of_mem_text_int hmem with h | h
  · exact hminus h
  · rw [hdigit] at h
    cases h

theorem text_int_ne_nil (n : Int) : (Value.int n).text.toList ≠ [] := by
  cases n with
  | ofNat n =>
    rw [toList_text_ofNat]
    exact Nat.toDigits_ne_nil
  | negSucc n =>
    rw [toList_text_negSucc]
    exact List.cons_ne_nil _ _

theorem isConstantWord_int (n : Int) : IsConstantWord (Value.int n).text.toList := by
  -- a character that is neither a digit nor a minus is not in it
  have hnot : ∀ c : Char, c ≠ '-' → c.isDigit = false → c ∉ (Value.int n).text.toList :=
    fun c hminus hdigit => not_mem_text_int hminus hdigit n
  refine ⟨⟨text_int_ne_nil n, fun c hc => ?_⟩, fun hhead => ?_, fun hword => ?_, fun hword => ?_⟩
  · have hne : ∀ d : Char, d ≠ '-' → d.isDigit = false → c ≠ d := by
      rintro d hminus hdigit rfl
      exact hnot c hminus hdigit hc
    simp [inWord, hne ' ' (by decide) rfl, hne ',' (by decide) rfl, hne '(' (by decide) rfl,
      hne ')' (by decide) rfl, hne '\'' (by decide) rfl, hne '`' (by decide) rfl]
  · exact hnot '@' (by decide) rfl (List.mem_of_mem_head? hhead)
  · exact hnot 'N' (by decide) rfl (hword ▸ by decide)
  · exact hnot 'S' (by decide) rfl (hword ▸ by decide)

/-- Different whole numbers have different texts. -/
theorem text_int_injective {m n : Int} (h : (Value.int m).text = (Value.int n).text) : m = n := by
  have htext := congrArg String.toList h
  have hdigits : ∀ {k l : Nat}, Nat.toDigits 10 k = Nat.toDigits 10 l → k = l := by
    intro k l hkl
    rw [← Nat.ofDigitChars_ten_toDigits (n := k), hkl, Nat.ofDigitChars_ten_toDigits]
  -- the text of a negative number begins with a minus, which is no digit
  have hminus : ∀ k l, Nat.toDigits 10 k ≠ '-' :: Nat.toDigits 10 l := by
    intro k l hkl
    have hmem : '-' ∈ Nat.toDigits 10 k := hkl ▸ List.mem_cons_self
    exact absurd (Nat.isDigit_of_mem_toDigits (by decide) (by decide) hmem) (by decide)
  cases m with
  | ofNat m =>
    cases n with
    | ofNat n =>
      rw [toList_text_ofNat, toList_text_ofNat] at htext
      rw [hdigits htext]
    | negSucc n =>
      rw [toList_text_ofNat, toList_text_negSucc] at htext
      exact absurd htext (hminus _ _)
  | negSucc m =>
    cases n with
    | ofNat n =>
      rw [toList_text_ofNat, toList_text_negSucc] at htext
      exact absurd htext.symm (hminus _ _)
    | negSucc n =>
      rw [toList_text_negSucc, toList_text_negSucc] at htext
      rw [Nat.succ.inj (hdigits (List.cons.inj htext).2)]

theorem text_string_injective {s t : String} (h : (Value.string s).text = (Value.string t).text) :
    s = t := by
  have htext : (Value.quote s).toList = (Value.quote t).toList := congrArg String.toList h
  rw [Value.toList_quote, Value.toList_quote] at htext
  obtain ⟨hchars, _⟩ := Value.doubleQuotes_append_inj (by simp) (by simp) (List.cons.inj htext).2
  exact String.toList_inj.mp hchars

/-- `NULL`, a whole number or a text. -/
def IsOrdinaryConstant : Value → Prop
  | .null | .int _ | .string _ => True
  | .real _ | .decimal _ => False

theorem legible_of_isOrdinaryConstant {v : Value} (h : IsOrdinaryConstant v) :
    (literal v).Legible := by
  cases v with
  | null => exact .constant (by decide)
  | int n => exact .constant (isConstantWord_int n)
  | string t => exact .text t
  | real x => cases h
  | decimal t => cases h

/-- Different ordinary constants have different texts. -/
theorem eq_of_text {v w : Value} (hv : IsOrdinaryConstant v) (hw : IsOrdinaryConstant w)
    (h : v.text = w.text) : v = w := by
  have hquote : ∀ t, '\'' ∈ (Value.string t).text.toList := by simp [Value.text, Value.toList_quote]
  have hstring : ∀ t, Value.null.text ≠ (Value.string t).text := fun t h =>
    absurd (hquote t) (h ▸ by decide)
  have hint : ∀ n, Value.null.text ≠ (Value.int n).text := fun n h =>
    not_mem_text_int (by decide) rfl n (h ▸ by decide : 'N' ∈ (Value.int n).text.toList)
  have hintString : ∀ n t, (Value.int n).text ≠ (Value.string t).text := fun n t h =>
    not_mem_text_int (by decide) rfl n (h ▸ hquote t)
  cases v with
  | null =>
    cases w with
    | null => rfl
    | int n => exact absurd h (hint n)
    | string t => exact absurd h (hstring t)
    | real x => cases hw
    | decimal t => cases hw
  | int m =>
    cases w with
    | null => exact absurd h.symm (hint m)
    | int n => rw [text_int_injective h]
    | string t => exact absurd h (hintString m t)
    | real x => cases hw
    | decimal t => cases hw
  | string s =>
    cases w with
    | null => exact absurd h.symm (hstring s)
    | int n => exact absurd h.symm (hintString n s)
    | string t => rw [text_string_injective h]
    | real x => cases hw
    | decimal t => cases hw
  | real x => cases hv
  | decimal t => cases hv

/-! ## §2. The ordinary language -/

/-- An expression made of columns, ordinary constants and built-in functions, each with a count of
    arguments that it accepts. Variables are left out. -/
inductive Ordinary : Expr → Prop
  | column (ref : ColumnRef) : Ordinary (.column ref)
  | literal {v : Value} : IsOrdinaryConstant v → Ordinary (.literal v)
  | call {f : Builtin} {args : List Expr} {state : CallState} :
      f ≠ .userVar → f ≠ .sysVar → f.arity.accepts args.length = true →
      (∀ arg ∈ args, Ordinary arg) → Ordinary (.call (.builtin f) args state)

/-- What ordinary expressions are bound to: their columns are resolved and their calls are settled. -/
inductive OrdinaryBound (resolve : ColumnRef → Except Failure BoundColumn) : Expr → Prop
  | field {ref : ColumnRef} {f : BoundColumn} :
      resolve ref = .ok f → OrdinaryBound resolve (.field f)
  | literal {v : Value} : IsOrdinaryConstant v → OrdinaryBound resolve (.literal v)
  | call {f : Builtin} {args : List Expr} {state : CallState} :
      f ≠ .userVar → f ≠ .sysVar → f.arity.accepts args.length = true →
      (∀ arg ∈ args, OrdinaryBound resolve arg) →
      settle (.builtin f) args (.fresh (.builtin f)) = .ok state →
      OrdinaryBound resolve (.call (.builtin f) args state)

variable {resolve : ColumnRef → Except Failure BoundColumn}

theorem Ordinary.bound {x b : Expr} (hx : x.Ordinary) (h : Expr.bind resolve x = .ok b) :
    b.OrdinaryBound resolve := by
  refine bind_induction (motive := fun x b => x.Ordinary → b.OrdinaryBound resolve)
    ?literal ?column ?field ?call ?subquery h hx
  case literal =>
    intro v hv
    cases hv with
    | literal hv => exact .literal hv
  case column => exact fun ref f hresolve _ => .field hresolve
  case field => exact fun f hf => nomatch hf
  case subquery => exact fun q hq => nomatch hq
  case call =>
    intro f args bound state settled hargs hsettle hcall
    cases hcall with
    | call huser hsys harity hordinary =>
      refine .call huser hsys (hargs.length_eq ▸ harity) (fun b hb => ?_) hsettle
      obtain ⟨e, he, hbound⟩ := exists_of_mem_right hargs hb
      exact hbound (hordinary e he)

/-- Bound ordinary expressions are legible, if no name has a backquote in it. -/
theorem OrdinaryBound.legible
    (hnames : ∀ ref f, resolve ref = .ok f → '`' ∉ f.tableName.toList ∧ '`' ∉ f.column.name.toList)
    {b : Expr} (hb : b.OrdinaryBound resolve) : b.Legible := by
  induction hb with
  | field hresolve => exact .field (hnames _ _ hresolve).1 (hnames _ _ hresolve).2
  | literal hv => exact legible_of_isOrdinaryConstant hv
  | call huser hsys harity _ _ ih =>
    refine .call harity (fun hvariable => ?_) ih
    rcases hvariable with h | h
    · exact absurd (Func.builtin.inj h) huser
    · exact absurd (Func.builtin.inj h) hsys

/-- Parallel ordinary expressions that are bound in one scope are the same, if the columns of the scope
    can be told by their texts. -/
theorem OrdinaryBound.eq_of_parallel
    (hfields : ∀ ref ref' f g, resolve ref = .ok f → resolve ref' = .ok g → f.text = g.text → f = g)
    {b c : Expr} (hb : b.OrdinaryBound resolve) (hc : c.OrdinaryBound resolve)
    (h : Parallel b c) : b = c := by
  induction hb generalizing c with
  | @field ref f hf =>
    cases h with
    | leaf _ hleaf hlabel =>
      cases hc with
      | field hg => rw [hfields _ _ _ _ hf hg hlabel]
      | literal hv => exact absurd hlabel.symm (text_ne_boundColumn (legible_of_isOrdinaryConstant hv) f)
      | call => cases hleaf
  | @literal v hv =>
    cases h with
    | leaf _ hleaf hlabel =>
      cases hc with
      | @field ref f hf => exact absurd hlabel (text_ne_boundColumn (legible_of_isOrdinaryConstant hv) f)
      | literal hw => rw [eq_of_text hv hw hlabel]
      | call => cases hleaf
  | @call f args state _ _ _ _ hsettle ih =>
    cases h with
    | leaf hleaf => cases hleaf
    | call hname hargs =>
      cases hc with
      | call _ _ _ hbrgs hsettle' =>
        obtain rfl := Builtin.name_injective hname
        have heq := map_eq_of_forall₂ (g := id) hargs fun a ha b hb hab =>
          ih a ha (hbrgs b hb) hab
        rw [List.map_id, List.map_id] at heq
        subst heq
        -- what is inferred about a call follows from its function and its arguments
        rw [hsettle] at hsettle'
        rw [Except.ok.inj hsettle']

end Expr

/-! ## §3. No two expressions are merged -/

/-- No name of a table or a column in the scope has a backquote in it. -/
def PlanTree.PlainNames (tree : PlanTree) (scope : NodeId) : Prop :=
  ∀ leaf ∈ tree.leavesUnder scope, '`' ∉ leaf.2.visibleName.toList ∧
    ∀ column ∈ leaf.2.table.columns, '`' ∉ column.name.toList

instance (tree : PlanTree) (scope : NodeId) : Decidable (tree.PlainNames scope) :=
  inferInstanceAs (Decidable (∀ leaf ∈ _, _))

namespace PlanTree

variable {tree : PlanTree} {scope : NodeId}

theorem PlainNames.of_resolve (h : tree.PlainNames scope) {ref : ColumnRef} {f : BoundColumn}
    (hf : tree.resolve scope ref = .ok f) :
    '`' ∉ f.tableName.toList ∧ '`' ∉ f.column.name.toList := by
  obtain ⟨leaf, hleaf, htable, hcolumn⟩ := exists_of_resolve hf
  obtain ⟨hvisible, hcolumns⟩ := h _ hleaf
  exact ⟨htable ▸ hvisible, hcolumns _ hcolumn⟩

/-- In one scope with plain names, two columns with one text are the same. -/
theorem PlainNames.eq_of_text (h : tree.PlainNames scope) {ref ref' : ColumnRef}
    {f g : BoundColumn} (hf : tree.resolve scope ref = .ok f)
    (hg : tree.resolve scope ref' = .ok g) (htext : f.text = g.text) : f = g := by
  have hlegible : ∀ {ref : ColumnRef} {f : BoundColumn}, tree.resolve scope ref = .ok f →
      (Expr.field f).Legible := fun hf => .field (h.of_resolve hf).1 (h.of_resolve hf).2
  obtain ⟨htable, hcolumn⟩ := Expr.names_eq_of_text (hlegible hf) (hlegible hg) htext
  exact eq_of_resolve hf hg htable hcolumn

/-- Two ordinary expressions that are bound in one scope with plain names are bound to the same
    expression if they are bound to expressions that are alike: one tree, and all that is inferred
    about it. -/
theorem eq_of_alike (hnames : tree.PlainNames scope) {x y b c : Expr} (hx : x.Ordinary)
    (hy : y.Ordinary) (hb : tree.bind scope x = .ok b) (hc : tree.bind scope y = .ok c)
    (h : b.alike c = true) : b = c := by
  have hbBound := hx.bound hb
  have hcBound := hy.bound hc
  have hlegible : ∀ {e : Expr}, e.OrdinaryBound (tree.resolve scope) → e.Legible :=
    Expr.OrdinaryBound.legible fun ref f hf => hnames.of_resolve hf
  have hparallel := (hlegible hbBound).parallel (hlegible hcBound) (Expr.label_eq_of_alike h)
  exact hbBound.eq_of_parallel (fun ref ref' f g hf hg => hnames.eq_of_text hf hg) hcBound hparallel

end PlanTree

namespace Plan.Shop

/-- `amount > 5`, unbound. -/
def amountAbove : Expr :=
  .gt (.columnNamed "amount") (.literal (.int 5))

/-- The same with the table named. -/
def ordersAmountAbove : Expr :=
  .gt (.columnNamed "orders.AMOUNT") (.literal (.int 5))

theorem ordinary_above (ref : ColumnRef) : (Expr.gt (.column ref) (.literal (.int 5))).Ordinary := by
  refine .call (by decide) (by decide) rfl (List.forall_mem_cons.mpr ⟨.column ref, ?_⟩)
  exact List.forall_mem_singleton.mpr (.literal trivial)

/-- Two ways to write a column are bound to one column. -/
theorem eq_of_alike_amountAbove :
    tree.PlainNames 2 ∧ amountAbove.Ordinary ∧ ordersAmountAbove.Ordinary ∧ ∃ b c,
      tree.bind 2 amountAbove = .ok b ∧ tree.bind 2 ordersAmountAbove = .ok c ∧
        b.alike c = true ∧ b = c := by
  have hnames : tree.PlainNames 2 := by decide +kernel
  have hrun : ((tree.bind 2 amountAbove) >>= fun b =>
      (tree.bind 2 ordersAmountAbove).map fun c => b.alike c) = .ok true := by decide +kernel
  obtain ⟨b, hb, hrun⟩ := Result.exists_of_bind hrun
  obtain ⟨c, hc, halike⟩ := Result.exists_of_map hrun
  exact ⟨hnames, ordinary_above _, ordinary_above _, b, c, hb, hc, halike,
    PlanTree.eq_of_alike hnames (ordinary_above _) (ordinary_above _) hb hc halike⟩

end Plan.Shop

/-! ## §4. Hash codes -/

namespace Expr

/-- Legible expressions that are alike have one hash code. -/
theorem hashCode_eq_of_alike {a b : Expr} (ha : a.Legible) (hb : b.Legible)
    (h : a.alike b = true) : a.hashCode = b.hashCode :=
  (ha.parallel hb (label_eq_of_alike h)).hashCode_eq

end Expr

namespace Plan.Shop

/-- `(SELECT 1) > 5`, where the subquery refers to `users`. -/
def overUsers : Expr :=
  .gt (.subquery ⟨"SELECT 1", .longlong, .singleton 0⟩) (.literal (.int 5))

/-- The same text, where the subquery refers to `orders`. -/
def overOrders : Expr :=
  .gt (.subquery ⟨"SELECT 1", .longlong, .singleton 1⟩) (.literal (.int 5))

/-- Comparisons of two subqueries with one label have one hash code, whatever these refer to. -/
theorem hashCode_eq_of_alike_subqueries :
    overUsers.Legible ∧ overOrders.Legible ∧ overUsers.alike overOrders = true ∧
      overUsers.hashCode = overOrders.hashCode := by
  have hlegible : ∀ outer : NodeSet, (Expr.gt (.subquery ⟨"SELECT 1", .longlong, outer⟩)
      (.literal (.int 5))).Legible := by
    intro outer
    have hselect : "SELECT ".toList <+: "SELECT 1".toList := by decide
    have hbalanced : Text.Balanced "SELECT 1".toList := by decide
    refine .call rfl (by simp) (List.forall_mem_cons.mpr ⟨?_, ?_⟩)
    · exact .subquery hselect hbalanced
    · exact List.forall_mem_singleton.mpr (.constant (by decide))
  have halike : overUsers.alike overOrders = true := by decide +kernel
  exact ⟨hlegible _, hlegible _, halike,
    Expr.hashCode_eq_of_alike (hlegible _) (hlegible _) halike⟩

/-- A call of `concat` on two variables. -/
def concatVariables (x y : String) : Expr :=
  .apply (.builtin .concat)
    [.apply (.builtin .userVar) [.literal (.string x)],
      .apply (.builtin .userVar) [.literal (.string y)]]

/-- `concat(@a, @b, @c)` with a variable named `a, @b`, and with one named `b, @c`: the text is the
    same, and the hash code is not. -/
theorem hashCode_ne_of_variables :
    (concatVariables "a, @b" "c").alike (concatVariables "a" "b, @c") = true ∧
      (concatVariables "a, @b" "c").hashCode ≠ (concatVariables "a" "b, @c").hashCode := by
  decide +kernel

end Plan.Shop

end PushDown
