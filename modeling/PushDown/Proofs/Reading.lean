import Mathlib.Data.List.Forall2
import PushDown.Expr.Identity
import PushDown.Proofs.Writing

/-! # Unique reading of labels

    A label says what it is the label of, as far as leaves and names go: two
    legible expressions with one label are parallel (`Legible.parallel`). They
    apply functions of the same names to as many arguments, and have leaves with
    the same texts in the same places.

    The induction is on one of the two. It is carried by a stronger statement,
    about labels with something after them: the labels of legible expressions
    end in the same place. The opening of a text leaves one kind of expression
    for the other side.

    Legible is what nobody can mistake: names have no backquotes, constants are
    texts between quotes or single words, subqueries begin with `SELECT` and
    close their brackets, and every function has an accepted count of arguments.
-/

namespace PushDown.Expr

open Text (Ends opening weave inWord)

/-! ## §1. Legible and parallel expressions -/

/-- A single word that begins no call and is no keyword. -/
def IsConstantWord (w : List Char) : Prop :=
  Text.IsWord w ∧ w.head? ≠ some '@' ∧ w ≠ "NOT".toList ∧ w ≠ "SELECT".toList

instance (w : List Char) : Decidable (IsConstantWord w) :=
  inferInstanceAs (Decidable (_ ∧ _))

/-- An expression whose label cannot be mistaken. -/
inductive Legible : Expr → Prop
  | text (t : String) : Legible (.literal (.string t))
  | constant {v : Value} : IsConstantWord v.text.toList → Legible (.literal v)
  | column {ref : ColumnRef} :
      (∀ table ∈ ref.table, '`' ∉ table.toList) → '`' ∉ ref.column.toList → Legible (.column ref)
  | field {f : BoundColumn} :
      '`' ∉ f.tableName.toList → '`' ∉ f.column.name.toList → Legible (.field f)
  | subquery {q : Subquery} :
      "SELECT ".toList <+: q.label.toList → Text.Balanced q.label.toList → Legible (.subquery q)
  /-- A variable is written with a sigil when its name is a constant text. -/
  | sigil {f : Builtin} {name : String} {state : CallState} :
      f = .userVar ∨ f = .sysVar → (∀ c ∈ name.toList, inWord c = true) →
      name.toList.head? ≠ some '@' → Legible (.call (.builtin f) [.literal (.string name)] state)
  | call {f : Func} {args : List Expr} {state : CallState} :
      f.Readable args.length →
      (f = .builtin .userVar ∨ f = .builtin .sysVar → variableName? args = none) →
      (∀ arg ∈ args, Legible arg) → Legible (.call f args state)

/-- The arguments of a legible call are legible. -/
theorem Legible.args {f : Func} {args : List Expr} {state : CallState}
    (h : (Expr.call f args state).Legible) : ∀ arg ∈ args, arg.Legible := by
  cases h with
  | sigil _ _ _ => exact List.forall_mem_singleton.mpr (.text _)
  | call _ _ hargs => exact hargs

/-- Whether the expression has no arguments to look into. -/
def isLeaf : Expr → Bool
  | call _ _ _ => false
  | literal _ | column _ | field _ | subquery _ => true

/-- The two have the same functions by name, as many arguments, and leaves of the same texts. -/
inductive Parallel : Expr → Expr → Prop
  | leaf {a b : Expr} : a.isLeaf = true → b.isLeaf = true → a.label = b.label → Parallel a b
  | call {f g : Func} {args brgs : List Expr} {state state' : CallState} :
      f.name = g.name → List.Forall₂ Parallel args brgs →
      Parallel (.call f args state) (.call g brgs state')

/-! ## §2. Labels of names and of calls -/

/-- The characters of one name, or of two with a point between them, each between backquotes. -/
def namesText (name : List Char) (second : Option (List Char)) : List Char :=
  '`' :: (name ++ '`' ::
    match second with
    | none => []
    | some second => '.' :: '`' :: (second ++ ['`']))

theorem toList_text_columnRef (ref : ColumnRef) :
    ref.text.toList =
      match ref.table with
      | none => namesText ref.column.toList none
      | some table => namesText table.toList (some ref.column.toList) := by
  unfold ColumnRef.text
  cases ref.table <;> simp [namesText]

theorem toList_text_boundColumn (f : BoundColumn) :
    f.text.toList = namesText f.tableName.toList (some f.column.name.toList) := by
  simp [BoundColumn.text, namesText]

/-- The text of a column tells its names, if they have no backquotes. -/
theorem names_eq_of_text {f g : BoundColumn} (hf : (field f).Legible) (hg : (field g).Legible)
    (h : f.text = g.text) : f.tableName = g.tableName ∧ f.column.name = g.column.name := by
  have htext := congrArg String.toList h
  rw [toList_text_boundColumn, toList_text_boundColumn] at htext
  cases hf with
  | field hftable hfcolumn =>
    cases hg with
    | field hgtable hgcolumn =>
      obtain ⟨htable, hrest⟩ := Text.append_mark_inj hftable hgtable (List.cons.inj htext).2
      obtain ⟨hcolumn, _⟩ := Text.append_mark_inj hfcolumn hgcolumn
        (List.cons.inj (List.cons.inj hrest).2).2
      exact ⟨String.toList_inj.mp htable, String.toList_inj.mp hcolumn⟩

/-- The text of a legible constant begins with no backquote and no bracket. -/
theorem text_ne_cons {v : Value} (h : (literal v).Legible) {c : Char} (hc : c = '`' ∨ c = '(')
    (rest : List Char) : v.text.toList ≠ c :: rest := by
  intro htext
  cases h with
  | text t =>
    rw [Value.text, Value.toList_quote] at htext
    obtain ⟨rfl, _⟩ := List.cons.inj htext
    exact absurd hc (by decide)
  | constant hword =>
    have hmem : c ∈ v.text.toList := htext ▸ List.mem_cons_self
    have hin := hword.1.2 c hmem
    rcases hc with rfl | rfl
    · exact absurd hin (by decide)
    · exact absurd hin (by decide)

/-- The text of a legible constant is that of no column. -/
theorem text_ne_boundColumn {v : Value} (h : (literal v).Legible) (f : BoundColumn) :
    v.text ≠ f.text := by
  intro heq
  have htext := congrArg String.toList heq
  rw [toList_text_boundColumn] at htext
  exact text_ne_cons h (.inl rfl) _ htext

/-- Names without backquotes end at the backquote that closes them. -/
theorem namesText_append_inj {name name' r s : List Char} {second second' : Option (List Char)}
    (hname : '`' ∉ name) (hname' : '`' ∉ name') (hsecond : ∀ n ∈ second, '`' ∉ n)
    (hsecond' : ∀ n ∈ second', '`' ∉ n) (hr : Ends r) (hs : Ends s)
    (h : namesText name second ++ r = namesText name' second' ++ s) :
    namesText name second = namesText name' second' ∧ r = s := by
  -- a point after the first name is no end
  have hpoint : ∀ {rest : List Char}, ¬ Ends ('.' :: rest) := fun hends => by
    have := hends '.' rfl
    simp at this
  simp only [namesText, List.cons_append, List.append_assoc] at h
  obtain ⟨rfl, htail⟩ := Text.append_mark_inj hname hname' (List.cons.inj h).2
  cases second with
  | none =>
    cases second' with
    | none => exact ⟨rfl, htail⟩
    | some second' =>
      obtain rfl : r = _ := htail
      exact absurd hr hpoint
  | some second =>
    cases second' with
    | none =>
      obtain rfl : _ = s := htail
      exact absurd hs hpoint
    | some second' =>
      simp only [List.cons_append, List.append_assoc, List.cons.injEq, true_and] at htail
      obtain ⟨rfl, hrest⟩ := Text.append_mark_inj (hsecond _ rfl) (hsecond' _ rfl) htail
      exact ⟨rfl, hrest⟩

/-- The name of a variable has a say only in the text of a variable. -/
theorem write_variableName? {f : Func} {args : List Expr}
    (h : f = .builtin .userVar ∨ f = .builtin .sysVar → variableName? args = none)
    (texts : List String) : f.write (variableName? args) texts = f.write none texts := by
  cases f with
  | user d => rfl
  | builtin f =>
    by_cases hvariable : f = .userVar ∨ f = .sysVar
    · rw [h (hvariable.imp (congrArg _) (congrArg _))]
    · rw [not_or] at hvariable
      have hshape : ∀ sigil, f.shape ≠ .sigil sigil := by
        cases f <;> simp_all [Builtin.shape]
      simp only [Func.write, Builtin.write]
      split <;> simp_all

/-- The label of a readable call is its opening, and then the labels of its arguments with their
    separators. -/
theorem toList_label_call {f : Func} {args : List Expr} {state : CallState}
    (h : f.Readable args.length)
    (hname : f = .builtin .userVar ∨ f = .builtin .sysVar → variableName? args = none) :
    (call f args state).label.toList =
      f.opens ++ weave (args.map (·.label.toList)) (f.separators args.length) := by
  have hlength : (args.map label).length = args.length := List.length_map _
  rw [label, write_variableName? hname, labels_eq_map, Func.toList_write (by rwa [hlength]),
    hlength, List.map_map]
  rfl

/-- A variable is written as its name after one `@` or two. -/
theorem toList_label_variable {f : Builtin} {name : String} {state : CallState}
    (hf : f = .userVar ∨ f = .sysVar) :
    (call (.builtin f) [.literal (.string name)] state).label.toList =
      '@' :: (if f = .userVar then name.toList else '@' :: name.toList) := by
  rcases hf with rfl | rfl <;>
    simp [label, variableName?, Func.write, Builtin.write, Builtin.shape]

theorem toList_label_subquery (q : Subquery) :
    (subquery q).label.toList = '(' :: (q.label.toList ++ [')']) := by
  simp [label]

theorem subquery_label_injective {q r : Subquery} (h : (subquery q).label = (subquery r).label) :
    q.label = r.label := by
  have htext := congrArg String.toList h
  rw [toList_label_subquery, toList_label_subquery] at htext
  exact String.toList_inj.mp (List.append_cancel_right (List.cons.inj htext).2)

/-- The text of a legible constant is that of no subquery. -/
theorem text_ne_subquery {v : Value} (h : (literal v).Legible) (q : Subquery) :
    v.text ≠ (subquery q).label := by
  intro heq
  have htext := congrArg String.toList heq
  rw [toList_label_subquery] at htext
  exact text_ne_cons h (.inr rfl) _ htext

theorem text_boundColumn_ne_subquery (f : BoundColumn) (q : Subquery) :
    f.text ≠ (subquery q).label := by
  intro heq
  have htext := congrArg String.toList heq
  rw [toList_text_boundColumn, toList_label_subquery, namesText] at htext
  exact absurd (List.cons.inj htext).1 (by decide)

/-! ## §3. Openings -/

/-- What the label of a legible expression opens with, and what the expression then is. -/
inductive OpensWith : Expr → Text.Opening → Prop
  | text (t : String) : OpensWith (.literal (.string t)) .quote
  | constant {v : Value} {w : List Char} :
      IsConstantWord w → v.text.toList = w → OpensWith (.literal v) (.word w)
  | names {e : Expr} {name : List Char} {second : Option (List Char)} :
      e.isLeaf = true → '`' ∉ name → (∀ n ∈ second, '`' ∉ n) →
      e.label.toList = namesText name second → OpensWith e .backquote
  | subquery {q : Subquery} :
      "SELECT ".toList <+: q.label.toList → Text.Balanced q.label.toList →
      OpensWith (.subquery q) .bracket
  | sigil {f : Builtin} {name : String} {state : CallState} {w : List Char} :
      f = .userVar ∨ f = .sysVar → name.toList.head? ≠ some '@' →
      (if f = .userVar then name.toList else '@' :: name.toList) = w →
      OpensWith (.call (.builtin f) [.literal (.string name)] state) (.sigil w)
  | call {f : Func} {args : List Expr} {state : CallState} {w : List Char} :
      f.Readable args.length → f.bracketed = false → (∀ arg ∈ args, Legible arg) →
      (Expr.call f args state).label.toList =
        f.opens ++ weave (args.map (·.label.toList)) (f.separators args.length) →
      f.callWord.toList = w → OpensWith (.call f args state) (.call w)
  | bracketed {f : Builtin} {args : List Expr} {state : CallState} :
      f.arity.accepts args.length = true → f.bracketed = true → (∀ arg ∈ args, Legible arg) →
      (Expr.call (.builtin f) args state).label.toList =
        f.opens ++ weave (args.map (·.label.toList)) (f.separators args.length) →
      OpensWith (.call (.builtin f) args state) .bracket

/-- Names and strings that are written between backquotes, quotes and brackets open with these. -/
theorem Legible.opensWith {b : Expr} {s : List Char} (h : b.Legible) (hs : Ends s) :
    OpensWith b (opening (b.label.toList ++ s)) := by
  cases h with
  | text t =>
    have hopen : opening ((Expr.literal (.string t)).label.toList ++ s) = .quote := by
      rw [label, Value.text, Value.toList_quote]
      rfl
    rw [hopen]
    exact .text t
  | @constant v hv =>
    have hopen : opening ((Expr.literal v).label.toList ++ s) = .word v.text.toList :=
      Text.opening_word hv.1 hv.2.1 hs
    rw [hopen]
    exact .constant hv rfl
  | @column ref htable hcolumn =>
    have hopen : opening ((Expr.column ref).label.toList ++ s) = .backquote := by
      rw [label, toList_text_columnRef]
      cases ref.table <;> rfl
    rw [hopen]
    have htext := toList_text_columnRef ref
    cases href : ref.table with
    | none =>
      rw [href] at htext
      exact .names rfl hcolumn (by simp) htext
    | some table =>
      rw [href] at htext htable
      exact .names rfl (htable table rfl) (fun _ h => Option.some.inj h ▸ hcolumn) htext
  | @field f htable hcolumn =>
    have htext := toList_text_boundColumn f
    have hopen : opening ((Expr.field f).label.toList ++ s) = .backquote := by
      rw [label, htext]
      rfl
    rw [hopen]
    exact .names rfl htable (fun _ h => Option.some.inj h ▸ hcolumn) htext
  | @subquery q hselect hbalanced =>
    have hopen : opening ((Expr.subquery q).label.toList ++ s) = .bracket := by
      rw [toList_label_subquery]
      rfl
    rw [hopen]
    exact .subquery hselect hbalanced
  | @sigil f name state hf hword hat =>
    have hname : ∀ c ∈ if f = .userVar then name.toList else '@' :: name.toList,
        inWord c = true := by
      split
      · exact hword
      · exact List.forall_mem_cons.mpr ⟨rfl, hword⟩
    rw [toList_label_variable hf, Text.opening_sigil hname hs]
    exact .sigil hf hat rfl
  | @call f args state hreadable hname hargs =>
    have htext : (Expr.call f args state).label.toList = _ := toList_label_call hreadable hname
    cases hbracket : f.bracketed with
    | false =>
      have hopen : opening ((Expr.call f args state).label.toList ++ s) = .call f.callWord.toList := by
        rw [htext, Func.opens_eq hbracket, List.append_assoc, List.append_assoc]
        exact Text.opening_call (Func.isCallWord_callWord hreadable hbracket).1
      rw [hopen]
      exact .call hreadable hbracket hargs htext rfl
    | true =>
      cases f with
      | user d => cases hbracket
      | builtin f =>
        obtain ⟨rest, hrest⟩ := Builtin.exists_opens_eq_cons hbracket
        have hopen : opening ((Expr.call (.builtin f) args state).label.toList ++ s) = .bracket := by
          rw [htext, Func.opens, hrest]
          rfl
        rw [hopen]
        exact .bracketed hreadable hbracket hargs htext

/-- No label begins like the end of one. -/
theorem Legible.ne_end {b : Expr} {z s : List Char} (h : b.Legible) (hs : Ends s) (hz : Ends z) :
    z ≠ b.label.toList ++ s := by
  intro heq
  have hopen := h.opensWith hs
  rw [← heq] at hopen
  have hother : opening z = .other := by
    match z, hz with
    | [], _ => rfl
    | c :: z, hz => rcases hz c rfl with rfl | rfl | rfl <;> rfl
  rw [hother] at hopen
  cases hopen

/-- A label that begins with a single word is that of a constant. -/
theorem Legible.of_word {b : Expr} {w z s : List Char} (h : b.Legible) (hs : Ends s)
    (hw : Text.IsWord w) (hat : w.head? ≠ some '@') (hz : Ends z)
    (heq : w ++ z = b.label.toList ++ s) :
    IsConstantWord w ∧ b.label.toList = w := by
  have hopen := h.opensWith hs
  rw [← heq, Text.opening_word hw hat hz] at hopen
  cases hopen with
  | constant hconstant htext => exact ⟨hconstant, htext⟩

/-- A label that begins with a word with `@` before it is that of a variable. -/
theorem Legible.of_sigil {b : Expr} {w z s : List Char} (h : b.Legible) (hs : Ends s)
    (hw : ∀ c ∈ w, inWord c = true) (hz : Ends z) (heq : '@' :: w ++ z = b.label.toList ++ s) :
    b.label.toList = '@' :: w := by
  have hopen := h.opensWith hs
  rw [← heq, Text.opening_sigil hw hz] at hopen
  cases hopen with
  | sigil hf _ hname => rw [toList_label_variable hf, hname]

/-- A label with a minus before it is not continued by a space where its bracket closes. -/
theorem Legible.ne_minus {a b : Expr} {r s : List Char} (ha : a.Legible) (hb : b.Legible) :
    a.label.toList ++ ' ' :: r ≠ '-' :: (b.label.toList ++ ')' :: s) := by
  have hspace : Ends (' ' :: r) := fun c hc => .inl (Option.some.inj hc).symm
  have hclose : Ends (')' :: s) := fun c hc => .inr (.inr (Option.some.inj hc).symm)
  intro heq
  -- what begins with a minus is the word of a constant, or of a call; no call has such a word
  obtain ⟨w, hw, htext⟩ : ∃ w, (∀ c ∈ w, inWord c = true) ∧ a.label.toList = '-' :: w := by
    have hopen := ha.opensWith hspace
    rw [heq] at hopen
    rcases Text.opening_minus (b.label.toList ++ ')' :: s) with ⟨w, hminus⟩ | ⟨w, hminus⟩
    · rw [hminus] at hopen
      cases hopen with
      | constant hconstant htext =>
        exact ⟨w, fun c hc => hconstant.1.2 c (List.mem_cons_of_mem _ hc), htext⟩
    · rw [hminus] at hopen
      cases hopen with
      | call hreadable hbracket _ _ hword =>
        have hhead := (Func.isCallWord_callWord hreadable hbracket).2.1
        rw [hword] at hhead
        exact absurd rfl hhead
  rw [htext] at heq
  have hrest : w ++ ' ' :: r = b.label.toList ++ ')' :: s := (List.cons.inj heq).2
  -- the rest of the constant is all of the other label
  have hlabel : b.label.toList = w := by
    cases w with
    | nil => exact absurd hrest (hb.ne_end hclose hspace)
    | cons c w =>
      by_cases hat : c = '@'
      · subst hat
        exact hb.of_sigil hclose (fun d hd => hw d (List.mem_cons_of_mem _ hd)) hspace hrest
      · exact (hb.of_word hclose ⟨List.cons_ne_nil c w, hw⟩ (by simpa using hat) hspace hrest).2
  rw [hlabel] at hrest
  simp at hrest

/-! ## §4. Arguments -/

/-- Whatever else has a label that fits where that of `a` stands is parallel to `a`, and ends where it
    ends. -/
def Reads (a : Expr) : Prop :=
  ∀ ⦃b : Expr⦄ ⦃r s : List Char⦄, b.Legible → Ends r → Ends s →
    a.label.toList ++ r = b.label.toList ++ s → Parallel a b ∧ r = s

section Arguments

variable {args brgs : List Expr} {seps seps' : List (List Char)} {r s : List Char}

/-- The labels of arguments, with what separates them, are read one after the other. Where the
    separators part, the labels were never the same. -/
theorem parallel_of_weave (hseps : Text.Coherent seps seps')
    (hsep : ∀ t ∈ seps, Text.IsSeparator t) (hsep' : ∀ t ∈ seps', Text.IsSeparator t)
    (hlength : args.length = seps.length) (hlength' : brgs.length = seps'.length)
    (hreads : ∀ arg ∈ args, Reads arg) (hlegible : ∀ brg ∈ brgs, Legible brg)
    (h : weave (args.map (·.label.toList)) seps ++ r =
      weave (brgs.map (·.label.toList)) seps' ++ s) :
    List.Forall₂ Parallel args brgs ∧ seps = seps' ∧ r = s := by
  induction hseps generalizing args brgs with
  | nil =>
    obtain rfl := List.length_eq_zero_iff.mp hlength
    obtain rfl := List.length_eq_zero_iff.mp hlength'
    exact ⟨.nil, rfl, h⟩
  | @cons t seps seps' _ ih =>
    obtain ⟨a, args, rfl⟩ := List.exists_cons_of_length_eq_add_one hlength
    obtain ⟨b, brgs, rfl⟩ := List.exists_cons_of_length_eq_add_one hlength'
    simp only [List.map_cons, weave, List.append_assoc] at h
    have hends := hsep t List.mem_cons_self
    obtain ⟨hparallel, hrest⟩ := hreads a List.mem_cons_self (hlegible b List.mem_cons_self)
      (Ends.append hends) (Ends.append hends) h
    obtain ⟨hparallels, rfl, hrests⟩ := ih (fun t ht => hsep t (List.mem_cons_of_mem _ ht))
      (fun t ht => hsep' t (List.mem_cons_of_mem _ ht)) (Nat.succ.inj hlength)
      (Nat.succ.inj hlength') (fun x hx => hreads x (List.mem_cons_of_mem _ hx))
      (fun x hx => hlegible x (List.mem_cons_of_mem _ hx)) (List.append_cancel_left hrest)
    exact ⟨.cons hparallel hparallels, rfl, hrests⟩
  | @apart t t' seps seps' hapart hapart' =>
    obtain ⟨a, args, rfl⟩ := List.exists_cons_of_length_eq_add_one hlength
    obtain ⟨b, brgs, rfl⟩ := List.exists_cons_of_length_eq_add_one hlength'
    simp only [List.map_cons, weave, List.append_assoc] at h
    obtain ⟨_, hrest⟩ := hreads a List.mem_cons_self (hlegible b List.mem_cons_self)
      (Ends.append (hsep t List.mem_cons_self)) (Ends.append (hsep' t' List.mem_cons_self)) h
    -- both separators would begin the same text
    have hprefix : t <+: t' ++ (weave (brgs.map (·.label.toList)) seps' ++ s) :=
      hrest ▸ List.prefix_append _ _
    rcases List.prefix_or_prefix_of_prefix hprefix (List.prefix_append _ _) with h | h
    · exact absurd h hapart
    · exact absurd h hapart'

/-- The arguments of two functions whose separators are coherent are read one after the other. -/
theorem parallel_of_separators {f g : Func} (hf : f.Readable args.length)
    (hg : g.Readable brgs.length) (hfpos : 0 < args.length) (hgpos : 0 < brgs.length)
    (hseps : Text.Coherent (f.separators args.length) (g.separators brgs.length))
    (hreads : ∀ arg ∈ args, Reads arg) (hlegible : ∀ brg ∈ brgs, Legible brg)
    (h : weave (args.map (·.label.toList)) (f.separators args.length) ++ r =
      weave (brgs.map (·.label.toList)) (g.separators brgs.length) ++ s) :
    List.Forall₂ Parallel args brgs ∧
      f.separators args.length = g.separators brgs.length ∧ r = s :=
  parallel_of_weave hseps (fun _ => Func.isSeparator_of_mem) (fun _ => Func.isSeparator_of_mem)
    (Func.length_separators hf hfpos).symm (Func.length_separators hg hgpos).symm hreads hlegible h

/-- The arguments of two calls with one word before the bracket are read one after the other, if there
    are any. -/
theorem parallel_of_callWord {f g : Func} (hf : f.Readable args.length)
    (hg : g.Readable brgs.length) (hfb : f.bracketed = false) (hgb : g.bracketed = false)
    (hword : f.callWord = g.callWord)
    (hargs : ∀ arg ∈ args, Legible arg) (hreads : ∀ arg ∈ args, Reads arg)
    (hlegible : ∀ brg ∈ brgs, Legible brg)
    (h : weave (args.map (·.label.toList)) (f.separators args.length) ++ r =
      weave (brgs.map (·.label.toList)) (g.separators brgs.length) ++ s) :
    List.Forall₂ Parallel args brgs ∧ r = s := by
  have hclose : ∀ r : List Char, Ends (')' :: r) :=
    fun r c hc => .inr (.inr (Option.some.inj hc).symm)
  -- a call without arguments is closed where the other one would have its first
  have hempty : ∀ {f : Func} {args : List Expr} {r z : List Char}, f.Readable args.length →
      (∀ arg ∈ args, Legible arg) → 0 < args.length →
      ')' :: z ≠ weave (args.map (·.label.toList)) (f.separators args.length) ++ r := by
    intro f args r z hf hargs hpos
    obtain ⟨a, args, rfl⟩ := List.exists_cons_of_length_pos hpos
    obtain ⟨t, seps, hseps⟩ :=
      List.exists_cons_of_length_pos ((Func.length_separators hf hpos).symm ▸ hpos)
    have hsep : Text.IsSeparator t := Func.isSeparator_of_mem (f := f) (hseps ▸ List.mem_cons_self)
    rw [hseps, List.map_cons, weave, List.append_assoc, List.append_assoc]
    exact (hargs a List.mem_cons_self).ne_end (Ends.append hsep) (hclose z)
  rcases Nat.eq_zero_or_pos args.length with hfzero | hfpos <;>
    rcases Nat.eq_zero_or_pos brgs.length with hgzero | hgpos
  · obtain rfl := List.length_eq_zero_iff.mp hfzero
    obtain rfl := List.length_eq_zero_iff.mp hgzero
    rw [List.length_nil, Func.separators_zero hf hfb, Func.separators_zero hg hgb] at h
    exact ⟨.nil, List.append_cancel_left h⟩
  · obtain rfl := List.length_eq_zero_iff.mp hfzero
    rw [List.length_nil, Func.separators_zero hf hfb] at h
    exact absurd h (hempty hg hlegible hgpos)
  · obtain rfl := List.length_eq_zero_iff.mp hgzero
    rw [List.length_nil, Func.separators_zero hg hgb] at h
    exact absurd h.symm (hempty hf hargs hfpos)
  · obtain ⟨hparallel, _, hrest⟩ := parallel_of_separators hf hg hfpos hgpos
      (Func.name_eq_of_callWord hf hg hfb hgb hword).2 hreads hlegible h
    exact ⟨hparallel, hrest⟩

/-- After the first argument of a call that opens with a bare bracket comes a space. -/
theorem exists_weave_eq {f : Builtin} (hf : f.arity.accepts args.length = true)
    (hopens : f.opens = ['(']) (hpos : 0 < args.length) :
    ∃ a ∈ args, ∃ rest,
      weave (args.map (·.label.toList)) (f.separators args.length) = a.label.toList ++ ' ' :: rest := by
  obtain ⟨a, args, rfl⟩ := List.exists_cons_of_length_pos hpos
  obtain ⟨seps, hseps⟩ := Builtin.exists_separators_eq hf hopens
  obtain ⟨mark, hmark⟩ := Builtin.exists_mark_eq hopens
  refine ⟨a, List.mem_cons_self, mark ++ weave (args.map (·.label.toList)) seps, ?_⟩
  rw [hseps, hmark, List.map_cons, weave, List.append_assoc]
  rfl

/-- No call that opens with a bare bracket reads like one that opens with an operator. -/
theorem ne_of_bare {f g : Builtin} (hf : f.arity.accepts args.length = true)
    (hg : g.arity.accepts brgs.length = true) (hopens : f.opens = ['(']) (hpos : 0 < args.length)
    (hoperator : g = .not ∨ g = .neg) (hargs : ∀ arg ∈ args, Legible arg)
    (hbrgs : ∀ brg ∈ brgs, Legible brg) :
    f.opens ++ weave (args.map (·.label.toList)) (f.separators args.length) ++ r ≠
      g.opens ++ weave (brgs.map (·.label.toList)) (g.separators brgs.length) ++ s := by
  have hspace : ∀ r : List Char, Ends (' ' :: r) := fun r c hc => .inl (Option.some.inj hc).symm
  obtain ⟨a, ha, rest, hweave⟩ := exists_weave_eq hf hopens hpos
  rw [hweave, hopens]
  intro heq
  rcases hoperator with rfl | rfl
  · -- the first argument would be the word `NOT`
    have hword : "NOT".toList ++ ' ' :: (weave (brgs.map (·.label.toList)) [[')']] ++ s) =
        a.label.toList ++ ' ' :: (rest ++ r) := by
      simpa [Builtin.opens, Builtin.shape, Builtin.separators] using heq.symm
    have hconstant := ((hargs a ha).of_word (hspace _) (by decide) (by decide) (hspace _) hword).1
    exact absurd hconstant (by decide)
  · obtain ⟨b, rfl⟩ := List.length_eq_one_iff.mp (beq_iff_eq.mp hg)
    refine (hargs a ha).ne_minus (hbrgs b (List.mem_singleton_self b)) (r := rest ++ r) (s := s) ?_
    simpa [Builtin.opens, Builtin.shape, Builtin.separators, weave] using heq

/-- Two calls between brackets apply one function. -/
theorem parallel_of_bracketed {f g : Builtin} (hf : f.arity.accepts args.length = true)
    (hg : g.arity.accepts brgs.length = true) (hfb : f.bracketed = true) (hgb : g.bracketed = true)
    (hargs : ∀ arg ∈ args, Legible arg) (hreads : ∀ arg ∈ args, Reads arg)
    (hbrgs : ∀ brg ∈ brgs, Legible brg)
    (h : f.opens ++ weave (args.map (·.label.toList)) (f.separators args.length) ++ r =
      g.opens ++ weave (brgs.map (·.label.toList)) (g.separators brgs.length) ++ s) :
    f = g ∧ List.Forall₂ Parallel args brgs ∧ r = s := by
  have hfpos := Builtin.pos_of_bracketed hf hfb
  have hgpos := Builtin.pos_of_bracketed hg hgb
  by_cases hopens : f.opens = g.opens
  · rw [hopens, List.append_assoc, List.append_assoc] at h
    have hweave := List.append_cancel_left h
    rcases Builtin.eq_or_marks_apart hopens with rfl | ⟨hbare, hapart, hapart'⟩
    · obtain ⟨hparallel, _, hrest⟩ := parallel_of_separators (f := .builtin f) (g := .builtin f)
        hf hg hfpos hgpos (Builtin.coherent_separators_self f _ _) hreads hbrgs hweave
      exact ⟨rfl, hparallel, hrest⟩
    · -- the first separators are the marks of the functions
      obtain ⟨seps, hfseps⟩ := Builtin.exists_separators_eq hf hbare
      obtain ⟨seps', hgseps⟩ := Builtin.exists_separators_eq hg (hopens ▸ hbare)
      have hcoherent : Text.Coherent (f.separators args.length) (g.separators brgs.length) := by
        rw [hfseps, hgseps]
        exact .apart hapart hapart'
      obtain ⟨_, hseps, _⟩ := parallel_of_separators (f := .builtin f) (g := .builtin g)
        hf hg hfpos hgpos hcoherent hreads hbrgs hweave
      replace hseps : f.separators args.length = g.separators brgs.length := hseps
      rw [hfseps, hgseps] at hseps
      exact absurd ((List.cons.inj hseps).1 ▸ List.prefix_refl _) hapart
  · rcases Builtin.opens_of_bracketed hfb with hfbare | hfoperator <;>
      rcases Builtin.opens_of_bracketed hgb with hgbare | hgoperator
    · exact absurd (hfbare.trans hgbare.symm) hopens
    · exact absurd h (ne_of_bare hf hg hfbare hfpos hgoperator hargs hbrgs)
    · exact absurd h.symm (ne_of_bare hg hf hgbare hgpos hfoperator hbrgs hargs)
    · rcases hfoperator with rfl | rfl <;> rcases hgoperator with rfl | rfl
      · exact absurd rfl hopens
      · simp [Builtin.opens, Builtin.shape] at h
      · simp [Builtin.opens, Builtin.shape] at h
      · exact absurd rfl hopens

end Arguments

/-! ## §5. Expressions -/

/-- The first argument of a call between brackets is not the word that a subquery begins with. -/
theorem subquery_ne_bracketed {q : Subquery} {f : Builtin} {args : List Expr} {r s : List Char}
    (hselect : "SELECT ".toList <+: q.label.toList) (hf : f.arity.accepts args.length = true)
    (hbracket : f.bracketed = true) (hargs : ∀ arg ∈ args, Legible arg) :
    (subquery q).label.toList ++ r ≠
      f.opens ++ weave (args.map (·.label.toList)) (f.separators args.length) ++ s := by
  have hspace : ∀ r : List Char, Ends (' ' :: r) := fun r c hc => .inl (Option.some.inj hc).symm
  obtain ⟨rest, hrest⟩ := hselect
  rw [toList_label_subquery, ← hrest]
  intro heq
  rcases Builtin.opens_of_bracketed hbracket with hopens | rfl | rfl
  · obtain ⟨a, ha, tail, hweave⟩ := exists_weave_eq hf hopens (Builtin.pos_of_bracketed hf hbracket)
    rw [hopens, hweave] at heq
    have hword : "SELECT".toList ++ ' ' :: (rest ++ ')' :: r) =
        a.label.toList ++ ' ' :: (tail ++ s) := by
      simpa using heq
    have hconstant := ((hargs a ha).of_word (hspace _) (by decide) (by decide) (hspace _) hword).1
    exact absurd hconstant (by decide)
  · simp [Builtin.opens, Builtin.shape] at heq
  · simp [Builtin.opens, Builtin.shape] at heq

/-- Two labels with one opening are read alike. -/
theorem Parallel.of_opensWith {a b : Expr} {o : Text.Opening} {r s : List Char}
    (ha : OpensWith a o) (hb : OpensWith b o) (hr : Ends r) (hs : Ends s)
    (hreads : ∀ arg ∈ a.args, Legible arg → Reads arg)
    (h : a.label.toList ++ r = b.label.toList ++ s) : Parallel a b ∧ r = s := by
  -- two leaves with one text end in the same place
  have hleaf : a.isLeaf = true → b.isLeaf = true → a.label.toList = b.label.toList →
      Parallel a b ∧ r = s := by
    intro ha hb hlabel
    rw [hlabel] at h
    exact ⟨.leaf ha hb (String.toList_inj.mp hlabel), List.append_cancel_left h⟩
  cases ha with
  | text t =>
    cases hb with
    | text t' =>
      have hnot : ∀ {r : List Char}, Ends r → r.head? ≠ some '\'' := fun hr heq => by
        simpa using hr _ heq
      simp only [label, Value.text, Value.toList_quote, List.cons_append, List.append_assoc,
        List.nil_append, List.cons.injEq, true_and] at h
      obtain ⟨htext, hrest⟩ := Value.doubleQuotes_append_inj (hnot hr) (hnot hs) h
      obtain rfl := String.toList_inj.mp htext
      exact ⟨.leaf rfl rfl rfl, hrest⟩
  | constant hconstant htext =>
    cases hb with
    | constant hconstant' htext' => exact hleaf rfl rfl (htext.trans htext'.symm)
  | names hisLeaf hname hsecond htext =>
    cases hb with
    | names hisLeaf' hname' hsecond' htext' =>
      rw [htext, htext'] at h
      obtain ⟨hnames, _⟩ := namesText_append_inj hname hname' hsecond hsecond' hr hs h
      exact hleaf hisLeaf hisLeaf' (by rw [htext, htext', hnames])
  | subquery hselect hbalanced =>
    cases hb with
    | subquery hselect' hbalanced' =>
      have htail := h
      simp only [toList_label_subquery, List.cons_append, List.append_assoc, List.nil_append,
        List.cons.injEq, true_and] at htail
      obtain ⟨hlabel, _⟩ := Text.eq_of_openBrackets hbalanced hbalanced' htail
      exact hleaf rfl rfl (by rw [toList_label_subquery, toList_label_subquery, hlabel])
    | bracketed hg hbracket hargs htext =>
      rw [htext] at h
      exact absurd h (subquery_ne_bracketed hselect hg hbracket hargs)
  | @sigil f name state w hf hat hname =>
    cases hb with
    | @sigil g name' state' _ hg hat' hname' =>
      -- the name of a variable of one kind begins with no `@`
      have hfg : f = g := by
        rw [← hname'] at hname
        rcases hf with rfl | rfl <;> rcases hg with rfl | rfl
        · rfl
        · rw [if_pos rfl, if_neg (by decide)] at hname
          exact absurd (by rw [hname]; rfl) hat
        · rw [if_pos rfl, if_neg (by decide)] at hname
          exact absurd (by rw [← hname]; rfl) hat'
        · rfl
      subst hfg
      have hnames : name = name' := by
        rw [← hname'] at hname
        split at hname
        · exact String.toList_inj.mp hname
        · exact String.toList_inj.mp (List.cons.inj hname).2
      subst hnames
      rw [toList_label_variable hf, toList_label_variable hf] at h
      exact ⟨.call rfl (.cons (.leaf rfl rfl rfl) .nil), List.append_cancel_left h⟩
  | @call f args state w hf hbracket hargs htext hword =>
    cases hb with
    | @call g brgs state' _ hg hbracket' hbrgs htext' hword' =>
      have hwords : f.callWord = g.callWord := String.toList_inj.mp (hword.trans hword'.symm)
      rw [htext, htext', Func.opens_eq hbracket, Func.opens_eq hbracket', hwords,
        List.append_assoc, List.append_assoc _ _ s] at h
      obtain ⟨hparallel, hrest⟩ := parallel_of_callWord hf hg hbracket hbracket' hwords hargs
        (fun arg harg => hreads arg harg (hargs arg harg)) hbrgs (List.append_cancel_left h)
      exact ⟨.call (Func.name_eq_of_callWord hf hg hbracket hbracket' hwords).1 hparallel, hrest⟩
  | @bracketed f args state hf hbracket hargs htext =>
    cases hb with
    | subquery hselect hbalanced =>
      rw [htext] at h
      exact absurd h.symm (subquery_ne_bracketed hselect hf hbracket hargs)
    | @bracketed g brgs state' hg hbracket' hbrgs htext' =>
      rw [htext, htext'] at h
      obtain ⟨rfl, hparallel, hrest⟩ := parallel_of_bracketed hf hg hbracket hbracket' hargs
        (fun arg harg => hreads arg harg (hargs arg harg)) hbrgs h
      exact ⟨.call rfl hparallel, hrest⟩

/-- Whatever else has the label of a legible expression is parallel to it, wherever the label stands. -/
theorem Legible.reads {a : Expr} (ha : a.Legible) : a.Reads := by
  have hstep : ∀ e : Expr, (∀ arg ∈ e.args, Legible arg → Reads arg) → e.Legible → e.Reads := by
    intro e hreads he b r s hb hr hs h
    exact Parallel.of_opensWith (he.opensWith hr) (h ▸ hb.opensWith hs) hr hs hreads h
  induction a using Expr.ind with
  | call f args state ih => exact hstep _ ih ha
  | literal v => exact hstep _ (fun _ h => absurd h List.not_mem_nil) ha
  | column ref => exact hstep _ (fun _ h => absurd h List.not_mem_nil) ha
  | field f => exact hstep _ (fun _ h => absurd h List.not_mem_nil) ha
  | subquery q => exact hstep _ (fun _ h => absurd h List.not_mem_nil) ha

/-- Legible expressions with one label are parallel. -/
theorem Legible.parallel {a b : Expr} (ha : a.Legible) (hb : b.Legible) (h : a.label = b.label) :
    Parallel a b := by
  have hend : Ends [] := fun c hc => nomatch hc
  exact (ha.reads hb hend hend (by rw [h])).1

/-! ## §6. Hash codes -/

theorem hashCode_of_isLeaf {e : Expr} (h : e.isLeaf = true) :
    e.hashCode = Text.fingerprint e.label := by
  cases e with
  | call f args state => cases h
  | literal v => rfl
  | column ref => rfl
  | field f => rfl
  | subquery q => rfl

/-- Parallel expressions have one hash code. -/
theorem Parallel.hashCode_eq {a b : Expr} (h : Parallel a b) : a.hashCode = b.hashCode := by
  induction a using Expr.ind generalizing b with
  | call f args state ih =>
    cases h with
    | leaf ha => cases ha
    | @call _ g _ brgs _ state' hname hargs =>
      rw [hashCode, hashCode, hname]
      -- the codes of the arguments are the same one by one, whatever code came before
      generalize Text.fingerprint g.name * 31 = code
      induction hargs generalizing code with
      | nil => rfl
      | @cons a b args brgs hab _ ihargs =>
        rw [hashArgs, hashArgs, ih a List.mem_cons_self hab]
        exact ihargs (fun x hx => ih x (List.mem_cons_of_mem a hx)) _
  | _ =>
    cases h with
    | leaf ha hb hlabel => rw [hashCode_of_isLeaf ha, hashCode_of_isLeaf hb, hlabel]

end PushDown.Expr
