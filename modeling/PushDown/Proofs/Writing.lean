import Mathlib.Data.List.Basic
import PushDown.Expr.Label

/-! # How texts begin and end

    The text of a bracketed call starts with `(`, that of any other call with a
    word and `(`. A text between quotes, a name between backquotes and a single
    word are the texts of leaves. So the first word of a text and the character
    after it tell what kind of expression it is the text of (`opening`).

    Every written call is an opening, then its arguments, each with what
    separates it from the next or closes the call (`toList_write`). No separator
    of a function begins with another one.
-/

namespace PushDown

/-! ## §1. Words and openings -/

namespace Text

/-- Whether a character can stand in a word: it is no space, comma, bracket, quote or backquote. -/
def inWord (c : Char) : Bool :=
  !(c == ' ' || c == ',' || c == '(' || c == ')' || c == '\'' || c == '`')

/-- What can follow the text of an expression: nothing, or a space, a comma or a closing bracket. -/
def Ends (rest : List Char) : Prop :=
  ∀ c ∈ rest.head?, c = ' ' ∨ c = ',' ∨ c = ')'

/-- A text that can stand between two arguments, or after the last one. -/
def IsSeparator (s : List Char) : Prop :=
  s ≠ [] ∧ Ends s

-- both instances are named, so that no search through all characters is found in their place
instance (rest : List Char) : Decidable (Ends rest) :=
  Option.decidableForallMem rest.head?

instance (s : List Char) : Decidable (IsSeparator s) :=
  inferInstanceAs (Decidable (_ ∧ Ends s))

/-- A text of characters that stand in words. -/
def IsWord (w : List Char) : Prop :=
  w ≠ [] ∧ ∀ c ∈ w, inWord c = true

instance (w : List Char) : Decidable (IsWord w) :=
  have : Decidable (∀ c ∈ w, inWord c = true) := List.decidableBAll _ w
  inferInstanceAs (Decidable (w ≠ [] ∧ _))

/-- What a text begins with. -/
inductive Opening
  | quote
  | backquote
  | bracket
  /-- A word and an opening bracket. -/
  | call (name : List Char)
  /-- A word that begins with `@`; the rest of it. -/
  | sigil (name : List Char)
  | word (word : List Char)
  /-- Anything else: no expression begins so. -/
  | other
  deriving DecidableEq

/-- The opening of a text, from its first word and what follows. -/
def opening (text : List Char) : Opening :=
  match text.takeWhile inWord, text.dropWhile inWord with
  | [], '\'' :: _ => .quote
  | [], '`' :: _ => .backquote
  | [], '(' :: _ => .bracket
  | [], _ => .other
  | name, '(' :: _ => .call name
  | '@' :: name, _ => .sigil name
  | word, _ => .word word

theorem Ends.append {s rest : List Char} (h : IsSeparator s) : Ends (s ++ rest) := by
  obtain ⟨hne, hends⟩ := h
  match s, hne, hends with
  | c :: s, _, hends => exact hends

theorem Ends.takeWhile_eq_nil {rest : List Char} (h : Ends rest) : rest.takeWhile inWord = [] := by
  match rest, h with
  | [], _ => rfl
  | c :: rest, h => rcases h c rfl with rfl | rfl | rfl <;> rfl

theorem Ends.dropWhile_eq {rest : List Char} (h : Ends rest) : rest.dropWhile inWord = rest := by
  match rest, h with
  | [], _ => rfl
  | c :: rest, h => rcases h c rfl with rfl | rfl | rfl <;> rfl

/-- Before an end stands a whole word. -/
theorem takeWhile_word {w rest : List Char} (hw : ∀ c ∈ w, inWord c = true) (h : Ends rest) :
    (w ++ rest).takeWhile inWord = w := by
  rw [List.takeWhile_append_of_pos hw, h.takeWhile_eq_nil, List.append_nil]

theorem dropWhile_word {w rest : List Char} (hw : ∀ c ∈ w, inWord c = true) (h : Ends rest) :
    (w ++ rest).dropWhile inWord = rest := by
  rw [List.dropWhile_append_of_pos hw, h.dropWhile_eq]

theorem opening_word {w rest : List Char} (hw : IsWord w) (hat : w.head? ≠ some '@')
    (h : Ends rest) : opening (w ++ rest) = .word w := by
  unfold opening
  rw [takeWhile_word hw.2 h, dropWhile_word hw.2 h]
  match w, hw, hat with
  | c :: w, _, hat =>
    have hc : c ≠ '@' := fun hc => hat (by rw [hc]; rfl)
    match rest, h with
    | [], _ => simp [hc]
    | d :: rest, h => rcases h d rfl with rfl | rfl | rfl <;> simp [hc]

theorem opening_sigil {w rest : List Char} (hw : ∀ c ∈ w, inWord c = true) (h : Ends rest) :
    opening ('@' :: w ++ rest) = .sigil w := by
  have hat : ∀ c ∈ '@' :: w, inWord c = true := List.forall_mem_cons.mpr ⟨rfl, hw⟩
  unfold opening
  rw [takeWhile_word hat h, dropWhile_word hat h]
  match rest, h with
  | [], _ => rfl
  | d :: rest, h => rcases h d rfl with rfl | rfl | rfl <;> rfl

/-- What begins with a minus is a word, or the word of a call. -/
theorem opening_minus (text : List Char) :
    (∃ w, opening ('-' :: text) = .word ('-' :: w)) ∨
      ∃ w, opening ('-' :: text) = .call ('-' :: w) := by
  have htake : ('-' :: text).takeWhile inWord = '-' :: text.takeWhile inWord := rfl
  have hdrop : ('-' :: text).dropWhile inWord = text.dropWhile inWord := rfl
  unfold opening
  rw [htake, hdrop]
  split <;> simp_all

theorem opening_call {name rest : List Char} (hname : IsWord name) :
    opening (name ++ '(' :: rest) = .call name := by
  have htake : (name ++ '(' :: rest).takeWhile inWord = name := by
    rw [List.takeWhile_append_of_pos hname.2]
    exact List.append_nil name
  have hdrop : (name ++ '(' :: rest).dropWhile inWord = '(' :: rest := by
    rw [List.dropWhile_append_of_pos hname.2]
    rfl
  unfold opening
  rw [htake, hdrop]
  match name, hname with
  | c :: name, _ => rfl

end Text

/-! ## §2. Quotes and brackets -/

namespace Value

/-- A quoted text ends at the first quote that is not written twice. -/
theorem doubleQuotes_append_inj {s t rest rest' : List Char} (hrest : rest.head? ≠ some '\'')
    (hrest' : rest'.head? ≠ some '\'')
    (h : doubleQuotes s ++ '\'' :: rest = doubleQuotes t ++ '\'' :: rest') :
    s = t ∧ rest = rest' := by
  induction s generalizing t with
  | nil =>
    cases t with
    | nil => exact ⟨rfl, (List.cons.inj h).2⟩
    | cons d t =>
      -- what follows the one closing quote would be another quote
      simp only [doubleQuotes, List.nil_append] at h
      split at h
      · obtain rfl := (List.cons.inj h).2
        exact absurd rfl hrest
      · next hd => exact absurd (List.cons.inj h).1.symm hd
  | cons c s ih =>
    cases t with
    | nil =>
      simp only [doubleQuotes, List.nil_append] at h
      split at h
      · obtain rfl := (List.cons.inj h).2
        exact absurd rfl hrest'
      · next hc => exact absurd (List.cons.inj h).1 hc
    | cons d t =>
      simp only [doubleQuotes] at h
      split at h <;> split at h
      · next hc hd =>
        obtain ⟨rfl, hrests⟩ := ih (List.cons.inj (List.cons.inj h).2).2
        exact ⟨by rw [hc, hd], hrests⟩
      · next hd => exact absurd (List.cons.inj h).1.symm hd
      · next hc _ => exact absurd (List.cons.inj h).1 hc
      · obtain ⟨rfl, htail⟩ := List.cons.inj h
        obtain ⟨rfl, hrests⟩ := ih htail
        exact ⟨rfl, hrests⟩

theorem toList_quote (t : String) : (quote t).toList = '\'' :: (doubleQuotes t.toList ++ ['\'']) := by
  simp [quote]

end Value

namespace Text

/-- A text ends at the first mark that does not occur in it. -/
theorem append_mark_inj {mark : Char} {s t rest rest' : List Char} (hs : mark ∉ s) (ht : mark ∉ t)
    (h : s ++ mark :: rest = t ++ mark :: rest') : s = t ∧ rest = rest' := by
  induction s generalizing t with
  | nil =>
    cases t with
    | nil => exact ⟨rfl, (List.cons.inj h).2⟩
    | cons d t => exact absurd ((List.cons.inj h).1 ▸ List.mem_cons_self) ht
  | cons c s ih =>
    cases t with
    | nil => exact absurd ((List.cons.inj h).1 ▸ List.mem_cons_self) hs
    | cons d t =>
      obtain ⟨rfl, htail⟩ := List.cons.inj h
      rw [List.mem_cons, not_or] at hs ht
      obtain ⟨rfl, hrests⟩ := ih hs.2 ht.2 htail
      exact ⟨rfl, hrests⟩

/-- How many brackets are open after a text, if none is closed that was not opened. -/
def openBrackets (depth : Nat) : List Char → Option Nat
  | [] => some depth
  | c :: rest =>
    if c = '(' then openBrackets (depth + 1) rest
    else if c = ')' then
      match depth with
      | 0 => none
      | depth + 1 => openBrackets depth rest
    else openBrackets depth rest

/-- Whether every bracket in the text has its counterpart. -/
def Balanced (text : List Char) : Prop :=
  openBrackets 0 text = some 0

instance (text : List Char) : Decidable (Balanced text) :=
  inferInstanceAs (Decidable (_ = _))

/-- The bracket that closes a balanced text is where the text ends. -/
theorem eq_of_openBrackets {s t rest rest' : List Char} {depth : Nat}
    (hs : openBrackets depth s = some 0) (ht : openBrackets depth t = some 0)
    (h : s ++ ')' :: rest = t ++ ')' :: rest') : s = t ∧ rest = rest' := by
  induction s generalizing t depth with
  | nil =>
    obtain rfl := Option.some.inj hs
    cases t with
    | nil => exact ⟨rfl, (List.cons.inj h).2⟩
    | cons d t =>
      obtain rfl := (List.cons.inj h).1
      simp [openBrackets] at ht
  | cons c s ih =>
    cases t with
    | nil =>
      obtain rfl := Option.some.inj ht
      obtain rfl := (List.cons.inj h).1
      simp [openBrackets] at hs
    | cons d t =>
      obtain ⟨rfl, htail⟩ := List.cons.inj h
      -- both texts have the same depth after the same character
      obtain ⟨depth', hs', ht'⟩ : ∃ depth', openBrackets depth' s = some 0 ∧
          openBrackets depth' t = some 0 := by
        simp only [openBrackets] at hs ht
        split at hs
        · next hc =>
          rw [if_pos hc] at ht
          exact ⟨_, hs, ht⟩
        · next hc =>
          rw [if_neg hc] at ht
          split at hs
          · next hc' =>
            rw [if_pos hc'] at ht
            cases depth with
            | zero => simp at hs
            | succ depth => exact ⟨depth, hs, ht⟩
          · next hc' =>
            rw [if_neg hc'] at ht
            exact ⟨depth, hs, ht⟩
      obtain ⟨rfl, hrests⟩ := ih hs' ht' htail
      exact ⟨rfl, hrests⟩

end Text

/-! ## §3. Written calls -/

namespace Builtin

/-- Whether a call is written between brackets. -/
def bracketed (f : Builtin) : Bool :=
  match f.shape with
  | .binary _ | .chain _ | .before _ | .after _ | .range | .membership => true
  | .cast | .sigil _ | .call => false

/-- The word before the bracket of a call that is not written between brackets. -/
def callWord (f : Builtin) : String :=
  match f.shape with
  | .cast => "CAST"
  | _ => f.name

/-- What a written call begins with. -/
def opens (f : Builtin) : List Char :=
  match f.shape with
  | .before op => '(' :: op.toList
  | .binary _ | .chain _ | .after _ | .range | .membership => ['(']
  | .cast | .sigil _ | .call => f.callWord.toList ++ ['(']

/-- What separates `count` arguments, and what closes the call. -/
def separators (f : Builtin) (count : Nat) : List (List Char) :=
  match f.shape with
  | .binary op => [(" " ++ op ++ " ").toList, [')']]
  | .chain op => List.replicate (count - 1) (" " ++ op ++ " ").toList ++ [[')']]
  | .before _ => [[')']]
  | .after op => [(op ++ ")").toList]
  | .range => [" BETWEEN ".toList, " AND ".toList, [')']]
  | .membership => " IN (".toList :: (List.replicate (count - 2) ", ".toList ++ ["))".toList])
  | .cast => [" AS CHAR)".toList]
  | .sigil _ | .call => List.replicate (count - 1) ", ".toList ++ [[')']]

end Builtin

namespace Func

/-- Whether a call is written between brackets. -/
def bracketed : Func → Bool
  | builtin f => f.bracketed
  | user _ => false

/-- The word before the bracket of a call that is not written between brackets. -/
def callWord : Func → String
  | builtin f => f.callWord
  | user d => d.name

/-- What a written call begins with. -/
def opens : Func → List Char
  | builtin f => f.opens
  | user d => d.name.toList ++ ['(']

/-- What separates `count` arguments, and what closes the call. -/
def separators (f : Func) (count : Nat) : List (List Char) :=
  match f with
  | builtin f => f.separators count
  | user _ => List.replicate (count - 1) ", ".toList ++ [[')']]

end Func

namespace Text

/-- Texts, each with the separator that follows it; without any text, the separators. -/
def weave : List (List Char) → List (List Char) → List Char
  | [], seps => seps.flatten
  | _ :: _, [] => []
  | a :: as, s :: seps => a ++ s ++ weave as seps

/-- Texts with one separator between any two and another one at the end. -/
theorem weave_replicate (sep close : List Char) (as : List (List Char)) :
    weave as (List.replicate (as.length - 1) sep ++ [close]) = sep.intercalate as ++ close := by
  induction as with
  | nil => simp [weave]
  | cons a as ih =>
    cases as with
    | nil => simp [weave]
    | cons b as =>
      have hlength : (a :: b :: as).length - 1 = (b :: as).length - 1 + 1 := rfl
      rw [hlength, List.replicate_succ, List.cons_append, weave, ih, List.intercalate_cons_cons]
      simp

end Text

namespace Builtin

theorem toList_writeCall (name : String) (args : List String) :
    (writeCall name args).toList = name.toList ++ ['('] ++
      Text.weave (args.map String.toList)
        (List.replicate (args.length - 1) ", ".toList ++ [[')']]) := by
  have hweave := Text.weave_replicate ", ".toList [')'] (args.map String.toList)
  rw [List.length_map] at hweave
  rw [hweave]
  simp [writeCall]

/-- How a call is written fixes the number of its arguments, unless it is written with its name. -/
theorem arity_eq (f : Builtin) :
    f.arity = match f.shape with
      | .binary _ => .exactly 2
      | .chain _ | .membership => .atLeast 2
      | .before _ | .after _ | .cast | .sigil _ => .exactly 1
      | .range => .exactly 3
      | .call => f.arity := by
  cases f <;> rfl

/-- A call with a count of arguments that the function accepts is its opening, and then its arguments
    with their separators. -/
theorem toList_write {f : Builtin} {args : List String} (h : f.arity.accepts args.length = true) :
    (f.write none args).toList =
      f.opens ++ Text.weave (args.map String.toList) (f.separators args.length) := by
  rw [arity_eq] at h
  unfold write opens separators
  cases hshape : f.shape with
  | binary op =>
    simp only [hshape, Arity.accepts, beq_iff_eq] at h
    obtain ⟨a, b, rfl⟩ := List.length_eq_two.mp h
    simp [Text.weave]
  | chain op =>
    have hweave := Text.weave_replicate (" " ++ op ++ " ").toList [')'] (args.map String.toList)
    rw [List.length_map] at hweave
    dsimp only
    rw [hweave]
    simp
  | before op =>
    simp only [hshape, Arity.accepts, beq_iff_eq] at h
    obtain ⟨a, rfl⟩ := List.length_eq_one_iff.mp h
    simp [Text.weave]
  | after op =>
    simp only [hshape, Arity.accepts, beq_iff_eq] at h
    obtain ⟨a, rfl⟩ := List.length_eq_one_iff.mp h
    simp [Text.weave]
  | range =>
    simp only [hshape, Arity.accepts, beq_iff_eq] at h
    obtain ⟨a, b, c, rfl⟩ := List.length_eq_three.mp h
    simp [Text.weave]
  | membership =>
    simp only [hshape, Arity.accepts, decide_eq_true_eq] at h
    obtain ⟨a, list, rfl⟩ := List.exists_cons_of_length_pos (Nat.lt_of_lt_of_le Nat.zero_lt_two h)
    have hweave := Text.weave_replicate ", ".toList "))".toList (list.map String.toList)
    rw [List.length_map] at hweave
    have hcount : (a :: list).length - 2 = list.length - 1 := by
      rw [List.length_cons]
      omega
    dsimp only
    rw [hcount, List.map_cons, Text.weave, hweave]
    simp
  | cast =>
    simp only [hshape, Arity.accepts, beq_iff_eq] at h
    obtain ⟨a, rfl⟩ := List.length_eq_one_iff.mp h
    simp [Text.weave, callWord, hshape]
  | sigil sigil =>
    simp only [callWord, hshape]
    exact toList_writeCall f.name args
  | call =>
    simp only [callWord, hshape]
    exact toList_writeCall f.name args

end Builtin

/-! ## §4. Separators -/

namespace Text

/-- Two lists of separators are the same up to a place where neither of two separators begins with
    the other, or to the end. -/
inductive Coherent : List (List Char) → List (List Char) → Prop
  | nil : Coherent [] []
  | cons (s : List Char) {seps seps' : List (List Char)} :
      Coherent seps seps' → Coherent (s :: seps) (s :: seps')
  | apart {s t : List Char} {seps seps' : List (List Char)} :
      ¬ s <+: t → ¬ t <+: s → Coherent (s :: seps) (t :: seps')

theorem Coherent.refl (seps : List (List Char)) : Coherent seps seps := by
  induction seps with
  | nil => exact .nil
  | cons s seps ih => exact .cons s ih

/-- A list closes where another one goes on. -/
theorem Coherent.replicate {sep close : List Char} (h : ¬ sep <+: close) (h' : ¬ close <+: sep)
    (n m : Nat) : Coherent (List.replicate n sep ++ [close]) (List.replicate m sep ++ [close]) := by
  induction n generalizing m with
  | zero =>
    cases m with
    | zero => exact .refl _
    | succ m => exact .apart h' h
  | succ n ih =>
    cases m with
    | zero => exact .apart h h'
    | succ m => exact .cons sep (ih m)

end Text

namespace Builtin

/-- The first separator of a bracketed call with several arguments. -/
def mark (f : Builtin) : List Char :=
  (f.separators 2).headD []

theorem opens_of_bracketed {f : Builtin} (h : f.bracketed = true) :
    f.opens = ['('] ∨ f = not ∨ f = neg := by
  cases f <;> first
    | exact .inl rfl
    | exact .inr (.inl rfl)
    | exact .inr (.inr rfl)
    | cases h

theorem exists_opens_eq_cons {f : Builtin} (h : f.bracketed = true) :
    ∃ rest, f.opens = '(' :: rest := by
  rcases opens_of_bracketed h with h | rfl | rfl
  · exact ⟨_, h⟩
  · exact ⟨_, rfl⟩
  · exact ⟨_, rfl⟩

/-- Functions whose calls open alike are the same, or their first separators tell them apart. -/
theorem eq_or_marks_apart {f g : Builtin} (h : f.opens = g.opens) :
    f = g ∨ (f.opens = ['('] ∧ ¬ f.mark <+: g.mark ∧ ¬ g.mark <+: f.mark) := by
  have hall : ∀ f ∈ all, ∀ g ∈ all, f.opens = g.opens →
      f = g ∨ (f.opens = ['('] ∧ ¬ f.mark <+: g.mark ∧ ¬ g.mark <+: f.mark) := by
    decide +kernel
  exact hall f (mem_all f) g (mem_all g) h

theorem toList_name_ne_nil (f : Builtin) : f.name.toList ≠ [] := by
  have hall : ∀ f ∈ all, f.name.toList ≠ [] := by decide
  exact hall f (mem_all f)

theorem name_injective {f g : Builtin} (h : f.name = g.name) : f = g := by
  have hall : ∀ f ∈ all, ∀ g ∈ all, f.name = g.name → f = g := by decide +kernel
  exact hall f (mem_all f) g (mem_all g) h

/-- Every separator of a call occurs in a call with three arguments. -/
theorem mem_separators_three {f : Builtin} {count : Nat} {s : List Char}
    (h : s ∈ f.separators count) : s ∈ f.separators 3 := by
  have hreplicate : ∀ n {sep close : List Char}, s ∈ List.replicate n sep ++ [close] →
      s ∈ List.replicate (3 - 2) sep ++ [close] := by
    intro n sep close hs
    rcases List.mem_append.mp hs with hs | hs
    · rw [List.eq_of_mem_replicate hs]
      exact List.mem_cons_self
    · exact List.mem_append_right _ hs
  unfold separators at h ⊢
  split at h
  case h_2 | h_8 | h_9 => exact List.mem_cons_of_mem _ (hreplicate _ h)
  case h_6 => exact List.mem_cons.mpr ((List.mem_cons.mp h).imp_right (hreplicate _))
  all_goals exact h

theorem isSeparator_of_mem {f : Builtin} {count : Nat} {s : List Char}
    (h : s ∈ f.separators count) : Text.IsSeparator s := by
  have hall : ∀ f ∈ all, ∀ s ∈ f.separators 3, Text.IsSeparator s := by decide +kernel
  exact hall f (mem_all f) s (mem_separators_three h)

theorem length_separators {f : Builtin} {count : Nat} (h : f.arity.accepts count = true)
    (hpos : 0 < count) : (f.separators count).length = count := by
  rw [arity_eq] at h
  unfold separators
  cases hshape : f.shape <;> simp_all [Arity.accepts] <;> omega

/-- The separators of a call that opens with a bare bracket begin with the mark of the function. -/
theorem exists_separators_eq {f : Builtin} {count : Nat} (h : f.arity.accepts count = true)
    (hopens : f.opens = ['(']) : ∃ seps, f.separators count = f.mark :: seps := by
  rw [arity_eq] at h
  unfold mark separators
  cases hshape : f.shape with
  | chain op =>
    simp only [hshape, Arity.accepts, decide_eq_true_eq] at h
    obtain ⟨n, rfl⟩ := Nat.exists_eq_add_of_le h
    exact ⟨_, by simp [Nat.add_comm 2 n, List.replicate_succ]; rfl⟩
  | binary op => exact ⟨_, rfl⟩
  | after op => exact ⟨_, rfl⟩
  | range => exact ⟨_, rfl⟩
  | membership => exact ⟨_, rfl⟩
  | before op => exact ⟨_, rfl⟩
  | cast => exact ⟨_, rfl⟩
  | sigil s | call =>
    -- a name and a bracket are more than a bracket
    rw [opens, hshape, callWord, hshape] at hopens
    exact absurd (by simpa using hopens) (toList_name_ne_nil f)

/-- The mark of a function whose calls open with a bare bracket begins with a space. -/
theorem exists_mark_eq {f : Builtin} (hopens : f.opens = ['(']) : ∃ rest, f.mark = ' ' :: rest := by
  have hall : ∀ f ∈ all, f.opens = ['('] → f.mark.head? = some ' ' := by decide +kernel
  exact List.head?_eq_some_iff.mp (hall f (mem_all f) hopens)

/-- A call between brackets has an argument. -/
theorem pos_of_bracketed {f : Builtin} {count : Nat} (h : f.arity.accepts count = true)
    (hbracket : f.bracketed = true) : 0 < count := by
  rw [arity_eq] at h
  unfold bracketed at hbracket
  cases hshape : f.shape <;> simp_all [Arity.accepts] <;> omega

/-- The separators of one function are coherent, whatever the counts of arguments. -/
theorem coherent_separators_self (f : Builtin) (n m : Nat) :
    Text.Coherent (f.separators n) (f.separators m) := by
  unfold separators
  split
  · exact .refl _
  · -- the operator of a chain stands between spaces
    refine .replicate ?_ ?_ _ _ <;> simp
  · exact .refl _
  · exact .refl _
  · exact .refl _
  · exact .cons _ (.replicate (by decide) (by decide) _ _)
  · exact .refl _
  · exact .replicate (by decide) (by decide) _ _
  · exact .replicate (by decide) (by decide) _ _

end Builtin

/-! ## §5. Calls that are written with a word and a bracket -/

namespace Text

/-- A word that stands before the bracket of a call: it does not begin like a number or a variable. -/
def IsCallWord (w : List Char) : Prop :=
  IsWord w ∧ w.head? ≠ some '-' ∧ w.head? ≠ some '@'

instance (w : List Char) : Decidable (IsCallWord w) :=
  inferInstanceAs (Decidable (_ ∧ _))

end Text

namespace Func

/-- Whether a call with `count` arguments can be told from its text: a built-in function takes that
    many, and the name of a declared one is a word of its own. -/
def Readable (f : Func) (count : Nat) : Prop :=
  match f with
  | builtin f => f.arity.accepts count = true
  | user d => Text.IsCallWord d.name.toList ∧ d.name ≠ "CAST"

variable {f g : Func} {n m : Nat}

theorem isCallWord_callWord (h : f.Readable n) (hbracket : f.bracketed = false) :
    Text.IsCallWord f.callWord.toList := by
  cases f with
  | builtin f =>
    have hall : ∀ f ∈ Builtin.all, f.bracketed = false → Text.IsCallWord f.callWord.toList := by
      decide +kernel
    exact hall f (Builtin.mem_all f) hbracket
  | user d => exact h.1

theorem opens_eq (hbracket : f.bracketed = false) : f.opens = f.callWord.toList ++ ['('] := by
  cases f with
  | builtin f =>
    have hall : ∀ f ∈ Builtin.all, f.bracketed = false → f.opens = f.callWord.toList ++ ['('] := by
      decide +kernel
    exact hall f (Builtin.mem_all f) hbracket
  | user d => rfl

/-- The conversion to text is the only call whose word is not its name. -/
theorem callWord_eq (h : f.Readable n) (hbracket : f.bracketed = false) :
    f = builtin .castChar ∧ f.callWord = "CAST" ∨
      f.callWord = f.name ∧ f.name ≠ "CAST" ∧
        ∀ count, f.separators count = List.replicate (count - 1) ", ".toList ++ [[')']] := by
  cases f with
  | builtin f =>
    cases f
    case castChar => exact .inl ⟨rfl, rfl⟩
    all_goals first
      | exact .inr ⟨rfl, by decide, fun _ => rfl⟩
      | exact absurd hbracket (by decide)
  | user d => exact .inr ⟨rfl, h.2, fun _ => rfl⟩

/-- Functions with one word before the bracket have one name, and coherent separators. -/
theorem name_eq_of_callWord (hf : f.Readable n) (hg : g.Readable m) (hfb : f.bracketed = false)
    (hgb : g.bracketed = false) (h : f.callWord = g.callWord) :
    f.name = g.name ∧ Text.Coherent (f.separators n) (g.separators m) := by
  rcases callWord_eq hf hfb with ⟨rfl, hfword⟩ | ⟨hfword, hfcast, hfseps⟩ <;>
    rcases callWord_eq hg hgb with ⟨rfl, hgword⟩ | ⟨hgword, hgcast, hgseps⟩
  · exact ⟨rfl, .refl _⟩
  · exact absurd (hgword.symm.trans (h.symm.trans hfword)) hgcast
  · exact absurd (hfword.symm.trans (h.trans hgword)) hfcast
  · refine ⟨hfword.symm.trans (h.trans hgword), ?_⟩
    rw [hfseps, hgseps]
    exact .replicate (by decide) (by decide) _ _

theorem isSeparator_of_mem {s : List Char} (h : s ∈ f.separators n) : Text.IsSeparator s := by
  cases f with
  | builtin f => exact Builtin.isSeparator_of_mem h
  | user d =>
    rcases List.mem_append.mp h with h | h
    · rw [List.eq_of_mem_replicate h]
      decide
    · rw [List.mem_singleton.mp h]
      decide

theorem length_separators (h : f.Readable n) (hpos : 0 < n) : (f.separators n).length = n := by
  cases f with
  | builtin f => exact Builtin.length_separators h hpos
  | user d =>
    simp only [separators, List.length_append, List.length_replicate, List.length_singleton]
    omega

/-- A call without arguments is closed at once. -/
theorem separators_zero (h : f.Readable 0) (hbracket : f.bracketed = false) :
    f.separators 0 = [[')']] := by
  rcases callWord_eq h hbracket with ⟨rfl, _⟩ | ⟨_, _, hseps⟩
  · have hzero : Builtin.castChar.arity.accepts 0 = true := h
    exact absurd hzero (by decide)
  · exact hseps 0

/-- A readable call is its opening, and then its arguments with their separators. -/
theorem toList_write {args : List String} (h : f.Readable args.length) :
    (f.write none args).toList =
      f.opens ++ Text.weave (args.map String.toList) (f.separators args.length) := by
  cases f with
  | builtin f => exact Builtin.toList_write h
  | user d => exact Builtin.toList_writeCall d.name args

end Func

end PushDown
