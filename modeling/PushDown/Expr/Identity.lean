import PushDown.Expr.Label
import PushDown.Text.Fingerprint

/-! # Identity of expressions

    Two expressions are alike when they are of one kind and have one label. Of
    two calls the function names and the numbers of arguments have to agree as
    well, and of two bound columns the table leaves. What was inferred about a
    call plays no part.

    The hash code of a call is made from its name and the codes of its
    arguments, and that of anything else from its label. Records of expressions
    take two for the same when they are alike and have the same code.
-/

namespace PushDown.Expr

/-! ## §1. Likeness -/

/-- Whether the two are the same expression as far as their text tells. -/
def alike (a b : Expr) : Bool :=
  match a, b with
  | call f args _, call g brgs _ =>
    f.name == g.name && args.length == brgs.length && label a == label b
  | field x, field y => x.table == y.table && label a == label b
  | literal _, literal _ | column _, column _ | subquery _, subquery _ => label a == label b
  | _, _ => false

/-! ## §2. Hash codes -/

mutual

/-- The hash code of the expression. -/
def hashCode : Expr → UInt64
  | call f args _ => hashArgs (Text.fingerprint f.name * 31) args
  | literal v => Text.fingerprint (label (literal v))
  | column ref => Text.fingerprint (label (column ref))
  | field f => Text.fingerprint (label (field f))
  | subquery q => Text.fingerprint (label (subquery q))

/-- The code that the codes of arguments make of the code before them. -/
def hashArgs (code : UInt64) : List Expr → UInt64
  | [] => code
  | e :: es => hashArgs (code * 31 + hashCode e) es

end

/-! ## §3. Sameness -/

/-- Whether a record holds the two for the same expression. -/
def same (a b : Expr) : Bool :=
  a.hashCode == b.hashCode && a.alike b

end PushDown.Expr
