import PushDown.Expr.Identity

/-! # Ownership records

    At each plan node it is recorded which expressions were met there and which
    node owns each of them. An expression is recorded once: the first owner
    stays.

    A record has two parts. The groups list the owners in the order in which
    they first appear, each with its expressions in the order in which they
    were recorded. The index finds the owner of an expression.
-/

namespace PushDown

/-- An entry of the index. The hash code is kept with the expression, so that a search looks at the
    text of few expressions. -/
structure Recorded where
  expr    : Expr
  owner   : NodeId
  code    : UInt64
  code_eq : code = expr.hashCode := by rfl

/-- The expressions met at a plan node, with their owners. -/
structure Ownership where
  groups : List (NodeId × List Expr)
  index  : List Recorded

namespace Ownership

/-- Nothing is recorded. -/
def empty : Ownership := ⟨[], []⟩

instance : Inhabited Ownership := ⟨empty⟩

/-- The entry of the index for an expression, if it is recorded. -/
def find? (own : Ownership) (e : Expr) : Option Recorded :=
  let code := e.hashCode
  own.index.find? fun r => r.code == code && r.expr.alike e

/-- The owner of an expression, if it is recorded. -/
def ownerOf? (own : Ownership) (e : Expr) : Option NodeId :=
  (own.find? e).map (·.owner)

/-- Puts an expression at the end of the group of its owner, or starts the group. -/
def addToGroup (owner : NodeId) (e : Expr) :
    List (NodeId × List Expr) → List (NodeId × List Expr)
  | [] => [(owner, [e])]
  | (other, es) :: groups =>
    if other = owner then (other, es ++ [e]) :: groups
    else (other, es) :: addToGroup owner e groups

/-- Whether the expression is recorded. -/
def contains (own : Ownership) (e : Expr) : Bool :=
  (own.find? e).isSome

/-- Records an expression under an owner, unless it is recorded already. -/
def add (own : Ownership) (owner : NodeId) (e : Expr) : Ownership :=
  if own.contains e then own
  else
    { groups := addToGroup owner e own.groups
      index := own.index ++ [{ expr := e, owner, code := e.hashCode }] }

/-- Records an expression under an owner, and answers whether it was recorded only now. -/
def addNew (own : Ownership) (owner : NodeId) (e : Expr) : Ownership × Bool :=
  (own.add owner e, !own.contains e)

/-- The expressions of an owner, in the order in which they were recorded. -/
def ownedBy (own : Ownership) (owner : NodeId) : List Expr :=
  (own.groups.lookup owner).getD []

/-- The number of recorded expressions. -/
def size (own : Ownership) : Nat :=
  own.index.length

/-- Whether nothing is recorded. -/
def isEmpty (own : Ownership) : Bool :=
  own.groups.isEmpty

end Ownership

end PushDown
