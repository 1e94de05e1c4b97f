/-! # Argument counts -/

namespace PushDown

/-- The argument counts a function accepts. -/
inductive Arity
  | exactly (count : Nat)
  /-- Both ends are accepted; a range with its ends the wrong way round accepts nothing. -/
  | range (least greatest : Nat)
  | atLeast (least : Nat)
  deriving DecidableEq, Repr

namespace Arity

/-- Whether a function of this arity takes `count` arguments. -/
def accepts : Arity → Nat → Bool
  | exactly n, count => count == n
  | range least greatest, count => least ≤ count && count ≤ greatest
  | atLeast least, count => least ≤ count

/-- The arity as error messages put it. -/
def text : Arity → String
  | exactly n => toString n
  | range least greatest => toString least ++ " to " ++ toString greatest
  | atLeast least => "at least " ++ toString least

end Arity

end PushDown
