/-! # Classes of functions

    Rules never look at the name of a function. They ask for its class: whether
    it is an equality that can serve as a join condition, a spatial relation
    that an index can answer, and so on.
-/

namespace PushDown

/-- What a function is for. -/
inductive FunctionClass
  | unclassified
  | eq
  | nullSafeEq
  | ne
  | lt
  | le
  | ge
  | gt
  | fullText
  | like
  | isNull
  | isNotNull
  | isNotNullTest
  | and
  | or
  | xor
  | not
  | notAll
  | between
  | inList
  | multipleEq
  | interval
  | spatialEquals
  | spatialDisjoint
  | spatialIntersects
  | spatialTouches
  | spatialCrosses
  | spatialWithin
  | spatialContains
  | spatialOverlaps
  | startPoint
  | endPoint
  | exteriorRing
  | pointN
  | geometryN
  | interiorRingN
  | now
  | triggered
  /-- `@var := expr` -/
  | setUserVariable
  /-- `@var` -/
  | userVariable
  /-- `@@var` -/
  | systemVariable
  | collate
  | extract
  | charCast
  | storedProcedure
  | userDefined
  | neg
  deriving DecidableEq, Repr

namespace FunctionClass

/-- Comparisons of two operands, null-safe equality included. -/
def isComparison : FunctionClass → Bool
  | eq | nullSafeEq | ne | lt | le | ge | gt => true
  | _ => false

/-- Predicates that can serve as an equality between the sides of a join. -/
def isJoinCondition : FunctionClass → Bool
  | eq | nullSafeEq | multipleEq => true
  | _ => false

/-- Tests for `NULL`. -/
def isNullTest : FunctionClass → Bool
  | isNull | isNotNull | isNotNullTest => true
  | _ => false

/-- Connectives of predicates. -/
def isLogical : FunctionClass → Bool
  | and | or | xor | not | notAll => true
  | _ => false

/-- Spatial predicates that an index can answer. -/
def isSpatialRelation : FunctionClass → Bool
  | spatialEquals | spatialDisjoint | spatialIntersects | spatialTouches | spatialCrosses
  | spatialWithin | spatialContains | spatialOverlaps => true
  | _ => false

/-- Functions that take a part out of a geometry. -/
def isSpatialAccessor : FunctionClass → Bool
  | startPoint | endPoint | exteriorRing | pointN | geometryN | interiorRingN => true
  | _ => false

/-- Functions of the state of the session or of the server, not of a row. -/
def isVariable : FunctionClass → Bool
  | setUserVariable | userVariable | systemVariable => true
  | _ => false

end FunctionClass

end PushDown
