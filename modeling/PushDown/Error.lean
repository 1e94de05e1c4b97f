import PushDown.Expr.Arity
import PushDown.Plan.NodeSet

/-! # Errors

    A request can be rejected: it names something that does not exist, names it
    twice, or asks for what cannot be had. `PlanError` lists the causes, and
    `PlanError.message` words them.

    A `Fault` is a request that has no answer at all, such as one about a plan
    node that is not there, or a step of type inference that leaves its range.
    Nothing is changed by either.
-/

namespace PushDown

/-! ## §1. Rejections -/

/-- Why a request is rejected. -/
inductive PlanError
  | unknownColumn (column : String)
  | ambiguousColumn (column : String)
  | unknownTable (table : String)
  /-- Two visible tables have the name. -/
  | nonUniqueTable (table : String)
  /-- A column reference that is bound to no table came to type inference. -/
  | unresolvedColumn (column : String)
  | duplicateTable (table : String)
  | duplicateColumn (table column : String)
  /-- The function cannot be rebuilt or written for a shard. -/
  | unsupported (function : String)
  | unknownFunction (function : String)
  | duplicateFunction (function : String)
  | argumentCount (function : String) (expected : Arity) (actual : Nat)
  | invalidPlanNode (detail : String)
  deriving DecidableEq, Repr

namespace PlanError

/-- The wording of the error. -/
def message : PlanError → String
  | unknownColumn column => "Unknown column '" ++ column ++ "'"
  | ambiguousColumn column => "Column '" ++ column ++ "' is ambiguous"
  | unknownTable table => "Unknown table '" ++ table ++ "'"
  | nonUniqueTable table => "Not unique table/alias: '" ++ table ++ "'"
  | unresolvedColumn column => "Column '" ++ column ++ "' is not bound to any table"
  | duplicateTable table => "Table '" ++ table ++ "' already exists"
  | duplicateColumn table column =>
    "Duplicate column '" ++ column ++ "' in table '" ++ table ++ "'"
  | unsupported function => "Unexpected function: " ++ function
  | unknownFunction function => "Unknown function: " ++ function
  | duplicateFunction function => "Function " ++ function ++ " is already registered"
  | argumentCount function expected actual =>
    "Function " ++ function ++ " expects " ++ expected.text ++ " arguments, got " ++ toString actual
  | invalidPlanNode detail => "Invalid plan node: " ++ detail

/-- Whether a name could not be bound. -/
def isBindingFailure : PlanError → Bool
  | unknownColumn _ | ambiguousColumn _ | unknownTable _ | nonUniqueTable _
  | unresolvedColumn _ => true
  | duplicateTable _ | duplicateColumn _ _ | unsupported _ | unknownFunction _
  | duplicateFunction _ | argumentCount _ _ _ | invalidPlanNode _ => false

/-- Whether something has no form in the language of the shards. -/
def isUnsupported : PlanError → Bool
  | unsupported _ => true
  | _ => false

end PlanError

/-! ## §2. Faults -/

/-- Why a request has no answer. -/
inductive Fault
  /-- No plan node has the number. -/
  | noSuchNode (id : NodeId)
  /-- Type inference looks at an argument that is not there. -/
  | noSuchArgument (index : Nat)
  /-- A sum of lengths is above the greatest length. -/
  | lengthTooGreat
  /-- A difference of lengths is below zero. -/
  | lengthBelowZero
  /-- The types of arguments are looked at before the arguments are fixed. -/
  | unfixedArgument
  deriving DecidableEq, Repr

/-- A rejection or a fault. -/
inductive Failure
  | rejected (error : PlanError)
  | broken (fault : Fault)
  deriving DecidableEq, Repr

/-! ## §3. Results -/

namespace Result

variable {ε δ α β : Type} {x : Except ε α}

theorem exists_of_map {f : α → β} {b : β} (h : x.map f = .ok b) : ∃ a, x = .ok a ∧ f a = b := by
  match x, h with
  | .ok a, h => exact ⟨a, rfl, Except.ok.inj h⟩

theorem of_mapError {g : ε → δ} {a : α} (h : x.mapError g = .ok a) : x = .ok a := by
  match x, h with
  | .ok b, h => rw [Except.ok.inj h]

theorem exists_of_bind {f : α → Except ε β} {b : β} (h : x >>= f = .ok b) :
    ∃ a, x = .ok a ∧ f a = .ok b := by
  match x, h with
  | .ok a, h => exact ⟨a, rfl, h⟩

/-- What goes on after a success succeeds when every continuation does. -/
theorem exists_bind {f : α → Except ε β} (hx : ∃ a, x = .ok a) (hf : ∀ a, ∃ b, f a = .ok b) :
    ∃ b, x >>= f = .ok b := by
  obtain ⟨a, rfl⟩ := hx
  exact hf a

/-- The failure, if there is one. -/
def error? : Except ε α → Option ε
  | .ok _ => none
  | .error e => some e

theorem error?_eq_none_iff : error? x = none ↔ ∃ a, x = .ok a := by
  cases x with
  | ok a => exact iff_of_true rfl ⟨a, rfl⟩
  | error e => exact iff_of_false nofun nofun

theorem error?_eq_some_iff {e : ε} : error? x = some e ↔ x = .error e := by
  cases x with
  | ok a => exact iff_of_false nofun nofun
  | error found => rw [error?, Option.some.injEq, Except.error.injEq]

end Result

end PushDown
