import PushDown.Json.Parser
import PushDown.Json.Printer
import PushDown.Scenario.Syntax

/-! # Reading scenarios

    Scenarios are written in JSON. A record is an object whose members it does
    not know are left alone, or a list of its fields in order. A variant is an
    object with the name of the variant as its only member, or the bare name
    when the variant has no content.

    At most 127 lists and objects may be nested around anything that is read.
    The readers of plans and expressions take the number that is left.
-/

namespace PushDown

namespace Decode

/-! ## §1. Fields -/

/-- A field that may be missing, with the value it then has. -/
def orElse {α : Type} (missing : α) (read : Json → Option α) : Option Json → Option α
  | none => some missing
  | some json => read json

/-- A field that may be missing or `null`. -/
def optional {α : Type} (read : Json → Option α) : Option Json → Option (Option α)
  | none | some .null => some none
  | some json => (read json).map some

/-- A field that is a list. -/
def listOf {α : Type} (read : Json → Option α) (json : Json) : Option (List α) :=
  json.items?.bind fun items => items.mapM read

/-- The greatest number of 32 bits. -/
def greatest32 : Nat := 4294967295

/-- The greatest number of 64 bits. -/
def greatest64 : Nat := 18446744073709551615

/-! ## §2. Types, constants and functions -/

/-- Whether a list or an object may start where `depth` more may be nested; anything else may. -/
def mayOpen (depth : Nat) : Json → Bool
  | .array _ | .object _ => 0 < depth
  | _ => true

/-- A variant without content. -/
def tag (depth : Nat) (json : Json) : Option String :=
  if mayOpen depth json then json.tag? else none

/-- A column type by its name. -/
def fieldType (depth : Nat) (json : Json) : Option FieldType :=
  (tag depth json).bind FieldType.ofName?

/-- A constant. -/
def value (depth : Nat) (json : Json) : Option Value :=
  if mayOpen depth json then
    match json.variant? with
    | some ("null", content) => if Json.isBlank content then some .null else none
    | some ("int", some content) => content.int64?.map .int
    | some ("real", some content) => content.real?.map .real
    | some ("decimal", some content) => content.text?.map .decimal
    | some ("string", some content) => content.text?.map .string
    | _ => none
  else
    none

/-- An arity. -/
def arity (json : Json) : Option Arity :=
  match json.variant? with
  | some ("exact", some content) => (content.nat? greatest64).map .exactly
  | some ("at_least", some content) => (content.nat? greatest64).map .atLeast
  | some ("range", some (.array [least, greatest])) =>
    match least.nat? greatest64, greatest.nat? greatest64 with
    | some least, some greatest => some (.range least greatest)
    | _, _ => none
  | _ => none

/-- A length rule by its name. -/
def lengthRule (json : Json) : Option LengthRule :=
  json.tag?.bind LengthRule.ofName?

/-- The declaration of a function. -/
def functionDef (json : Json) : Option FunctionDef :=
  match json.fields? ["name", "arity", "inference", "volatile", "field_type"] with
  | some [some name, some arityField, rule, volatile, result] => do
    let name ← name.text?
    let arity ← arity arityField
    let rule ← orElse .real lengthRule rule
    let volatile ← orElse false Json.bool? volatile
    let result? ← optional (fieldType 1) result
    return { name, arity, rule, volatile, result? }
  | _ => none

/-! ## §3. Tables and plans -/

/-- A declared column. -/
def columnSpec (json : Json) : Option ColumnSpec :=
  match json.fields? ["name", "type", "length", "decimals", "nullable"] with
  | some [some name, some type, length, scale, nullable] => do
    let name ← name.text?
    let fieldType ← fieldType 1 type
    let length? ← optional (Json.nat? greatest32) length
    let scale? ← optional (Json.nat? greatest32) scale
    let nullable ← orElse true Json.bool? nullable
    return { name, fieldType, length?, scale?, nullable }
  | _ => none

/-- A declared table. -/
def tableSpec (json : Json) : Option TableSpec :=
  match json.fields? ["name", "columns"] with
  | some [some name, some columns] => do
    let name ← name.text?
    let columns ← listOf columnSpec columns
    return { name, columns }
  | _ => none

/-- The kind of a join. -/
def joinSpec (depth : Nat) (json : Json) : Option JoinSpec :=
  match tag depth json with
  | some "inner" => some .inner
  | some "left" => some .left
  | some "right" => some .right
  | _ => none

/-- The content of a table leaf. -/
def leafSpec (json : Json) : Option PlanSpec :=
  match json.fields? ["name", "alias"] with
  | some [some name, renamed] => do
    let name ← name.text?
    let renamed ← optional Json.text? renamed
    return .table name renamed
  | _ => none

/-- A declared plan, where `depth` more lists and objects may be nested. -/
def planSpec : (depth : Nat) → Json → Option PlanSpec
  | 0, json => if json.text? = some "no_name" then some .noName else none
  | depth + 1, json =>
    match json.variant? with
    | some ("no_name", content) => if Json.isBlank content then some .noName else none
    | some ("table", some content) => if mayOpen depth content then leafSpec content else none
    | some ("join", some content) =>
      match depth with
      | 0 => none
      | depth + 1 =>
        match content.fields? ["kind", "left", "right"] with
        | some [some kind, some left, some right] =>
          match joinSpec depth kind, planSpec depth left, planSpec depth right with
          | some kind, some left, some right => some (.join kind left right)
          | _, _, _ => none
        | _ => none
    | some ("query", some content) =>
      match depth with
      | 0 => none
      | depth + 1 =>
        match content.fields? ["child"] with
        | some [some child] => (planSpec depth child).map .query
        | _ => none
    | _ => none

/-! ## §4. Expressions -/

/-- The content of a subquery, where `depth` more lists and objects may be nested. -/
def subquerySpec (depth : Nat) (json : Json) : Option ExprSpec :=
  match json.fields? ["label", "type", "correlated"] with
  | some [some label, some type, outer] => do
    let label ← label.text?
    let type ← fieldType depth type
    let outer ← orElse [] (fun json => if mayOpen depth json then listOf Json.text? json else none)
      outer
    return .subquery label type outer
  | _ => none

/-- A declared expression, where `depth` more lists and objects may be nested. -/
def exprSpec : (depth : Nat) → Json → Option ExprSpec
  | 0, _ => none
  | depth + 1, json =>
    match json.variant? with
    | some ("column", some content) => content.text?.map .column
    | some ("value", some content) => (value depth content).map .value
    | some ("subquery", some content) =>
      if mayOpen depth content then subquerySpec (depth - 1) content else none
    | some ("call", some content) =>
      match depth with
      | 0 => none
      | depth + 1 =>
        match content.fields? ["name", "args"] with
        | some [some name, none] => name.text?.map (.call · [])
        | some [some name, some (.array args)] =>
          match depth with
          | 0 => none
          | depth + 1 =>
            match name.text?, args.mapM (exprSpec depth) with
            | some name, some args => some (.call name args)
            | _, _ => none
        | _ => none
    | _ => none

/-! ## §5. Scenarios -/

/-- How many lists and objects may be nested. -/
def greatestDepth : Nat := 127

/-- A scenario. -/
def scenario (json : Json) : Option Scenario :=
  match json.fields? ["tables", "plan", "where", "functions", "push_down_restricted"] with
  | some [some tables, some plan, predicates, functions, restricted] => do
    let tables ← listOf tableSpec tables
    let plan ← planSpec (greatestDepth - 1) plan
    let predicates ← orElse [] (listOf (exprSpec (greatestDepth - 2))) predicates
    let functions ← orElse [] (listOf functionDef) functions
    let restricted ← orElse false Json.bool? restricted
    return { tables, plan, predicates, functions, restricted }
  | _ => none

end Decode

/-- Reads a scenario from its text. -/
def Scenario.parse? (text : String) : Option Scenario :=
  (Json.parse? text).bind Decode.scenario

/-- Reads a scenario that is part of a larger JSON value. It is handed on as text, so that its numbers
    are read a second time. -/
def Scenario.ofJson? (json : Json) : Option Scenario :=
  json.write?.bind Scenario.parse?

end PushDown
