import PushDown.Scenario.Build
import PushDown.Scenario.Decode
import PushDown.ShardQuery
import PushDown.Text.Lines

/-! # The command line

    The command reads a scenario, places its predicates at the root of its
    plan, and prints where each of them went; on request also the query of each
    shard table. This module computes what is printed from the arguments and
    the text of the scenario.
-/

namespace PushDown.CommandLine

/-! ## §1. Arguments -/

/-- What the command is asked for. -/
structure Options where
  /-- The file that holds the scenario. -/
  scenario   : Option String := none
  /-- Whether the arguments of predicates on several tables are left alone. -/
  restricted : Bool := false
  /-- Whether the shard queries are printed. -/
  sql        : Bool := false
  /-- Whether more is logged. -/
  debug      : Bool := false
  deriving DecidableEq, Repr

/-- Reads the arguments of the command, from left to right. -/
def Options.parse (options : Options) : List String → Except String Options
  | [] => .ok options
  | "--sql" :: rest => parse { options with sql := true } rest
  | "--push-down-restricted" :: rest => parse { options with restricted := true } rest
  | "--debug" :: rest | "-d" :: rest => parse { options with debug := true } rest
  | "--scenario" :: path :: rest | "-s" :: path :: rest =>
    parse { options with scenario := some path } rest
  | other :: _ => .error ("error: unexpected argument '" ++ other ++ "' found")

/-! ## §2. Errors -/

/-- What was being done when something went wrong, and the causes of it, outermost first. -/
structure Report where
  context : String
  causes  : List String
  deriving DecidableEq, Repr

/-- The number of a cause, set to the right in five columns. -/
def Report.numeral (number : Nat) : String :=
  let digits := toString number
  "".pushn ' ' (5 - digits.length) ++ digits

/-- The causes with their numbers from `number` on. -/
def Report.numbered (number : Nat) : List String → List String
  | [] => []
  | cause :: causes =>
    (numeral number ++ ": " ++ Text.hang ("".pushn ' ' 7) cause) :: numbered (number + 1) causes

/-- The causes as they are printed. A single cause has no number. -/
def Report.listing : List String → List String
  | [] => []
  | [cause] => ["", "Caused by:", "    " ++ Text.hang "    " cause]
  | causes => ["", "Caused by:"] ++ numbered 0 causes

/-- The report as it is printed. -/
def Report.text (report : Report) : String :=
  Text.ofLines (("Error: " ++ report.context) :: listing report.causes)

/-- The causes of a failure of the planner. -/
def causesOf : Failure → List String
  | .rejected e => [e.message]
  | .broken (.noSuchNode id) => ["no plan node " ++ NodeId.text id]
  | .broken _ => ["type inference left its range"]

/-! ## §3. The command -/

/-- What the command prints, and whether it succeeds. -/
structure Outcome where
  success : Bool
  output  : String
  errors  : String
  deriving DecidableEq, Repr

/-- The outcome of a command that ends well after some lines. -/
def Outcome.finished (output : List String) : Outcome :=
  ⟨true, Text.ofLines output, ""⟩

/-- The outcome of a command that stops with a report after some lines. -/
def Outcome.failed (output : List String) (context : String) (causes : List String) : Outcome :=
  ⟨false, Text.ofLines output, (Report.mk context causes).text⟩

/-- Places the predicates in order at a node, and collects the placements. -/
def placeAll (id : NodeId) (restricted : Bool) (plan : Plan) (placements : List Placement) :
    List Expr → Except Failure (List Placement × Plan)
  | [] => .ok (placements, plan)
  | predicate :: predicates =>
    match plan.planFilter id restricted predicate with
    | (.error failure, _) => .error failure
    | (.ok placed, plan) => placeAll id restricted plan (placements ++ placed) predicates

/-- The lines about the placements, or about what the shards receive after them. -/
def listing (built : BuiltScenario) (options : Options) (plan : Plan)
    (placements : List Placement) : Outcome :=
  let explained := do
    let root ← plan.tree.describe built.root
    let lines ← plan.explain built.root placements
    return ("Plan root: " ++ root) :: lines.map ("  " ++ ·)
  match explained with
  | .error fault => .failed [] "Failed to explain" (causesOf (.broken fault))
  | .ok output =>
    if options.sql then
      let output := output ++ ["", "Shard queries:"]
      match plan.shardQueries built.registry built.root placements with
      | .error failure => .failed output "Failed to render shard queries" (causesOf failure)
      | .ok queries => .finished (output ++ queries.map fun q => "  " ++ q.text)
    else
      .finished output

/-- The command on a scenario that is read. -/
def runScenario (options : Options) (scenario : Scenario) : Outcome :=
  match scenario.build with
  | .error e => .failed [] "Failed to build scenario" e.chain
  | .ok built =>
    let restricted := options.restricted || built.restricted
    match placeAll built.root restricted (.ofTree built.tree) [] built.predicates with
    | .error failure => .failed [] "Failed to place predicate" (causesOf failure)
    | .ok (placements, plan) => listing built options plan placements

/-- The command on what was read, or on nothing if that was no scenario. -/
def runParsed (options : Options) : Option Scenario → Outcome
  | none => .failed [] "Failed to parse scenario" []
  | some scenario => runScenario options scenario

/-- The command on the text of the file, or on none if the file cannot be read. -/
def run (options : Options) : Option String → Outcome
  | none => .failed [] ("Failed to read scenario " ++ options.scenario.getD "") []
  | some text => runParsed options (Scenario.parse? text)

end PushDown.CommandLine
