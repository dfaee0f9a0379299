import Dataflow.CommandLine.Arguments
import Dataflow.Config.Dotenv
import Dataflow.Config.Toml
import Dataflow.Description.Build
import Dataflow.Description.Format
import Dataflow.Json.Writer
import Dataflow.Schedule.Strategy
import Dataflow.Workspace.Coherence

set_option autoImplicit false

namespace Dataflow.CommandLine

inductive RunError where
  | loading (path : String)
  | reading (path : String)
  | building (path : String) (cause : GraphError)
  | coherence (cause : GraphError)
  | scheduling (strategy : Strategy) (cause : ScheduleError)
  deriving DecidableEq

namespace RunError

def message : RunError → String
  | loading path => s!"loading schedule config {path}"
  | reading path => s!"reading {path}"
  | building path _ => s!"building graph from {path}"
  | coherence _ => "registering memory coherence"
  | scheduling strategy _ => s!"scheduling with {strategy.name}"

def cause : RunError → Option String
  | building _ error | coherence error => some error.message
  | scheduling _ error => some error.message
  | _ => none

def fault? : RunError → Option Fault
  | building _ (.fault fault) | coherence (.fault fault) => some fault
  | scheduling _ (.graph (.fault fault)) => some fault
  | _ => none

end RunError

abbrev Files := String → Option String

namespace Options

def paths (options : Options) : List String := options.config.toList ++ [options.graph]

def schedule (options : Options) (files : Files) (environment : Environment) :
    Except RunError ScheduleConfig := do
  let config ← match options.config with
    | some path =>
      match (files path).map ScheduleConfig.parse with
      | some (.ok config) => .ok config
      | _ => .error (RunError.loading path)
    | none => .ok (Config.ofEnvironment environment).schedule
  return { config with strategy := options.strategy.getD config.strategy }

def graphFrom (options : Options) (files : Files) : Except RunError Graph :=
  match files options.graph with
  | none => .error (.reading options.graph)
  | some text =>
    Except.mapError (.building options.graph) do (← GraphDescription.parse text).build

def coherent (options : Options) (graph : Graph) : Except RunError Graph :=
  if options.memoryCoherence then
    match Workspace.registerCoherence { graph } with
    | .ok _ workspace => .ok workspace.graph
    | .error error _ => .error (.coherence error)
  else .ok graph

end Options

structure Placed where
  index : Nat
  id : NodeId
  name : String

def Placed.toJson (placed : Placed) : Json := .record [
  ("index", .natural placed.index),
  ("id", .natural placed.id.val),
  ("name", .text placed.name)]

structure Report where
  strategy : Strategy
  order : List Placed

namespace Report

def ofOrder (graph : Graph) (strategy : Strategy) (order : List NodeId) : Report :=
  ⟨strategy, order.zipIdx.filterMap fun (id, index) =>
    (graph.nodes.get? id).map fun node => ⟨index, id, node.name⟩⟩

def toJson (report : Report) : Json := .record [
  ("strategy", .text report.strategy.name),
  ("order", .array (report.order.map Placed.toJson))]

def render (report : Report) : OutputFormat → String
  | .plain => String.join (report.order.map fun placed =>
      s!"{placed.index}\t{placed.id.text}\t{placed.name}\n")
  | .json => report.toJson.renderIndented ++ "\n"

end Report

def Options.run (options : Options) (files : Files) (environment : Environment) :
    Except RunError Report := do
  let config ← options.schedule files environment
  let graph ← options.coherent (← options.graphFrom files)
  let (graph, outcome) := graph.schedule config.strategy config
  let order ← outcome.mapError (.scheduling config.strategy)
  return Report.ofOrder graph config.strategy order

def programName : String := "schedule-graph"

def version : String := "0.1.0"

def usageLine : String := s!"Usage: {programName} [OPTIONS] <GRAPH>"

def helpText : String := "\n".intercalate [
  "Compute a legal execution order for a dataflow graph",
  "",
  usageLine,
  "",
  "Arguments:",
  "  <GRAPH>  JSON graph description",
  "",
  "Options:",
  "      --config <CONFIG>      TOML schedule config. Falls back to environment variables",
  "      --strategy <STRATEGY>  Override the configured strategy",
  "      --memory-coherence     Add memory coherence control edges before scheduling",
  "      --format <FORMAT>      [default: plain] [possible values: plain, json]",
  "  -h, --help                 Print help",
  "  -V, --version              Print version",
  ""]

inductive Outcome where
  | printed (text : String)
  | failed (error : RunError)
  | misused (error : UsageError)
  | broken (fault : Fault)
  | unsupplied (error : Dotenv.LoadError)
  deriving DecidableEq

namespace Outcome

def exitCode : Outcome → Nat
  | printed _ => 0
  | failed _ => 1
  | misused _ => 2
  | broken _ | unsupplied _ => 101

def output : Outcome → String
  | printed text => text
  | _ => ""

def diagnostic : Outcome → Option String
  | printed _ => none
  | failed error =>
    let cause := match error.cause with
      | some text => s!"\n\nCaused by:\n    {text}"
      | none => ""
    some s!"Error: {error.message}{cause}"
  | misused error => some s!"error: {error.message}\n\n{usageLine}"
  | broken fault => some fault.message
  | unsupplied error => some error.message

def ofStop : Stop → Outcome
  | .help => printed helpText
  | .version => printed s!"{programName} {version}\n"
  | .usage error => misused error

def ofError (error : RunError) : Outcome :=
  match error.fault? with
  | some fault => broken fault
  | none => failed error

end Outcome

def supplied (environment : Environment) (dotenv : Option String) :
    Except Dotenv.LoadError Environment :=
  match dotenv with
  | some text => Dotenv.load environment (Dotenv.assignments text)
  | none => .ok environment

def Options.call (options : Options) (files : Files) (environment : Environment) : Outcome :=
  match options.run files environment with
  | .ok report => .printed (report.render options.format)
  | .error error => .ofError error

def call (files : Files) (environment : Environment) (arguments : List String) : Outcome :=
  match supplied environment (files ".env") with
  | .error error => .unsupplied error
  | .ok environment =>
    match Options.read environment arguments with
    | .error stop => .ofStop stop
    | .ok options => options.call files environment

def variableNames : List String :=
  [configVariable, strategyVariable, coherenceVariable, Config.profileVariable]

end Dataflow.CommandLine
