import Dataflow.Config.Environment

set_option autoImplicit false

namespace Dataflow.CommandLine

inductive OutputFormat where
  | plain
  | json
  deriving DecidableEq

def OutputFormat.ofName? : String → Option OutputFormat
  | "plain" => some .plain
  | "json" => some .json
  | _ => none

inductive UsageError where
  | unexpected (argument : String)
  | repeated (argument : String)
  | missingValue (argument : String)
  | unneededValue (argument : String)
  | invalidValue (argument value : String)
  | missingGraph
  deriving DecidableEq

def UsageError.message : UsageError → String
  | .unexpected argument => s!"unexpected argument '{argument}' found"
  | .repeated argument => s!"the argument '{argument}' cannot be used multiple times"
  | .missingValue argument => s!"a value is required for '{argument}' but none was supplied"
  | .unneededValue argument => s!"unexpected value for '{argument}' found; no more were expected"
  | .invalidValue argument value => s!"invalid value '{value}' for '{argument}'"
  | .missingGraph => "the following required arguments were not provided: <GRAPH>"

inductive Stop where
  | help
  | version
  | usage (error : UsageError)
  deriving DecidableEq

structure Options where
  graph : String
  config : Option String := none
  strategy : Option Strategy := none
  memoryCoherence : Bool := false
  format : OutputFormat := .plain
  deriving DecidableEq

structure Arguments where
  graph : Option String := none
  config : Option String := none
  strategy : Option Strategy := none
  memoryCoherence : Bool := false
  format : Option OutputFormat := none
  deriving DecidableEq

def invalid {α : Type} (argument value : String) : Except Stop α :=
  .error (.usage (.invalidValue argument value))

def path (argument value : String) : Except Stop String :=
  if value = "" then invalid argument value else .ok value

def strategyNamed (argument value : String) : Except Stop Strategy :=
  match Strategy.parse value with
  | .ok strategy => .ok strategy
  | .error _ => invalid argument value

def once {α : Type} (argument : String) (given : Option α) : Except Stop Unit :=
  if given.isSome then .error (.usage (.repeated argument)) else .ok ()

inductive Setting where
  | config
  | strategy
  | format
  deriving DecidableEq

def Setting.ofName? : String → Option Setting
  | "--config" => some .config
  | "--strategy" => some .strategy
  | "--format" => some .format
  | _ => none

namespace Arguments

def set (arguments : Arguments) (setting : Setting) (argument value : String) :
    Except Stop Arguments :=
  match setting with
  | .config => do
    once argument arguments.config
    return { arguments with config := ← path argument value }
  | .strategy => do
    once argument arguments.strategy
    return { arguments with strategy := ← strategyNamed argument value }
  | .format => do
    once argument arguments.format
    match OutputFormat.ofName? value with
    | some format => return { arguments with format }
    | none => invalid argument value

def setGraph (arguments : Arguments) (value : String) : Except Stop Arguments := do
  if arguments.graph.isSome then .error (.usage (.unexpected value))
  else return { arguments with graph := ← path "<GRAPH>" value }

def setCoherence (arguments : Arguments) : Except Stop Arguments :=
  if arguments.memoryCoherence then .error (.usage (.repeated "--memory-coherence"))
  else .ok { arguments with memoryCoherence := true }

end Arguments

inductive Item where
  | separator
  | value (text : String)
  | setting (setting : Setting) (name : String) (attached : Option String)
  | memoryCoherence
  | stop (stop : Stop)

def splitAttached (cs : List Char) : String × Option String :=
  (String.ofList (cs.takeWhile (· != '=')),
    match cs.dropWhile (· != '=') with
    | [] => none
    | _ :: value => some (String.ofList value))

namespace Item

def flag (name : String) (attached : Option String) (item : Item) : Item :=
  if attached.isSome then stop (.usage (.unneededValue name)) else item

def ofArgument (argument : String) : Item :=
  match argument.toList with
  | ['-', '-'] => separator
  | '-' :: '-' :: _ =>
    let (name, attached) := splitAttached argument.toList
    match Setting.ofName? name, name with
    | some found, _ => setting found name attached
    | none, "--memory-coherence" => flag name attached memoryCoherence
    | none, "--help" => flag name attached (stop .help)
    | none, "--version" => flag name attached (stop .version)
    | none, _ => stop (.usage (.unexpected name))
  | '-' :: 'h' :: _ => stop .help
  | '-' :: 'V' :: _ => stop .version
  | '-' :: _ :: _ => stop (.usage (.unexpected argument))
  | _ => value argument

end Item

def Arguments.read (arguments : Arguments) : List String → Except Stop Arguments
  | [] => .ok arguments
  | argument :: rest =>
    match Item.ofArgument argument with
    | .separator => rest.foldlM Arguments.setGraph arguments
    | .value text => do (← arguments.setGraph text).read rest
    | .setting setting name (some value) => do (← arguments.set setting name value).read rest
    | .setting setting name none =>
      match rest with
      | [] => .error (.usage (.missingValue name))
      | next :: rest =>
        match Item.ofArgument next with
        | .value text => do (← arguments.set setting name text).read rest
        | _ => .error (.usage (.missingValue name))
    | .memoryCoherence => do (← arguments.setCoherence).read rest
    | .stop stop => .error stop

def configVariable : String := "GRAPHSCHED_CONFIG"

def strategyVariable : String := "GRAPHSCHED_STRATEGY"

def coherenceVariable : String := "GRAPHSCHED_MEMORY_COHERENCE"

def orVariable {α : Type} (environment : Environment) (given : Option α) (name : String)
    (read : String → String → Except Stop α) : Except Stop (Option α) :=
  match given, environment.get? name with
  | some value, _ => .ok (some value)
  | none, some text => some <$> read name text
  | none, none => .ok none

def truth (argument value : String) : Except Stop Bool :=
  match value with
  | "true" => .ok true
  | "false" => .ok false
  | _ => invalid argument value

def Options.read (environment : Environment) (arguments : List String) : Except Stop Options := do
  let given ← Arguments.read {} arguments
  let config ← orVariable environment given.config configVariable path
  let strategy ← orVariable environment given.strategy strategyVariable strategyNamed
  let coherence ← orVariable environment (if given.memoryCoherence then some true else none)
    coherenceVariable truth
  match given.graph with
  | none => .error (.usage .missingGraph)
  | some graph =>
    return {
      graph
      config
      strategy
      memoryCoherence := coherence.getD false
      format := given.format.getD .plain }

end Dataflow.CommandLine
