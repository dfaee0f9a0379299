import Dataflow.Config.Basic
import Dataflow.Text.UpperCase

set_option autoImplicit false

namespace Dataflow

-- The first entry of a name counts.
abbrev Environment := List (String × String)

namespace Environment

-- Looked up by its text, so a name with an equals sign in it reaches into the value.
def entryText (entry : String × String) : String := s!"{entry.1}={entry.2}"

def valueIn? (name : String) (entry : String × String) : Option String :=
  ((s!"{name}=").toList.isPrefixOf? (entryText entry).toList).map String.ofList

def get? (environment : Environment) (name : String) : Option String :=
  if name = "" then none else environment.findSome? (valueIn? name)

def supply (environment : Environment) (name value : String) : Environment :=
  if (environment.get? name).isSome then environment else environment ++ [(name, value)]

def value? (environment : Environment) (name : String) : Option String :=
  (environment.get? name).filter (· ≠ "")

end Environment

def profiledName (profile key : String) : String := s!"{profile}_{key}"

def settingNames (profile key : String) : List String :=
  if profile = "" then [key] else [profiledName profile key, key]

namespace Environment

def setting? (environment : Environment) (profile key : String) : Option String :=
  (settingNames profile key).findSome? environment.value?

def switch (environment : Environment) (profile key : String) (absent : Bool) : Bool :=
  match environment.setting? profile key with
  | some text => ["1", "true", "yes", "on"].contains (asciiLower text)
  | none => absent

def choice {α : Type} (environment : Environment) (profile key : String)
    (parse : String → Except ConfigError α) (absent : α) : α :=
  match (environment.setting? profile key).map parse with
  | some (.ok chosen) => chosen
  | _ => absent

end Environment

structure Config where
  profile : String
  schedule : ScheduleConfig
  deriving DecidableEq

namespace Config

def profileVariable : String := "GRAPHSCHED_PROFILE"

def keys : List String :=
  ["SCHEDULE_STRATEGY", "ENABLE_PARENT_ID_SCHEDULE", "ENABLE_MAX_PATH_SCHEDULE", "MAX_PATH_WEIGHT",
    "REORDER_NAN_INF_PROBES", "OPTIMIZE_MEMSETS_LOCATION", "ENABLE_FLASH_ATTENTION_ORDERING",
    "IO_IN_DRAM"]

def scheduleFor (environment : Environment) (profile : String) : ScheduleConfig where
  strategy := environment.choice profile "SCHEDULE_STRATEGY" Strategy.parse .gaudi
  parentIdSchedule := environment.switch profile "ENABLE_PARENT_ID_SCHEDULE" false
  maxPathSchedule := environment.switch profile "ENABLE_MAX_PATH_SCHEDULE" false
  maxPathWeight := environment.choice profile "MAX_PATH_WEIGHT" PathWeight.parse .hops
  reorderProbes := environment.switch profile "REORDER_NAN_INF_PROBES" true
  optimizeMemsets := environment.switch profile "OPTIMIZE_MEMSETS_LOCATION" true
  orderFlashAttention := environment.switch profile "ENABLE_FLASH_ATTENTION_ORDERING" false
  ioInDram := environment.switch profile "IO_IN_DRAM" false

def forProfile (environment : Environment) (profile : String) : Config :=
  let name := Text.upper profile
  ⟨name, scheduleFor environment name⟩

def ofEnvironment (environment : Environment) : Config :=
  forProfile environment ((environment.value? profileVariable).getD "")

def label (config : Config) : String :=
  if config.profile = "" then "default" else config.profile

def summary (config : Config) : List String :=
  let schedule := config.schedule
  [s!"Config loaded (profile: {config.label}):",
    s!"  schedule:    strategy={schedule.strategy.name}",
    s!"  ordering:    parent_id={schedule.parentIdSchedule}, " ++
      s!"max_path={schedule.maxPathSchedule} ({schedule.maxPathWeight.title})",
    s!"  post:        nan_inf_probes={schedule.reorderProbes}, memsets={schedule.optimizeMemsets}, " ++
      s!"flash_attention={schedule.orderFlashAttention}, io_in_dram={schedule.ioInDram}"]

end Config

end Dataflow
