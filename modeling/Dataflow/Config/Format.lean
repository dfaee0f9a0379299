import Dataflow.Config.Basic
import Dataflow.Json.Basic

set_option autoImplicit false

namespace Dataflow.ScheduleConfig

def fieldNames : List String :=
  ["strategy", "enable_parent_id_schedule", "enable_max_path_schedule", "max_path_weight",
    "reorder_nan_inf_probes", "optimize_memsets_location", "enable_flash_attention_ordering",
    "io_in_dram"]

def toJson (config : ScheduleConfig) : Json := .record [
  ("strategy", .text config.strategy.name),
  ("enable_parent_id_schedule", .bool config.parentIdSchedule),
  ("enable_max_path_schedule", .bool config.maxPathSchedule),
  ("max_path_weight", .text config.maxPathWeight.name),
  ("reorder_nan_inf_probes", .bool config.reorderProbes),
  ("optimize_memsets_location", .bool config.optimizeMemsets),
  ("enable_flash_attention_ordering", .bool config.orderFlashAttention),
  ("io_in_dram", .bool config.ioInDram)]

def ofJson? (json : Json) : Option ScheduleConfig := do
  let fields ← json.record? fieldNames
  return {
    strategy := ← Json.defaulted? fields "strategy" .gaudi (Json.name? Strategy.ofName?)
    parentIdSchedule := ← Json.defaulted? fields "enable_parent_id_schedule" false Json.bool?
    maxPathSchedule := ← Json.defaulted? fields "enable_max_path_schedule" false Json.bool?
    maxPathWeight := ← Json.defaulted? fields "max_path_weight" .hops (Json.name? PathWeight.ofName?)
    reorderProbes := ← Json.defaulted? fields "reorder_nan_inf_probes" true Json.bool?
    optimizeMemsets := ← Json.defaulted? fields "optimize_memsets_location" true Json.bool?
    orderFlashAttention := ← Json.defaulted? fields "enable_flash_attention_ordering" false Json.bool?
    ioInDram := ← Json.defaulted? fields "io_in_dram" false Json.bool? }

end Dataflow.ScheduleConfig
