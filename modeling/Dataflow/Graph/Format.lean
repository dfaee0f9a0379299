import Dataflow.Description.Format
import Dataflow.Graph.Basic

set_option autoImplicit false

namespace Dataflow

def Ident.toJson {entity : Entity} (id : Ident entity) : Json := .natural id.val

def Json.ids {entity : Entity} (ids : List (Ident entity)) : Json := .ofList Ident.toJson ids

def Annotations.toJson (annotations : Annotations) : Json := .record [
  ("bundle_info", .ofOption BundleInfo.toJson annotations.bundle),
  ("barriers", .ids annotations.barriers),
  ("range_index", .ofOption (fun index => .natural index.toNat) annotations.rangeIndex),
  ("flash_attention", .bool annotations.flashAttention)]

def Node.toJson (node : Node) : Json := .record [
  ("id", node.id.toJson),
  ("name", .text node.name),
  ("parent_id", .natural node.parentId),
  ("kind", .text node.kind.name),
  ("engine", .text node.engine.name),
  ("debug", .bool node.debug),
  ("inputs", .ids node.inputs),
  ("outputs", .ids node.outputs),
  ("control_inputs", .ids node.controlInputs),
  ("control_outputs", .ids node.controlOutputs),
  ("annotation", node.annotations.toJson)]

def Alias.toJson (view : Alias) : Json := .record [
  ("real", view.real.toJson),
  ("offset", .natural view.offset)]

def Tensor.toJson (tensor : Tensor) : Json := .record [
  ("id", tensor.id.toJson),
  ("name", .text tensor.name),
  ("size_bytes", .natural tensor.sizeBytes),
  ("producer", .ofOption Ident.toJson tensor.producer),
  ("consumers", .ids tensor.consumers),
  ("control", .ofOption (fun type => .text (ControlType.name type)) tensor.control),
  ("alias", .ofOption Alias.toJson tensor.view)]

def GraphStats.toJson (stats : GraphStats) : Json := .record [
  ("node_count", .natural stats.nodeCount),
  ("tensor_count", .natural stats.tensorCount),
  ("control_edge_count", .natural stats.controlEdgeCount),
  ("nodes_by_kind", .record (stats.nodesByKind.map fun (kind, count) => (kind.title, .natural count))),
  ("bundles", .natural stats.bundles)]

def Graph.toJson (graph : Graph) : Json := .record [
  ("nodes", .ofList Node.toJson graph.nodes.values),
  ("tensors", .ofList Tensor.toJson graph.tensors.values),
  ("stats", graph.stats.toJson)]

end Dataflow
