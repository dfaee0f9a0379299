import Dataflow.Graph.Format
import Dataflow.Plane.Basic

set_option autoImplicit false

namespace Dataflow

def PlaneNode.toJson (node : PlaneNode) : Json := .record [
  ("id", node.id.toJson),
  ("name", .text node.name),
  ("inputs", .ids node.inputs),
  ("outputs", .ids node.outputs),
  ("bundled", .ids node.members),
  ("bundle", .ofOption BundleInfo.toJson node.bundle),
  ("is_bundle", .bool node.isBundle),
  ("bundle_index", .ofOption (fun index => .natural (UInt32.toNat index)) node.bundleIndex?)]

def PlaneTensor.toJson (tensor : PlaneTensor) : Json := .array [
  tensor.id.toJson, tensor.origin.toJson, .text tensor.name, .natural tensor.sizeBytes]

namespace Plane

variable (plane : Plane)

def tensorRow (tensor : PlaneTensorId) : Json := .array [
  .text tensor.text,
  .ofOption PlaneTensor.toJson (plane.tensors.get? tensor),
  .ofOption Ident.toJson (plane.graph.producerOf.get? tensor),
  .ids (plane.graph.tensorConsumers tensor)]

def toJson (graph : Graph) : Json := .record [
  ("nodes", .ofList PlaneNode.toJson plane.graph.nodes.values),
  ("tensors", .ofList plane.tensorRow plane.graph.tensors),
  ("node_map", .ofList (fun node =>
    .array [node.toJson, .ofOption Ident.toJson (plane.nodeOf.get? node)]) graph.nodes.keys),
  ("tensor_map", .ofList (fun tensor =>
    .array [tensor.toJson, .ofOption Ident.toJson (plane.tensorOf.get? tensor)]) graph.tensors.keys),
  ("bundle_map", .ofList (fun (index, id) =>
    .array [.natural (UInt32.toNat index), Ident.toJson id]) plane.bundleOf.entries),
  ("len", .natural plane.graph.nodes.size),
  ("empty", .bool (plane.graph.nodes.size = 0)),
  ("tensor_count", .natural plane.graph.tensors.length),
  ("frozen", .bool plane.frozen)]

end Plane

end Dataflow
