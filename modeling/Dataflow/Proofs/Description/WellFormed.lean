import Dataflow.Description.Build
import Dataflow.Proofs.Acyclic
import Dataflow.Proofs.Graph.Consistent
import Dataflow.Proofs.Results

set_option autoImplicit false

namespace Dataflow

open Relation

section Edges

variable {α : Type} {r : α → α → Prop} {edges : List (α × α)}

def WithEdges (r : α → α → Prop) (edges : List (α × α)) (a b : α) : Prop := r a b ∨ (a, b) ∈ edges

theorem withEdges_snoc (edge : α × α) :
    WithEdges r (edges ++ [edge]) = fun a b => WithEdges r edges a b ∨ a = edge.1 ∧ b = edge.2 := by
  funext a b
  simp [WithEdges, or_assoc, Prod.ext_iff]

-- Edges added one after the other close no cycle exactly if none of them lies on a cycle in the end.
theorem stepwise_noReturn_iff :
    Stepwise (fun done edge => ¬ ReflTransGen (WithEdges r done) edge.2 edge.1) edges ↔
      ∀ edge ∈ edges, ¬ ReflTransGen (WithEdges r edges) edge.2 edge.1 := by
  induction edges using List.reverseRecOn with
  | nil => exact iff_of_true stepwise_nil (by simp)
  | append_singleton edges last ih =>
    rw [stepwise_snoc, ih, withEdges_snoc]
    constructor
    next =>
      rintro ⟨old, new⟩ edge member back
      rcases List.mem_append.mp member with earlier | same
      next =>
        have own : WithEdges r edges edge.1 edge.2 := Or.inr earlier
        rcases reflTransGen_iff_eq_or_transGen.mp back with same | steps
        next => exact old edge earlier (same ▸ .refl)
        next =>
          -- A cycle through an earlier edge and the last one would have refused the last one.
          rcases Acyclic.transGen_of_insert_edge steps with path | ⟨enters, leaves⟩
          next => exact old edge earlier path.to_reflTransGen
          next => exact new ((leaves.tail own).trans enters)
      next =>
        rw [List.mem_singleton.mp same] at back
        exact new (Acyclic.returns_insert_edge_iff.mp back)
    next =>
      intro closed
      have wider {a b : α} (path : ReflTransGen (WithEdges r edges) a b) :
          ReflTransGen (fun a b => WithEdges r edges a b ∨ a = last.1 ∧ b = last.2) a b :=
        ReflTransGen.mono (fun _ _ => Or.inl) _ _ path
      exact ⟨fun edge earlier back => closed edge (List.mem_append_left _ earlier) (wider back),
        fun back => closed last (by simp) (wider back)⟩

end Edges

namespace GraphDescription

variable (description : GraphDescription)

def tensorNames : List String := description.tensors.map TensorDescription.name

def nodeNames : List String := description.nodes.map NodeDescription.name

def tensorId (name : String) : TensorId := ⟨description.tensorNames.idxOf name⟩

def nodeId (name : String) : NodeId := ⟨description.nodeNames.idxOf name⟩

def Depends (source target : String) : Prop :=
  (∃ producer ∈ description.nodes, ∃ consumer ∈ description.nodes, producer.name = source ∧ consumer.name = target ∧
    ∃ tensor ∈ producer.outputs, tensor ∈ consumer.inputs) ∨
  ∃ node ∈ description.nodes, node.name = target ∧ source ∈ node.barriers

def Precedes (source target : String) : Prop :=
  description.Depends source target ∨ ∃ edge ∈ description.controlEdges, edge.source = source ∧ edge.target = target

structure WellFormed : Prop where
  tensorsDistinct : description.tensorNames.Nodup
  aliasesEarlier : ∀ {earlier tensor later}, description.tensors = earlier ++ tensor :: later →
    ∀ real ∈ tensor.aliasOf, real ∈ earlier.map TensorDescription.name
  nodesDistinct : description.nodeNames.Nodup
  tensorsDeclared : ∀ node ∈ description.nodes, ∀ tensor, tensor ∈ node.inputs ∨ tensor ∈ node.outputs →
    tensor ∈ description.tensorNames
  oneProducer : description.nodes.Pairwise fun node other => ∀ tensor ∈ node.outputs, tensor ∉ other.outputs
  barriersDeclared : ∀ node ∈ description.nodes, ∀ barrier ∈ node.barriers, barrier ∈ description.nodeNames
  endsDeclared : ∀ edge ∈ description.controlEdges,
    edge.source ∈ description.nodeNames ∧ edge.target ∈ description.nodeNames
  noSelfEdge : ∀ edge ∈ description.controlEdges, edge.source ≠ edge.target
  noCycle : ∀ edge ∈ description.controlEdges, ¬ ReflTransGen description.Precedes edge.target edge.source

variable {description}

theorem WellFormed.permute (wellFormed : description.WellFormed) {edges : List ControlEdgeDescription}
    (perm : edges.Perm description.controlEdges) : WellFormed { description with controlEdges := edges } := by
  have same : Precedes { description with controlEdges := edges } = description.Precedes := by
    funext source target
    simp [Precedes, Depends, perm.mem_iff]
  exact { wellFormed with
    endsDeclared := fun edge listed => wellFormed.endsDeclared edge (perm.mem_iff.mp listed)
    noSelfEdge := fun edge listed => wellFormed.noSelfEdge edge (perm.mem_iff.mp listed)
    noCycle := fun edge listed => same ▸ wellFormed.noCycle edge (perm.mem_iff.mp listed) }

def controls (part : GraphDescription) (endOf : ControlEdgeDescription → String) (name : String) : List TensorId :=
  ((part.controlEdges.zipIdx part.tensors.length).filter fun entry => endOf entry.1 = name).map fun entry => ⟨entry.2⟩

def tensorRecord (whole : GraphDescription) (t : TensorId) (tensor : TensorDescription) : Tensor :=
  { id := t, name := tensor.name, sizeBytes := tensor.sizeBytes.toNat
    view := tensor.aliasOf.map fun real => { real := whole.tensorId real, offset := tensor.offset.toNat } }

def controlRecord (whole : GraphDescription) (t : TensorId) (edge : ControlEdgeDescription) : Tensor :=
  let source := whole.nodeId edge.source
  let target := whole.nodeId edge.target
  { id := t, name := s!"ctrl_{source}_{target}", sizeBytes := 0, producer := some source, consumers := [target]
    control := some edge.type }

def nodeRecord (whole part : GraphDescription) (id : NodeId) (node : NodeDescription) : Node :=
  { id, name := node.name, parentId := (node.parentId.map UInt64.toNat).getD id.val, kind := node.kind
    engine := node.engine, debug := node.debug, inputs := node.inputs.map whole.tensorId
    outputs := node.outputs.map whole.tensorId, controlInputs := part.controls ControlEdgeDescription.target node.name
    controlOutputs := part.controls ControlEdgeDescription.source node.name
    annotations :=
      { bundle := node.bundle, barriers := node.barriers.map whole.nodeId, rangeIndex := node.rangeIndex
        flashAttention := node.flashAttention } }

-- Nodes and tensors are numbered in listed order, and the control tensors behind them.
structure Realizes (whole part : GraphDescription) (graph : Graph) : Prop where
  consistent : graph.Consistent
  nextNode_eq : graph.nextNode = part.nodes.length
  nextTensor_eq : graph.nextTensor = part.tensors.length + part.controlEdges.length
  node : ∀ {index node}, part.nodes[index]? = some node →
    graph.nodes.get? ⟨index⟩ = some (whole.nodeRecord part ⟨index⟩ node)
  tensor : ∀ {index tensor}, part.tensors[index]? = some tensor → ∃ record, graph.tensors.get? ⟨index⟩ = some record ∧
    { record with producer := none, consumers := [] } = whole.tensorRecord ⟨index⟩ tensor
  control : ∀ {index edge}, part.controlEdges[index]? = some edge →
    graph.tensors.get? ⟨part.tensors.length + index⟩ = some (whole.controlRecord ⟨part.tensors.length + index⟩ edge)

end GraphDescription

end Dataflow
