import Dataflow.Description.Build
import Dataflow.Proofs.Graph.Edit
import Dataflow.Proofs.Results

set_option autoImplicit false

namespace Dataflow

namespace GraphDescription

variable {graph after : Graph}

theorem consistent_addTensor {tensors tensors' : Directory .tensor} {tensor : TensorDescription}
    (consistent : graph.Consistent) (added : addTensor (graph, tensors) tensor = .ok (after, tensors')) :
    after.Consistent := by
  simp only [addTensor] at added
  split at added
  next => cases added
  next =>
    cases viewed : tensor.aliasOf with
    | none =>
      rw [viewed] at added
      cases added
      exact consistent.addTensor _ _
    | some real =>
      rw [viewed] at added
      cases named : tensors.find? real with
      | none => simp only [named] at added; cases added
      | some target =>
        simp only [named] at added
        obtain ⟨⟨id, extended⟩, pushed, rest⟩ := bind_eq_ok.mp added
        cases rest
        exact consistent.addAlias pushed

theorem consistent_addNode {tensors : Directory .tensor} {nodes nodes' : Directory .node}
    {node : NodeDescription} (consistent : graph.Consistent)
    (added : addNode tensors (graph, nodes) node = .ok (after, nodes')) : after.Consistent := by
  simp only [addNode] at added
  split at added
  next => cases added
  next =>
    obtain ⟨inputs, -, added⟩ := bind_eq_ok.mp added
    obtain ⟨outputs, -, added⟩ := bind_eq_ok.mp added
    obtain ⟨⟨id, extended⟩, pushed, rest⟩ := bind_eq_ok.mp added
    cases rest
    exact consistent.addNode pushed

theorem consistent_addBarriers {nodes : Directory .node} {node : NodeDescription}
    (consistent : graph.Consistent) (added : addBarriers nodes graph node = .ok after) :
    after.Consistent := by
  simp only [addBarriers] at added
  split at added
  next => cases added; exact consistent
  next =>
    obtain ⟨id, -, added⟩ := bind_eq_ok.mp added
    obtain ⟨barriers, -, added⟩ := bind_eq_ok.mp added
    exact consistent.annotate added

theorem consistent_addControlEdge {nodes : Directory .node} {edge : ControlEdgeDescription}
    (consistent : graph.Consistent) (added : addControlEdge nodes graph edge = .ok after) :
    after.Consistent := by
  simp only [addControlEdge] at added
  obtain ⟨source, -, added⟩ := bind_eq_ok.mp added
  obtain ⟨target, -, added⟩ := bind_eq_ok.mp added
  obtain ⟨⟨t, extended⟩, pushed, rest⟩ := bind_eq_ok.mp added
  cases rest
  obtain ⟨-, known, known', -, -, rfl⟩ := Graph.addControlEdge_eq_ok pushed
  exact consistent.withControl edge.type known known'

theorem consistent_build {description : GraphDescription} (built : description.build = .ok graph) :
    graph.Consistent := by
  simp only [build] at built
  obtain ⟨⟨withTensors, tensors⟩, first, built⟩ := bind_eq_ok.mp built
  obtain ⟨⟨withNodes, nodes⟩, second, built⟩ := bind_eq_ok.mp built
  obtain ⟨withBarriers, third, fourth⟩ := bind_eq_ok.mp built
  have start : withTensors.Consistent :=
    foldlM_invariant (P := fun state => state.1.Consistent) (fun holds => consistent_addTensor holds)
      Graph.consistent_empty first
  have noded : withNodes.Consistent :=
    foldlM_invariant (P := fun state => state.1.Consistent) (fun holds => consistent_addNode holds)
      start second
  have barred : withBarriers.Consistent := foldlM_invariant consistent_addBarriers noded third
  exact foldlM_invariant consistent_addControlEdge barred fourth

end GraphDescription

def GraphDescription.graph (description : GraphDescription) : Graph := description.build.toOption.getD {}

theorem GraphDescription.consistent_graph (description : GraphDescription) : description.graph.Consistent := by
  unfold GraphDescription.graph
  cases built : description.build with
  | error => exact Graph.consistent_empty
  | ok => exact consistent_build built

end Dataflow
