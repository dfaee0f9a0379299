import Dataflow.Proofs.Plane.Ordering
import Dataflow.Proofs.Plane.Splitting
import Dataflow.Proofs.Workspace.Quotient

set_option autoImplicit false

namespace Dataflow

open Relation

theorem Graph.edge_withControl {graph : Graph} (linked : graph.Linked) {blocking blocked : NodeId} (type : ControlType)
    (acyclic : Acyclic graph.Edge) (blockedThere : blocked ∈ graph.nodeIds)
    (apart : graph.reaches blocked blocking = false) : Acyclic (graph.withControl blocking blocked type).Edge := by
  have noReturn : ¬ ReflTransGen graph.Edge blocked blocking := by
    intro back
    have reached := (reaches_iff linked blockedThere blocking).mpr <| ReflTransGen.mono (fun source target edge =>
      Blocks.both_iff.mpr ⟨edge.1, (edge.2.known linked).1, (edge.2.known linked).2, Or.inl edge.2⟩) _ _ back
    rw [apart] at reached
    cases reached
  refine (acyclic.insert_edge noReturn).mono ?_
  rintro source target ⟨differ, feeds⟩
  exact ((feeds_withControl linked type source target).mp feeds).imp_left fun old => ⟨differ, old⟩

inductive Adjustment where
  | order (blocking blocked : NodeId) (type : ControlType)
  | unbundle (node : NodeId)

namespace Adjustment

def apply : Adjustment → EditM Unit
  | .order blocking blocked type => discard <| Workspace.addControlEdge blocking blocked type
  | .unbundle node => Workspace.onPlane fun graph => Plane.unbundle graph node

theorem apply_unbundle (node : NodeId) :
    (Adjustment.unbundle node).apply = Workspace.onPlane fun graph => Plane.unbundle graph node := rfl

-- The plane does not lead back to the earlier node, and the node that leaves stands between no other members.
def Harmless (workspace : Workspace) : Adjustment → Prop
  | .order blocking blocked _ => ∀ plane, workspace.plane = some plane → ∀ source target,
    plane.nodeOf.get? blocking = some source → plane.nodeOf.get? blocked = some target →
      source = target ∨ ¬ ReflTransGen plane.graph.Feeds target source
  | .unbundle node => ∀ plane, workspace.plane = some plane → ¬ plane.Between workspace.graph node

end Adjustment

namespace Workspace

inductive Adjusted (allowed : Workspace → Adjustment → Prop) (start : Workspace) : Workspace → Prop
  | start : Adjusted allowed start start
  | step {workspace after : Workspace} {adjustment : Adjustment} : Adjusted allowed start workspace →
    allowed workspace adjustment → adjustment.apply workspace = .ok () after → Adjusted allowed start after

-- The plane itself may have a cycle.
structure Layered (workspace : Workspace) (plane : Plane) : Prop where
  attached : workspace.plane = some plane
  consistent : workspace.graph.Consistent
  acyclic : Acyclic workspace.graph.Edge
  tiles : Plane.Tiles workspace.graph workspace.graph.nodeIds plane
  unfrozen : plane.frozen = false

theorem layered_ofAnnotations {graph : Graph} {plane : Plane} (consistent : graph.Consistent)
    (annotated : Plane.ofAnnotations graph (fun _ => true) = .ok plane) :
    Layered { graph, plane := some plane } plane ∧ Acyclic plane.graph.Feeds := by
  obtain ⟨built, loopless⟩ := Plane.built_of_ofAnnotations consistent annotated
  exact ⟨⟨rfl, consistent, Plane.acyclic_of_ofAnnotations consistent annotated, built.toTiles, built.unfrozen⟩, loopless⟩

section Step

variable {workspace after : Workspace} {plane : Plane} (layered : Layered workspace plane)
  (loopless : Acyclic plane.graph.Feeds)

include layered

theorem Layered.addControlEdge_ok {blocking blocked : NodeId} {type : ControlType} {t : TensorId} {graph : Graph}
    (edited : workspace.graph.addControlEdge blocking blocked type = .ok (t, graph)) :
    ∃ next, addControlEdge blocking blocked type workspace = .ok t { graph, plane := some next } ∧
      Layered { graph, plane := some next } next ∧ next.nodeOf = plane.nodeOf ∧
      graph = workspace.graph.withControl blocking blocked type := by
  obtain ⟨differ, blockingThere, blockedThere, apart, rfl, rfl⟩ := Graph.addControlEdge_eq_ok edited
  obtain ⟨next, followed, tiled, same, unfrozen⟩ :=
    layered.tiles.addRelationship_ok layered.consistent layered.unfrozen type blockingThere blockedThere
  refine ⟨next, ?_, ?_, same, rfl⟩
  next =>
    have linking : onPlane (fun graph => Plane.addRelationship graph ⟨workspace.graph.nextTensor⟩ blocking blocked)
        { workspace with graph := workspace.graph.withControl blocking blocked type } =
          .ok () { graph := workspace.graph.withControl blocking blocked type, plane := some next } :=
      onPlane_of_ok layered.attached followed
    unfold addControlEdge
    rw [stateful_bind_of_ok _ (onGraph_of_ok edited), stateful_bind_of_ok _ linking]
    rfl
  next =>
    exact ⟨rfl, layered.consistent.withControl type blockingThere blockedThere,
      Graph.edge_withControl layered.consistent.toLinked type layered.acyclic blockedThere apart, tiled, unfrozen⟩

theorem Layered.order_ok {blocking blocked : NodeId} {type : ControlType} {t : TensorId} {graph : Graph}
    (loopless : Acyclic plane.graph.Feeds)
    (edited : workspace.graph.addControlEdge blocking blocked type = .ok (t, graph)) :
    ∃ after next, (Adjustment.order blocking blocked type).apply workspace = .ok () after ∧ Layered after next ∧
      (Acyclic next.graph.Feeds ↔ (Adjustment.order blocking blocked type).Harmless workspace) := by
  obtain ⟨next, ran, layered', same, rfl⟩ := layered.addControlEdge_ok edited
  obtain ⟨-, blockingThere, blockedThere, -⟩ := Graph.addControlEdge_eq_ok edited
  obtain ⟨source, sourceOf⟩ := (layered.tiles.covers blocking).mpr blockingThere
  obtain ⟨target, targetOf⟩ := (layered.tiles.covers blocked).mpr blockedThere
  refine ⟨_, next, stateful_discard_eq_ok.mpr ⟨t, ran⟩, layered', ?_⟩
  rw [layered.tiles.acyclic_withControl_iff layered.consistent.toLinked layered'.tiles same sourceOf targetOf loopless]
  simp [Adjustment.Harmless, layered.attached, sourceOf, targetOf]

include loopless

theorem Layered.unbundle_cases {node : NodeId} (known : node ∈ workspace.graph.nodeIds) :
    (Adjustment.unbundle node).Harmless workspace ∧ (∃ after next,
        (Adjustment.unbundle node).apply workspace = .ok () after ∧ Layered after next ∧ Acyclic next.graph.Feeds) ∨
      ¬ (Adjustment.unbundle node).Harmless workspace ∧ ∃ after,
        (Adjustment.unbundle node).apply workspace = .error (.fault .cyclicFusion) after := by
  obtain ⟨next, tiled, frozen, splits, made, failed⟩ := layered.tiles.unbundle_splits layered.consistent loopless known
  have harmless_iff : (Adjustment.unbundle node).Harmless workspace ↔ Acyclic next.graph.Feeds := by
    rw [splits.acyclic_iff layered.tiles tiled known layered.consistent.toLinked loopless]
    simp [Adjustment.Harmless, layered.attached]
  rw [harmless_iff]
  by_cases acyclic : Acyclic next.graph.Feeds
  next =>
    have ran : (Adjustment.unbundle node).apply workspace = .ok () { workspace with plane := some next } := by
      rw [Adjustment.apply_unbundle]
      exact onPlane_of_ok layered.attached (made acyclic)
    refine Or.inl ⟨acyclic, _, next, ran, ?_, acyclic⟩
    exact ⟨rfl, layered.consistent, layered.acyclic, tiled, frozen.trans layered.unfrozen⟩
  next =>
    have ended : (Adjustment.unbundle node).apply workspace =
        .error (.fault .cyclicFusion) { workspace with plane := some next } := by
      rw [Adjustment.apply_unbundle]
      exact onPlane_of_error layered.attached (failed acyclic)
    exact Or.inr ⟨acyclic, _, ended⟩

omit loopless in
theorem Layered.unbundle_of_unknown {node : NodeId} (unknown : node ∉ workspace.graph.nodeIds) :
    (Adjustment.unbundle node).apply workspace = .error (.notInPlane node) workspace := by
  have absent := layered.tiles.absent unknown
  have failed : Plane.unbundle workspace.graph node plane = .error (.notInPlane node) plane := by
    unfold Plane.unbundle
    refine stateful_bind_of_error _ (Plane.query_of_error ?_)
    rw [Plane.planeNode, Plane.representation, absent]
    rfl
  have stays : (Adjustment.unbundle node).apply workspace =
      .error (.notInPlane node) { workspace with plane := some plane } := by
    rw [Adjustment.apply_unbundle]
    exact onPlane_of_error layered.attached failed
  rwa [← layered.attached] at stays

theorem Layered.step {adjustment : Adjustment} (ran : adjustment.apply workspace = .ok () after) :
    ∃ next, Layered after next ∧ (Acyclic next.graph.Feeds ↔ adjustment.Harmless workspace) := by
  cases adjustment with
  | order blocking blocked type =>
    obtain ⟨t, ran'⟩ := stateful_discard_eq_ok.mp ran
    obtain ⟨graph, followed, edited, -⟩ := mirrored_eq_ok layered.attached ran'
    obtain ⟨after', next, ran'', layered', harmless⟩ := layered.order_ok loopless edited
    cases ran.symm.trans ran''
    exact ⟨next, layered', harmless⟩
  | unbundle node =>
    by_cases known : node ∈ workspace.graph.nodeIds
    next =>
      rcases layered.unbundle_cases loopless known with ⟨harmless, _, next, ran', layered', acyclic⟩ | ⟨-, _, failed⟩
      next =>
        cases ran.symm.trans ran'
        exact ⟨next, layered', iff_of_true acyclic harmless⟩
      next => cases ran.symm.trans failed
    next => cases ran.symm.trans (layered.unbundle_of_unknown known)

theorem Layered.fault {adjustment : Adjustment} {fault : Fault}
    (failed : adjustment.apply workspace = .error (.fault fault) after) :
    ∃ node ∈ workspace.graph.nodeIds, adjustment = .unbundle node ∧ ¬ adjustment.Harmless workspace := by
  cases adjustment with
  | order blocking blocked type =>
    cases edited : workspace.graph.addControlEdge blocking blocked type with
    | error error =>
      have refused : (Adjustment.order blocking blocked type).apply workspace = .error error workspace :=
        stateful_discard_of_error (stateful_bind_of_error _ (onGraph_of_error edited))
      cases failed.symm.trans refused
      -- The graph refuses an edge with errors of its own, and none of them is a fault.
      rw [Graph.addControlEdge_eq] at edited
      split at edited
      next => cases edited
      next =>
        split at edited
        next => cases edited
        next =>
          split at edited
          next => cases edited
          next => split at edited <;> cases edited
    | ok answer =>
      obtain ⟨_, _, ran, -⟩ := layered.order_ok loopless edited
      cases failed.symm.trans ran
  | unbundle node =>
    by_cases known : node ∈ workspace.graph.nodeIds
    next =>
      rcases layered.unbundle_cases loopless known with ⟨-, _, _, ran, -⟩ | ⟨harmful, -⟩
      next => cases failed.symm.trans ran
      next => exact ⟨node, known, rfl, harmful⟩
    next => cases failed.symm.trans (layered.unbundle_of_unknown known)

end Step

theorem Adjusted.layered {start workspace : Workspace} {plane : Plane} (begins : Layered start plane)
    (loopless : Acyclic plane.graph.Feeds)
    (adjusted : Adjusted (fun workspace adjustment => adjustment.Harmless workspace) start workspace) :
    ∃ current, Layered workspace current ∧ Acyclic current.graph.Feeds := by
  -- The invariant is that the plane tiles the graph and neither has a cycle; a harmless step keeps it.
  induction adjusted with
  | start => exact ⟨plane, begins, loopless⟩
  | step _ harmless ran ih =>
    obtain ⟨current, layered, loopless⟩ := ih
    obtain ⟨next, layered', acyclic_iff⟩ := layered.step loopless ran
    exact ⟨next, layered', acyclic_iff.mpr harmless⟩

theorem adjusted_acyclic_iff_harmless {graph : Graph} {plane : Plane} (consistent : graph.Consistent)
    (annotated : Plane.ofAnnotations graph (fun _ => true) = .ok plane) {workspace : Workspace}
    (adjusted : Adjusted (fun workspace adjustment => adjustment.Harmless workspace)
      { graph, plane := some plane } workspace) :
    (∃ current, workspace.plane = some current ∧ workspace.graph.isAcyclic = true ∧
      current.graph.isAcyclic = .ok true) ∧
    (∀ (adjustment : Adjustment) after, adjustment.apply workspace = .ok () after → after.graph.isAcyclic = true ∧
      ∃ next, after.plane = some next ∧ (next.graph.isAcyclic = .ok true ↔ adjustment.Harmless workspace)) ∧
    (∀ node ∈ workspace.graph.nodeIds,
      ((Adjustment.unbundle node).Harmless workspace →
        ∃ after, (Adjustment.unbundle node).apply workspace = .ok () after) ∧
      (¬ (Adjustment.unbundle node).Harmless workspace →
        ∃ after, (Adjustment.unbundle node).apply workspace = .error (.fault .cyclicFusion) after)) ∧
    ∀ (adjustment : Adjustment) fault after, adjustment.apply workspace = .error (.fault fault) after →
      ∃ node ∈ workspace.graph.nodeIds, adjustment = .unbundle node ∧ ¬ adjustment.Harmless workspace := by
  obtain ⟨begins, loopless⟩ := layered_ofAnnotations consistent annotated
  obtain ⟨current, layered, loopless⟩ := adjusted.layered begins loopless
  have acyclic {workspace : Workspace} {plane : Plane} (layered : Layered workspace plane) :
      workspace.graph.isAcyclic = true := (Graph.isAcyclic_iff layered.consistent.toLinked).mpr layered.acyclic
  refine ⟨⟨current, layered.attached, acyclic layered, ?_⟩, fun adjustment after ran => ?_, fun node known => ?_,
    fun adjustment fault after failed => layered.fault loopless failed⟩
  next => exact layered.tiles.sound.indexed.isAcyclic_iff.mpr loopless
  next =>
    obtain ⟨next, layered', acyclic_iff⟩ := layered.step loopless ran
    refine ⟨acyclic layered', next, layered'.attached, ?_⟩
    rw [layered'.tiles.sound.indexed.isAcyclic_iff, acyclic_iff]
  next =>
    rcases layered.unbundle_cases loopless known with ⟨harmless, after, _, ran, -⟩ | ⟨harmful, failed⟩
    next => exact ⟨fun _ => ⟨after, ran⟩, absurd harmless⟩
    next => exact ⟨fun harmless => absurd harmless harmful, fun _ => failed⟩

def loggedChain : GraphDescription :=
  { tensors := [{ name := "loaded" }, { name := "scaled" }]
    nodes := [{ name := "load", outputs := ["loaded"], bundle := some { bundleIndex := 0 } },
      { name := "scale", inputs := ["loaded"], outputs := ["scaled"], bundle := some { bundleIndex := 0 } },
      { name := "store", inputs := ["scaled"], bundle := some { bundleIndex := 0 } },
      { name := "log", inputs := ["loaded"] }] }

theorem exists_loggedChain_plane : ∃ plane id other, Plane.ofAnnotations loggedChain.graph (fun _ => true) = .ok plane ∧
    id ≠ other ∧ plane.nodeOf.get? ⟨0⟩ = some id ∧ plane.nodeOf.get? ⟨1⟩ = some id ∧ plane.nodeOf.get? ⟨2⟩ = some id ∧
      plane.nodeOf.get? ⟨3⟩ = some other := by
  have stands : (Plane.ofAnnotations loggedChain.graph fun _ => true).toOption.map (fun plane =>
      [0, 1, 2, 3].map fun node => plane.nodeOf.get? ⟨node⟩) =
        some [some ⟨1⟩, some ⟨1⟩, some ⟨1⟩, some ⟨0⟩] := by decide +kernel
  cases made : Plane.ofAnnotations loggedChain.graph fun _ => true with
  | error error => rw [made] at stands; cases stands
  | ok plane =>
    rw [made] at stands
    have listed := Option.some.inj stands
    simp only [List.map_cons, List.map_nil, List.cons.injEq, and_true] at listed
    exact ⟨plane, ⟨1⟩, ⟨0⟩, rfl, by decide, listed⟩

theorem adjusted_loggedChain : ∃ plane, Plane.ofAnnotations loggedChain.graph (fun _ => true) = .ok plane ∧
    (∃ after next, (Adjustment.order ⟨3⟩ ⟨2⟩ .schedule).apply { graph := loggedChain.graph, plane := some plane } =
        .ok () after ∧ after.graph.isAcyclic = true ∧ after.plane = some next ∧ next.graph.isAcyclic ≠ .ok true) ∧
    (∃ after, (Adjustment.unbundle ⟨1⟩).apply { graph := loggedChain.graph, plane := some plane } =
      .error (.fault .cyclicFusion) after) ∧
    ∃ after, (Adjustment.unbundle ⟨0⟩).apply { graph := loggedChain.graph, plane := some plane } = .ok () after := by
  have consistent := loggedChain.consistent_graph
  obtain ⟨plane, id, other, annotated, apart, load, scale, store, log⟩ := exists_loggedChain_plane
  obtain ⟨layered, loopless⟩ := layered_ofAnnotations consistent annotated
  have loaded {reader : NodeId} (reads : reader ∈ [(⟨1⟩ : NodeId), ⟨3⟩]) : loggedChain.graph.Feeds .both ⟨0⟩ reader :=
    ⟨⟨0⟩, _, rfl, rfl, rfl, reads⟩
  have scaled : loggedChain.graph.Feeds .both ⟨1⟩ ⟨2⟩ := ⟨⟨1⟩, _, rfl, rfl, rfl, by decide⟩
  obtain ⟨-, adjusted, unbundled, -⟩ := adjusted_acyclic_iff_harmless consistent annotated .start
  have known : ∀ node ∈ [(⟨0⟩ : NodeId), ⟨1⟩], node ∈ loggedChain.graph.nodeIds := by decide
  refine ⟨plane, annotated, ?_, (unbundled ⟨1⟩ (known _ (by decide))).2 ?_, (unbundled ⟨0⟩ (known _ (by decide))).1 ?_⟩
  next =>
    have edited : loggedChain.graph.addControlEdge ⟨3⟩ ⟨2⟩ .schedule =
        .ok (⟨2⟩, loggedChain.graph.withControl ⟨3⟩ ⟨2⟩ .schedule) := rfl
    obtain ⟨after, -, ran, -⟩ := layered.order_ok loopless edited
    obtain ⟨acyclic, next, attached, acyclic_iff⟩ := adjusted _ after ran
    refine ⟨after, next, ran, acyclic, attached, fun answer => ?_⟩
    rcases acyclic_iff.mp answer plane rfl other id log store with same | detached
    next => exact apart same.symm
    next => exact detached (.single (layered.tiles.feeds_iff.mpr ⟨apart, ⟨0⟩, ⟨3⟩, loaded (by decide), load, log⟩))
  next =>
    intro harmless
    exact harmless plane rfl ⟨⟨0⟩, ⟨2⟩, by decide, by decide, load.trans scale.symm, store.trans scale.symm,
      loaded (by decide), scaled⟩
  next =>
    rintro _ ⟨⟩ ⟨first, last, -, -, -, -, ⟨t, tensor, there, -, -, consumes⟩, -⟩
    have unread : ∀ entry ∈ loggedChain.graph.tensors.entries, (⟨0⟩ : NodeId) ∉ entry.2.consumers := by decide
    exact unread (t, tensor) ((Table.mem_entries_iff _ _ _).mpr there) consumes

end Workspace

end Dataflow
