import Dataflow.Proofs.Plane.Quotient

set_option autoImplicit false

namespace Dataflow

namespace Graph

variable {graph : Graph} {blocking blocked : NodeId} {members : List NodeId}

def EdgeCrosses (blocking blocked : NodeId) (members : List NodeId) : Usage → Prop
  | .input => blocked ∈ members ∧ blocking ∉ members
  | .output => blocking ∈ members ∧ blocked ∉ members

section WithControl

variable (linked : graph.Linked) (type : ControlType) (t : TensorId)

include linked

theorem enters_withControl : (graph.withControl blocking blocked type).Enters members t ↔
    graph.Enters members t ∨ t = ⟨graph.nextTensor⟩ ∧ EdgeCrosses blocking blocked members .input := by
  by_cases new : t = ⟨graph.nextTensor⟩
  next =>
    subst new
    simp [Enters, get?_tensors_withControl, nextTensor_absent linked, controlTensor, EdgeCrosses]
  next => simp [Enters, get?_tensors_withControl, new]

theorem leaves_withControl : (graph.withControl blocking blocked type).Leaves members t ↔
    graph.Leaves members t ∨ t = ⟨graph.nextTensor⟩ ∧ EdgeCrosses blocking blocked members .output := by
  by_cases new : t = ⟨graph.nextTensor⟩
  next =>
    subst new
    simp [Leaves, get?_tensors_withControl, nextTensor_absent linked, controlTensor, EdgeCrosses]
  next => simp [Leaves, get?_tensors_withControl, new]

theorem loops_withControl (loops : graph.Loops members t) : (graph.withControl blocking blocked type).Loops members t := by
  obtain ⟨node, tensor, single, present, looped⟩ := loops
  refine ⟨node, tensor, single, ?_, looped⟩
  rw [get?_tensors_withControl, if_neg, present]
  rintro rfl
  rw [nextTensor_absent linked] at present
  cases present

end WithControl

end Graph

theorem PlaneNode.Exact.withControl {graph : Graph} {tensorOf finalOf : Table TensorId PlaneTensorId}
    {node final : PlaneNode} (boundary : node.Exact graph tensorOf) (linked : graph.Linked) {blocking blocked : NodeId}
    (type : ControlType) (members : final.members = node.members)
    (lists : ∀ usage t, final.Lists finalOf usage t ↔ node.Lists tensorOf usage t ∨
      t = ⟨graph.nextTensor⟩ ∧ Graph.EdgeCrosses blocking blocked node.members usage) :
    final.Exact (graph.withControl blocking blocked type) finalOf := by
  constructor
  case enters =>
    intro t enters
    rw [members, Graph.enters_withControl linked] at enters
    exact (lists .input t).mpr (enters.imp_left boundary.enters)
  case leaves =>
    intro t leaves
    rw [members, Graph.leaves_withControl linked] at leaves
    exact (lists .output t).mpr (leaves.imp_left boundary.leaves)
  case input =>
    intro t listed
    rw [members, Graph.enters_withControl linked, lists]
    rcases (lists .input t).mp listed with old | new
    next =>
      rcases boundary.input old with enters | ⟨loops, output⟩
      next => exact Or.inl (Or.inl enters)
      next => exact Or.inr ⟨Graph.loops_withControl linked type t loops, Or.inl output⟩
    next => exact Or.inl (Or.inr new)
  case output =>
    intro t listed
    rw [members, Graph.leaves_withControl linked, lists]
    rcases (lists .output t).mp listed with old | new
    next =>
      rcases boundary.output old with leaves | ⟨loops, input⟩
      next => exact Or.inl (Or.inl leaves)
      next => exact Or.inr ⟨Graph.loops_withControl linked type t loops, Or.inl input⟩
    next => exact Or.inl (Or.inr new)

namespace Plane

variable {graph : Graph} {plane : Plane}

theorem lists_link {source target id : PlaneNodeId} {clone : PlaneTensorId} {found : PlaneNode}
    (there : ((plane.graph.addOutput source clone).addInput target clone).nodes.get? id = some found) :
    ∃ old, plane.graph.nodes.get? id = some old ∧ found.members = old.members ∧
      (∀ other, other ∈ found.inputs ↔ other ∈ old.inputs ∨ other = clone ∧ id = target) ∧
      ∀ other, other ∈ found.outputs ↔ other ∈ old.outputs ∨ other = clone ∧ id = source := by
  rw [PlaneGraph.get?_nodes_addInput, PlaneGraph.get?_nodes_addOutput, Option.map_map, Option.map_eq_some_iff] at there
  obtain ⟨old, present, rfl⟩ := there
  -- Each of the two additions changes one list of one plane node, and no members.
  have linked (node : PlaneNode) : (if id = target then node.withInput clone else node).members = node.members ∧
      (if id = target then node.withInput clone else node).outputs = node.outputs := by
    obtain ⟨-, outputs, members, -⟩ := PlaneNode.withInput_frame node clone
    split
    next => exact ⟨members, outputs⟩
    next => exact ⟨rfl, rfl⟩
  have started : (if id = source then old.withOutput clone else old).members = old.members ∧
      (if id = source then old.withOutput clone else old).inputs = old.inputs := by
    obtain ⟨-, inputs, members, -⟩ := PlaneNode.withOutput_frame old clone
    split
    next => exact ⟨members, inputs⟩
    next => exact ⟨rfl, rfl⟩
  refine ⟨old, present, (linked _).1.trans started.1, fun other => ?_, fun other => ?_⟩
  all_goals dsimp only [Function.comp]
  next =>
    rw [← started.2]
    split
    next reached => rw [PlaneNode.mem_inputs_withInput, and_iff_left reached]
    next elsewhere => simp [elsewhere]
  next =>
    rw [(linked _).2]
    split
    next reached => rw [PlaneNode.mem_outputs_withOutput, and_iff_left reached]
    next elsewhere => simp [elsewhere]

section Boundary

variable (tiles : Tiles graph graph.nodeIds plane) (linked : graph.Linked) {blocking blocked : NodeId}
  (type : ControlType) {source target : PlaneNodeId} (sourceOf : plane.nodeOf.get? blocking = some source)
  (targetOf : plane.nodeOf.get? blocked = some target) {id : PlaneNodeId} {found : PlaneNode}

include tiles linked sourceOf targetOf

theorem Tiles.exact_withControl_of_same (same : source = target) (there : plane.graph.nodes.get? id = some found) :
    found.Exact (graph.withControl blocking blocked type) plane.tensorOf := by
  refine (tiles.boundary there).withControl linked type rfl fun usage t => (or_iff_left ?_).symm
  rintro ⟨-, crosses⟩
  -- Both ends are in the plane node, or neither is.
  have both : blocking ∈ found.members ↔ blocked ∈ found.members := by
    rw [tiles.sound.mem_members_iff there, tiles.sound.mem_members_iff there, sourceOf, targetOf, same]
  cases usage with
  | input => exact crosses.2 (both.mpr crosses.1)
  | output => exact crosses.2 (both.mp crosses.1)

theorem Tiles.exact_withControl_of_apart (apart : source ≠ target) {grown : Plane} {clone : PlaneTensorId}
    (grows : plane.Grows grown) (sound : grown.Sound (graph.withControl blocking blocked type))
    (stands : grown.tensorOf.get? ⟨graph.nextTensor⟩ = some clone)
    (there : ((grown.graph.addOutput source clone).addInput target clone).nodes.get? id = some found) :
    found.members.Nodup ∧ found.Exact (graph.withControl blocking blocked type) grown.tensorOf := by
  obtain ⟨old, there, members, inputs, outputs⟩ := lists_link there
  rw [grows.graph_eq] at there
  refine ⟨members ▸ tiles.distinct there, ?_⟩
  refine (tiles.boundary there).withControl linked type members fun usage t => ?_
  have inner (member : NodeId) := tiles.sound.mem_members_iff there member
  have own : grown.tensorOf.get? t = some clone ↔ t = ⟨graph.nextTensor⟩ :=
    ⟨fun stands' => sound.injective stands' stands, fun new => new ▸ stands⟩
  rw [← grows.lists_iff (tiles.sound.faithful there) sound.injective usage t]
  -- The edge leaves the plane node of its start and enters that of its end, and there alone the clone was added.
  cases usage with
  | input =>
    have crosses : Graph.EdgeCrosses blocking blocked old.members .input ↔ id = target := by
      simp only [Graph.EdgeCrosses, inner, sourceOf, targetOf, Option.some.injEq]
      grind
    simp only [PlaneNode.Lists, PlaneNode.exposed, inputs, crosses, ← own]
    grind
  | output =>
    have crosses : Graph.EdgeCrosses blocking blocked old.members .output ↔ id = source := by
      simp only [Graph.EdgeCrosses, inner, sourceOf, targetOf, Option.some.injEq]
      grind
    simp only [PlaneNode.Lists, PlaneNode.exposed, outputs, crosses, ← own]
    grind

end Boundary

theorem Tiles.addRelationship_ok (consistent : graph.Consistent) (tiles : Tiles graph graph.nodeIds plane)
    (unfrozen : plane.frozen = false) {blocking blocked : NodeId} (type : ControlType)
    (blockingThere : blocking ∈ graph.nodeIds) (blockedThere : blocked ∈ graph.nodeIds) :
    ∃ final, addRelationship (graph.withControl blocking blocked type) ⟨graph.nextTensor⟩ blocking blocked plane =
        .ok () final ∧ Tiles (graph.withControl blocking blocked type)
          (graph.withControl blocking blocked type).nodeIds final ∧
      final.nodeOf = plane.nodeOf ∧ final.frozen = false := by
  have linked := (consistent.withControl type blockingThere blockedThere).toLinked
  have follows : Follows graph plane := ⟨tiles.sound, tiles.covers, unfrozen⟩
  obtain ⟨final, ran, followed, -⟩ := follows.addRelationship_ok type linked blockingThere blockedThere
  obtain ⟨source, sourceOf⟩ := (tiles.covers blocking).mpr blockingThere
  obtain ⟨target, targetOf⟩ := (tiles.covers blocked).mpr blockedThere
  refine ⟨final, ran, ?_⟩
  -- Inside of one plane node nothing is added.
  by_cases same : source = target
  next =>
    cases (addRelationship_of_same unfrozen sourceOf targetOf same).symm.trans ran
    have boundary {id : PlaneNodeId} {found : PlaneNode} (there : plane.graph.nodes.get? id = some found) :=
      tiles.exact_withControl_of_same consistent.toLinked type sourceOf targetOf same there
    exact ⟨⟨followed.sound, followed.covers, tiles.distinct, boundary⟩, rfl, unfrozen⟩
  next =>
    have present : (graph.withControl blocking blocked type).tensors.get? ⟨graph.nextTensor⟩ =
        some (graph.controlTensor blocking blocked type) := by rw [Graph.get?_tensors_withControl, if_pos rfl]
    obtain ⟨clone, grown, cloned⟩ := cloneTensor_ok plane present
    obtain ⟨grows, sound, stands⟩ :=
      (tiles.sound.withControl blocking blocked type).cloneTensor_eq_ok linked cloned
    cases (addRelationship_of_apart unfrozen sourceOf targetOf same cloned).symm.trans ran
    have kept {id : PlaneNodeId} {found : PlaneNode}
        (there : ((grown.graph.addOutput source clone).addInput target clone).nodes.get? id = some found) :=
      tiles.exact_withControl_of_apart consistent.toLinked type sourceOf targetOf same grows sound stands there
    exact ⟨⟨followed.sound, followed.covers, fun there => (kept there).1, fun there => (kept there).2⟩,
      grows.nodeOf_eq, followed.unfrozen⟩

section Edges

variable {final : Plane} {blocking blocked : NodeId} {type : ControlType} {source target : PlaneNodeId}
  (tiles : Tiles graph graph.nodeIds plane) (linked : graph.Linked)
  (tiled : Tiles (graph.withControl blocking blocked type) (graph.withControl blocking blocked type).nodeIds final)
  (same : final.nodeOf = plane.nodeOf) (sourceOf : plane.nodeOf.get? blocking = some source)
  (targetOf : plane.nodeOf.get? blocked = some target)

include tiles linked tiled same sourceOf targetOf

theorem Tiles.feeds_withControl {first second : PlaneNodeId} : final.graph.Feeds first second ↔
    plane.graph.Feeds first second ∨ first ≠ second ∧ first = source ∧ second = target := by
  simp only [tiles.feeds_iff, tiled.feeds_iff, same, Graph.feeds_withControl linked]
  constructor
  next =>
    rintro ⟨apart, producer, consumer, old | ⟨rfl, rfl⟩, left, right⟩
    next => exact Or.inl ⟨apart, producer, consumer, old, left, right⟩
    next =>
      cases sourceOf.symm.trans left
      cases targetOf.symm.trans right
      exact Or.inr ⟨apart, rfl, rfl⟩
  next =>
    rintro (⟨apart, producer, consumer, old, left, right⟩ | ⟨apart, rfl, rfl⟩)
    next => exact ⟨apart, producer, consumer, Or.inl old, left, right⟩
    next => exact ⟨apart, blocking, blocked, Or.inr ⟨rfl, rfl⟩, sourceOf, targetOf⟩

theorem Tiles.acyclic_withControl_iff (loopless : Acyclic plane.graph.Feeds) :
    Acyclic final.graph.Feeds ↔ source = target ∨ ¬ Relation.ReflTransGen plane.graph.Feeds target source := by
  have feeds {first second : PlaneNodeId} :=
    @tiles.feeds_withControl _ _ _ _ _ _ _ _ linked tiled same sourceOf targetOf first second
  by_cases inner : source = target
  next =>
    refine iff_of_true (loopless.mono fun first second fed => ?_) (Or.inl inner)
    exact (feeds.mp fed).resolve_right fun new => new.1 (new.2.1.trans (inner.trans new.2.2.symm))
  next =>
    have insert : final.graph.Feeds = fun first second =>
        plane.graph.Feeds first second ∨ first = source ∧ second = target := by
      funext first second
      refine propext (feeds.trans (or_congr_right (and_iff_right_of_imp ?_)))
      rintro ⟨rfl, rfl⟩
      exact inner
    rw [insert, loopless.insert_edge_iff, or_iff_right inner]

end Edges

end Plane

end Dataflow
