import Dataflow.Proofs.Plane.Shown

set_option autoImplicit false

namespace Dataflow

theorem PlaneNode.Faithful.of_kept {graph after : Graph} {tensorOf : Table TensorId PlaneTensorId} {node : PlaneNode}
    (faithful : node.Faithful graph tensorOf)
    (kept : ∀ {t clone}, tensorOf.get? t = some clone → after.tensors.get? t = graph.tensors.get? t) :
    node.Faithful after tensorOf where
  single := faithful.single
  cloned := faithful.cloned
  produces := fun lists stands => by rw [kept stands]; exact faithful.produces lists stands
  consumes := fun lists stands there => faithful.consumes lists stands (by rwa [← kept stands])

namespace PlaneNode.Faithful

variable {graph : Graph} {tensorOf : Table TensorId PlaneTensorId} {node : PlaneNode} {clone : PlaneTensorId}

theorem withOutput (faithful : node.Faithful graph tensorOf) {t : TensorId} (stands : tensorOf.get? t = some clone)
    (own : ∀ {origin}, tensorOf.get? origin = some clone →
      ∃ tensor, graph.tensors.get? origin = some tensor ∧ ∃ producer ∈ node.members, tensor.producer = some producer) :
    (node.withOutput clone).Faithful graph tensorOf := by
  obtain ⟨-, inputs, members, bundle⟩ := withOutput_frame node clone
  constructor
  case single => rw [bundle, members]; exact faithful.single
  case cloned =>
    intro other lists
    rw [inputs, mem_outputs_withOutput] at lists
    rcases lists with lists | lists | rfl
    next => exact faithful.cloned (Or.inl lists)
    next => exact faithful.cloned (Or.inr lists)
    next => exact ⟨t, stands⟩
  case produces =>
    intro other origin lists origins
    rw [members]
    rcases (mem_outputs_withOutput _ _ _).mp lists with lists | rfl
    next => exact faithful.produces lists origins
    next => exact own origins
  case consumes => rw [inputs, members]; exact faithful.consumes

theorem withInput (faithful : node.Faithful graph tensorOf) {t : TensorId} (stands : tensorOf.get? t = some clone)
    (own : ∀ {origin tensor}, tensorOf.get? origin = some clone → graph.tensors.get? origin = some tensor →
      ∃ consumer ∈ node.members, consumer ∈ tensor.consumers) :
    (node.withInput clone).Faithful graph tensorOf := by
  obtain ⟨-, outputs, members, bundle⟩ := withInput_frame node clone
  constructor
  case single => rw [bundle, members]; exact faithful.single
  case cloned =>
    intro other lists
    rw [outputs, mem_inputs_withInput] at lists
    rcases lists with (lists | rfl) | lists
    next => exact faithful.cloned (Or.inl lists)
    next => exact ⟨t, stands⟩
    next => exact faithful.cloned (Or.inr lists)
  case produces => rw [outputs, members]; exact faithful.produces
  case consumes =>
    intro other origin tensor lists origins there
    rw [members]
    rcases (mem_inputs_withInput _ _ _).mp lists with lists | rfl
    next => exact faithful.consumes lists origins there
    next => exact own origins there

end PlaneNode.Faithful

namespace Plane

variable {graph : Graph} {plane : Plane}

theorem Sound.withControl (sound : plane.Sound graph) (blocking blocked : NodeId) (type : ControlType) :
    plane.Sound (graph.withControl blocking blocked type) :=
  { sound with
    originBelow := fun stands => Nat.lt_succ_of_lt (sound.originBelow stands)
    faithful := fun there => (sound.faithful there).of_kept fun {t _} stands => by
      have old : t ≠ ⟨graph.nextTensor⟩ := by
        rintro rfl
        exact Nat.lt_irrefl _ (sound.originBelow stands)
      rw [Graph.get?_tensors_withControl, if_neg old] }

theorem Sound.of_change (sound : plane.Sound graph) {changed : PlaneGraph} (indexed : changed.Indexed)
    {id : PlaneNodeId} {change : PlaneNode → PlaneNode}
    (nodes : ∀ other, changed.nodes.get? other =
      (plane.graph.nodes.get? other).map fun node => if other = id then change node else node)
    (members : ∀ node, (change node).members = node.members)
    (faithful : ∀ found, plane.graph.nodes.get? id = some found → (change found).Faithful graph plane.tensorOf) :
    Sound graph { plane with graph := changed } := by
  have get_changed {other : PlaneNodeId} {node : PlaneNode} (there : changed.nodes.get? other = some node) :
      ∃ found, plane.graph.nodes.get? other = some found ∧ (if other = id then change found else found) = node := by
    rwa [nodes, Option.map_eq_some_iff] at there
  have kept (other : PlaneNodeId) (node : PlaneNode) :
      (if other = id then change node else node).members = node.members := by
    split
    next => exact members node
    next => rfl
  constructor
  case indexed => exact indexed
  case nodeOf_iff =>
    intro member other
    refine (sound.nodeOf_iff member other).trans ?_
    constructor
    next =>
      rintro ⟨found, there, inside⟩
      exact ⟨_, by rw [nodes, there]; rfl, by rwa [kept]⟩
    next =>
      rintro ⟨node, there, inside⟩
      obtain ⟨found, present, rfl⟩ := get_changed there
      exact ⟨found, present, by rwa [kept] at inside⟩
  case nodeBelow =>
    intro other node there
    obtain ⟨found, present, -⟩ := get_changed there
    exact sound.nodeBelow present
  case cloneBelow => exact sound.cloneBelow
  case originBelow => exact sound.originBelow
  case injective => exact sound.injective
  case faithful =>
    intro other node there
    obtain ⟨found, present, rfl⟩ := get_changed there
    split
    next same => exact faithful found (same ▸ present)
    next => exact sound.faithful present

theorem Sound.modifyNode (sound : plane.Sound graph) (id : PlaneNodeId) (change : PlaneNode → PlaneNode)
    (own : ∀ node, (change node).id = node.id) (inputs : ∀ node, (change node).inputs = node.inputs)
    (outputs : ∀ node, (change node).outputs = node.outputs) (members : ∀ node, (change node).members = node.members)
    (single : ∀ {found}, plane.graph.nodes.get? id = some found → (change found).bundle = none →
      ∃ member, found.members = [member]) :
    Sound graph { plane with graph := plane.graph.modifyNode id change } := by
  refine sound.of_change (sound.indexed.modifyNode id own inputs outputs)
    (PlaneGraph.get?_nodes_modifyNode plane.graph id change) members fun found there => ?_
  have faithful := sound.faithful there
  constructor
  case single => rw [members]; exact single there
  case cloned => rw [inputs, outputs]; exact faithful.cloned
  case produces => rw [outputs, members]; exact faithful.produces
  case consumes => rw [inputs, members]; exact faithful.consumes

section Expose

variable {t : TensorId} {tensor : Tensor} {clone : PlaneTensorId} {id : PlaneNodeId} {member : NodeId}

theorem Sound.addOutput (sound : plane.Sound graph) (stands : plane.tensorOf.get? t = some clone)
    (there : graph.tensors.get? t = some tensor) (produced : tensor.producer = some member)
    (represented : plane.nodeOf.get? member = some id) :
    Sound graph { plane with graph := plane.graph.addOutput id clone } := by
  obtain ⟨own, ownThere, inside⟩ := (sound.nodeOf_iff member id).mp represented
  refine sound.of_change (sound.indexed.addOutput clone id ?_) (PlaneGraph.get?_nodes_addOutput clone id)
    (fun node => (PlaneNode.withOutput_frame node clone).2.2.1) ?_
  next =>
    -- Whoever lists the clone already has the tensor's producer among its members.
    intro other lists
    obtain ⟨otherNode, otherThere, lists⟩ := (sound.indexed.producer_iff clone other).mp lists
    obtain ⟨tensor', there', producer, otherInside, produced'⟩ := (sound.faithful otherThere).produces lists stands
    cases there.symm.trans there'
    cases produced.symm.trans produced'
    have mapped := (sound.nodeOf_iff member other).mpr ⟨otherNode, otherThere, otherInside⟩
    exact Option.some.inj (mapped.symm.trans represented)
  next =>
    intro found present
    cases ownThere.symm.trans present
    refine (sound.faithful ownThere).withOutput stands fun origins => ?_
    cases sound.injective stands origins
    exact ⟨tensor, there, member, inside, produced⟩

theorem Sound.addInput (sound : plane.Sound graph) (stands : plane.tensorOf.get? t = some clone)
    (there : graph.tensors.get? t = some tensor) (consumed : member ∈ tensor.consumers)
    (represented : plane.nodeOf.get? member = some id) :
    Sound graph { plane with graph := plane.graph.addInput id clone } := by
  obtain ⟨own, ownThere, inside⟩ := (sound.nodeOf_iff member id).mp represented
  refine sound.of_change (sound.indexed.addInput clone id) (PlaneGraph.get?_nodes_addInput clone id)
    (fun node => (PlaneNode.withInput_frame node clone).2.2.1) ?_
  intro found present
  cases ownThere.symm.trans present
  refine (sound.faithful ownThere).withInput stands fun origins present' => ?_
  cases sound.injective stands origins
  cases there.symm.trans present'
  exact ⟨member, inside, consumed⟩

end Expose

structure Follows (graph : Graph) (plane : Plane) : Prop where
  sound : plane.Sound graph
  covers : ∀ node, (∃ id, plane.nodeOf.get? node = some id) ↔ node ∈ graph.nodeIds
  unfrozen : plane.frozen = false

theorem representation_eq_ok {node : NodeId} {id : PlaneNodeId} :
    plane.representation node = .ok id ↔ plane.nodeOf.get? node = some id := by
  unfold representation
  cases plane.nodeOf.get? node <;> simp

theorem unlessFrozen_eq (update : PlaneM Unit) (unfrozen : plane.frozen = false) :
    unlessFrozen update plane = update plane := by
  unfold unlessFrozen
  rw [stateful_get_bind, unfrozen]
  rfl

section Shown

variable {usage : Usage} {t : TensorId} {clone : PlaneTensorId} {id : PlaneNodeId}

theorem Shows.grow {grown : Plane} (shown : plane.Shows usage t id) (grows : plane.Grows grown) :
    grown.Shows usage t id := by
  obtain ⟨found, clone, there, stands, lists⟩ := shown
  exact ⟨found, clone, grows.graph_eq ▸ there, grows.keeps stands, lists⟩

theorem Shows.addOutput (shown : plane.Shows usage t id) (clone : PlaneTensorId) (target : PlaneNodeId) :
    Shows { plane with graph := plane.graph.addOutput target clone } usage t id := by
  obtain ⟨found, own, there, stands, lists⟩ := shown
  refine ⟨_, own, (PlaneGraph.get?_nodes_addOutput ..).trans (congrArg (Option.map _) there), stands, ?_⟩
  split
  next =>
    cases usage with
    | input => rw [PlaneNode.exposed, (PlaneNode.withOutput_frame found clone).2.1]; exact lists
    | output => exact (PlaneNode.mem_outputs_withOutput found clone own).mpr (Or.inl lists)
  next => exact lists

theorem Shows.addInput (shown : plane.Shows usage t id) (clone : PlaneTensorId) (target : PlaneNodeId) :
    Shows { plane with graph := plane.graph.addInput target clone } usage t id := by
  obtain ⟨found, own, there, stands, lists⟩ := shown
  refine ⟨_, own, (PlaneGraph.get?_nodes_addInput ..).trans (congrArg (Option.map _) there), stands, ?_⟩
  split
  next =>
    cases usage with
    | input => exact (PlaneNode.mem_inputs_withInput found clone own).mpr (Or.inl lists)
    | output => rw [PlaneNode.exposed, (PlaneNode.withInput_frame found clone).2.1]; exact lists
  next => exact lists

theorem shows_addOutput_self {found : PlaneNode} (there : plane.graph.nodes.get? id = some found)
    (stands : plane.tensorOf.get? t = some clone) :
    Shows { plane with graph := plane.graph.addOutput id clone } .output t id := by
  refine ⟨_, clone, (PlaneGraph.get?_nodes_addOutput ..).trans (congrArg (Option.map _) there), stands, ?_⟩
  simp [PlaneNode.exposed]

theorem shows_addInput_self {found : PlaneNode} (there : plane.graph.nodes.get? id = some found)
    (stands : plane.tensorOf.get? t = some clone) :
    Shows { plane with graph := plane.graph.addInput id clone } .input t id := by
  refine ⟨_, clone, (PlaneGraph.get?_nodes_addInput ..).trans (congrArg (Option.map _) there), stands, ?_⟩
  simp [PlaneNode.exposed]

end Shown

theorem carries_withControl {blocking blocked : NodeId} {type : ControlType} {t : TensorId} {producer consumer : NodeId}
    (carries : (graph.withControl blocking blocked type).Carries t producer consumer) :
    graph.Carries t producer consumer ∨ t = ⟨graph.nextTensor⟩ ∧ producer = blocking ∧ consumer = blocked := by
  obtain ⟨tensor, present, produced, consumes⟩ := carries
  rw [Graph.get?_tensors_withControl] at present
  split at present
  next new =>
    cases present
    exact Or.inr ⟨new, (Option.some.inj produced).symm, List.mem_singleton.mp consumes⟩
  next => exact Or.inl ⟨tensor, present, produced, consumes⟩

section Link

variable {t : TensorId} {producer consumer : NodeId} {source target : PlaneNodeId} (unfrozen : plane.frozen = false)
  (sourceOf : plane.nodeOf.get? producer = some source) (targetOf : plane.nodeOf.get? consumer = some target)

include unfrozen sourceOf targetOf

theorem addRelationship_of_same (same : source = target) :
    addRelationship graph t producer consumer plane = .ok () plane := by
  unfold addRelationship
  rw [unlessFrozen_eq _ unfrozen,
    stateful_bind_of_ok _ (query_eq_ok.mpr ⟨representation_eq_ok.mpr sourceOf, rfl⟩),
    stateful_bind_of_ok _ (query_eq_ok.mpr ⟨representation_eq_ok.mpr targetOf, rfl⟩), if_pos same]
  rfl

theorem addRelationship_of_apart (apart : source ≠ target) {clone : PlaneTensorId} {grown : Plane}
    (cloned : cloneTensor graph t plane = .ok clone grown) :
    addRelationship graph t producer consumer plane =
      .ok () { grown with graph := (grown.graph.addOutput source clone).addInput target clone } := by
  unfold addRelationship
  rw [unlessFrozen_eq _ unfrozen,
    stateful_bind_of_ok _ (query_eq_ok.mpr ⟨representation_eq_ok.mpr sourceOf, rfl⟩),
    stateful_bind_of_ok _ (query_eq_ok.mpr ⟨representation_eq_ok.mpr targetOf, rfl⟩), if_neg apart,
    stateful_bind_of_ok _ cloned]
  rfl

end Link

theorem Follows.addRelationship_ok (follows : Follows graph plane) {blocking blocked : NodeId} (type : ControlType)
    (linked : (graph.withControl blocking blocked type).Linked) (blockingThere : blocking ∈ graph.nodeIds)
    (blockedThere : blocked ∈ graph.nodeIds) :
    ∃ final, addRelationship (graph.withControl blocking blocked type) ⟨graph.nextTensor⟩ blocking blocked plane =
        .ok () final ∧ Follows (graph.withControl blocking blocked type) final ∧
      (plane.Exposes graph [] → final.Exposes (graph.withControl blocking blocked type) []) := by
  obtain ⟨source, sourceOf⟩ := (follows.covers blocking).mpr blockingThere
  obtain ⟨target, targetOf⟩ := (follows.covers blocked).mpr blockedThere
  have sound := follows.sound.withControl blocking blocked type
  have covers : ∀ node, (∃ id, plane.nodeOf.get? node = some id) ↔
      node ∈ (graph.withControl blocking blocked type).nodeIds := by
    rw [Graph.nodeIds_withControl]; exact follows.covers
  by_cases same : source = target
  next =>
    -- Inside one plane node the edge does not cross, and the plane stays as it is.
    refine ⟨plane, addRelationship_of_same follows.unfrozen sourceOf targetOf same, ⟨sound, covers, follows.unfrozen⟩, ?_⟩
    rintro exposes t left right ⟨differ, producer, consumer, carries, leftOf, rightOf⟩ -
    rcases carries_withControl carries with old | ⟨-, rfl, rfl⟩
    next => exact exposes ⟨differ, producer, consumer, old, leftOf, rightOf⟩ (by simp)
    next =>
      cases sourceOf.symm.trans leftOf
      cases targetOf.symm.trans rightOf
      exact absurd same differ
  next =>
    have present : (graph.withControl blocking blocked type).tensors.get? ⟨graph.nextTensor⟩ =
        some (graph.controlTensor blocking blocked type) := by rw [Graph.get?_tensors_withControl, if_pos rfl]
    obtain ⟨clone, grown, cloned⟩ := cloneTensor_ok plane present
    obtain ⟨grows, sound, stands⟩ := sound.cloneTensor_eq_ok linked cloned
    have sourceOf' : grown.nodeOf.get? blocking = some source := by rw [grows.nodeOf_eq]; exact sourceOf
    have targetOf' : grown.nodeOf.get? blocked = some target := by rw [grows.nodeOf_eq]; exact targetOf
    have linkedOut := sound.addOutput stands present rfl sourceOf'
    have linkedIn := linkedOut.addInput stands present (List.mem_singleton_self _) targetOf'
    refine ⟨_, addRelationship_of_apart follows.unfrozen sourceOf targetOf same cloned,
      ⟨linkedIn, ?_, grows.frozen_eq.trans follows.unfrozen⟩, ?_⟩
    next =>
      intro node
      rw [← covers, ← grows.nodeOf_eq]
    next =>
      rintro exposes t left right ⟨differ, producer, consumer, carries, leftOf, rightOf⟩ -
      -- What crossed before is shown as before, and the new tensor by the two plane nodes that took it on.
      rcases carries_withControl carries with old | ⟨rfl, rfl, rfl⟩
      next =>
        have old : plane.Crosses graph t left right := by
          rw [grows.nodeOf_eq] at leftOf rightOf
          exact ⟨differ, producer, consumer, old, leftOf, rightOf⟩
        obtain ⟨output, input⟩ := exposes old (by simp)
        exact ⟨((output.grow grows).addOutput ..).addInput .., ((input.grow grows).addOutput ..).addInput ..⟩
      next =>
        cases sourceOf'.symm.trans leftOf
        cases targetOf'.symm.trans rightOf
        obtain ⟨sourceNode, sourceThere, -⟩ := (sound.nodeOf_iff _ source).mp sourceOf'
        obtain ⟨targetNode, targetThere, -⟩ := (linkedOut.nodeOf_iff _ target).mp targetOf'
        exact ⟨(shows_addOutput_self sourceThere stands).addInput .., shows_addInput_self targetThere stands⟩

end Plane

end Dataflow
