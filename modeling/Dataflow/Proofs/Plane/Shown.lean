import Dataflow.Proofs.Plane.Build

set_option autoImplicit false

namespace Dataflow

def Graph.Carries (graph : Graph) (t : TensorId) (producer consumer : NodeId) : Prop :=
  ∃ tensor, graph.tensors.get? t = some tensor ∧ tensor.producer = some producer ∧ consumer ∈ tensor.consumers

namespace Plane

def Shows (plane : Plane) (usage : Usage) (t : TensorId) (id : PlaneNodeId) : Prop :=
  ∃ found clone, plane.graph.nodes.get? id = some found ∧ plane.tensorOf.get? t = some clone ∧
    clone ∈ found.exposed usage

def Crosses (graph : Graph) (plane : Plane) (t : TensorId) (source target : PlaneNodeId) : Prop :=
  source ≠ target ∧ ∃ producer consumer, graph.Carries t producer consumer ∧
    plane.nodeOf.get? producer = some source ∧ plane.nodeOf.get? consumer = some target

-- Both ends of every crossing tensor show it, unless both are among `merged`.
def Exposes (graph : Graph) (merged : List PlaneNodeId) (plane : Plane) : Prop :=
  ∀ {t source target}, plane.Crosses graph t source target → ¬ (source ∈ merged ∧ target ∈ merged) →
    plane.Shows .output t source ∧ plane.Shows .input t target

variable {graph : Graph} {plane : Plane} {t : TensorId} {id : PlaneNodeId}

theorem shows_of_changes (plane after : Plane) (change : PlaneNodeId → PlaneNode → PlaneNode)
    (tensorOf : after.tensorOf = plane.tensorOf)
    (nodes : ∀ other, after.graph.nodes.get? other = (plane.graph.nodes.get? other).map (change other))
    (usage : Usage) (t : TensorId) (id : PlaneNodeId) : after.Shows usage t id ↔
      ∃ found clone, plane.graph.nodes.get? id = some found ∧ plane.tensorOf.get? t = some clone ∧
        clone ∈ (change id found).exposed usage := by
  unfold Shows
  rw [tensorOf, nodes]
  cases plane.graph.nodes.get? id <;> simp

theorem Sound.producer_of_shown (sound : plane.Sound graph) (shown : plane.Shows .output t id) :
    ∃ tensor producer, graph.tensors.get? t = some tensor ∧ tensor.producer = some producer ∧
      plane.nodeOf.get? producer = some id := by
  obtain ⟨found, clone, there, stands, lists⟩ := shown
  obtain ⟨tensor, present, producer, inside, produced⟩ := (sound.faithful there).produces lists stands
  exact ⟨tensor, producer, present, produced, (sound.nodeOf_iff producer id).mpr ⟨found, there, inside⟩⟩

theorem Sound.consumer_of_shown (sound : plane.Sound graph) {tensor : Tensor} (shown : plane.Shows .input t id)
    (present : graph.tensors.get? t = some tensor) :
    ∃ consumer ∈ tensor.consumers, plane.nodeOf.get? consumer = some id := by
  obtain ⟨found, clone, there, stands, lists⟩ := shown
  obtain ⟨consumer, inside, consumes⟩ := (sound.faithful there).consumes lists stands present
  exact ⟨consumer, consumes, (sound.nodeOf_iff consumer id).mpr ⟨found, there, inside⟩⟩

theorem Sound.source_of_shown (sound : plane.Sound graph) {source other : PlaneNodeId} {producer consumer : NodeId}
    (carries : graph.Carries t producer consumer) (represented : plane.nodeOf.get? producer = some source)
    (shown : plane.Shows .output t other) : other = source := by
  obtain ⟨tensor, present, produced, -⟩ := carries
  obtain ⟨tensor', producer', present', produced', represented'⟩ := sound.producer_of_shown shown
  cases present.symm.trans present'
  cases produced.symm.trans produced'
  exact Option.some.inj (represented'.symm.trans represented)

theorem Sound.mem_consumers_iff (sound : plane.Sound graph) {source target : PlaneNodeId} :
    target ∈ plane.graph.consumers source ↔
      ∃ t, plane.Crosses graph t source target ∧ plane.Shows .output t source ∧ plane.Shows .input t target := by
  rw [PlaneGraph.mem_consumers sound.indexed]
  constructor
  next =>
    rintro ⟨differ, sourceNode, targetNode, clone, sourceThere, targetThere, leaves, enters⟩
    obtain ⟨t, stands⟩ := (sound.faithful sourceThere).cloned (Or.inr leaves)
    have output : plane.Shows .output t source := ⟨sourceNode, clone, sourceThere, stands, leaves⟩
    have input : plane.Shows .input t target := ⟨targetNode, clone, targetThere, stands, enters⟩
    obtain ⟨tensor, producer, present, produced, represented⟩ := sound.producer_of_shown output
    obtain ⟨consumer, consumes, represented'⟩ := sound.consumer_of_shown input present
    exact ⟨t, ⟨differ, producer, consumer, ⟨tensor, present, produced, consumes⟩, represented, represented'⟩,
      output, input⟩
  next =>
    rintro ⟨t, ⟨differ, -⟩, ⟨sourceNode, clone, sourceThere, stands, leaves⟩, ⟨targetNode, clone', targetThere, stands', enters⟩⟩
    cases stands.symm.trans stands'
    exact ⟨differ, sourceNode, targetNode, clone, sourceThere, targetThere, leaves, enters⟩

theorem Exposes.mem_consumers_iff (exposes : plane.Exposes graph []) (sound : plane.Sound graph)
    {source target : PlaneNodeId} :
    target ∈ plane.graph.consumers source ↔ ∃ t, plane.Crosses graph t source target := by
  rw [sound.mem_consumers_iff]
  refine exists_congr fun t => and_iff_left_of_imp fun crosses => exposes crosses ?_
  simp

theorem shows_iff {found : PlaneNode} (there : plane.graph.nodes.get? id = some found) {usage : Usage} :
    plane.Shows usage t id ↔ found.Lists plane.tensorOf usage t := by
  simp [Shows, PlaneNode.Lists, there]

theorem Tiles.exposes {done : List NodeId} (tiles : Tiles graph done plane) : plane.Exposes graph [] := by
  rintro t source target ⟨differ, producer, consumer, ⟨tensor, present, produced, consumes⟩, left, right⟩ -
  obtain ⟨sourceNode, sourceThere, inside⟩ := (tiles.sound.nodeOf_iff producer source).mp left
  obtain ⟨targetNode, targetThere, inside'⟩ := (tiles.sound.nodeOf_iff consumer target).mp right
  constructor
  next =>
    have outside : consumer ∉ sourceNode.members := by
      intro member
      have both := (tiles.sound.nodeOf_iff consumer source).mpr ⟨sourceNode, sourceThere, member⟩
      exact differ (Option.some.inj (both.symm.trans right))
    refine (shows_iff sourceThere).mpr ((tiles.boundary sourceThere).leaves ?_)
    exact ⟨tensor, present, ⟨producer, inside, produced⟩, Or.inr ⟨consumer, consumes, outside⟩⟩
  next =>
    have outside : producer ∉ targetNode.members := by
      intro member
      have both := (tiles.sound.nodeOf_iff producer target).mpr ⟨targetNode, targetThere, member⟩
      exact differ (Option.some.inj (left.symm.trans both))
    refine (shows_iff targetThere).mpr ((tiles.boundary targetThere).enters ?_)
    refine ⟨tensor, present, ⟨consumer, inside', consumes⟩, fun other produced' member => outside ?_⟩
    cases produced.symm.trans produced'
    exact member

theorem Sound.of_shown (sound : plane.Sound graph) {final : Graph} {after : Plane}
    (tensorOf : after.tensorOf = plane.tensorOf) (nextTensor : after.nextTensor = plane.nextTensor)
    (numbers : graph.nextTensor ≤ final.nextTensor) (indexed : after.graph.Indexed)
    (nodeOf_iff : ∀ node id, after.nodeOf.get? node = some id ↔
      ∃ found, after.graph.nodes.get? id = some found ∧ node ∈ found.members)
    (nodeBelow : ∀ {id found}, after.graph.nodes.get? id = some found → id.val < after.nextNode)
    (single : ∀ {id found}, after.graph.nodes.get? id = some found → found.bundle = none →
      ∃ member, found.members = [member])
    (listed : ∀ {id found clone}, after.graph.nodes.get? id = some found →
      clone ∈ found.inputs ∨ clone ∈ found.outputs →
        ∃ other old, plane.graph.nodes.get? other = some old ∧ (clone ∈ old.inputs ∨ clone ∈ old.outputs))
    (produced : ∀ {t id}, after.Shows .output t id → ∃ tensor producer, final.tensors.get? t = some tensor ∧
      tensor.producer = some producer ∧ after.nodeOf.get? producer = some id)
    (consumed : ∀ {t id tensor}, after.Shows .input t id → final.tensors.get? t = some tensor →
      ∃ consumer ∈ tensor.consumers, after.nodeOf.get? consumer = some id) : after.Sound final := by
  -- The members of a plane node are the nodes that are mapped to it.
  have member {node : NodeId} {id : PlaneNodeId} {found : PlaneNode} (there : after.graph.nodes.get? id = some found)
      (represented : after.nodeOf.get? node = some id) : node ∈ found.members := by
    obtain ⟨same, there', inside⟩ := (nodeOf_iff node id).mp represented
    rwa [Option.some.inj (there.symm.trans there')]
  constructor
  case indexed => exact indexed
  case nodeOf_iff => exact nodeOf_iff
  case nodeBelow => exact nodeBelow
  case cloneBelow => rw [tensorOf, nextTensor]; exact sound.cloneBelow
  case originBelow => rw [tensorOf]; exact fun stands => Nat.lt_of_lt_of_le (sound.originBelow stands) numbers
  case injective => rw [tensorOf]; exact sound.injective
  case faithful =>
    intro id found there
    constructor
    case single => exact single there
    case cloned =>
      intro clone lists
      obtain ⟨other, old, present, lists⟩ := listed there lists
      rw [tensorOf]
      exact (sound.faithful present).cloned lists
    case produces =>
      intro clone t lists stands
      obtain ⟨tensor, producer, present, produced, represented⟩ := produced ⟨found, clone, there, stands, lists⟩
      exact ⟨tensor, present, producer, member there represented, produced⟩
    case consumes =>
      intro clone t tensor lists stands present
      obtain ⟨consumer, consumes, represented⟩ := consumed ⟨found, clone, there, stands, lists⟩ present
      exact ⟨consumer, member there represented, consumes⟩

theorem Sound.of_graph (sound : plane.Sound graph) {final : Graph} (numbers : graph.nextTensor ≤ final.nextTensor)
    (produced : ∀ {t id}, plane.Shows .output t id → ∃ tensor producer, final.tensors.get? t = some tensor ∧
      tensor.producer = some producer ∧ plane.nodeOf.get? producer = some id)
    (consumed : ∀ {t id tensor}, plane.Shows .input t id → final.tensors.get? t = some tensor →
      ∃ consumer ∈ tensor.consumers, plane.nodeOf.get? consumer = some id) : plane.Sound final :=
  sound.of_shown rfl rfl numbers sound.indexed sound.nodeOf_iff sound.nodeBelow
    (fun there => (sound.faithful there).single) (fun there lists => ⟨_, _, there, lists⟩) produced consumed

end Plane

end Dataflow
