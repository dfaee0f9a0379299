import Dataflow.Proofs.Plane.Fuse

set_option autoImplicit false

namespace Dataflow

namespace Graph

structure Arrives (graph : Graph) (node : Node) (final : Graph) : Prop where
  linked : graph.Linked
  absent : graph.nodes.get? node.id = none
  outputs : ∀ t ∈ node.allOutputs, ∃ tensor, graph.tensors.get? t = some tensor ∧ tensor.producer = none
  linked_final : final.Linked
  nodes : ∀ id, final.nodes.get? id = if id = node.id then some node else graph.nodes.get? id
  tensors : ∀ t, final.tensors.get? t = (graph.tensors.get? t).map (entered node t)
  nextTensor : final.nextTensor = graph.nextTensor

variable {graph final : Graph} {node : Node}

theorem Linked.arrives_addNode (linked : graph.Linked) {spec : NodeSpec} {inputs outputs : List TensorId} {id : NodeId}
    (added : graph.addNode spec inputs outputs = .ok (id, final)) :
    graph.Arrives (spec.node id inputs outputs [] []) final := by
  have linked_final := linked.addNode added
  obtain ⟨rfl, rfl, there, unproduced⟩ := addNode_eq_ok added
  have outputsAre : (spec.node ⟨graph.nextNode⟩ inputs outputs [] []).allOutputs = outputs := List.append_nil outputs
  constructor
  case linked => exact linked
  case absent => exact nextNode_absent linked
  case outputs =>
    rw [outputsAre]
    intro t listed
    obtain ⟨tensor, present⟩ := there t (List.mem_append_right _ listed)
    exact ⟨tensor, present, unproduced t listed tensor present⟩
  case linked_final => exact linked_final
  case nodes => exact get?_nodes_attach _
  case tensors => exact get?_tensors_attach _
  case nextTensor => rfl

theorem Linked.arrives_restoreNode (linked : graph.Linked) (restored : graph.restoreNode node = .ok final)
    (older : ∀ t, t ∈ node.allInputs ∨ t ∈ node.allOutputs → t.val < graph.nextTensor) :
    graph.Arrives node final := by
  have linked_final := linked.restoreNode restored older
  obtain ⟨absent, rfl, unproduced⟩ := restoreNode_eq_ok restored
  exact ⟨linked, absent, unproduced, linked_final, get?_nodes_attach _, get?_tensors_attach _, rfl⟩

namespace Arrives

theorem unproduced (arrives : graph.Arrives node final) {t : TensorId} {tensor : Tensor} (listed : t ∈ node.allOutputs)
    (present : graph.tensors.get? t = some tensor) : tensor.producer = none := by
  obtain ⟨tensor', present', none⟩ := arrives.outputs t listed
  cases present.symm.trans present'
  exact none

theorem present (arrives : graph.Arrives node final) : final.nodes.get? node.id = some node := by
  rw [arrives.nodes, if_pos rfl]

theorem carries_iff (arrives : graph.Arrives node final) {t : TensorId} {producer consumer : NodeId} :
    final.Carries t producer consumer ↔ ∃ tensor, graph.tensors.get? t = some tensor ∧
      (if t ∈ node.allOutputs then some node.id else tensor.producer) = some producer ∧
      (consumer ∈ tensor.consumers ∨ t ∈ node.allInputs ∧ consumer = node.id) := by
  unfold Carries
  rw [arrives.tensors]
  cases graph.tensors.get? t with
  | none => simp
  | some tensor =>
    by_cases reads : t ∈ node.allInputs <;> simp [entered, reads, or_comm]

end Arrives

end Graph

namespace Plane

variable {graph final : Graph} {plane after : Plane} {node : Node}

def joins (plane : Plane) (node : Node) : Option PlaneNodeId :=
  node.annotations.bundle.bind fun info => plane.bundleOf.get? info.bundleIndex

-- Whatever the new node shares with a plane node that it does not join is shown there.
structure Attaches (graph : Graph) (plane : Plane) (node : Node) : Prop where
  inputs : ∀ {t tensor producer source}, t ∈ node.allInputs → graph.tensors.get? t = some tensor →
    tensor.producer = some producer → plane.nodeOf.get? producer = some source → plane.joins node ≠ some source →
    plane.Shows .output t source
  outputs : ∀ {t tensor consumer target}, t ∈ node.allOutputs → graph.tensors.get? t = some tensor →
    consumer ∈ tensor.consumers → plane.nodeOf.get? consumer = some target → plane.joins node ≠ some target →
    plane.Shows .input t target

structure Gains (plane : Plane) (node : Node) (id : PlaneNodeId) (after : Plane) : Prop where
  nodeOf : ∀ other, after.nodeOf.get? other = if other = node.id then some id else plane.nodeOf.get? other
  unused : ∀ other, plane.nodeOf.get? other ≠ some id
  output : ∀ t other, after.Shows .output t other ↔ other = id ∧ t ∈ node.allOutputs ∨ plane.Shows .output t other
  input : ∀ t other, after.Shows .input t other ↔ other = id ∧ t ∈ node.allInputs ∨ plane.Shows .input t other
  bundleOf : after.bundleOf = plane.bundleOf
  frozen : after.frozen = plane.frozen

theorem Sound.arrives (sound : plane.Sound graph) (arrives : graph.Arrives node final) : plane.Sound final := by
  apply sound.of_graph (Nat.le_of_eq arrives.nextTensor.symm)
  case produced =>
    intro t id shown
    obtain ⟨tensor, producer, present, produced, represented⟩ := sound.producer_of_shown shown
    have foreign : t ∉ node.allOutputs := by
      intro own
      rw [arrives.unproduced own present] at produced
      cases produced
    refine ⟨Graph.entered node t tensor, producer, by rw [arrives.tensors, present]; rfl, ?_, represented⟩
    simpa [Graph.entered, foreign] using produced
  case consumed =>
    intro t id tensor shown present
    rw [arrives.tensors] at present
    obtain ⟨before, older, rfl⟩ := Option.map_eq_some_iff.mp present
    obtain ⟨consumer, consumes, represented⟩ := sound.consumer_of_shown shown older
    refine ⟨consumer, ?_, represented⟩
    by_cases own : t ∈ node.allInputs <;> simp [Graph.entered, own, consumes]

theorem Sound.addSingle_gains (linked : graph.Linked) (sound : plane.Sound graph)
    (present : graph.nodes.get? node.id = some node)
    (outputsThere : ∀ t ∈ node.allOutputs, ∃ tensor, graph.tensors.get? t = some tensor) {id : PlaneNodeId}
    (added : addSingle graph node plane = .ok id after) : after.Sound graph ∧ Gains plane node id after := by
  obtain ⟨grown, inputs, outputs, grows, unknown, rfl, rfl, sound', inputsCloned, outputsCloned⟩ :=
    sound.addSingle_eq_ok linked present outputsThere added
  have unused := sound.nextNode_unused
  have own_id : (⟨grown.nextNode⟩ : PlaneNodeId) = ⟨plane.nextNode⟩ := by rw [grows.nextNode_eq]
  have shows (usage : Usage) (t : TensorId) (other : PlaneNodeId) :
      (grown.pushed (singleNode node ⟨plane.nextNode⟩ inputs outputs)).Shows usage t other ↔
        (other = ⟨plane.nextNode⟩ ∧ ∃ clone, grown.tensorOf.get? t = some clone ∧
          clone ∈ (singleNode node ⟨plane.nextNode⟩ inputs outputs).exposed usage) ∨ plane.Shows usage t other := by
    unfold Shows
    rw [nodes_pushed, grows.graph_eq]
    show (∃ found clone, (plane.graph.nodes.insert ⟨plane.nextNode⟩ _).get? other = some found ∧
      grown.tensorOf.get? t = some clone ∧ _) ↔ _
    by_cases new : other = ⟨plane.nextNode⟩
    next => simp [new, unused, Table.get?_insert_self]
    next =>
      rw [Table.get?_insert_of_ne _ _ new]
      simp only [new, false_and, false_or]
      -- Clones may have been added, but none of a tensor that an older plane node lists.
      refine exists_congr fun found => ?_
      rw [exists_and_left, exists_and_left]
      refine and_congr_right fun there => ?_
      exact grows.lists_iff (sound.faithful there) sound'.injective usage t
  refine ⟨sound', ?_⟩
  constructor
  case nodeOf =>
    intro other
    rw [get?_nodeOf_pushed, own_id, grows.nodeOf_eq]
    simp [singleNode]
  case unused =>
    intro other represented
    obtain ⟨found, there, -⟩ := (sound.nodeOf_iff other _).mp represented
    rw [unused] at there
    cases there
  case output =>
    intro t other
    rw [shows]
    exact or_congr_left (and_congr_right fun _ => outputsCloned.shown_iff sound'.injective t)
  case input =>
    intro t other
    rw [shows]
    exact or_congr_left (and_congr_right fun _ => inputsCloned.shown_iff sound'.injective t)
  case bundleOf => exact grows.bundleOf_eq
  case frozen => exact grows.frozen_eq

section Crossing

variable {id source target : PlaneNodeId} {t : TensorId}

theorem Gains.crossed (gains : Gains plane node id after) (arrives : graph.Arrives node final)
    (crosses : after.Crosses final t source target) :
    plane.Crosses graph t source target ∨
      (target = id ∧ t ∈ node.allInputs ∧ ∃ tensor producer, graph.tensors.get? t = some tensor ∧
        tensor.producer = some producer ∧ plane.nodeOf.get? producer = some source) ∨
      (source = id ∧ t ∈ node.allOutputs ∧ ∃ tensor, ∃ consumer ∈ tensor.consumers, graph.tensors.get? t = some tensor ∧
        plane.nodeOf.get? consumer = some target) := by
  obtain ⟨differ, producer, consumer, carries, left, right⟩ := crosses
  obtain ⟨tensor, present, produced, consumed⟩ := arrives.carries_iff.mp carries
  rw [gains.nodeOf] at left right
  have older (other : producer ≠ node.id)
      (produced : (if t ∈ node.allOutputs then some node.id else tensor.producer) = some producer) :
      tensor.producer = some producer := by
    split at produced
    next => exact absurd (Option.some.inj produced).symm other
    next => exact produced
  -- The new node may be either end. It is not both, since its plane node does not differ from itself.
  by_cases makes : producer = node.id <;> by_cases reads : consumer = node.id
  · rw [if_pos makes] at left
    rw [if_pos reads] at right
    exact absurd (Option.some.inj (left.symm.trans right)) differ
  · rw [if_pos makes] at left
    rw [if_neg reads] at right
    have outputs : t ∈ node.allOutputs := by
      by_contra foreign
      rw [if_neg foreign, makes] at produced
      obtain ⟨record, there, -⟩ := (arrives.linked.producer_iff present node.id).mp produced
      rw [arrives.absent] at there
      cases there
    have consumes : consumer ∈ tensor.consumers := consumed.resolve_right fun own => reads own.2
    exact Or.inr (Or.inr ⟨(Option.some.inj left).symm, outputs, tensor, consumer, consumes, present, right⟩)
  · rw [if_neg makes] at left
    rw [if_pos reads] at right
    have inputs : t ∈ node.allInputs := by
      rcases consumed with consumes | ⟨inputs, -⟩
      next =>
        rw [reads] at consumes
        obtain ⟨record, there, -⟩ := (arrives.linked.consumer_iff present node.id).mp consumes
        rw [arrives.absent] at there
        cases there
      next => exact inputs
    exact Or.inr (Or.inl ⟨(Option.some.inj right).symm, inputs, tensor, producer, present, older makes produced, left⟩)
  · rw [if_neg makes] at left
    rw [if_neg reads] at right
    have consumes : consumer ∈ tensor.consumers := consumed.resolve_right fun own => reads own.2
    exact Or.inl ⟨differ, producer, consumer, ⟨tensor, present, older makes produced, consumes⟩, left, right⟩

theorem Gains.crosses_input (gains : Gains plane node id after) (arrives : graph.Arrives node final)
    {tensor : Tensor} {producer : NodeId} (listed : t ∈ node.allInputs) (present : graph.tensors.get? t = some tensor)
    (produced : tensor.producer = some producer) (unknown : plane.nodeOf.get? node.id = none)
    (represented : plane.nodeOf.get? producer = some source) : after.Crosses final t source id := by
  have foreign : t ∉ node.allOutputs := by
    intro own
    rw [arrives.unproduced own present] at produced
    cases produced
  have other : producer ≠ node.id := by
    rintro rfl
    rw [unknown] at represented
    cases represented
  refine ⟨fun same => gains.unused producer (same ▸ represented), producer, node.id, ?_, ?_, ?_⟩
  next => exact arrives.carries_iff.mpr ⟨tensor, present, by rwa [if_neg foreign], Or.inr ⟨listed, rfl⟩⟩
  next => rw [gains.nodeOf, if_neg other, represented]
  next => rw [gains.nodeOf, if_pos rfl]

theorem Gains.crosses_output (gains : Gains plane node id after) (arrives : graph.Arrives node final)
    {tensor : Tensor} {consumer : NodeId} (listed : t ∈ node.allOutputs) (present : graph.tensors.get? t = some tensor)
    (consumes : consumer ∈ tensor.consumers) (unknown : plane.nodeOf.get? node.id = none)
    (represented : plane.nodeOf.get? consumer = some target) : after.Crosses final t id target := by
  have other : consumer ≠ node.id := by
    rintro rfl
    rw [unknown] at represented
    cases represented
  refine ⟨fun same => gains.unused consumer (same ▸ represented), node.id, consumer, ?_, ?_, ?_⟩
  next => exact arrives.carries_iff.mpr ⟨tensor, present, if_pos listed, Or.inl consumes⟩
  next => rw [gains.nodeOf, if_pos rfl]
  next => rw [gains.nodeOf, if_neg other, represented]

theorem Gains.exposes {nodes : List PlaneNodeId} (gains : Gains plane node id after) (arrives : graph.Arrives node final)
    (joined : ∀ other, plane.joins node = some other → other ≠ id → other ∈ nodes ∧ id ∈ nodes)
    (exposes : plane.Exposes graph []) (attaches : plane.Attaches graph node) : after.Exposes final nodes := by
  intro t source target crosses apart
  rw [gains.output, gains.input]
  rcases gains.crossed arrives crosses with old | ⟨rfl, listed, tensor, producer, present, produced, left⟩ |
    ⟨rfl, listed, tensor, consumer, consumes, present, right⟩
  next =>
    obtain ⟨output, input⟩ := exposes old (by simp)
    exact ⟨Or.inr output, Or.inr input⟩
  next =>
    refine ⟨Or.inr (attaches.inputs listed present produced left fun same => ?_), Or.inl ⟨rfl, listed⟩⟩
    exact apart (joined source same fun own => gains.unused producer (own ▸ left))
  next =>
    refine ⟨Or.inl ⟨rfl, listed⟩, Or.inr (attaches.outputs listed present consumes right fun same => ?_)⟩
    exact apart (joined target same fun own => gains.unused consumer (own ▸ right)).symm

theorem Gains.attaches (nodes : List PlaneNodeId) (gains : Gains plane node id after)
    (arrives : graph.Arrives node final) (unknown : plane.nodeOf.get? node.id = none)
    (joined : ∀ other ∈ nodes, other ≠ id → plane.joins node = some other)
    (shown : ∀ {t source target}, after.Crosses final t source target → ¬ (source ∈ nodes ∧ target ∈ nodes) →
      after.Shows .output t source ∧ (target ∉ nodes → after.Shows .input t target)) : plane.Attaches graph node := by
  constructor
  case inputs =>
    intro t tensor producer source listed present produced represented apart
    have other : source ≠ id := fun own => gains.unused producer (own ▸ represented)
    have crosses := gains.crosses_input arrives listed present produced unknown represented
    have output := (shown crosses fun both => apart (joined source both.1 other)).1
    exact ((gains.output t source).mp output).resolve_left fun own => other own.1
  case outputs =>
    intro t tensor consumer target listed present consumes represented apart
    have other : target ≠ id := fun own => gains.unused consumer (own ▸ represented)
    have outside : target ∉ nodes := fun within => apart (joined target within other)
    have crosses := gains.crosses_output arrives listed present consumes unknown represented
    have input := (shown crosses fun both => outside both.2).2 outside
    exact ((gains.input t target).mp input).resolve_left fun own => other own.1

end Crossing

structure Agrees (plane after : Plane) : Prop where
  nodeOf : after.nodeOf = plane.nodeOf
  shows : ∀ usage t id, after.Shows usage t id ↔ plane.Shows usage t id
  frozen : after.frozen = plane.frozen

theorem Agrees.refl (plane : Plane) : Agrees plane plane := ⟨rfl, fun _ _ _ => Iff.rfl, rfl⟩

theorem Agrees.exposes_iff (agrees : Agrees plane after) (nodes : List PlaneNodeId) :
    after.Exposes graph nodes ↔ plane.Exposes graph nodes := by
  unfold Exposes Crosses
  simp only [agrees.nodeOf, agrees.shows]

theorem Sound.addNewBundle (sound : plane.Sound graph) {member : NodeId} {info : BundleInfo} {made : Bool}
    (added : addNewBundle member info plane = .ok made after) : after.Sound graph ∧ Agrees plane after := by
  unfold Plane.addNewBundle at added
  obtain ⟨id, -, rest⟩ := query_bind_eq_ok.mp added
  obtain ⟨found, -, rest⟩ := query_bind_eq_ok.mp rest
  by_cases already : found.isBundle
  next =>
    rw [if_pos already] at rest
    cases rest
    exact ⟨sound, .refl _⟩
  next =>
    rw [if_neg already] at rest
    cases rest
    let bundled (found : PlaneNode) : PlaneNode := { found with bundle := some info, name := bundleName info }
    have nodes := PlaneGraph.get?_nodes_modifyNode plane.graph id bundled
    constructor
    next =>
      exact (sound.modifyNode id bundled (fun _ => rfl) (fun _ => rfl) (fun _ => rfl) (fun _ => rfl)
        fun _ none => nomatch none).setBundles _
    next =>
      refine ⟨rfl, fun usage t other => ?_, rfl⟩
      have shown := shows_of_changes plane { plane with
          graph := plane.graph.modifyNode id bundled, bundleOf := plane.bundleOf.insert info.bundleIndex id }
        (fun other found => if other = id then bundled found else found) rfl nodes
      refine (shown usage t other).trans ?_
      refine exists_congr fun found => exists_congr fun clone => and_congr_right fun _ => and_congr_right fun _ => ?_
      split
      next => cases usage <;> rfl
      next => exact Iff.rfl

theorem Sound.addToBundle (sound : plane.Sound graph) {member : NodeId} {info : BundleInfo} {made : Bool}
    {candidate : PlaneNodeId} (represented : plane.nodeOf.get? member = some candidate)
    (added : addToBundle member info plane = .ok made after) : after.Sound graph ∧ after.frozen = plane.frozen ∧
      (Agrees plane after ∧ (∀ bundle, plane.bundleOf.get? info.bundleIndex = some bundle → bundle = candidate) ∨
        ∃ bundle id, plane.bundleOf.get? info.bundleIndex = some bundle ∧ Merges plane [candidate, bundle] id after) := by
  unfold Plane.addToBundle at added
  rw [stateful_get_bind] at added
  cases known : plane.bundleOf.get? info.bundleIndex with
  | none =>
    rw [known] at added
    obtain ⟨sound', agrees⟩ := sound.addNewBundle added
    exact ⟨sound', agrees.frozen, Or.inl ⟨agrees, fun _ none => nomatch none⟩⟩
  | some bundle =>
    rw [known] at added
    obtain ⟨answer, answered, rest⟩ := query_bind_eq_ok.mp added
    cases (representation_eq_ok.mp answered).symm.trans represented
    by_cases same : candidate = bundle
    next =>
      rw [if_pos same] at rest
      cases rest
      exact ⟨sound, rfl, Or.inl ⟨.refl _, fun _ some => same ▸ (Option.some.inj some).symm⟩⟩
    next =>
      rw [if_neg same] at rest
      by_cases bundled : (plane.graph.nodes.get? candidate).any PlaneNode.isBundle
      next => rw [if_pos bundled] at rest; cases rest
      next =>
        rw [if_neg bundled] at rest
        obtain ⟨_, fused, rest, ended⟩ := stateful_bind_eq_ok.mp rest
        cases ended
        obtain ⟨id, rest⟩ := stateful_discard_eq_ok.mp rest
        obtain ⟨sound', frozen, id, merges⟩ := sound.fuse rest
        exact ⟨sound', frozen, Or.inr ⟨bundle, id, rfl, merges⟩⟩

theorem Gains.covers {id : PlaneNodeId} (gains : Gains plane node id after) (follows : plane.Follows graph)
    (arrives : graph.Arrives node final) (other : NodeId) :
    (∃ id, after.nodeOf.get? other = some id) ↔ other ∈ final.nodeIds := by
  rw [Graph.mem_nodeIds_iff, arrives.nodes, gains.nodeOf]
  by_cases own : other = node.id
  next => simp [own]
  next => rw [if_neg own, if_neg own, follows.covers, Graph.mem_nodeIds_iff]

theorem Follows.unknown (follows : plane.Follows graph) (arrives : graph.Arrives node final) :
    plane.nodeOf.get? node.id = none := by
  by_contra known
  obtain ⟨record, there⟩ := (Graph.mem_nodeIds_iff _).mp
    ((follows.covers node.id).mp (Option.ne_none_iff_exists'.mp known))
  rw [arrives.absent] at there
  cases there

theorem Gains.exposes_iff {id : PlaneNodeId} (gains : Gains plane node id after) (arrives : graph.Arrives node final)
    (unknown : plane.nodeOf.get? node.id = none) (apart : ∀ other, plane.joins node = some other → other = id)
    (exposes : plane.Exposes graph []) : after.Exposes final [] ↔ plane.Attaches graph node := by
  constructor
  next =>
    intro exposes'
    refine gains.attaches [] arrives unknown (by simp) fun crosses _ => ?_
    obtain ⟨output, input⟩ := exposes' crosses (by simp)
    exact ⟨output, fun _ => input⟩
  next => exact gains.exposes arrives (fun other joins differs => absurd (apart other joins) differs) exposes

theorem Follows.addNode (follows : plane.Follows graph) (arrives : graph.Arrives node final)
    (added : addNode final node.id plane = .ok () after) :
    after.Follows final ∧ (plane.Exposes graph [] → (after.Exposes final [] ↔ plane.Attaches graph node)) := by
  have unknown := follows.unknown arrives
  have outputsThere : ∀ t ∈ node.allOutputs, ∃ tensor, final.tensors.get? t = some tensor := by
    intro t listed
    obtain ⟨tensor, there, -⟩ := arrives.outputs t listed
    exact ⟨_, by rw [arrives.tensors, there]; rfl⟩
  have got : final.get node.id = .ok node := by rw [Graph.get, arrives.present]
  unfold Plane.addNode at added
  rw [unlessFrozen_eq _ follows.unfrozen, got] at added
  obtain ⟨_, single, first, rest⟩ := stateful_bind_eq_ok.mp added
  obtain ⟨id, first⟩ := stateful_discard_eq_ok.mp first
  obtain ⟨sound, gains⟩ :=
    (follows.sound.arrives arrives).addSingle_gains arrives.linked_final arrives.present outputsThere first
  have covers := gains.covers follows arrives
  have unfrozen := gains.frozen.trans follows.unfrozen
  cases annotated : node.annotations.bundle with
  | none =>
    rw [annotated] at rest
    cases rest
    exact ⟨⟨sound, covers, unfrozen⟩,
      gains.exposes_iff arrives unknown fun other joined => by simp [Plane.joins, annotated] at joined⟩
  | some info =>
    rw [annotated] at rest
    obtain ⟨made, rest⟩ := stateful_discard_eq_ok.mp rest
    have joins : plane.joins node = single.bundleOf.get? info.bundleIndex := by
      rw [gains.bundleOf, Plane.joins, annotated]; rfl
    obtain ⟨sound', frozen, ⟨agrees, apart⟩ | ⟨bundle, fused, indexed, merges⟩⟩ :=
      sound.addToBundle (by rw [gains.nodeOf, if_pos rfl]) rest
    next =>
      refine ⟨⟨sound', by rw [agrees.nodeOf]; exact covers, frozen.trans unfrozen⟩, fun exposes => ?_⟩
      rw [agrees.exposes_iff]
      exact gains.exposes_iff arrives unknown (by rw [joins]; exact apart) exposes
    next =>
      rw [indexed] at joins
      refine ⟨⟨sound', fun other => ?_, frozen.trans unfrozen⟩, fun exposes => ?_⟩
      next =>
        rw [← covers, merges.nodeOf]
        cases single.nodeOf.get? other <;> simp
      next =>
        constructor
        next =>
          intro exposes'
          refine gains.attaches [id, bundle] arrives unknown ?_ (merges.shown_of_exposes sound exposes')
          intro other member differs
          rw [joins, List.mem_singleton.mp ((List.mem_cons.mp member).resolve_left differs)]
        next =>
          intro attaches
          refine merges.exposes sound (gains.exposes arrives ?_ exposes attaches)
          intro other joined _
          cases joins.symm.trans joined
          simp

end Plane

end Dataflow
