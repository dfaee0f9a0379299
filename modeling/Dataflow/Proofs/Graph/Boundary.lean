import Dataflow.Proofs.Graph.Inverse
import Dataflow.Proofs.Graph.Relation
import Dataflow.Workspace.Fusion

set_option autoImplicit false

namespace Dataflow.Graph

open Relation

variable {graph rest : Graph} {members : List NodeId} {t : TensorId} {tensor : Tensor}

def Enters (graph : Graph) (members : List NodeId) (t : TensorId) : Prop :=
  ∃ tensor, graph.tensors.get? t = some tensor ∧ (∃ member ∈ members, member ∈ tensor.consumers) ∧
    ∀ producer, tensor.producer = some producer → producer ∉ members

def Leaves (graph : Graph) (members : List NodeId) (t : TensorId) : Prop :=
  ∃ tensor, graph.tensors.get? t = some tensor ∧ (∃ member ∈ members, tensor.producer = some member) ∧
    (tensor.consumers = [] ∨ ∃ consumer ∈ tensor.consumers, consumer ∉ members)

theorem enters_iff (found : graph.tensors.get? t = some tensor) : graph.Enters members t ↔
    (∃ member ∈ members, member ∈ tensor.consumers) ∧
      ∀ producer, tensor.producer = some producer → producer ∉ members := by
  simp [Enters, found]

theorem leaves_iff (found : graph.tensors.get? t = some tensor) : graph.Leaves members t ↔
    (∃ member ∈ members, tensor.producer = some member) ∧
      (tensor.consumers = [] ∨ ∃ consumer ∈ tensor.consumers, consumer ∉ members) := by
  simp [Leaves, found]

section External

variable {nodes : List Node} (consistent : graph.Consistent)
  (records : ∀ node, node ∈ nodes ↔ ∃ member ∈ members, graph.nodes.get? member = some node)

include consistent records

theorem mem_externalInputs : t ∈ (graph.externalTensors members nodes).1 ↔ graph.Enters members t := by
  simp only [externalTensors, Ranked.mem_ascending, List.mem_filter, List.mem_flatMap, records]
  cases found : graph.tensors.get? t with
  | none =>
    constructor
    next =>
      rintro ⟨⟨node, ⟨member, -, present⟩, reads⟩, -⟩
      obtain ⟨tensor, there⟩ := consistent.listed present (Or.inl reads)
      cases found.symm.trans there
    next =>
      rintro ⟨tensor, there, -⟩
      cases found.symm.trans there
  | some tensor =>
    have reads : (∃ node, (∃ member ∈ members, graph.nodes.get? member = some node) ∧ t ∈ node.allInputs) ↔
        ∃ member ∈ members, member ∈ tensor.consumers := by
      simp only [consistent.consumer_iff found]
      grind
    rw [enters_iff found, reads, producer?, found, Option.bind_some]
    cases tensor.producer <;> simp

theorem mem_externalOutputs : t ∈ (graph.externalTensors members nodes).2 ↔ graph.Leaves members t := by
  simp only [externalTensors, Ranked.mem_ascending, List.mem_filter, List.mem_flatMap, records]
  cases found : graph.tensors.get? t with
  | none =>
    constructor
    next =>
      rintro ⟨⟨node, ⟨member, -, present⟩, writes⟩, -⟩
      obtain ⟨tensor, there⟩ := consistent.listed present (Or.inr writes)
      cases found.symm.trans there
    next =>
      rintro ⟨tensor, there, -⟩
      cases found.symm.trans there
  | some tensor =>
    have writes : (∃ node, (∃ member ∈ members, graph.nodes.get? member = some node) ∧ t ∈ node.allOutputs) ↔
        ∃ member ∈ members, tensor.producer = some member := by
      simp only [consistent.producer_iff found]
      grind
    rw [leaves_iff found, writes, tensorConsumers, found]
    simp

end External

def without (members : List NodeId) (tensor : Tensor) : Tensor :=
  { tensor with
    producer := tensor.producer.filter (· ∉ members), consumers := tensor.consumers.filter (· ∉ members) }

theorem without_nil (tensor : Tensor) : without [] tensor = tensor := by
  obtain ⟨id, name, sizeBytes, producer, consumers, control, view⟩ := tensor
  cases producer <;> simp [without]

theorem without_append (members others : List NodeId) (tensor : Tensor) :
    without others (without members tensor) = without (members ++ others) tensor := by
  obtain ⟨id, name, sizeBytes, producer, consumers, control, view⟩ := tensor
  simp [without, Option.filter_filter, List.filter_filter, Bool.and_comm]

theorem Linked.released_eq (linked : graph.Linked) {node : Node} (present : graph.nodes.get? node.id = some node)
    (found : graph.tensors.get? t = some tensor) : released node t tensor = without [node.id] tensor := by
  have reads := linked.consumer_iff found node.id
  have writes := linked.producer_iff found node.id
  simp only [present, Option.some.injEq, exists_eq_left'] at reads writes
  obtain ⟨id, name, sizeBytes, producer, consumers, control, view⟩ := tensor
  simp only [released, without, ← reads, ← writes, List.mem_singleton]
  congr 1
  next =>
    cases producer with
    | none => simp
    | some producer => by_cases own : producer = node.id <;> simp [Option.filter, own]
  next =>
    split
    next => rfl
    next unread =>
      symm
      rw [List.filter_eq_self]
      exact fun other member => decide_eq_true fun same => unread (same ▸ member)

structure Emptied (graph : Graph) (members : List NodeId) (rest : Graph) : Prop where
  consistent : rest.Consistent
  nodes : ∀ id, rest.nodes.get? id = if id ∈ members then none else graph.nodes.get? id
  tensors : ∀ t, rest.tensors.get? t = (graph.tensors.get? t).map (without members)
  nextNode : rest.nextNode = graph.nextNode

theorem Emptied.refl (consistent : graph.Consistent) : Emptied graph [] graph where
  consistent := consistent
  nodes := by simp
  tensors := by simp [funext without_nil]
  nextNode := rfl

theorem Emptied.removeNode (emptied : Emptied graph members rest) {id : NodeId} {node : Node}
    (present : graph.nodes.get? id = some node) (new : id ∉ members) :
    ∃ after, rest.removeNode id = .ok (node, after) ∧ Emptied graph (members ++ [id]) after := by
  have there : rest.nodes.get? id = some node := by rw [emptied.nodes, if_neg new, present]
  have linked := emptied.consistent.toLinked
  have removed := removeNode_of_present there
  cases linked.nodeKey there
  refine ⟨rest.detach node, removed, emptied.consistent.detach there, ?_, ?_, emptied.nextNode⟩
  next =>
    intro other
    rw [get?_nodes_detach, emptied.nodes]
    by_cases own : other = node.id <;> simp [own]
  next =>
    intro t
    rw [get?_tensors_detach]
    have found := emptied.tensors t
    cases before : graph.tensors.get? t with
    | none => rw [found, before]; rfl
    | some tensor =>
      rw [before, Option.map_some] at found
      rw [found, Option.map_some, Option.map_some, linked.released_eq there found, without_append]

def standIn (members : List NodeId) (probe node : NodeId) : NodeId := if node ∈ members then probe else node

section Probe

variable {probe : NodeId} {inputs outputs : List TensorId} {spec : NodeSpec}

theorem producer_of_probed (found : graph.tensors.get? t = some tensor) (leaves : t ∈ outputs → graph.Leaves members t)
    {source : NodeId}
    (produced : (entered (spec.node probe inputs outputs [] []) t (without members tensor)).producer = some source) :
    ∃ producer, tensor.producer = some producer ∧ standIn members probe producer = source := by
  have outputs_eq : (spec.node probe inputs outputs [] []).allOutputs = outputs := List.append_nil _
  by_cases writes : t ∈ outputs
  next =>
    obtain ⟨⟨member, inside, old⟩, -⟩ := (leaves_iff found).mp (leaves writes)
    rw [entered, outputs_eq] at produced
    simp only [writes, if_true, Option.some.injEq] at produced
    exact ⟨member, old, by rw [standIn, if_pos inside]; exact produced⟩
  next =>
    rw [entered, outputs_eq] at produced
    simp only [writes, if_false, without, Option.filter_eq_some_iff, decide_eq_true_iff] at produced
    exact ⟨source, produced.1, by rw [standIn, if_neg produced.2]⟩

theorem consumer_of_probed (found : graph.tensors.get? t = some tensor) (enters : t ∈ inputs → graph.Enters members t)
    {target : NodeId}
    (consumes : target ∈ (entered (spec.node probe inputs outputs [] []) t (without members tensor)).consumers) :
    ∃ consumer ∈ tensor.consumers, standIn members probe consumer = target := by
  have inputs_eq : (spec.node probe inputs outputs [] []).allInputs = inputs := List.append_nil _
  have kept (old : target ∈ (without members tensor).consumers) :
      ∃ consumer ∈ tensor.consumers, standIn members probe consumer = target := by
    simp only [without, List.mem_filter, decide_eq_true_iff] at old
    exact ⟨target, old.1, by rw [standIn, if_neg old.2]⟩
  rw [entered, inputs_eq] at consumes
  by_cases reads : t ∈ inputs
  next =>
    simp only [reads, if_true, Ranked.mem_insert] at consumes
    rcases consumes with rfl | old
    next =>
      obtain ⟨⟨member, inside, reader⟩, -⟩ := (enters_iff found).mp (enters reads)
      exact ⟨member, reader, by rw [standIn, if_pos inside]⟩
    next => exact kept old
  next =>
    simp only [reads, if_false] at consumes
    exact kept consumes

theorem probed_of_edge (found : graph.tensors.get? t = some tensor) (enters : graph.Enters members t → t ∈ inputs)
    (leaves : t ∈ outputs ↔ graph.Leaves members t) {producer consumer : NodeId}
    (produced : tensor.producer = some producer) (consumes : consumer ∈ tensor.consumers)
    (differ : standIn members probe producer ≠ standIn members probe consumer) :
    (entered (spec.node probe inputs outputs [] []) t (without members tensor)).producer =
        some (standIn members probe producer) ∧
      standIn members probe consumer ∈
        (entered (spec.node probe inputs outputs [] []) t (without members tensor)).consumers := by
  have outputs_eq : (spec.node probe inputs outputs [] []).allOutputs = outputs := List.append_nil _
  have inputs_eq : (spec.node probe inputs outputs [] []).allInputs = inputs := List.append_nil _
  rw [entered, outputs_eq, inputs_eq]
  have entering : graph.Enters members t ↔ _ := enters_iff found
  have leaving : graph.Leaves members t ↔ _ := leaves_iff found
  simp only [standIn] at differ ⊢
  by_cases inside : producer ∈ members
  next =>
    -- The stand-ins differ, so a producer among the members has a consumer outside of them.
    have outside : consumer ∉ members := by
      intro inside'
      rw [if_pos inside, if_pos inside'] at differ
      exact differ rfl
    have writes : t ∈ outputs := leaves.mpr (leaving.mpr ⟨⟨producer, inside, produced⟩, Or.inr ⟨consumer, consumes, outside⟩⟩)
    simp only [inside, outside, writes, if_true, if_false]
    refine ⟨rfl, ?_⟩
    split <;> simp [without, consumes, outside]
  next =>
    -- What is made outside of the members does not leave them, and the probe does not write it.
    have unwritten : t ∉ outputs := by
      intro writes
      obtain ⟨⟨member, inside', produced'⟩, -⟩ := leaving.mp (leaves.mp writes)
      cases produced.symm.trans produced'
      exact inside inside'
    simp only [inside, unwritten, if_false]
    constructor
    next => simp [without, produced, Option.filter, inside]
    next =>
      by_cases inside' : consumer ∈ members
      next =>
        have reads : t ∈ inputs := by
          refine enters (entering.mpr ⟨⟨consumer, inside', consumes⟩, ?_⟩)
          intro other produced'
          cases produced.symm.trans produced'
          exact inside
        simp only [inside', reads, if_true, Ranked.mem_insert]
        exact Or.inl rfl
      next =>
        simp only [inside', if_false]
        split <;> simp [without, consumes, inside']

theorem Emptied.addProbe (emptied : Emptied graph members rest) (spec : NodeSpec)
    (enters : ∀ t, t ∈ inputs ↔ graph.Enters members t) (leaves : ∀ t, t ∈ outputs ↔ graph.Leaves members t) :
    ∃ after, rest.addNode spec inputs outputs = .ok (⟨graph.nextNode⟩, after) ∧
      after.Edge = Collapsed graph.Edge (standIn members ⟨graph.nextNode⟩) := by
  have there : ∀ t ∈ inputs, ∃ tensor, rest.tensors.get? t = some tensor := by
    intro t reads
    obtain ⟨tensor, found, -⟩ := (enters t).mp reads
    exact ⟨_, by rw [emptied.tensors, found]; rfl⟩
  have free : ∀ t ∈ outputs, ∃ tensor, rest.tensors.get? t = some tensor ∧ tensor.producer = none := by
    intro t writes
    obtain ⟨tensor, found, ⟨member, inside, produced⟩, -⟩ := (leaves t).mp writes
    refine ⟨_, by rw [emptied.tensors, found]; rfl, ?_⟩
    simp [without, produced, Option.filter, inside]
  refine ⟨_, emptied.nextNode ▸ addNode_of_free there free, ?_⟩
  have tensors (t : TensorId) :
      ({ rest with nextNode := graph.nextNode + 1 }.attach
        (spec.node ⟨graph.nextNode⟩ inputs outputs [] [])).tensors.get? t =
      ((graph.tensors.get? t).map (without members)).map
        (entered (spec.node ⟨graph.nextNode⟩ inputs outputs [] []) t) := by
    rw [get?_tensors_attach, ← emptied.tensors]
  funext source target
  refine propext ⟨?_, ?_⟩
  next =>
    rintro ⟨differ, t, tensor, found, -, produced, consumes⟩
    rw [tensors, Option.map_map, Option.map_eq_some_iff] at found
    obtain ⟨before, old, rfl⟩ := found
    obtain ⟨producer, produced', rfl⟩ := producer_of_probed old (leaves t).mp produced
    obtain ⟨consumer, consumes', rfl⟩ := consumer_of_probed old (enters t).mp consumes
    refine ⟨differ, producer, consumer, ⟨?_, t, before, old, rfl, produced', consumes'⟩, rfl, rfl⟩
    exact fun same => differ (congrArg _ same)
  next =>
    rintro ⟨differ, producer, consumer, ⟨-, t, tensor, found, -, produced, consumes⟩, rfl, rfl⟩
    obtain ⟨produced', consumes'⟩ := probed_of_edge found (enters t).mpr (leaves t) produced consumes differ
    exact ⟨differ, t, _, by rw [tensors, found]; rfl, rfl, produced', consumes'⟩

end Probe

theorem Linked.acyclic_standIn_iff (linked : graph.Linked) (acyclic : Acyclic graph.Edge) :
    Acyclic (Collapsed graph.Edge (standIn members ⟨graph.nextNode⟩)) ↔ ¬ Reenters graph.Edge (· ∈ members) := by
  have fresh {source target : NodeId} (edge : graph.Edge source target) :
      source ≠ ⟨graph.nextNode⟩ ∧ target ≠ ⟨graph.nextNode⟩ := by
    have absent : ⟨graph.nextNode⟩ ∉ graph.nodeIds := by simp [mem_nodeIds_iff, nextNode_absent linked]
    obtain ⟨known, known'⟩ := edge.2.known linked
    exact ⟨fun same => absent (same ▸ known), fun same => absent (same ▸ known')⟩
  have start {source target : NodeId} (path : TransGen graph.Edge source target) : source ≠ ⟨graph.nextNode⟩ := by
    obtain ⟨_, edge, -⟩ := TransGen.head'_iff.mp path
    exact (fresh edge).1
  have finish {source target : NodeId} (path : TransGen graph.Edge source target) : target ≠ ⟨graph.nextNode⟩ := by
    obtain ⟨_, -, edge⟩ := TransGen.tail'_iff.mp path
    exact (fresh edge).2
  have inside : ∀ node, standIn members ⟨graph.nextNode⟩ node = ⟨graph.nextNode⟩ ↔
      node ∈ members ∨ node = ⟨graph.nextNode⟩ := by
    intro node
    by_cases inside : node ∈ members <;> simp [standIn, inside]
  have outside : ∀ {node other}, ¬ (node ∈ members ∨ node = ⟨graph.nextNode⟩) →
      standIn members ⟨graph.nextNode⟩ node = standIn members ⟨graph.nextNode⟩ other → node = other := by
    intro node other outside same
    by_cases inside : other ∈ members <;> simp_all [standIn]
  refine (acyclic.collapsed_iff inside outside).trans (not_congr ⟨?_, ?_⟩)
  next =>
    rintro ⟨first, middle, last, member, outside, member', leaves, returns⟩
    exact ⟨first, middle, last, member.resolve_right (start leaves), fun inside => outside (Or.inl inside),
      member'.resolve_right (finish returns), leaves, returns⟩
  next =>
    rintro ⟨first, middle, last, member, outside, member', leaves, returns⟩
    refine ⟨first, middle, last, Or.inl member, ?_, Or.inl member', leaves, returns⟩
    exact fun inside => inside.elim outside (start returns)

end Dataflow.Graph
