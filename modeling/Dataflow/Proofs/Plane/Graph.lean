import Dataflow.Plane.Graph
import Dataflow.Proofs.Topology.Kahn

set_option autoImplicit false

namespace Dataflow

namespace PlaneGraph

variable {graph : PlaneGraph}

structure Indexed (graph : PlaneGraph) : Prop where
  nodeKey : ∀ {id node}, graph.nodes.get? id = some node → node.id = id
  producer_iff : ∀ clone id, graph.producerOf.get? clone = some id ↔
    ∃ node, graph.nodes.get? id = some node ∧ clone ∈ node.outputs
  consumer_iff : ∀ clone id, id ∈ graph.tensorConsumers clone ↔
    ∃ node, graph.nodes.get? id = some node ∧ clone ∈ node.inputs

theorem indexed_empty : ({} : PlaneGraph).Indexed := by
  constructor
  case nodeKey => intro id node found; cases found
  case producer_iff =>
    intro clone id
    constructor
    next => intro found; cases found
    next => rintro ⟨node, found, -⟩; cases found
  case consumer_iff =>
    intro clone id
    constructor
    next => intro member; cases member
    next => rintro ⟨node, found, -⟩; cases found

theorem mem_tensorConsumers_addConsumer (clone other : PlaneTensorId) (id consumer : PlaneNodeId) :
    consumer ∈ (graph.addConsumer clone id).tensorConsumers other ↔
      consumer ∈ graph.tensorConsumers other ∨ consumer = id ∧ other = clone := by
  by_cases same : other = clone
  next =>
    subst same
    simp [addConsumer, tensorConsumers, or_comm]
  next => simp [addConsumer, tensorConsumers, Table.get?_insert_of_ne _ _ same, same]

theorem mem_tensorConsumers_dropConsumer (clone other : PlaneTensorId) (id consumer : PlaneNodeId) :
    consumer ∈ (graph.dropConsumer clone id).tensorConsumers other ↔
      consumer ∈ graph.tensorConsumers other ∧ ¬ (consumer = id ∧ other = clone) := by
  unfold dropConsumer
  cases found : graph.consumersOf.get? clone with
  | none =>
    simp only [iff_self_and]
    rintro member ⟨-, rfl⟩
    simp [tensorConsumers, found] at member
  | some consumers =>
    have filtered : consumer ∈ consumers ∧ consumer ≠ id ↔ consumer ∈ consumers.filter (· ≠ id) := by simp
    simp only
    by_cases same : other = clone
    next =>
      subst same
      simp only [tensorConsumers, found, Option.getD_some, and_true, filtered]
      cases rest : consumers.filter (· ≠ id) with
      | nil => simp
      | cons head tail => simp
    next =>
      simp only [same, and_false, not_false_eq_true, and_true]
      cases rest : consumers.filter (· ≠ id) with
      | nil => simp [tensorConsumers, Table.get?_erase_of_ne _ same]
      | cons head tail => simp [tensorConsumers, Table.get?_insert_of_ne _ _ same]

theorem get?_producerOf_dropProducer (clone other : PlaneTensorId) (id producer : PlaneNodeId) :
    (graph.dropProducer clone id).producerOf.get? other = some producer ↔
      graph.producerOf.get? other = some producer ∧ ¬ (producer = id ∧ other = clone) := by
  unfold dropProducer
  split
  next own =>
    by_cases same : other = clone
    next =>
      subst same
      rw [Table.get?_erase_self, own]
      simp only [Option.some.injEq]
      grind
    next => simp [Table.get?_erase_of_ne _ same, same]
  next others =>
    simp only [iff_self_and]
    rintro found ⟨rfl, rfl⟩
    exact others found

section

variable (graph) (clone : PlaneTensorId) (id : PlaneNodeId)

@[simp] theorem nodes_addConsumer : (graph.addConsumer clone id).nodes = graph.nodes := rfl

@[simp] theorem producerOf_addConsumer : (graph.addConsumer clone id).producerOf = graph.producerOf := rfl

@[simp] theorem nodes_addProducer : (graph.addProducer clone id).nodes = graph.nodes := rfl

@[simp] theorem tensorConsumers_addProducer :
    (graph.addProducer clone id).tensorConsumers = graph.tensorConsumers := rfl

@[simp] theorem nodes_dropConsumer : (graph.dropConsumer clone id).nodes = graph.nodes := by
  unfold dropConsumer
  split
  next => rfl
  next => split <;> rfl

@[simp] theorem producerOf_dropConsumer : (graph.dropConsumer clone id).producerOf = graph.producerOf := by
  unfold dropConsumer
  split
  next => rfl
  next => split <;> rfl

@[simp] theorem nodes_dropProducer : (graph.dropProducer clone id).nodes = graph.nodes := by
  unfold dropProducer
  split <;> rfl

@[simp] theorem tensorConsumers_dropProducer :
    (graph.dropProducer clone id).tensorConsumers = graph.tensorConsumers := by
  unfold dropProducer
  split <;> rfl

@[simp] theorem producerOf_modifyNode (change : PlaneNode → PlaneNode) :
    (graph.modifyNode id change).producerOf = graph.producerOf := rfl

@[simp] theorem tensorConsumers_modifyNode (change : PlaneNode → PlaneNode) :
    (graph.modifyNode id change).tensorConsumers = graph.tensorConsumers := rfl

theorem get?_nodes_modifyNode (change : PlaneNode → PlaneNode) (other : PlaneNodeId) :
    (graph.modifyNode id change).nodes.get? other =
      (graph.nodes.get? other).map fun node => if other = id then change node else node :=
  Table.get?_modify_eq ..

end

theorem addConsumers_frame (graph : PlaneGraph) (clones : List PlaneTensorId) (id : PlaneNodeId) :
    (clones.foldl (fun graph clone => graph.addConsumer clone id) graph).nodes = graph.nodes ∧
      (clones.foldl (fun graph clone => graph.addConsumer clone id) graph).producerOf = graph.producerOf ∧
      ∀ other consumer, consumer ∈
        (clones.foldl (fun graph clone => graph.addConsumer clone id) graph).tensorConsumers other ↔
          consumer ∈ graph.tensorConsumers other ∨ consumer = id ∧ other ∈ clones := by
  induction clones generalizing graph with
  | nil => simp
  | cons clone rest ih =>
    obtain ⟨nodes, producers, consumers⟩ := ih (graph.addConsumer clone id)
    refine ⟨nodes, producers, fun other consumer => ?_⟩
    rw [List.foldl_cons, consumers, mem_tensorConsumers_addConsumer, List.mem_cons]
    tauto

theorem dropConsumers_frame (graph : PlaneGraph) (clones : List PlaneTensorId) (id : PlaneNodeId) :
    (clones.foldl (fun graph clone => graph.dropConsumer clone id) graph).nodes = graph.nodes ∧
      (clones.foldl (fun graph clone => graph.dropConsumer clone id) graph).producerOf = graph.producerOf ∧
      ∀ other consumer, consumer ∈
        (clones.foldl (fun graph clone => graph.dropConsumer clone id) graph).tensorConsumers other ↔
          consumer ∈ graph.tensorConsumers other ∧ ¬ (consumer = id ∧ other ∈ clones) := by
  induction clones generalizing graph with
  | nil => simp
  | cons clone rest ih =>
    obtain ⟨nodes, producers, consumers⟩ := ih (graph.dropConsumer clone id)
    refine ⟨by simpa using nodes, by simpa using producers, fun other consumer => ?_⟩
    rw [List.foldl_cons, consumers, mem_tensorConsumers_dropConsumer, List.mem_cons]
    tauto

theorem addProducers_frame (graph : PlaneGraph) (clones : List PlaneTensorId) (id : PlaneNodeId) :
    (clones.foldl (fun graph clone => graph.addProducer clone id) graph).nodes = graph.nodes ∧
      (clones.foldl (fun graph clone => graph.addProducer clone id) graph).tensorConsumers =
        graph.tensorConsumers ∧
      ∀ other, (clones.foldl (fun graph clone => graph.addProducer clone id) graph).producerOf.get? other =
        if other ∈ clones then some id else graph.producerOf.get? other := by
  induction clones generalizing graph with
  | nil => simp
  | cons clone rest ih =>
    obtain ⟨nodes, consumers, producers⟩ := ih (graph.addProducer clone id)
    refine ⟨nodes, consumers, fun other => ?_⟩
    rw [List.foldl_cons, producers]
    by_cases same : other = clone
    next => simp [same, addProducer]
    next => simp [same, addProducer, Table.get?_insert_of_ne]

theorem dropProducers_frame (graph : PlaneGraph) (clones : List PlaneTensorId) (id : PlaneNodeId) :
    (clones.foldl (fun graph clone => graph.dropProducer clone id) graph).nodes = graph.nodes ∧
      (clones.foldl (fun graph clone => graph.dropProducer clone id) graph).tensorConsumers =
        graph.tensorConsumers ∧
      ∀ other producer,
        (clones.foldl (fun graph clone => graph.dropProducer clone id) graph).producerOf.get? other =
          some producer ↔
        graph.producerOf.get? other = some producer ∧ ¬ (producer = id ∧ other ∈ clones) := by
  induction clones generalizing graph with
  | nil => simp
  | cons clone rest ih =>
    obtain ⟨nodes, consumers, producers⟩ := ih (graph.dropProducer clone id)
    refine ⟨by simpa using nodes, by simpa using consumers, fun other producer => ?_⟩
    rw [List.foldl_cons, producers, get?_producerOf_dropProducer, List.mem_cons]
    tauto

theorem nodes_addNode (graph : PlaneGraph) (node : PlaneNode) :
    (graph.addNode node).nodes = graph.nodes.insert node.id node := by
  simp only [addNode, (addProducers_frame _ _ _).1, (addConsumers_frame _ _ _).1]

theorem nodes_removeNode (graph : PlaneGraph) (node : PlaneNode) :
    (graph.removeNode node).nodes = graph.nodes.erase node.id := by
  simp only [removeNode, (dropProducers_frame _ _ _).1, (dropConsumers_frame _ _ _).1]

section Nodes

variable (graph) (node : PlaneNode) (clone : PlaneTensorId) (id : PlaneNodeId)

theorem get?_producerOf_addNode : (graph.addNode node).producerOf.get? clone =
    if clone ∈ node.outputs then some node.id else graph.producerOf.get? clone := by
  simp only [addNode, (addProducers_frame _ _ _).2.2, (addConsumers_frame _ _ _).2.1]

theorem mem_tensorConsumers_addNode : id ∈ (graph.addNode node).tensorConsumers clone ↔
    id ∈ graph.tensorConsumers clone ∨ id = node.id ∧ clone ∈ node.inputs := by
  have same : (graph.addNode node).tensorConsumers =
      (node.inputs.foldl (fun graph t => graph.addConsumer t node.id) graph).tensorConsumers :=
    (addProducers_frame _ node.outputs node.id).2.1
  rw [same, (addConsumers_frame _ _ _).2.2]

theorem get?_producerOf_removeNode : (graph.removeNode node).producerOf.get? clone = some id ↔
    graph.producerOf.get? clone = some id ∧ ¬ (id = node.id ∧ clone ∈ node.outputs) := by
  simp only [removeNode, (dropProducers_frame _ _ _).2.2, (dropConsumers_frame _ _ _).2.1]

theorem mem_tensorConsumers_removeNode : id ∈ (graph.removeNode node).tensorConsumers clone ↔
    id ∈ graph.tensorConsumers clone ∧ ¬ (id = node.id ∧ clone ∈ node.inputs) := by
  have same : (graph.removeNode node).tensorConsumers =
      (node.inputs.foldl (fun graph t => graph.dropConsumer t node.id) graph).tensorConsumers :=
    (dropProducers_frame _ node.outputs node.id).2.1
  rw [same, (dropConsumers_frame _ _ _).2.2]

end Nodes

theorem Indexed.addNode (indexed : graph.Indexed) {node : PlaneNode}
    (fresh : graph.nodes.get? node.id = none)
    (unproduced : ∀ clone ∈ node.outputs, graph.producerOf.get? clone = none) :
    (graph.addNode node).Indexed := by
  constructor
  case nodeKey =>
    intro id found there
    rw [nodes_addNode] at there
    rcases Table.get?_insert_eq_some.mp there with ⟨rfl, rfl⟩ | ⟨-, old⟩
    next => rfl
    next => exact indexed.nodeKey old
  case producer_iff =>
    intro clone id
    rw [get?_producerOf_addNode, nodes_addNode, Table.get?_insert_eq]
    have old := indexed.producer_iff clone id
    by_cases own : id = node.id <;> by_cases listed : clone ∈ node.outputs
    · simp [own, listed]
    · rw [own, fresh] at old
      simpa [own, listed] using old
    · rw [unproduced clone listed] at old
      simp only [own, listed, if_true, if_false, ← old]
      simp [Ne.symm own]
    · simpa [own, listed] using old
  case consumer_iff =>
    intro clone id
    rw [mem_tensorConsumers_addNode, nodes_addNode, indexed.consumer_iff]
    by_cases own : id = node.id
    next => simp [own, fresh]
    next => simp [own, Table.get?_insert_of_ne]

theorem Indexed.removeNode (indexed : graph.Indexed) {node : PlaneNode}
    (there : graph.nodes.get? node.id = some node) : (graph.removeNode node).Indexed := by
  constructor
  case nodeKey =>
    intro id found present
    rw [nodes_removeNode] at present
    by_cases own : id = node.id
    next => simp [own] at present
    next => rw [Table.get?_erase_of_ne _ own] at present; exact indexed.nodeKey present
  case producer_iff =>
    intro clone id
    rw [get?_producerOf_removeNode, nodes_removeNode, indexed.producer_iff]
    by_cases own : id = node.id
    next => simp [own, there]
    next => simp [own, Table.get?_erase_of_ne]
  case consumer_iff =>
    intro clone id
    rw [mem_tensorConsumers_removeNode, nodes_removeNode, indexed.consumer_iff]
    by_cases own : id = node.id
    next => simp [own, there]
    next => simp [own, Table.get?_erase_of_ne]

theorem Indexed.of_changes (indexed : graph.Indexed) {changed : PlaneGraph}
    (change : PlaneNodeId → PlaneNode → PlaneNode)
    (nodes : ∀ id, changed.nodes.get? id = (graph.nodes.get? id).map (change id))
    (keys : ∀ id node, (change id node).id = node.id)
    (producers : ∀ clone id, changed.producerOf.get? clone = some id ↔
      ∃ node, graph.nodes.get? id = some node ∧ clone ∈ (change id node).outputs)
    (consumers : ∀ clone id, id ∈ changed.tensorConsumers clone ↔
      ∃ node, graph.nodes.get? id = some node ∧ clone ∈ (change id node).inputs) : changed.Indexed := by
  constructor
  case nodeKey =>
    intro id node found
    rw [nodes] at found
    obtain ⟨old, there, rfl⟩ := Option.map_eq_some_iff.mp found
    rw [keys, indexed.nodeKey there]
  case producer_iff =>
    intro clone id
    rw [producers, nodes]
    cases graph.nodes.get? id <;> simp
  case consumer_iff =>
    intro clone id
    rw [consumers, nodes]
    cases graph.nodes.get? id <;> simp

theorem Indexed.modifyNode (indexed : graph.Indexed) (id : PlaneNodeId) {change : PlaneNode → PlaneNode}
    (keys : ∀ node, (change node).id = node.id) (inputs : ∀ node, (change node).inputs = node.inputs)
    (outputs : ∀ node, (change node).outputs = node.outputs) : (graph.modifyNode id change).Indexed := by
  apply indexed.of_changes fun other node => if other = id then change node else node
  case nodes => exact get?_nodes_modifyNode graph id change
  case keys => intro other node; split <;> simp [keys]
  case producers =>
    intro clone other
    by_cases own : other = id <;> simpa [own, outputs] using indexed.producer_iff clone other
  case consumers =>
    intro clone other
    by_cases own : other = id <;> simpa [own, inputs] using indexed.consumer_iff clone other

end PlaneGraph

namespace PlaneNode

def withInput (node : PlaneNode) (clone : PlaneTensorId) : PlaneNode :=
  if clone ∈ node.inputs then node else { node with inputs := node.inputs ++ [clone] }

def withOutput (node : PlaneNode) (clone : PlaneTensorId) : PlaneNode :=
  if clone ∈ node.outputs then node else { node with outputs := node.outputs ++ [clone] }

def withoutInput (node : PlaneNode) (clone : PlaneTensorId) : PlaneNode :=
  { node with inputs := node.inputs.filter (· ≠ clone) }

def withoutOutput (node : PlaneNode) (clone : PlaneTensorId) : PlaneNode :=
  { node with outputs := node.outputs.filter (· ≠ clone) }

variable (node : PlaneNode) (clone other : PlaneTensorId)

@[simp] theorem mem_inputs_withInput : other ∈ (node.withInput clone).inputs ↔ other ∈ node.inputs ∨ other = clone := by
  unfold withInput
  split
  next listed => simp only [iff_self_or]; rintro rfl; exact listed
  next => simp

@[simp] theorem mem_outputs_withOutput :
    other ∈ (node.withOutput clone).outputs ↔ other ∈ node.outputs ∨ other = clone := by
  unfold withOutput
  split
  next listed => simp only [iff_self_or]; rintro rfl; exact listed
  next => simp

theorem withInput_frame : (node.withInput clone).id = node.id ∧ (node.withInput clone).outputs = node.outputs ∧
    (node.withInput clone).members = node.members ∧ (node.withInput clone).bundle = node.bundle := by
  unfold withInput
  split <;> exact ⟨rfl, rfl, rfl, rfl⟩

theorem withOutput_frame : (node.withOutput clone).id = node.id ∧ (node.withOutput clone).inputs = node.inputs ∧
    (node.withOutput clone).members = node.members ∧ (node.withOutput clone).bundle = node.bundle := by
  unfold withOutput
  split <;> exact ⟨rfl, rfl, rfl, rfl⟩

end PlaneNode

namespace PlaneGraph

variable {graph : PlaneGraph} (clone : PlaneTensorId) (id : PlaneNodeId)

theorem get?_nodes_addInput (other : PlaneNodeId) : (graph.addInput id clone).nodes.get? other =
    (graph.nodes.get? other).map fun node => if other = id then node.withInput clone else node := by
  unfold addInput
  cases there : graph.nodes.get? id with
  | none =>
    by_cases own : other = id
    next => simp [own, there]
    next => simp [own]
  | some node =>
    by_cases own : other = id
    next =>
      subst own
      by_cases listed : clone ∈ node.inputs
      next => simp [listed, there, PlaneNode.withInput]
      next => simp [listed, there, PlaneNode.withInput, get?_nodes_modifyNode]
    next =>
      by_cases listed : clone ∈ node.inputs
      next => simp [listed, own]
      next => simp [listed, own, get?_nodes_modifyNode]

theorem get?_nodes_addOutput (other : PlaneNodeId) : (graph.addOutput id clone).nodes.get? other =
    (graph.nodes.get? other).map fun node => if other = id then node.withOutput clone else node := by
  unfold addOutput
  cases there : graph.nodes.get? id with
  | none =>
    by_cases own : other = id
    next => simp [own, there]
    next => simp [own]
  | some node =>
    by_cases own : other = id
    next =>
      subst own
      by_cases listed : clone ∈ node.outputs
      next => simp [listed, there, PlaneNode.withOutput]
      next => simp [listed, there, PlaneNode.withOutput, get?_nodes_modifyNode]
    next =>
      by_cases listed : clone ∈ node.outputs
      next => simp [listed, own]
      next => simp [listed, own, get?_nodes_modifyNode]

theorem get?_nodes_removeInput (other : PlaneNodeId) : (graph.removeInput id clone).nodes.get? other =
    (graph.nodes.get? other).map fun node => if other = id then node.withoutInput clone else node := by
  rw [removeInput, nodes_dropConsumer, get?_nodes_modifyNode]
  rfl

theorem get?_nodes_removeOutput (other : PlaneNodeId) : (graph.removeOutput id clone).nodes.get? other =
    (graph.nodes.get? other).map fun node => if other = id then node.withoutOutput clone else node := by
  rw [removeOutput, nodes_dropProducer, get?_nodes_modifyNode]
  rfl

theorem Indexed.addInput (indexed : graph.Indexed) : (graph.addInput id clone).Indexed := by
  apply indexed.of_changes fun other node => if other = id then node.withInput clone else node
  case nodes => exact get?_nodes_addInput clone id
  case keys => intro other node; split <;> simp [PlaneNode.withInput_frame]
  case producers =>
    intro other producer
    have same : (graph.addInput id clone).producerOf = graph.producerOf := by
      unfold PlaneGraph.addInput
      split
      next => rfl
      next => split <;> rfl
    rw [same, indexed.producer_iff]
    by_cases own : producer = id <;> simp [own, PlaneNode.withInput_frame]
  case consumers =>
    intro other consumer
    unfold PlaneGraph.addInput
    cases there : graph.nodes.get? id with
    | none =>
      rw [indexed.consumer_iff]
      by_cases own : consumer = id
      next => simp [own, there]
      next => simp [own]
    | some node =>
      by_cases own : consumer = id
      next =>
        subst own
        by_cases listed : clone ∈ node.inputs
        next => simp only [listed, if_true, indexed.consumer_iff, there]; simp; grind
        next => simp [listed, mem_tensorConsumers_addConsumer, indexed.consumer_iff, there]
      next =>
        by_cases listed : clone ∈ node.inputs
        next => simp [listed, own, indexed.consumer_iff]
        next => simp [listed, own, mem_tensorConsumers_addConsumer, indexed.consumer_iff]

theorem Indexed.addOutput (indexed : graph.Indexed)
    (unproduced : ∀ other, graph.producerOf.get? clone = some other → other = id) :
    (graph.addOutput id clone).Indexed := by
  apply indexed.of_changes fun other node => if other = id then node.withOutput clone else node
  case nodes => exact get?_nodes_addOutput clone id
  case keys => intro other node; split <;> simp [PlaneNode.withOutput_frame]
  case consumers =>
    intro other consumer
    have same : (graph.addOutput id clone).tensorConsumers = graph.tensorConsumers := by
      unfold PlaneGraph.addOutput
      split
      next => rfl
      next => split <;> rfl
    rw [same, indexed.consumer_iff]
    by_cases own : consumer = id <;> simp [own, PlaneNode.withOutput_frame]
  case producers =>
    intro other producer
    unfold PlaneGraph.addOutput
    cases there : graph.nodes.get? id with
    | none =>
      rw [indexed.producer_iff]
      by_cases own : producer = id
      next => simp [own, there]
      next => simp [own]
    | some node =>
      by_cases own : producer = id
      next =>
        subst own
        by_cases listed : clone ∈ node.outputs
        next => simp only [listed, if_true, indexed.producer_iff, there]; simp; grind
        next =>
          by_cases same : other = clone
          next => simp [listed, same, addProducer, there]
          next => simp [listed, same, addProducer, there, Table.get?_insert_of_ne, indexed.producer_iff]
      next =>
        by_cases listed : clone ∈ node.outputs
        next => simp [listed, own, indexed.producer_iff]
        next =>
          by_cases same : other = clone
          next =>
            -- Another producer would be one that already lists the clone.
            have none := mt (unproduced producer) own
            rw [indexed.producer_iff] at none
            simpa [listed, own, same, addProducer, Ne.symm own] using none
          next => simp [listed, own, same, addProducer, Table.get?_insert_of_ne, indexed.producer_iff]

theorem Indexed.removeInput (indexed : graph.Indexed) : (graph.removeInput id clone).Indexed := by
  apply indexed.of_changes fun other node => if other = id then node.withoutInput clone else node
  case nodes => exact get?_nodes_removeInput clone id
  case keys => intro other node; split <;> rfl
  case producers =>
    intro other producer
    rw [PlaneGraph.removeInput, producerOf_dropConsumer, producerOf_modifyNode, indexed.producer_iff]
    by_cases own : producer = id <;> simp [own, PlaneNode.withoutInput]
  case consumers =>
    intro other consumer
    rw [PlaneGraph.removeInput, mem_tensorConsumers_dropConsumer, tensorConsumers_modifyNode,
      indexed.consumer_iff]
    by_cases own : consumer = id
    next => simp [own, PlaneNode.withoutInput]; tauto
    next => simp [own]

theorem Indexed.removeOutput (indexed : graph.Indexed) : (graph.removeOutput id clone).Indexed := by
  apply indexed.of_changes fun other node => if other = id then node.withoutOutput clone else node
  case nodes => exact get?_nodes_removeOutput clone id
  case keys => intro other node; split <;> rfl
  case producers =>
    intro other producer
    rw [PlaneGraph.removeOutput, get?_producerOf_dropProducer, producerOf_modifyNode, indexed.producer_iff]
    by_cases own : producer = id
    next => simp [own, PlaneNode.withoutOutput]; tauto
    next => simp [own]
  case consumers =>
    intro other consumer
    rw [PlaneGraph.removeOutput, tensorConsumers_dropProducer, tensorConsumers_modifyNode,
      indexed.consumer_iff]
    by_cases own : consumer = id <;> simp [own, PlaneNode.withoutOutput]

def Feeds (graph : PlaneGraph) (source target : PlaneNodeId) : Prop :=
  source ≠ target ∧ ∃ sourceNode targetNode clone, graph.nodes.get? source = some sourceNode ∧
    graph.nodes.get? target = some targetNode ∧ clone ∈ sourceNode.outputs ∧ clone ∈ targetNode.inputs

omit clone id

theorem mem_consumers (indexed : graph.Indexed) {source target : PlaneNodeId} :
    target ∈ graph.consumers source ↔ graph.Feeds source target := by
  unfold consumers
  cases there : graph.nodes.get? source with
  | none => simp [Feeds, there]
  | some node =>
    simp only [Ranked.mem_ascending, List.mem_filter, List.mem_flatMap, decide_eq_true_iff, indexed.consumer_iff,
      Feeds, there, Option.some.injEq]
    grind

theorem mem_producers (indexed : graph.Indexed) {source target : PlaneNodeId} :
    source ∈ graph.producers target ↔ graph.Feeds source target := by
  unfold producers
  cases there : graph.nodes.get? target with
  | none => simp [Feeds, there]
  | some node =>
    simp only [Ranked.mem_ascending, List.mem_filter, List.mem_filterMap, decide_eq_true_iff,
      indexed.producer_iff, Feeds, there, Option.some.injEq]
    grind

def network (graph : PlaneGraph) : Network PlaneNodeId :=
  { nodes := graph.nodes.keys, blockers := graph.producers, dependents := graph.consumers }

theorem Indexed.sound_network (indexed : graph.Indexed) : graph.network.Sound where
  nodup_nodes := graph.nodes.nodup_keys
  nodup_blockers := by
    intro id
    show (graph.producers id).Nodup
    unfold producers
    split
    next => exact List.nodup_nil
    next => exact Ranked.nodup_ascending _
  nodup_dependents := by
    intro id
    show (graph.consumers id).Nodup
    unfold consumers
    split
    next => exact List.nodup_nil
    next => exact Ranked.nodup_ascending _
  converse := (mem_producers indexed).trans (mem_consumers indexed).symm
  known := by
    intro source target blocks
    obtain ⟨-, sourceNode, targetNode, -, there, there', -⟩ := (mem_producers indexed).mp blocks
    exact ⟨Table.mem_keys_of_get? there, Table.mem_keys_of_get? there'⟩

theorem Indexed.blocks_network (indexed : graph.Indexed) : graph.network.Blocks = graph.Feeds :=
  funext fun _ => funext fun _ => propext (mem_producers indexed)

theorem Indexed.loopless_network (indexed : graph.Indexed) (id : PlaneNodeId) : ¬ graph.network.Blocks id id := by
  rw [indexed.blocks_network]
  exact fun loop => loop.1 rfl

theorem Indexed.topologicalOrder?_eq (indexed : graph.Indexed) :
    (Acyclic graph.Feeds → ∃ order, graph.topologicalOrder? = .ok (some order) ∧ graph.network.IsOrder order) ∧
      (¬ Acyclic graph.Feeds → graph.topologicalOrder? = .ok none) := by
  have counted : graph.network.Degrees []
      (.ofList (graph.nodes.keys.map fun id => (id, (graph.producers id).length))) := by
    intro id
    have keyed : ∀ entry ∈ graph.nodes.keys.map (fun id => (id, (graph.producers id).length)),
        entry.2 = (graph.producers entry.1).length := by simp
    rw [Table.get?_ofList_of_keyed (f := fun id => (graph.producers id).length) keyed, List.map_map]
    simp [network, Function.comp_def]
  rw [← indexed.blocks_network]
  exact Kahn.order?_eq indexed.sound_network indexed.loopless_network counted

theorem Indexed.isAcyclic_eq (indexed : graph.Indexed) :
    (Acyclic graph.Feeds → graph.isAcyclic = .ok true) ∧ (¬ Acyclic graph.Feeds → graph.isAcyclic = .ok false) := by
  obtain ⟨ordered, stuck⟩ := indexed.topologicalOrder?_eq
  unfold isAcyclic
  constructor
  next =>
    intro acyclic
    obtain ⟨order, found, -⟩ := ordered acyclic
    rw [found]
    rfl
  next =>
    intro cyclic
    rw [stuck cyclic]
    rfl

theorem Indexed.isAcyclic_iff (indexed : graph.Indexed) : graph.isAcyclic = .ok true ↔ Acyclic graph.Feeds := by
  refine ⟨fun answer => ?_, indexed.isAcyclic_eq.1⟩
  by_contra cyclic
  cases answer.symm.trans (indexed.isAcyclic_eq.2 cyclic)

end PlaneGraph

end Dataflow
