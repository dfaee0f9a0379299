import Dataflow.Proofs.Description.WellFormed
import Dataflow.Proofs.Graph.Edit
import Dataflow.Proofs.Lists

set_option autoImplicit false

namespace Dataflow

def Directory.Numbers {entity : Entity} (directory : Directory entity) (names : List String) : Prop :=
  ∀ name, directory.find? name = if name ∈ names then some ⟨names.idxOf name⟩ else none

theorem Directory.numbers_nil {entity : Entity} : Directory.Numbers ([] : Directory entity) [] := fun _ => rfl

theorem Directory.Numbers.isSome_iff {entity : Entity} {directory : Directory entity} {names : List String}
    (numbers : directory.Numbers names) {name : String} : (directory.find? name).isSome = true ↔ name ∈ names := by
  rw [numbers]
  split <;> simp_all

theorem Directory.Numbers.snoc {entity : Entity} {directory : Directory entity} {names : List String}
    (numbers : directory.Numbers names) {name : String} (fresh : name ∉ names) :
    Directory.Numbers ((name, ⟨names.length⟩) :: directory : Directory entity) (names ++ [name]) := by
  intro other
  have old := numbers other
  unfold Directory.find? at old ⊢
  rw [List.lookup_cons]
  by_cases same : other = name
  next =>
    subst same
    simp [List.idxOf_append_of_notMem fresh]
  next =>
    rw [beq_eq_false_iff_ne.mpr same]
    by_cases listed : other ∈ names
    next => simp [old, listed, List.idxOf_append_of_mem listed]
    next => simp [old, listed, same]

theorem mapM_lookup_eq_ok_iff {β : Type} {f : String → Except GraphError β} {names : List String} {number : String → β}
    {refusal : String → GraphError}
    (lookup : ∀ name, f name = if name ∈ names then .ok (number name) else .error (refusal name)) {items : List String}
    {values : List β} :
    items.mapM f = .ok values ↔ (∀ name ∈ items, name ∈ names) ∧ values = items.map number := by
  have found : (∀ name ∈ items, name ∈ names) → items.mapM f = .ok (items.map number) := fun listed =>
    mapM_of_ok fun name member => (lookup name).trans (if_pos (listed name member))
  constructor
  next =>
    intro mapped
    have listed : ∀ name ∈ items, name ∈ names := by
      intro name member
      by_contra missing
      obtain ⟨value, answered⟩ := mapM_eq_ok mapped name member
      rw [lookup, if_neg missing] at answered
      cases answered
    exact ⟨listed, Except.ok.inj (mapped.symm.trans (found listed))⟩
  next =>
    rintro ⟨listed, rfl⟩
    exact found listed

namespace GraphDescription

variable {whole : GraphDescription} {graph : Graph}

theorem tensorNamed_eq {tensors : Directory .tensor} (numbers : tensors.Numbers whole.tensorNames) (name : String) :
    tensorNamed tensors name = if name ∈ whole.tensorNames then .ok (whole.tensorId name)
      else .error (.invalidDescription (.unknownTensor name)) := by
  rw [tensorNamed, numbers]
  by_cases declared : name ∈ whole.tensorNames
  next => rw [if_pos declared, if_pos declared]; rfl
  next => rw [if_neg declared, if_neg declared]

theorem nodeNamed_eq {nodes : Directory .node} (numbers : nodes.Numbers whole.nodeNames) (name : String) :
    nodeNamed nodes name = if name ∈ whole.nodeNames then .ok (whole.nodeId name)
      else .error (.invalidDescription (.unknownNode name)) := by
  rw [nodeNamed, numbers]
  by_cases declared : name ∈ whole.nodeNames
  next => rw [if_pos declared, if_pos declared]; rfl
  next => rw [if_neg declared, if_neg declared]

section Tensors

variable {done rest : List TensorDescription} {tensor : TensorDescription}

def TensorFits (done : List TensorDescription) (tensor : TensorDescription) : Prop :=
  tensor.name ∉ done.map TensorDescription.name ∧ ∀ real ∈ tensor.aliasOf, real ∈ done.map TensorDescription.name

def TensorsLaid (whole : GraphDescription) (done : List TensorDescription) (state : Graph × Directory .tensor) : Prop :=
  whole.Realizes { tensors := done, nodes := [] } state.1 ∧ state.2.Numbers (done.map TensorDescription.name)

theorem tensorId_of_earlier (split : whole.tensors = done ++ rest) {name : String}
    (listed : name ∈ done.map TensorDescription.name) :
    whole.tensorId name = ⟨(done.map TensorDescription.name).idxOf name⟩ := by
  rw [tensorId, tensorNames, split, List.map_append, List.idxOf_append_of_mem listed]

theorem Realizes.snocTensor (realizes : whole.Realizes { tensors := done, nodes := [] } graph)
    (older : ∀ real ∈ tensor.aliasOf, (whole.tensorId real).val < done.length) :
    whole.Realizes { tensors := done ++ [tensor], nodes := [] }
      (graph.pushTensor fun t => whole.tensorRecord t tensor).2 := by
  have next : graph.nextTensor = done.length := realizes.nextTensor_eq
  constructor
  case consistent =>
    refine realizes.consistent.pushTensor (fun _ => ⟨rfl, rfl⟩) ?_
    intro view viewed
    obtain ⟨real, aliased, rfl⟩ := Option.map_eq_some_iff.mp viewed
    exact next ▸ older real aliased
  case nextNode_eq => exact realizes.nextNode_eq
  case nextTensor_eq => simp [Graph.pushTensor, next]
  case node => intro index node listed; simp at listed
  case tensor =>
    intro index found listed
    have lookup : (graph.pushTensor fun t => whole.tensorRecord t tensor).2.tensors.get? ⟨index⟩ =
        if (⟨index⟩ : TensorId) = ⟨graph.nextTensor⟩ then some (whole.tensorRecord ⟨graph.nextTensor⟩ tensor)
        else graph.tensors.get? ⟨index⟩ := Table.get?_insert_eq ..
    rw [lookup, next]
    rcases List.getElem?_snoc_eq_some listed with ⟨old, listed⟩ | ⟨rfl, rfl⟩
    next =>
      rw [if_neg (by simp [Nat.ne_of_lt old])]
      exact realizes.tensor listed
    next => exact ⟨_, if_pos rfl, rfl⟩
  case control => intro index edge listed; simp at listed

theorem TensorsLaid.addTensor_ok {state : Graph × Directory .tensor} (laid : TensorsLaid whole done state)
    (split : whole.tensors = done ++ tensor :: rest) (fits : TensorFits done tensor) :
    ∃ after, addTensor state tensor = .ok after ∧ TensorsLaid whole (done ++ [tensor]) after := by
  obtain ⟨graph, directory⟩ := state
  obtain ⟨realizes, numbers⟩ := laid
  obtain ⟨fresh, earlier⟩ := fits
  have next : graph.nextTensor = done.length := realizes.nextTensor_eq
  -- An alias names an earlier tensor, so the directory already has the number it gets in the end.
  have found {real : String} (listed : real ∈ done.map TensorDescription.name) :
      directory.find? real = some (whole.tensorId real) := by
    rw [numbers, if_pos listed, tensorId_of_earlier split listed]
  have older : ∀ real ∈ tensor.aliasOf, (whole.tensorId real).val < done.length := by
    intro real aliased
    rw [tensorId_of_earlier split (earlier real aliased)]
    simpa using List.idxOf_lt_length_iff.mpr (earlier real aliased)
  refine ⟨((graph.pushTensor fun t => whole.tensorRecord t tensor).2, (tensor.name, ⟨done.length⟩) :: directory), ?_,
    realizes.snocTensor older, ?_⟩
  next =>
    have unnamed : directory.find? tensor.name = none := by rw [numbers, if_neg fresh]
    simp only [GraphDescription.addTensor, unnamed]
    cases aliased : tensor.aliasOf with
    | none =>
      have record : (fun t => whole.tensorRecord t tensor) =
          fun id => { id, name := tensor.name, sizeBytes := tensor.sizeBytes.toNat } := by
        funext t
        simp [tensorRecord, aliased]
      rw [record, ← next]
      rfl
    | some real =>
      have record : (fun t => whole.tensorRecord t tensor) =
          fun id => { id, name := tensor.name, sizeBytes := tensor.sizeBytes.toNat
                      view := some { real := whole.tensorId real, offset := tensor.offset.toNat } } := by
        funext t
        simp [tensorRecord, aliased]
      obtain ⟨target, there, -⟩ := realizes.tensor (List.getElem?_eq_getElem (older real aliased))
      have present : graph.tensors.contains (whole.tensorId real) = true := by
        rw [Table.contains, there]
        rfl
      rw [record, ← next]
      simp only [found (earlier real aliased), Graph.addAlias, present]
      rfl
  next =>
    simpa using numbers.snoc fresh

theorem TensorsLaid.fits {state after : Graph × Directory .tensor} (laid : TensorsLaid whole done state)
    (added : addTensor state tensor = .ok after) : TensorFits done tensor := by
  obtain ⟨graph, directory⟩ := state
  simp only [GraphDescription.addTensor] at added
  split at added
  next => cases added
  next unnamed =>
    refine ⟨mt laid.2.isSome_iff.mpr unnamed, fun real aliased => ?_⟩
    rw [Option.mem_def.mp aliased] at added
    cases found : directory.find? real with
    | none => simp only [found] at added; cases added
    | some t => exact laid.2.isSome_iff.mp (found ▸ rfl)

end Tensors

theorem Realizes.listed_of_present {part : GraphDescription} (realizes : whole.Realizes part graph) {id : NodeId}
    {record : Node} (present : graph.nodes.get? id = some record) :
    ∃ node, part.nodes[id.val]? = some node ∧ record = whole.nodeRecord part id node := by
  have bound := realizes.consistent.nodeBelow present
  rw [realizes.nextNode_eq] at bound
  have listed := List.getElem?_eq_getElem bound
  exact ⟨_, listed, Option.some.inj (present.symm.trans (realizes.node listed))⟩

section Nodes

variable {done rest : List NodeDescription} {node : NodeDescription} {tensors : Directory .tensor}

def unbarred (node : NodeDescription) : NodeDescription := { node with barriers := [] }

def NodeFits (whole : GraphDescription) (done : List NodeDescription) (node : NodeDescription) : Prop :=
  node.name ∉ done.map NodeDescription.name ∧
    (∀ tensor, tensor ∈ node.inputs ∨ tensor ∈ node.outputs → tensor ∈ whole.tensorNames) ∧
    ∀ earlier ∈ done, ∀ tensor ∈ earlier.outputs, tensor ∉ node.outputs

def NodesLaid (whole : GraphDescription) (done : List NodeDescription) (state : Graph × Directory .node) : Prop :=
  whole.Realizes { tensors := whole.tensors, nodes := done.map unbarred } state.1 ∧
    state.2.Numbers (done.map NodeDescription.name)

theorem tensorId_inj {name other : String} (declared : name ∈ whole.tensorNames) :
    whole.tensorId name = whole.tensorId other ↔ name = other := by
  rw [tensorId, tensorId, Ident.mk.injEq, List.idxOf_inj declared]

theorem Realizes.exists_tensor {part : GraphDescription} (realizes : whole.Realizes part graph)
    (listed : part.tensors = whole.tensors) {name : String} (declared : name ∈ whole.tensorNames) :
    ∃ tensor, graph.tensors.get? (whole.tensorId name) = some tensor := by
  have bound : whole.tensorNames.idxOf name < part.tensors.length := by
    rw [listed, ← List.length_map (f := TensorDescription.name)]
    exact List.idxOf_lt_length_iff.mpr declared
  obtain ⟨tensor, there, -⟩ := realizes.tensor (List.getElem?_eq_getElem bound)
  exact ⟨tensor, there⟩

theorem NodesLaid.produced_iff {state : Graph × Directory .node} (laid : NodesLaid whole done state) {name : String}
    (declared : name ∈ whole.tensorNames) {tensor : Tensor}
    (there : state.1.tensors.get? (whole.tensorId name) = some tensor) :
    tensor.producer ≠ none ↔ ∃ earlier ∈ done, name ∈ earlier.outputs := by
  obtain ⟨realizes, -⟩ := laid
  rw [Option.ne_none_iff_exists']
  constructor
  next =>
    rintro ⟨id, produced⟩
    obtain ⟨record, present, writes⟩ := (realizes.consistent.producer_iff there id).mp produced
    obtain ⟨node, listed, rfl⟩ := realizes.listed_of_present present
    simp only [List.getElem?_map, Option.map_eq_some_iff] at listed
    obtain ⟨earlier, listed, rfl⟩ := listed
    simp only [nodeRecord, Node.allOutputs, controls, unbarred, List.zipIdx_nil, List.filter_nil, List.map_nil,
      List.append_nil, List.mem_map] at writes
    obtain ⟨output, member, same⟩ := writes
    cases (tensorId_inj declared).mp same.symm
    exact ⟨earlier, List.mem_of_getElem? listed, member⟩
  next =>
    rintro ⟨earlier, member, writes⟩
    obtain ⟨index, listed⟩ := List.mem_iff_getElem?.mp member
    have present := realizes.node (show (done.map unbarred)[index]? = some (unbarred earlier) by simp [listed])
    refine ⟨⟨index⟩, (realizes.consistent.producer_iff there _).mpr ⟨_, present, ?_⟩⟩
    exact List.mem_append_left _ (List.mem_map.mpr ⟨name, writes, rfl⟩)

theorem Realizes.snocNode (realizes : whole.Realizes { tensors := whole.tensors, nodes := done.map unbarred } graph)
    {id : NodeId} {after : Graph}
    (added : graph.addNode (nodeSpec node) (node.inputs.map whole.tensorId) (node.outputs.map whole.tensorId) =
      .ok (id, after)) :
    whole.Realizes { tensors := whole.tensors, nodes := (done ++ [node]).map unbarred } after := by
  have consistent := realizes.consistent.addNode added
  have next : graph.nextNode = done.length := by simpa using realizes.nextNode_eq
  obtain ⟨rfl, rfl, -, -⟩ := Graph.addNode_eq_ok added
  constructor
  case consistent => exact consistent
  case nextNode_eq => simp [Graph.attach, next]
  case nextTensor_eq => exact realizes.nextTensor_eq
  case node =>
    intro index found listed
    rw [Graph.get?_nodes_attach]
    rw [List.map_append] at listed
    rcases List.getElem?_snoc_eq_some listed with ⟨old, listed⟩ | ⟨rfl, rfl⟩ <;> rw [List.length_map] at *
    next =>
      rw [if_neg (by simp [NodeSpec.node, next, Nat.ne_of_lt old])]
      exact realizes.node listed
    next =>
      rw [if_pos (by simp [NodeSpec.node, next]), ← next]
      rfl
  case tensor =>
    intro index found listed
    obtain ⟨record, there, bare⟩ := realizes.tensor listed
    refine ⟨_, by rw [Graph.get?_tensors_attach]; exact congrArg (Option.map _) there, ?_⟩
    exact bare
  case control => intro index edge listed; simp at listed

theorem NodesLaid.addNode_ok {state : Graph × Directory .node} (laid : NodesLaid whole done state)
    (numbers : tensors.Numbers whole.tensorNames) (fits : NodeFits whole done node) :
    ∃ after, addNode tensors state node = .ok after ∧ NodesLaid whole (done ++ [node]) after := by
  obtain ⟨graph, directory⟩ := state
  obtain ⟨fresh, declared, unproduced⟩ := fits
  have next : graph.nextNode = done.length := by simpa using laid.1.nextNode_eq
  have inputs := (mapM_lookup_eq_ok_iff (tensorNamed_eq numbers)).mpr ⟨fun name reads => declared name (Or.inl reads), rfl⟩
  have outputs := (mapM_lookup_eq_ok_iff (tensorNamed_eq numbers)).mpr ⟨fun name writes => declared name (Or.inr writes), rfl⟩
  have there : ∀ t ∈ node.inputs.map whole.tensorId, ∃ tensor, graph.tensors.get? t = some tensor := by
    intro t listed
    obtain ⟨name, reads, rfl⟩ := List.mem_map.mp listed
    exact laid.1.exists_tensor rfl (declared name (Or.inl reads))
  have free : ∀ t ∈ node.outputs.map whole.tensorId,
      ∃ tensor, graph.tensors.get? t = some tensor ∧ tensor.producer = none := by
    intro t listed
    obtain ⟨name, writes, rfl⟩ := List.mem_map.mp listed
    obtain ⟨tensor, there⟩ := laid.1.exists_tensor rfl (declared name (Or.inr writes))
    refine ⟨tensor, there, by_contra fun produced => ?_⟩
    obtain ⟨earlier, member, writes'⟩ := (laid.produced_iff (declared name (Or.inr writes)) there).mp produced
    exact unproduced earlier member name writes' writes
  have added := @Graph.addNode_of_free graph (nodeSpec node) _ _ there free
  refine ⟨(_, (node.name, ⟨graph.nextNode⟩) :: directory), ?_, laid.1.snocNode added, ?_⟩
  next =>
    have unnamed : directory.find? node.name = none := by rw [laid.2, if_neg fresh]
    simp only [GraphDescription.addNode, unnamed, inputs, outputs, bind, Except.bind, added]
    rfl
  next =>
    rw [next]
    simpa using laid.2.snoc fresh

theorem NodesLaid.fits {state after : Graph × Directory .node} (laid : NodesLaid whole done state)
    (numbers : tensors.Numbers whole.tensorNames) (added : addNode tensors state node = .ok after) :
    NodeFits whole done node := by
  obtain ⟨graph, directory⟩ := state
  simp only [GraphDescription.addNode] at added
  split at added
  next => cases added
  next unnamed =>
    obtain ⟨inputs, read, added⟩ := bind_eq_ok.mp added
    obtain ⟨outputs, written, added⟩ := bind_eq_ok.mp added
    obtain ⟨⟨id, extended⟩, added, -⟩ := bind_eq_ok.mp added
    obtain ⟨readable, rfl⟩ := (mapM_lookup_eq_ok_iff (tensorNamed_eq numbers)).mp read
    obtain ⟨writable, rfl⟩ := (mapM_lookup_eq_ok_iff (tensorNamed_eq numbers)).mp written
    refine ⟨mt laid.2.isSome_iff.mpr unnamed, fun name => Or.rec (readable name) (writable name),
      fun earlier member name writes writes' => ?_⟩
    have own : name ∈ whole.tensorNames := writable name writes'
    obtain ⟨tensor, there⟩ := laid.1.exists_tensor rfl own
    have produced := (laid.produced_iff own there).mpr ⟨earlier, member, writes⟩
    exact produced ((Graph.addNode_eq_ok added).2.2.2 _ (List.mem_map.mpr ⟨name, writes', rfl⟩) tensor there)

end Nodes

theorem nodeId_inj {name other : String} (declared : name ∈ whole.nodeNames) :
    whole.nodeId name = whole.nodeId other ↔ name = other := by
  rw [nodeId, nodeId, Ident.mk.injEq, List.idxOf_inj declared]

theorem nodeId_of_listed (distinct : whole.nodeNames.Nodup) {index : Nat} {node : NodeDescription}
    (listed : whole.nodes[index]? = some node) : whole.nodeId node.name = ⟨index⟩ := by
  obtain ⟨bound, rfl⟩ := List.getElem?_eq_some_iff.mp listed
  have bound' : index < whole.nodeNames.length := by simpa [nodeNames] using bound
  have same : whole.nodeNames[index] = whole.nodes[index].name := by simp [nodeNames]
  rw [nodeId, ← same, distinct.idxOf_getElem]

section Barriers

variable {done rest : List NodeDescription} {node : NodeDescription} {nodes : Directory .node}

def BarriersLaid (whole : GraphDescription) (done : List NodeDescription) (graph : Graph) : Prop :=
  whole.Realizes
    { tensors := whole.tensors, nodes := done ++ (whole.nodes.drop done.length).map unbarred } graph

theorem Realizes.setBarriers {front back : List NodeDescription}
    (realizes : whole.Realizes { tensors := whole.tensors, nodes := front ++ unbarred node :: back } graph) :
    ∃ after, graph.setBarriers ⟨front.length⟩ (node.barriers.map whole.nodeId) = .ok after ∧
      whole.Realizes { tensors := whole.tensors, nodes := front ++ node :: back } after := by
  have present := realizes.node (show (front ++ unbarred node :: back)[front.length]? = some (unbarred node) by simp)
  have annotated : ∃ after, graph.setBarriers ⟨front.length⟩ (node.barriers.map whole.nodeId) = .ok after := by
    rw [Graph.setBarriers, Graph.annotate, Graph.get, present]
    exact ⟨_, rfl⟩
  obtain ⟨after, annotated⟩ := annotated
  refine ⟨after, annotated, ?_⟩
  have get_nodes := Graph.get?_nodes_annotate annotated
  have consistent := realizes.consistent.annotate annotated
  obtain ⟨_, -, rfl⟩ := Graph.annotate_eq_ok annotated
  refine ⟨consistent, ?_, realizes.nextTensor_eq, fun {index found} listed => ?_, realizes.tensor, realizes.control⟩
  next => simpa using realizes.nextNode_eq
  next =>
    rw [get_nodes]
    rw [List.getElem?_append_cons_swap (unbarred node)] at listed
    split at listed
    next own =>
      subst own
      cases listed
      rw [present, Option.map_some, if_pos rfl]
      rfl
    next other =>
      rw [realizes.node listed, Option.map_some, if_neg (by simpa using other)]
      rfl

theorem BarriersLaid.addBarriers_ok (laid : BarriersLaid whole done graph) (distinct : whole.nodeNames.Nodup)
    (numbers : nodes.Numbers whole.nodeNames) (split : whole.nodes = done ++ node :: rest)
    (declared : ∀ barrier ∈ node.barriers, barrier ∈ whole.nodeNames) :
    ∃ after, addBarriers nodes graph node = .ok after ∧ BarriersLaid whole (done ++ [node]) after := by
  have ahead : whole.nodes.drop done.length = node :: rest := by simp [split]
  have behind : whole.nodes.drop (done ++ [node]).length = rest := by simp [split]
  unfold BarriersLaid at laid ⊢
  rw [ahead, List.map_cons] at laid
  rw [behind, List.append_assoc, List.singleton_append, GraphDescription.addBarriers]
  split
  next empty =>
    have same : unbarred node = node := by
      rw [unbarred, ← List.isEmpty_iff.mp empty]
    exact ⟨graph, rfl, same ▸ laid⟩
  next =>
    obtain ⟨after, annotated, realizes⟩ := laid.setBarriers
    have own : whole.nodeId node.name = ⟨done.length⟩ := nodeId_of_listed distinct (by simp [split])
    have listed : node.name ∈ whole.nodeNames := by simp [nodeNames, split]
    have resolved := (mapM_lookup_eq_ok_iff (nodeNamed_eq numbers)).mpr ⟨declared, rfl⟩
    refine ⟨after, ?_, realizes⟩
    rw [nodeNamed_eq numbers, if_pos listed, own, resolved]
    exact annotated

theorem barriers_declared {after : Graph} (numbers : nodes.Numbers whole.nodeNames)
    (added : addBarriers nodes graph node = .ok after) : ∀ barrier ∈ node.barriers, barrier ∈ whole.nodeNames := by
  unfold addBarriers at added
  split at added
  next empty => simp [List.isEmpty_iff.mp empty]
  next =>
    obtain ⟨id, -, added⟩ := bind_eq_ok.mp added
    obtain ⟨barriers, resolved, -⟩ := bind_eq_ok.mp added
    exact ((mapM_lookup_eq_ok_iff (nodeNamed_eq numbers)).mp resolved).1

end Barriers

end GraphDescription

end Dataflow
