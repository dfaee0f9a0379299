import Dataflow.Proofs.Description.Stages
import Dataflow.Proofs.Graph.Relation

set_option autoImplicit false

namespace Dataflow.GraphDescription

open Relation

variable {whole : GraphDescription} {graph : Graph}

structure Declared (whole : GraphDescription) : Prop where
  distinct : whole.nodeNames.Nodup
  tensors : ∀ node ∈ whole.nodes, ∀ tensor, tensor ∈ node.inputs ∨ tensor ∈ node.outputs → tensor ∈ whole.tensorNames
  barriers : ∀ node ∈ whole.nodes, ∀ barrier ∈ node.barriers, barrier ∈ whole.nodeNames

theorem mem_nodeNames {node : NodeDescription} (member : node ∈ whole.nodes) : node.name ∈ whole.nodeNames :=
  List.mem_map_of_mem member

theorem Declared.of_depends (declared : whole.Declared) {source target : String} (depends : whole.Depends source target) :
    source ∈ whole.nodeNames ∧ target ∈ whole.nodeNames := by
  rcases depends with ⟨producer, member, consumer, member', rfl, rfl, -⟩ | ⟨node, member, rfl, barred⟩
  next => exact ⟨mem_nodeNames member, mem_nodeNames member'⟩
  next => exact ⟨declared.barriers node member source barred, mem_nodeNames member⟩

section Edges

variable {done rest : List ControlEdgeDescription} {edge : ControlEdgeDescription}

def ends (edge : ControlEdgeDescription) : String × String := (edge.source, edge.target)

theorem withEdges_eq (whole : GraphDescription) (edges : List ControlEdgeDescription) :
    WithEdges whole.Depends (edges.map ends) = Precedes { whole with controlEdges := edges } := by
  funext source target
  simp [WithEdges, Precedes, ends, Depends]

theorem controls_snoc (endOf : ControlEdgeDescription → String) (name : String) :
    controls { whole with controlEdges := done ++ [edge] } endOf name =
      controls { whole with controlEdges := done } endOf name ++
        if endOf edge = name then [⟨whole.tensors.length + done.length⟩] else [] := by
  simp only [controls, List.zipIdx_append, List.filter_append, List.map_append]
  split <;> simp_all

theorem Realizes.node_named (realizes : whole.Realizes { whole with controlEdges := done } graph)
    (distinct : whole.nodeNames.Nodup) {node : NodeDescription} (member : node ∈ whole.nodes) :
    graph.nodes.get? (whole.nodeId node.name) =
      some (whole.nodeRecord { whole with controlEdges := done } (whole.nodeId node.name) node) := by
  obtain ⟨index, listed⟩ := List.mem_iff_getElem?.mp member
  rw [nodeId_of_listed distinct listed]
  exact realizes.node listed

theorem nodeRecord_snoc (distinct : whole.nodeNames.Nodup) {index : Nat} {node : NodeDescription}
    (listed : whole.nodes[index]? = some node) :
    whole.nodeRecord { whole with controlEdges := done ++ [edge] } ⟨index⟩ node =
      Graph.joined (whole.nodeId edge.source) (whole.nodeId edge.target) ⟨whole.tensors.length + done.length⟩ ⟨index⟩
        (whole.nodeRecord { whole with controlEdges := done } ⟨index⟩ node) := by
  have own (name : String) : (⟨index⟩ : NodeId) = whole.nodeId name ↔ name = node.name := by
    rw [← nodeId_of_listed distinct listed, nodeId_inj (mem_nodeNames (List.mem_of_getElem? listed)), eq_comm]
  simp only [nodeRecord, Graph.joined, controls_snoc, own]
  congr 1 <;> split <;> simp

theorem Realizes.withControl (realizes : whole.Realizes { whole with controlEdges := done } graph)
    (distinct : whole.nodeNames.Nodup) (sourceThere : whole.nodeId edge.source ∈ graph.nodeIds)
    (targetThere : whole.nodeId edge.target ∈ graph.nodeIds) :
    whole.Realizes { whole with controlEdges := done ++ [edge] }
      (graph.withControl (whole.nodeId edge.source) (whole.nodeId edge.target) edge.type) := by
  have next : graph.nextTensor = whole.tensors.length + done.length := realizes.nextTensor_eq
  constructor
  case consistent => exact realizes.consistent.withControl edge.type sourceThere targetThere
  case nextNode_eq => exact realizes.nextNode_eq
  case nextTensor_eq => simp [Graph.withControl, next, Nat.add_assoc]
  case node =>
    intro index node listed
    rw [Graph.get?_nodes_withControl, realizes.node listed, next, nodeRecord_snoc distinct listed]
    rfl
  case tensor =>
    intro index tensor listed
    have old : index < whole.tensors.length := (List.getElem?_eq_some_iff.mp listed).1
    rw [Graph.get?_tensors_withControl, if_neg (by rw [Ident.mk.injEq]; omega)]
    exact realizes.tensor listed
  case control =>
    intro index found listed
    rw [Graph.get?_tensors_withControl, next]
    rcases List.getElem?_snoc_eq_some listed with ⟨old, listed⟩ | ⟨rfl, rfl⟩
    next =>
      rw [if_neg (by rw [Ident.mk.injEq]; show whole.tensors.length + index ≠ _; omega)]
      exact realizes.control listed
    next =>
      rw [if_pos rfl, Graph.controlTensor, next]
      rfl

theorem Realizes.feeds_iff (realizes : whole.Realizes { whole with controlEdges := [] } graph) (declared : whole.Declared)
    {source target : String} (sourceThere : source ∈ whole.nodeNames) (targetThere : target ∈ whole.nodeNames) :
    graph.Feeds .both (whole.nodeId source) (whole.nodeId target) ↔
      ∃ producer ∈ whole.nodes, ∃ consumer ∈ whole.nodes, producer.name = source ∧ consumer.name = target ∧
        ∃ tensor ∈ producer.outputs, tensor ∈ consumer.inputs := by
  have linked := realizes.consistent.toLinked
  constructor
  next =>
    rintro ⟨t, tensor, there, -, produced, consumed⟩
    obtain ⟨producer, member, rfl⟩ := List.mem_map.mp sourceThere
    obtain ⟨consumer, member', rfl⟩ := List.mem_map.mp targetThere
    have writes := (linked.writes_iff there (realizes.node_named declared.distinct member)).mp produced
    have reads := (linked.reads_iff there (realizes.node_named declared.distinct member')).mp consumed
    simp only [nodeRecord, Node.allOutputs, Node.allInputs, controls, List.zipIdx_nil, List.filter_nil, List.map_nil,
      List.append_nil, List.mem_map] at writes reads
    obtain ⟨output, writes, rfl⟩ := writes
    obtain ⟨input, reads, same⟩ := reads
    cases (tensorId_inj (declared.tensors consumer member' input (Or.inl reads))).mp same
    exact ⟨producer, member, consumer, member', rfl, rfl, output, writes, reads⟩
  next =>
    rintro ⟨producer, member, consumer, member', rfl, rfl, name, writes, reads⟩
    obtain ⟨tensor, there⟩ := realizes.exists_tensor rfl (declared.tensors producer member name (Or.inr writes))
    refine ⟨_, tensor, there, rfl, ?_, ?_⟩
    next =>
      refine (linked.writes_iff there (realizes.node_named declared.distinct member)).mpr ?_
      exact List.mem_append_left _ (List.mem_map_of_mem writes)
    next =>
      refine (linked.reads_iff there (realizes.node_named declared.distinct member')).mpr ?_
      exact List.mem_append_left _ (List.mem_map_of_mem reads)

theorem Realizes.bars_iff (realizes : whole.Realizes { whole with controlEdges := done } graph)
    (declared : whole.Declared) {source target : String} (targetThere : target ∈ whole.nodeNames) :
    graph.Bars (whole.nodeId source) (whole.nodeId target) ↔
      ∃ node ∈ whole.nodes, node.name = target ∧ source ∈ node.barriers := by
  constructor
  next =>
    rintro ⟨record, present, barred⟩
    obtain ⟨node, member, rfl⟩ := List.mem_map.mp targetThere
    cases (realizes.node_named declared.distinct member).symm.trans present
    obtain ⟨barrier, barred, same⟩ := List.mem_map.mp barred
    cases (nodeId_inj (declared.barriers node member barrier barred)).mp same
    exact ⟨node, member, rfl, barred⟩
  next =>
    rintro ⟨node, member, rfl, barred⟩
    exact ⟨_, realizes.node_named declared.distinct member, List.mem_map_of_mem barred⟩

theorem Realizes.known (realizes : whole.Realizes { whole with controlEdges := done } graph)
    (distinct : whole.nodeNames.Nodup) {name : String} (there : name ∈ whole.nodeNames) :
    whole.nodeId name ∈ graph.nodeIds := by
  obtain ⟨node, member, rfl⟩ := List.mem_map.mp there
  exact Table.mem_keys_of_get? (realizes.node_named distinct member)

theorem Realizes.exists_name (realizes : whole.Realizes { whole with controlEdges := done } graph)
    (distinct : whole.nodeNames.Nodup) {id : NodeId} (known : id ∈ graph.nodeIds) :
    ∃ name ∈ whole.nodeNames, whole.nodeId name = id := by
  obtain ⟨record, present⟩ := (Graph.mem_nodeIds_iff id).mp known
  obtain ⟨node, listed, -⟩ := realizes.listed_of_present present
  exact ⟨node.name, mem_nodeNames (List.mem_of_getElem? listed), nodeId_of_listed distinct listed⟩

structure EdgesLaid (whole : GraphDescription) (done : List ControlEdgeDescription) (graph : Graph) : Prop where
  realizes : whole.Realizes { whole with controlEdges := done } graph
  named : ∀ edge ∈ done, edge.source ∈ whole.nodeNames ∧ edge.target ∈ whole.nodeNames
  blocks_iff : ∀ {source target}, source ∈ whole.nodeNames → target ∈ whole.nodeNames →
    (graph.Blocks .both (whole.nodeId source) (whole.nodeId target) ↔
      source ≠ target ∧ Precedes { whole with controlEdges := done } source target)

theorem edgesLaid_nil (realizes : whole.Realizes { whole with controlEdges := [] } graph) (declared : whole.Declared) :
    EdgesLaid whole [] graph := by
  refine ⟨realizes, by simp, fun {source target} sourceThere targetThere => ?_⟩
  have known := realizes.known declared.distinct sourceThere
  have known' := realizes.known declared.distinct targetThere
  rw [Graph.Blocks.both_iff, realizes.feeds_iff declared sourceThere targetThere, realizes.bars_iff declared targetThere,
    ne_eq, nodeId_inj sourceThere]
  simp [known, known', Precedes, Depends]

theorem EdgesLaid.withControl (laid : EdgesLaid whole done graph) (distinct : whole.nodeNames.Nodup)
    (named : edge.source ∈ whole.nodeNames ∧ edge.target ∈ whole.nodeNames) (differ : edge.source ≠ edge.target) :
    EdgesLaid whole (done ++ [edge])
      (graph.withControl (whole.nodeId edge.source) (whole.nodeId edge.target) edge.type) := by
  have known := laid.realizes.known distinct named.1
  have known' := laid.realizes.known distinct named.2
  have apart := mt (nodeId_inj named.1).mp differ
  refine ⟨laid.realizes.withControl distinct known known', ?_, fun {source target} sourceThere targetThere => ?_⟩
  next =>
    intro other member
    rcases List.mem_append.mp member with earlier | last
    next => exact laid.named other earlier
    next => rw [List.mem_singleton.mp last]; exact named
  next =>
    rw [Graph.blocks_withControl laid.realizes.consistent.toLinked edge.type apart known known',
      laid.blocks_iff sourceThere targetThere, nodeId_inj sourceThere, nodeId_inj targetThere,
      ← withEdges_eq, ← withEdges_eq, List.map_append, List.map_singleton, withEdges_snoc]
    constructor
    next =>
      rintro (⟨differ, old⟩ | ⟨rfl, rfl⟩)
      next => exact ⟨differ, Or.inl old⟩
      next => exact ⟨differ, Or.inr ⟨rfl, rfl⟩⟩
    next => exact fun precedes => precedes.2.imp_left fun old => ⟨precedes.1, old⟩

theorem EdgesLaid.reaches_iff (laid : EdgesLaid whole done graph) (declared : whole.Declared) {source target : String}
    (sourceThere : source ∈ whole.nodeNames) :
    graph.reaches (whole.nodeId source) (whole.nodeId target) = true ↔
      ReflTransGen (Precedes { whole with controlEdges := done }) source target := by
  rw [Graph.reaches_iff laid.realizes.consistent.toLinked (laid.realizes.known declared.distinct sourceThere)]
  constructor
  next =>
    intro path
    -- Each node that a path meets has a name, and the next step is one of names.
    have along {id : NodeId} (path : ReflTransGen (graph.Blocks .both) (whole.nodeId source) id) :
        ∃ name ∈ whole.nodeNames, whole.nodeId name = id ∧
          ReflTransGen (Precedes { whole with controlEdges := done }) source name := by
      induction path with
      | refl => exact ⟨source, sourceThere, rfl, .refl⟩
      | tail _ blocks ih =>
        obtain ⟨name, there, rfl, path⟩ := ih
        obtain ⟨next, there', rfl⟩ := laid.realizes.exists_name declared.distinct blocks.2.2.1
        exact ⟨next, there', rfl, path.tail ((laid.blocks_iff there there').mp blocks).2⟩
    obtain ⟨name, there, same, path⟩ := along path
    cases (nodeId_inj there).mp same
    exact path
  next =>
    intro path
    -- A step between two names keeps to declared ones; a step from a name to itself is no step of the graph.
    have step {before after : String} (precedes : Precedes { whole with controlEdges := done } before after) :
        ReflTransGen (graph.Blocks .both) (whole.nodeId before) (whole.nodeId after) := by
      have there : before ∈ whole.nodeNames ∧ after ∈ whole.nodeNames := by
        rcases precedes with depends | ⟨edge, listed, rfl, rfl⟩
        next => exact declared.of_depends depends
        next => exact laid.named edge listed
      by_cases same : before = after
      next => rw [same]
      next => exact .single ((laid.blocks_iff there.1 there.2).mpr ⟨same, precedes⟩)
    exact path.lift' whole.nodeId fun _ _ => step

def EdgeFits (whole : GraphDescription) (done : List ControlEdgeDescription) (edge : ControlEdgeDescription) : Prop :=
  (edge.source ∈ whole.nodeNames ∧ edge.target ∈ whole.nodeNames) ∧ edge.source ≠ edge.target ∧
    ¬ ReflTransGen (Precedes { whole with controlEdges := done }) edge.target edge.source

variable {nodes : Directory .node}

theorem EdgesLaid.addControlEdge_ok (laid : EdgesLaid whole done graph) (declared : whole.Declared)
    (numbers : nodes.Numbers whole.nodeNames) (fits : EdgeFits whole done edge) :
    ∃ after, addControlEdge nodes graph edge = .ok after ∧ EdgesLaid whole (done ++ [edge]) after := by
  obtain ⟨named, differ, noReturn⟩ := fits
  have apart : graph.reaches (whole.nodeId edge.target) (whole.nodeId edge.source) = false := by
    rw [Bool.eq_false_iff, ne_eq, laid.reaches_iff declared named.2]
    exact noReturn
  have added := Graph.addControlEdge_of_known edge.type (mt (nodeId_inj named.1).mp differ)
    (laid.realizes.known declared.distinct named.1) (laid.realizes.known declared.distinct named.2)
  rw [apart, if_neg Bool.false_ne_true] at added
  refine ⟨_, ?_, laid.withControl declared.distinct named differ⟩
  rw [addControlEdge, nodeNamed_eq numbers, nodeNamed_eq numbers, if_pos named.1, if_pos named.2]
  simp only [bind, Except.bind, added]
  rfl

theorem EdgesLaid.fits (laid : EdgesLaid whole done graph) (declared : whole.Declared)
    (numbers : nodes.Numbers whole.nodeNames) {after : Graph} (added : addControlEdge nodes graph edge = .ok after) :
    EdgeFits whole done edge := by
  have lookup {name : String} {id : NodeId} (named : nodeNamed nodes name = .ok id) :
      name ∈ whole.nodeNames ∧ id = whole.nodeId name := by
    rw [nodeNamed_eq numbers] at named
    split at named
    next there => cases named; exact ⟨there, rfl⟩
    next => cases named
  obtain ⟨source, named, added⟩ := bind_eq_ok.mp added
  obtain ⟨target, named', added⟩ := bind_eq_ok.mp added
  obtain ⟨⟨t, extended⟩, added, -⟩ := bind_eq_ok.mp added
  obtain ⟨there, rfl⟩ := lookup named
  obtain ⟨there', rfl⟩ := lookup named'
  obtain ⟨differ, -, -, apart, -⟩ := Graph.addControlEdge_eq_ok added
  refine ⟨⟨there, there'⟩, mt (nodeId_inj there).mpr differ, ?_⟩
  rw [← laid.reaches_iff declared there', apart]
  exact Bool.false_ne_true

end Edges

variable (description : GraphDescription)

theorem stepwise_nodeFits_iff : Stepwise (NodeFits description) description.nodes ↔ description.nodeNames.Nodup ∧
    (∀ node ∈ description.nodes, ∀ tensor, tensor ∈ node.inputs ∨ tensor ∈ node.outputs →
      tensor ∈ description.tensorNames) ∧
    description.nodes.Pairwise fun node other => ∀ tensor ∈ node.outputs, tensor ∉ other.outputs := by
  rw [← stepwise_pairwise_iff, ← stepwise_forall_iff, nodeNames, ← stepwise_nodup_iff, ← stepwise_and_iff,
    ← stepwise_and_iff]
  rfl

theorem stepwise_edgeFits_iff : Stepwise (EdgeFits description) description.controlEdges ↔
    (∀ edge ∈ description.controlEdges, edge.source ∈ description.nodeNames ∧ edge.target ∈ description.nodeNames) ∧
    (∀ edge ∈ description.controlEdges, edge.source ≠ edge.target) ∧
    ∀ edge ∈ description.controlEdges, ¬ ReflTransGen description.Precedes edge.target edge.source := by
  have noReturn := @stepwise_noReturn_iff _ description.Depends (description.controlEdges.map ends)
  rw [stepwise_map_iff, List.forall_mem_map] at noReturn
  simp only [withEdges_eq, ends] at noReturn
  rw [← stepwise_forall_iff, ← stepwise_forall_iff, ← noReturn, ← stepwise_and_iff, ← stepwise_and_iff]
  rfl

theorem wellFormed_iff : description.WellFormed ↔
    Stepwise TensorFits description.tensors ∧ Stepwise (NodeFits description) description.nodes ∧
      Stepwise (fun _ node => ∀ barrier ∈ node.barriers, barrier ∈ description.nodeNames) description.nodes ∧
      Stepwise (EdgeFits description) description.controlEdges := by
  have tensors : Stepwise TensorFits description.tensors ↔ description.tensorNames.Nodup ∧
      Stepwise (fun done tensor => ∀ real ∈ tensor.aliasOf, real ∈ done.map TensorDescription.name) description.tensors := by
    rw [tensorNames, ← stepwise_nodup_iff, ← stepwise_and_iff]
    rfl
  rw [tensors, stepwise_nodeFits_iff, stepwise_forall_iff, stepwise_edgeFits_iff]
  constructor
  next =>
    intro wellFormed
    exact ⟨⟨wellFormed.tensorsDistinct, fun _ _ _ => wellFormed.aliasesEarlier⟩,
      ⟨wellFormed.nodesDistinct, wellFormed.tensorsDeclared, wellFormed.oneProducer⟩, wellFormed.barriersDeclared,
      wellFormed.endsDeclared, wellFormed.noSelfEdge, wellFormed.noCycle⟩
  next =>
    rintro ⟨⟨tensorsDistinct, aliasesEarlier⟩, ⟨nodesDistinct, tensorsDeclared, oneProducer⟩, barriersDeclared,
      endsDeclared, noSelfEdge, noCycle⟩
    exact { tensorsDistinct, aliasesEarlier := aliasesEarlier _ _ _, nodesDistinct, tensorsDeclared, oneProducer
            barriersDeclared, endsDeclared, noSelfEdge, noCycle }

variable {description}

theorem realizes_empty (whole : GraphDescription) : whole.Realizes { nodes := [] } {} where
  consistent := Graph.consistent_empty
  nextNode_eq := rfl
  nextTensor_eq := rfl
  node := by simp
  tensor := by simp
  control := by simp

theorem tensors_exact (description : GraphDescription) :
    SucceedsIff (Stepwise TensorFits description.tensors) (description.tensors.foldlM addTensor ({}, []))
      (TensorsLaid description description.tensors) :=
  foldlM_exact (TensorsLaid description) (fun split laid => laid.addTensor_ok split) (fun laid => laid.fits)
    ⟨realizes_empty description, Directory.numbers_nil⟩

theorem nodes_exact {tensors : Directory .tensor} (laid : TensorsLaid description description.tensors (graph, tensors)) :
    SucceedsIff (Stepwise (NodeFits description) description.nodes)
      (description.nodes.foldlM (addNode tensors) (graph, [])) (NodesLaid description description.nodes) :=
  foldlM_exact (NodesLaid description) (fun _ laid' => laid'.addNode_ok laid.2) (fun laid' => laid'.fits laid.2)
    ⟨laid.1, Directory.numbers_nil⟩

theorem barriers_exact {nodes : Directory .node} (laid : NodesLaid description description.nodes (graph, nodes))
    (distinct : description.nodeNames.Nodup) :
    SucceedsIff (Stepwise (fun _ node => ∀ barrier ∈ node.barriers, barrier ∈ description.nodeNames) description.nodes)
      (description.nodes.foldlM (addBarriers nodes) graph) (BarriersLaid description description.nodes) :=
  foldlM_exact (BarriersLaid description) (fun split laid' => laid'.addBarriers_ok distinct laid.2 split)
    (fun _ => barriers_declared laid.2) laid.1

theorem edges_exact {nodes : Directory .node} (numbers : nodes.Numbers description.nodeNames)
    (laid : BarriersLaid description description.nodes graph) (declared : description.Declared) :
    SucceedsIff (Stepwise (EdgeFits description) description.controlEdges)
      (description.controlEdges.foldlM (addControlEdge nodes) graph) (EdgesLaid description description.controlEdges) := by
  have realizes : description.Realizes { description with controlEdges := [] } graph := by simpa [BarriersLaid] using laid
  exact foldlM_exact (EdgesLaid description) (fun _ laid => laid.addControlEdge_ok declared numbers)
    (fun laid => laid.fits declared numbers) (edgesLaid_nil realizes declared)

theorem build_exact (description : GraphDescription) :
    SucceedsIff description.WellFormed description.build (EdgesLaid description description.controlEdges) := by
  rw [wellFormed_iff]
  unfold build
  refine (tensors_exact description).bind fun {state} _ tensorsLaid => ?_
  refine (nodes_exact tensorsLaid).bind fun {state} fits nodesLaid => ?_
  obtain ⟨distinct, tensorsDeclared, -⟩ := (stepwise_nodeFits_iff description).mp fits
  refine (barriers_exact nodesLaid distinct).bind fun {graph} barriers laid => ?_
  exact edges_exact nodesLaid.2 laid ⟨distinct, tensorsDeclared, stepwise_forall_iff.mp barriers⟩

theorem build_ok_iff_wellFormed (description : GraphDescription) :
    ((∃ graph, description.build = .ok graph) ↔ description.WellFormed) ∧
    (∀ graph, description.build = .ok graph → description.Realizes description graph) ∧
    ∀ edges, edges.Perm description.controlEdges →
      ((∃ graph, build { description with controlEdges := edges } = .ok graph) ↔ ∃ graph, description.build = .ok graph) := by
  have accepted_iff (description : GraphDescription) :
      (∃ graph, description.build = .ok graph) ↔ description.WellFormed := by
    constructor
    next =>
      rintro ⟨graph, built⟩
      by_contra malformed
      obtain ⟨error, failed⟩ := (build_exact description).error malformed
      cases built.symm.trans failed
    next =>
      intro wellFormed
      obtain ⟨graph, built, -⟩ := (build_exact description).ok wellFormed
      exact ⟨graph, built⟩
  refine ⟨accepted_iff description, fun graph built => ?_, fun edges perm => ?_⟩
  next =>
    obtain ⟨graph', built', laid⟩ := (build_exact description).ok ((accepted_iff description).mp ⟨graph, built⟩)
    cases built.symm.trans built'
    exact laid.realizes
  next =>
    rw [accepted_iff, accepted_iff]
    exact ⟨fun wellFormed => wellFormed.permute perm.symm, fun wellFormed => wellFormed.permute perm⟩

def feedback : GraphDescription :=
  { tensors := [{ name := "state" }, { name := "update" }, { name := "half", aliasOf := some "state", offset := 4 }]
    nodes := [{ name := "step", inputs := ["update"], outputs := ["state"] },
      { name := "adjust", inputs := ["state"], outputs := ["update"] },
      { name := "log", inputs := ["half"], barriers := ["stop"] }, { name := "stop" }]
    controlEdges := [{ source := "adjust", target := "stop" }, { source := "step", target := "log" }] }

theorem build_feedback : (∃ graph, feedback.build = .ok graph ∧ feedback.Realizes feedback graph) ∧ feedback.WellFormed ∧
    ¬ WellFormed { feedback with
      controlEdges := feedback.controlEdges ++ [{ source := "log", target := "step" }] } := by
  have accepted : feedback.build.isOk = true := by decide +kernel
  have refused : (build { feedback with
      controlEdges := feedback.controlEdges ++ [{ source := "log", target := "step" }] }).isOk = false := by decide +kernel
  cases built : feedback.build with
  | error error => rw [built] at accepted; cases accepted
  | ok graph =>
    obtain ⟨accepted_iff, realizes, -⟩ := build_ok_iff_wellFormed feedback
    refine ⟨⟨graph, rfl, realizes graph built⟩, accepted_iff.mp ⟨graph, built⟩, fun wellFormed => ?_⟩
    obtain ⟨graph', built'⟩ := (build_ok_iff_wellFormed _).1.mpr wellFormed
    rw [built'] at refused
    cases refused

end Dataflow.GraphDescription
