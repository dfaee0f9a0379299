import Dataflow.Proofs.Plane.Bundling
import Dataflow.Proofs.Plane.Rewiring

set_option autoImplicit false

namespace Dataflow

namespace Plane

variable {graph final : Graph} {plane after : Plane} {node : Node}

structure Registered (plane : Plane) : Prop where
  below : ∀ {id found}, plane.graph.nodes.get? id = some found → id.val < plane.nextNode
  names : ∀ {index id}, plane.bundleOf.get? index = some id →
    ∃ found, plane.graph.nodes.get? id = some found ∧ found.bundleIndex? = some index

namespace Registered

theorem empty (accepts : Node → Bool) : Registered { accepts } where
  below there := by cases there
  names named := by cases named

theorem bundleIndex?_eq (registered : plane.Registered) {index : UInt32} {id : PlaneNodeId} {found : PlaneNode}
    (named : plane.bundleOf.get? index = some id) (there : plane.graph.nodes.get? id = some found) :
    found.bundleIndex? = some index := by
  obtain ⟨record, there', own⟩ := registered.names named
  cases there.symm.trans there'
  exact own

theorem not_named_of_alone (registered : plane.Registered) {index : UInt32} {id other : PlaneNodeId} {found : PlaneNode}
    (there : plane.graph.nodes.get? id = some found) (alone : found.bundle = none)
    (named : plane.bundleOf.get? index = some other) : other ≠ id := by
  rintro rfl
  have own := registered.bundleIndex?_eq named there
  rw [PlaneNode.bundleIndex?, alone] at own
  cases own

theorem ne_nextNode (registered : plane.Registered) {id : PlaneNodeId} {found : PlaneNode}
    (there : plane.graph.nodes.get? id = some found) : id ≠ ⟨plane.nextNode⟩ := by
  rintro rfl
  exact Nat.lt_irrefl _ (registered.below there)

theorem of_changes (registered : plane.Registered) (change : PlaneNodeId → PlaneNode → PlaneNode)
    (nodes : ∀ id, after.graph.nodes.get? id = (plane.graph.nodes.get? id).map (change id))
    (bundles : ∀ id found, (change id found).bundle = found.bundle) (bundleOf : after.bundleOf = plane.bundleOf)
    (nextNode : after.nextNode = plane.nextNode) : after.Registered where
  below := by
    intro id found there
    rw [nodes] at there
    obtain ⟨old, there, -⟩ := Option.map_eq_some_iff.mp there
    exact nextNode ▸ registered.below there
  names := by
    intro index id named
    rw [bundleOf] at named
    obtain ⟨found, there, own⟩ := registered.names named
    refine ⟨change id found, by rw [nodes, there]; rfl, ?_⟩
    rw [PlaneNode.bundleIndex?, bundles]
    exact own

theorem grows (registered : plane.Registered) (grows : plane.Grows after) : after.Registered :=
  registered.of_changes (fun _ found => found) (fun _ => by rw [grows.graph_eq, Option.map_id']) (fun _ _ => rfl)
    grows.bundleOf_eq grows.nextNode_eq

theorem addOutput (registered : plane.Registered) (id : PlaneNodeId) (clone : PlaneTensorId) :
    Registered { plane with graph := plane.graph.addOutput id clone } := by
  refine registered.of_changes _ (PlaneGraph.get?_nodes_addOutput clone id) (fun other found => ?_) rfl rfl
  split
  next => exact (PlaneNode.withOutput_frame found clone).2.2.2
  next => rfl

theorem addInput (registered : plane.Registered) (id : PlaneNodeId) (clone : PlaneTensorId) :
    Registered { plane with graph := plane.graph.addInput id clone } := by
  refine registered.of_changes _ (PlaneGraph.get?_nodes_addInput clone id) (fun other found => ?_) rfl rfl
  split
  next => exact (PlaneNode.withInput_frame found clone).2.2.2
  next => rfl

theorem pushed (registered : plane.Registered) {node : PlaneNode} (own : node.id = ⟨plane.nextNode⟩) :
    (plane.pushed node).Registered := by
  have nodes (id : PlaneNodeId) : (plane.pushed node).graph.nodes.get? id =
      if id = node.id then some node else plane.graph.nodes.get? id := by
    rw [nodes_pushed, Table.get?_insert_eq]
  have nextNode : (plane.pushed node).nextNode = plane.nextNode + 1 := rfl
  constructor
  case below =>
    intro id found there
    rw [nodes] at there
    split at there
    next same => rw [same, own, nextNode]; exact Nat.lt_succ_self _
    next => exact Nat.lt_succ_of_lt (registered.below there)
  case names =>
    intro index id named
    obtain ⟨found, there, indexed⟩ := registered.names named
    refine ⟨found, ?_, indexed⟩
    rw [nodes, own, if_neg (registered.ne_nextNode there), there]

theorem dropped (registered : plane.Registered) {found : PlaneNode} (nodes : after.graph = plane.graph.removeNode found)
    (fewer : ∀ {index id}, after.bundleOf.get? index = some id → plane.bundleOf.get? index = some id ∧ id ≠ found.id)
    (nextNode : after.nextNode = plane.nextNode) : after.Registered := by
  have nodes (id : PlaneNodeId) : after.graph.nodes.get? id =
      if id = found.id then none else plane.graph.nodes.get? id := by
    rw [nodes, PlaneGraph.nodes_removeNode, Table.get?_erase_eq]
  constructor
  case below =>
    intro id record present
    rw [nodes] at present
    split at present
    next => cases present
    next => exact nextNode ▸ registered.below present
  case names =>
    intro index id named
    obtain ⟨named, other⟩ := fewer named
    obtain ⟨record, present, own⟩ := registered.names named
    exact ⟨record, by rw [nodes, if_neg other, present], own⟩

theorem enter (registered : plane.Registered) {index : UInt32} {id : PlaneNodeId} {found : PlaneNode}
    (there : plane.graph.nodes.get? id = some found) (own : found.bundleIndex? = some index) :
    Registered { plane with bundleOf := plane.bundleOf.insert index id } where
  below := registered.below
  names := by
    intro other id' named
    rw [Table.get?_insert_eq] at named
    split at named
    next same =>
      cases named
      exact ⟨found, there, same ▸ own⟩
    next => exact registered.names named

end Registered

section Build

section Maintains

variable {P : Plane → Prop}

theorem maintains_unlessFrozen {update : PlaneM Unit} (holds : P plane) (rest : Maintains P update plane) :
    Maintains P (unlessFrozen update) plane := by
  unfold unlessFrozen
  refine concludes_get_bind ?_
  split
  next => exact concludes_of_ok rfl holds
  next => exact rest

variable (stable : ∀ {plane grown}, plane.Grows grown → P plane → P grown) (holds : P plane)
include stable holds

theorem maintains_cloneTensor (t : TensorId) : Maintains P (cloneTensor graph t) plane := by
  cases known : plane.tensorOf.get? t with
  | some clone => exact concludes_of_ok (cloneTensor_of_known known) holds
  | none =>
    cases found : graph.tensors.get? t with
    | none => exact concludes_of_refused (cloneTensor_of_missing known found) holds
    | some tensor => exact concludes_of_ok (cloneTensor_of_new known found) (stable (grows_withClone known) holds)

theorem maintains_cloneAll (tensors : List TensorId) : Maintains P (tensors.mapM (cloneTensor graph)) plane :=
  concludes_mapM holds fun t _ {_} holds => maintains_cloneTensor stable holds t

end Maintains

theorem Registered.cloneTensor (registered : plane.Registered) (t : TensorId) :
    Maintains Registered (cloneTensor graph t) plane :=
  maintains_cloneTensor (fun grows registered => registered.grows grows) registered t

theorem Registered.cloneAll (registered : plane.Registered) (tensors : List TensorId) :
    Maintains Registered (tensors.mapM (Plane.cloneTensor graph)) plane :=
  maintains_cloneAll (fun grows registered => registered.grows grows) registered tensors

theorem Registered.addSingle (registered : plane.Registered) (node : Node) :
    Maintains Registered (addSingle graph node) plane := by
  unfold Plane.addSingle
  refine concludes_get_bind ?_
  by_cases known : plane.nodeOf.contains node.id
  next => rw [if_pos known]; exact concludes_of_refused rfl registered
  next =>
    rw [if_neg known]
    refine (registered.cloneAll node.allInputs).bind fun _ registered => ?_
    refine (registered.cloneAll node.allOutputs).bind fun _ registered => ?_
    exact concludes_of_ok (pushNode_eq _ _) (registered.pushed rfl)

theorem Registered.pushBundle (registered : plane.Registered) (info : BundleInfo) (inputs outputs : List PlaneTensorId)
    (members : List NodeId) : Maintains Registered (pushBundle info inputs outputs members) plane := by
  let node := bundleNode info ⟨plane.nextNode⟩ inputs outputs members
  have there : (plane.pushed node).graph.nodes.get? ⟨plane.nextNode⟩ = some node := by
    rw [nodes_pushed]
    exact Table.get?_insert_self ..
  exact concludes_of_ok (pushBundle_eq ..) ((registered.pushed rfl).enter there rfl)

theorem Registered.addAnnotatedBundle (registered : plane.Registered) (members : List Node) :
    Maintains Registered (addAnnotatedBundle graph members) plane := by
  unfold Plane.addAnnotatedBundle
  cases members.head?.bind fun node => node.annotations.bundle with
  | none => exact concludes_of_ok rfl registered
  | some info =>
    refine (concludes_mapM registered fun node _ {_} registered => ?_).bind fun _ registered =>
      (registered.pushBundle ..).discard
    exact (registered.cloneAll _).bind fun _ registered => (registered.cloneAll _).bind fun _ registered =>
      concludes_of_ok rfl registered

theorem registered_ofAnnotations {accepts : Node → Bool} (made : ofAnnotations graph accepts = .ok plane) :
    plane.Registered := by
  have maintains : Maintains Registered (buildFromAnnotations graph) { accepts } := by
    unfold buildFromAnnotations
    cases graph.topologicalOrder? .both with
    | none => exact concludes_of_refused rfl (Registered.empty accepts)
    | some order =>
      refine concludes_get_bind ?_
      refine Concludes.bind (concludes_forM (Registered.empty accepts) fun node _ {_} registered => ?_)
        fun _ registered => Concludes.bind (concludes_forM registered fun index _ {_} registered => ?_)
        fun _ registered => ?_
      next => exact (registered.addSingle node).discard
      next => exact registered.addAnnotatedBundle _
      next => exact concludes_query registered
  unfold ofAnnotations Plane.built at made
  split at made
  next after built => cases made; exact maintains.ok built
  next => cases made

theorem registered_ofGraph (consistent : graph.Consistent) (made : ofGraph graph = .ok plane) : plane.Registered := by
  obtain ⟨same, made', tiles, gains⟩ := ofGraph_ok consistent
  cases made.symm.trans made'
  refine ⟨tiles.sound.nodeBelow, fun {index id} named => ?_⟩
  rw [gains.bundleOf_eq] at named
  cases named

end Build

section Join

variable {member : NodeId} {id bundle : PlaneNodeId} {found : PlaneNode} {info : BundleInfo}

theorem Registered.merged (registered : plane.Registered) (sound : plane.Sound graph) {nodes : List PlaneNodeId}
    (members : List NodeId) (joining : ∀ id ∈ nodes, ∀ found, plane.graph.nodes.get? id = some found →
      ∀ index, found.bundleIndex? = some index → index = info.bundleIndex) :
    (plane.merged nodes info members).Registered := by
  have nextNode : (plane.merged nodes info members).nextNode = plane.nextNode + 1 := rfl
  constructor
  case below =>
    intro id found there
    rcases sound.cases_merged there with ⟨rfl, -⟩ | ⟨-, there⟩
    next => rw [nextNode]; exact Nat.lt_succ_self _
    next => exact Nat.lt_succ_of_lt (registered.below there)
  case names =>
    intro index id named
    have named : (plane.bundleOf.insert info.bundleIndex ⟨plane.nextNode⟩).get? index = some id := named
    rw [Table.get?_insert_eq] at named
    split at named
    next same =>
      cases named
      exact ⟨_, by rw [sound.get?_nodes_merged, if_pos rfl], by rw [same]; rfl⟩
    next other =>
      obtain ⟨found, there, own⟩ := registered.names named
      -- A bundle that is fused away has the index of the new one, and is entered under no other.
      have outside : id ∉ nodes := fun inside => other (joining id inside found there index own)
      refine ⟨found, ?_, own⟩
      rw [sound.get?_nodes_merged, if_neg (registered.ne_nextNode there), if_neg outside, there]

theorem fuse_completes {P : Plane → Prop} {nodes : List PlaneNodeId} {members : List (List NodeId)}
    (mapped : nodes.eraseDups.mapM plane.membersOf = .ok members)
    (holds : P (plane.merged nodes.eraseDups info members.flatten)) : Completes P (fuse nodes info) plane := by
  refine .of_eq (fuse_of_members info mapped) ?_
  cases decided : (plane.merged nodes.eraseDups info members.flatten).graph.isAcyclic with
  | error fault => exact concludes_of_fault (stateful_bind_of_error _ (query_isAcyclic_of_error decided))
  | ok acyclic =>
    refine .of_eq (stateful_bind_of_ok _ (query_isAcyclic_of_ok decided)) ?_
    cases acyclic with
    | true => exact concludes_of_ok rfl holds
    | false => exact concludes_of_fault rfl

variable (registered : plane.Registered) (there : plane.graph.nodes.get? id = some found) (alone : found.bundle = none)
include registered there alone

theorem Registered.join_completes (sound : plane.Sound graph)
    (named : plane.bundleOf.get? info.bundleIndex = some bundle) :
    Completes Registered (fuse [id, bundle] info) plane := by
  -- The index leads to a plane node, so both are found, and to one that has it, so no other index is lost.
  obtain ⟨bundled, there', own⟩ := registered.names named
  have known : ∀ other ∈ [id, bundle].eraseDups, ∃ members, plane.membersOf other = .ok members := by
    intro other listed
    rcases List.mem_pair.mp (List.mem_eraseDups.mp listed) with rfl | rfl
    next => exact ⟨found.members, by rw [membersOf, there]⟩
    next => exact ⟨bundled.members, by rw [membersOf, there']⟩
  obtain ⟨members, mapped, -⟩ := mapM_ok known
  have merged : (plane.merged [id, bundle].eraseDups info members.flatten).Registered := by
    refine registered.merged sound _ fun other listed record present index has => ?_
    rcases List.mem_pair.mp (List.mem_eraseDups.mp listed) with rfl | rfl
    next =>
      cases there.symm.trans present
      rw [PlaneNode.bundleIndex?, alone] at has
      cases has
    next =>
      cases there'.symm.trans present
      exact Option.some.inj (has.symm.trans own)
  exact fuse_completes mapped merged

variable (represented : plane.nodeOf.get? member = some id)
include represented

theorem Registered.addNewBundle_completes : Completes Registered (addNewBundle member info) plane := by
  let bundled (found : PlaneNode) : PlaneNode := { found with bundle := some info, name := bundleName info }
  have nodes := PlaneGraph.get?_nodes_modifyNode plane.graph id bundled
  have single : found.isBundle = false := by rw [PlaneNode.isBundle, alone]; rfl
  have changed : Registered { plane with graph := plane.graph.modifyNode id bundled } := by
    constructor
    case below =>
      intro other record present
      rw [nodes] at present
      obtain ⟨old, present, -⟩ := Option.map_eq_some_iff.mp present
      exact registered.below present
    case names =>
      intro index other named
      obtain ⟨record, present, own⟩ := registered.names named
      have apart := registered.not_named_of_alone there alone named
      exact ⟨record, by rw [nodes, present]; simp [apart], own⟩
  have now : (plane.graph.modifyNode id bundled).nodes.get? id = some (bundled found) := by rw [nodes, there]; simp
  unfold Plane.addNewBundle
  refine concludes_query_bind_of_ok (representation_eq_ok.mpr represented) ?_
  refine concludes_query_bind_of_ok (planeNode_eq_ok.mpr ⟨id, represented, there⟩) ?_
  rw [single]
  exact concludes_of_ok rfl (changed.enter now rfl)

theorem Registered.addToBundle_completes (sound : plane.Sound graph) :
    Completes Registered (addToBundle member info) plane := by
  unfold Plane.addToBundle
  refine concludes_get_bind ?_
  cases named : plane.bundleOf.get? info.bundleIndex with
  | none => exact registered.addNewBundle_completes there alone represented
  | some bundle =>
    refine concludes_query_bind_of_ok (representation_eq_ok.mpr represented) ?_
    by_cases same : id = bundle
    next => rw [if_pos same]; exact concludes_of_ok rfl registered
    next =>
      have single : (plane.graph.nodes.get? id).any PlaneNode.isBundle = false := by
        rw [there, Option.any_some, PlaneNode.isBundle, alone]; rfl
      rw [if_neg same, single]
      exact (registered.join_completes there alone sound named).discard.bind fun _ registered =>
        concludes_of_ok rfl registered

end Join

structure Unmoved (plane current : Plane) : Prop where
  registered : current.Registered
  nodeOf : current.nodeOf = plane.nodeOf
  unfrozen : current.frozen = false

theorem Unmoved.removeRelationship_completes {current : Plane} (unmoved : plane.Unmoved current) {t : TensorId}
    {member : NodeId} {id : PlaneNodeId} (represented : plane.nodeOf.get? member = some id) (usage : Usage) :
    Completes plane.Unmoved (Plane.removeRelationship t member usage) current := by
  obtain ⟨registered, same, unfrozen⟩ := unmoved
  refine .of_eq (unlessFrozen_eq _ unfrozen) ?_
  refine concludes_query_bind_of_ok (representation_eq_ok.mpr (same ▸ represented)) (concludes_get_bind ?_)
  cases current.tensorOf.get? t with
  | none => exact concludes_of_ok rfl ⟨registered, same, unfrozen⟩
  | some clone =>
    cases usage with
    | input =>
      refine concludes_of_ok rfl ⟨registered.of_changes _ (PlaneGraph.get?_nodes_removeInput clone id)
        (fun _ _ => ?_) rfl rfl, same, unfrozen⟩
      split <;> rfl
    | output =>
      refine concludes_of_ok rfl ⟨registered.of_changes _ (PlaneGraph.get?_nodes_removeOutput clone id)
        (fun _ _ => ?_) rfl rfl, same, unfrozen⟩
      split <;> rfl

namespace Follows

variable (follows : plane.Follows graph) (registered : plane.Registered)
include follows registered

theorem addNode_completes (arrives : graph.Arrives node final)
    (listed : ∀ t, t ∈ node.allInputs ∨ t ∈ node.allOutputs → ∃ tensor, final.tensors.get? t = some tensor) :
    Completes Registered (Plane.addNode final node.id) plane := by
  have got : final.get node.id = .ok node := by rw [Graph.get, arrives.present]
  have sound := follows.sound.arrives arrives
  have single : Completes Registered (addSingle final node) plane := by
    obtain ⟨id, after, added⟩ := addSingle_ok (follows.unknown arrives) listed
    exact concludes_of_ok added ((registered.addSingle node).ok added)
  refine .of_eq (unlessFrozen_eq _ follows.unfrozen) ?_
  rw [got]
  refine single.discard.bind fun {_ after} ran registered => ?_
  obtain ⟨id, added⟩ := stateful_discard_eq_ok.mp ran
  obtain ⟨grown, inputs, outputs, grows, -, rfl, rfl, sound, -, -⟩ :=
    sound.addSingle_eq_ok arrives.linked_final arrives.present (fun t output => listed t (Or.inr output)) added
  cases node.annotations.bundle with
  | none => exact concludes_of_ok rfl registered
  | some info =>
    have there : (grown.pushed (singleNode node ⟨plane.nextNode⟩ inputs outputs)).graph.nodes.get? ⟨plane.nextNode⟩ =
        some (singleNode node ⟨plane.nextNode⟩ inputs outputs) := by
      rw [nodes_pushed]
      exact Table.get?_insert_self ..
    refine (registered.addToBundle_completes there rfl ?_ sound).discard
    rw [get?_nodeOf_pushed, grows.nextNode_eq]
    simp [singleNode]

theorem removeNode_completes (present : node.id ∈ graph.nodeIds) :
    Completes Registered (Plane.removeNode final node none) plane := by
  obtain ⟨id, represented⟩ := (follows.covers node.id).mpr present
  obtain ⟨found, there, -⟩ := (follows.sound.nodeOf_iff node.id id).mp represented
  cases follows.sound.indexed.nodeKey there
  refine .of_eq (unlessFrozen_eq _ follows.unfrozen) ?_
  refine concludes_query_bind_of_ok rfl ?_
  refine concludes_query_bind_of_ok (planeNode_eq_ok.mpr ⟨found.id, represented, there⟩) ?_
  by_cases several : found.isBundle && found.members.length ≠ 1
  next =>
    rw [if_pos several]
    have changed := (follows.sound.withoutMember_eq final found node).2
    refine concludes_of_ok rfl (registered.of_changes _ changed (fun other record => ?_) rfl rfl)
    split <;> rfl
  next =>
    rw [if_neg several]
    cases bundle : found.bundle with
    | none =>
      refine concludes_of_ok rfl (registered.dropped rfl (fun {index other} named => ⟨named, ?_⟩) rfl)
      exact registered.not_named_of_alone there bundle named
    | some info =>
      refine concludes_of_ok rfl (registered.dropped rfl (fun {index other} named => ?_) rfl)
      have named : (plane.bundleOf.erase info.bundleIndex).get? index = some other := named
      rw [Table.get?_erase_eq] at named
      split at named
      next => cases named
      next apart =>
        refine ⟨named, ?_⟩
        rintro rfl
        have own := registered.bundleIndex?_eq named there
        rw [PlaneNode.bundleIndex?, bundle] at own
        exact apart (Option.some.inj own).symm

theorem replaceNode_completes {old new : NodeId} (present : old ∈ graph.nodeIds) (fresh : new ∉ graph.nodeIds) :
    Completes Registered (Plane.replaceNode old new) plane := by
  obtain ⟨id, represented⟩ := (follows.covers old).mpr present
  have unknown : plane.nodeOf.contains new = false := by
    have absent := mt (follows.covers new).mp fresh
    simpa [Table.contains, Option.eq_none_iff_forall_ne_some] using absent
  refine .of_eq (unlessFrozen_eq _ follows.unfrozen) ?_
  refine concludes_query_bind_of_ok (representation_eq_ok.mpr represented) (concludes_get_bind ?_)
  rw [unknown]
  refine concludes_of_ok rfl (registered.of_changes _ (fun _ => get?_nodes_replaced _) (fun other record => ?_) rfl rfl)
  split <;> rfl

theorem addRelationship_completes {t : TensorId} {tensor : Tensor} {producer consumer : NodeId}
    (present : final.tensors.get? t = some tensor) (made : producer ∈ graph.nodeIds) (read : consumer ∈ graph.nodeIds) :
    Completes Registered (Plane.addRelationship final t producer consumer) plane := by
  obtain ⟨source, sourceOf⟩ := (follows.covers producer).mpr made
  obtain ⟨target, targetOf⟩ := (follows.covers consumer).mpr read
  by_cases same : source = target
  next => exact concludes_of_ok (addRelationship_of_same follows.unfrozen sourceOf targetOf same) registered
  next =>
    obtain ⟨clone, grown, cloned⟩ := cloneTensor_ok plane present
    have grown := (registered.cloneTensor t).ok cloned
    refine concludes_of_ok (addRelationship_of_apart follows.unfrozen sourceOf targetOf same cloned) ?_
    exact (grown.addOutput source clone).addInput target clone

theorem disconnect_completes {t : TensorId} {producer : Option NodeId} {consumers : List NodeId}
    (made : ∀ node ∈ producer, node ∈ graph.nodeIds) (read : ∀ node ∈ consumers, node ∈ graph.nodeIds) :
    Completes Registered (Plane.disconnect t producer consumers) plane := by
  have removed {member : NodeId} (known : member ∈ graph.nodeIds) (usage : Usage) {current : Plane}
      (unmoved : plane.Unmoved current) :
      Completes plane.Unmoved (Plane.removeRelationship t member usage) current := by
    obtain ⟨id, represented⟩ := (follows.covers member).mpr known
    exact unmoved.removeRelationship_completes represented usage
  have inputs {current : Plane} (unmoved : plane.Unmoved current) : Completes plane.Unmoved
      (consumers.forM fun consumer => Plane.removeRelationship t consumer .input) current :=
    concludes_forM unmoved fun consumer listed {_} unmoved => removed (read consumer listed) .input unmoved
  have unmoved : plane.Unmoved plane := ⟨registered, rfl, follows.unfrozen⟩
  have disconnected : Completes plane.Unmoved (Plane.disconnect t producer consumers) plane := by
    unfold Plane.disconnect
    cases producer with
    | none => exact inputs unmoved
    | some producer => exact (removed (made producer rfl) .output unmoved).bind fun _ unmoved => inputs unmoved
  exact disconnected.mono Unmoved.registered id

end Follows

end Plane

end Dataflow
