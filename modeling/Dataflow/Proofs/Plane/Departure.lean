import Dataflow.Proofs.Plane.Arrival

set_option autoImplicit false

namespace Dataflow

theorem Graph.Linked.carries_detach {graph : Graph} (linked : graph.Linked) {node : Node}
    (present : graph.nodes.get? node.id = some node) {t : TensorId} {producer consumer : NodeId} :
    (graph.detach node).Carries t producer consumer ↔
      graph.Carries t producer consumer ∧ producer ≠ node.id ∧ consumer ≠ node.id := by
  unfold Graph.Carries
  rw [Graph.get?_tensors_detach]
  cases there : graph.tensors.get? t with
  | none => simp
  | some tensor =>
    have own_output := (linked.writes_iff there present).mp
    have own_input := (linked.reads_iff there present).mp
    have producers : (released node t tensor).producer = some producer ↔
        tensor.producer = some producer ∧ producer ≠ node.id := by
      by_cases made : tensor.producer = some node.id
      next => simp [released, made, own_output made, eq_comm]
      next =>
        simp only [released, made, and_false, if_false]
        exact ⟨fun produced => ⟨produced, fun same => made (same ▸ produced)⟩, And.left⟩
    have consumers : consumer ∈ (released node t tensor).consumers ↔
        consumer ∈ tensor.consumers ∧ consumer ≠ node.id := by
      by_cases listed : t ∈ node.allInputs
      next => simp [released, listed]
      next =>
        simp only [released, listed, if_false]
        exact ⟨fun consumes => ⟨consumes, fun same => listed (own_input (same ▸ consumes))⟩, And.left⟩
    simp only [Option.map_some, Option.some.injEq, exists_eq_left', producers, consumers]
    exact and_and_and_comm

def PlaneNode.trim (node : PlaneNode) (usage : Usage) (keeps : PlaneTensorId → Bool) : PlaneNode :=
  match usage with
  | .input => { node with inputs := node.inputs.filter keeps }
  | .output => { node with outputs := node.outputs.filter keeps }

structure PlaneGraph.Trims (before : PlaneGraph) (id : PlaneNodeId) (usage : Usage) (keeps : PlaneTensorId → Bool)
    (after : PlaneGraph) : Prop where
  indexed : after.Indexed
  nodes : ∀ other, after.nodes.get? other =
    (before.nodes.get? other).map fun node => if other = id then node.trim usage keeps else node

namespace PlaneGraph

variable {before after : PlaneGraph} {id : PlaneNodeId} {usage : Usage}

theorem trims_self {keeps : PlaneTensorId → Bool} (indexed : before.Indexed)
    (all : ∀ node, before.nodes.get? id = some node → ∀ clone ∈ node.exposed usage, keeps clone = true) :
    before.Trims id usage keeps before := by
  refine ⟨indexed, fun other => ?_⟩
  cases there : before.nodes.get? other with
  | none => rfl
  | some node =>
    by_cases own : other = id
    next =>
      subst own
      cases usage with
      | input =>
        have kept : node.inputs.filter keeps = node.inputs := List.filter_eq_self.mpr (all node there)
        simp [PlaneNode.trim, kept]
      | output =>
        have kept : node.outputs.filter keeps = node.outputs := List.filter_eq_self.mpr (all node there)
        simp [PlaneNode.trim, kept]
    next => simp [own]

theorem trims_foldl {step : PlaneGraph → TensorId → PlaneGraph} {keeps : TensorId → PlaneTensorId → Bool}
    (steps : ∀ (current : PlaneGraph) t, current.Indexed → current.Trims id usage (keeps t) (step current t))
    (tensors : List TensorId) (indexed : before.Indexed) :
    before.Trims id usage (fun clone => tensors.all fun t => keeps t clone) (tensors.foldl step before) := by
  induction tensors generalizing before with
  | nil => exact trims_self indexed fun _ _ _ _ => rfl
  | cons t rest ih =>
    have first := steps before t indexed
    have others := ih first.indexed
    refine ⟨others.indexed, fun other => ?_⟩
    rw [List.foldl_cons, others.nodes, first.nodes, Option.map_map]
    congr 1
    funext node
    by_cases own : other = id
    next => cases usage <;> simp [own, PlaneNode.trim, List.filter_filter, Bool.and_comm]
    next => simp [own]

end PlaneGraph

namespace Plane

variable {graph : Graph} {plane after : Plane} {node : Node}

def othersIn (graph : Graph) (bundle : PlaneNode) (node : Node) : List Node :=
  (bundle.members.filter (· ≠ node.id)).filterMap graph.nodes.get?

def keepsClone (plane : Plane) (others : List Node) (listed : Node → List TensorId) (tensors : List TensorId)
    (clone : PlaneTensorId) : Bool :=
  tensors.all fun t => plane.tensorOf.get? t ≠ some clone || others.any fun other => t ∈ listed other

section Drop

variable (plane) (kept : TensorId → Bool) (id : PlaneNodeId) (current : PlaneGraph) (t : TensorId)

theorem trims_dropInput (indexed : current.Indexed) :
    current.Trims id .input (fun clone => plane.tensorOf.get? t ≠ some clone || kept t)
      (match plane.tensorOf.get? t with
        | none => current
        | some clone => if kept t then current else current.removeInput id clone) := by
  cases plane.tensorOf.get? t with
  | none => exact PlaneGraph.trims_self indexed fun _ _ _ _ => by simp
  | some clone =>
    dsimp only
    cases kept t with
    | true => exact PlaneGraph.trims_self indexed fun _ _ _ _ => by simp
    | false =>
      refine ⟨indexed.removeInput clone id, fun other => ?_⟩
      rw [if_neg Bool.false_ne_true, PlaneGraph.get?_nodes_removeInput]
      simp [PlaneNode.withoutInput, PlaneNode.trim, eq_comm]

-- A clone that is not listed can be dropped as well, so the test for it makes no difference.
theorem trims_dropOutput (indexed : current.Indexed) :
    current.Trims id .output (fun clone => plane.tensorOf.get? t ≠ some clone || kept t)
      (match plane.tensorOf.get? t with
        | none => current
        | some clone =>
          if ((current.nodes.get? id).any fun found => clone ∈ found.outputs) && !kept t then
            current.removeOutput id clone
          else current) := by
  cases plane.tensorOf.get? t with
  | none => exact PlaneGraph.trims_self indexed fun _ _ _ _ => by simp
  | some clone =>
    dsimp only
    cases kept t with
    | true =>
      rw [Bool.not_true, Bool.and_false]
      exact PlaneGraph.trims_self indexed fun _ _ _ _ => by simp
    | false =>
      rw [Bool.not_false, Bool.and_true]
      split
      next =>
        refine ⟨indexed.removeOutput clone id, fun other => ?_⟩
        rw [PlaneGraph.get?_nodes_removeOutput]
        simp [PlaneNode.withoutOutput, PlaneNode.trim, eq_comm]
      next unlisted =>
        refine PlaneGraph.trims_self indexed fun node there other lists => ?_
        have differs : clone ≠ other := by
          rintro rfl
          rw [there] at unlisted
          exact unlisted (decide_eq_true lists)
        simp [differs]

end Drop

def lessMember (plane : Plane) (others : List Node) (node : Node) (found : PlaneNode) : PlaneNode :=
  { found with
    inputs := found.inputs.filter (plane.keepsClone others Node.allInputs node.allInputs)
    outputs := found.outputs.filter (plane.keepsClone others Node.allOutputs node.allOutputs)
    members := found.members.filter (· ≠ node.id) }

theorem Sound.withoutMember_eq (sound : plane.Sound graph) (final : Graph) (bundle : PlaneNode) (node : Node) :
    (plane.withoutMember final bundle node none).Indexed ∧ ∀ other,
      (plane.withoutMember final bundle node none).nodes.get? other = (plane.graph.nodes.get? other).map fun found =>
        if other = bundle.id then plane.lessMember (othersIn final bundle node) node found else found := by
  have consumed := PlaneGraph.trims_foldl
    (trims_dropInput plane (fun t => (othersIn final bundle node).any fun other => t ∈ other.allInputs) bundle.id)
    node.allInputs sound.indexed
  have produced := PlaneGraph.trims_foldl
    (trims_dropOutput plane (fun t => (othersIn final bundle node).any fun other => t ∈ other.allOutputs) bundle.id)
    node.allOutputs consumed.indexed
  constructor
  next => exact produced.indexed.modifyNode bundle.id (fun _ => rfl) (fun _ => rfl) (fun _ => rfl)
  next =>
    intro other
    refine (PlaneGraph.get?_nodes_modifyNode ..).trans ?_
    refine (congrArg (Option.map _) ((produced.nodes other).trans (congrArg _ (consumed.nodes other)))).trans ?_
    rw [Option.map_map, Option.map_map]
    congr 1
    funext found
    by_cases own : other = bundle.id
    next => simp only [own, Function.comp_apply, if_true]; rfl
    next => simp [own]

theorem planeNode_eq_ok {member : NodeId} {found : PlaneNode} : plane.planeNode member = .ok found ↔
    ∃ id, plane.nodeOf.get? member = some id ∧ plane.graph.nodes.get? id = some found := by
  unfold planeNode representation
  cases plane.nodeOf.get? member with
  | none => simp [bind, Except.bind]
  | some id => cases there : plane.graph.nodes.get? id <;> simp [bind, Except.bind, pure, Except.pure, throw, there]

structure Loses (graph : Graph) (plane : Plane) (node : Node) (after : Plane) : Prop where
  nodeOf : ∀ other, after.nodeOf.get? other = if other = node.id then none else plane.nodeOf.get? other
  produced : ∀ {t id}, after.Shows .output t id → plane.Shows .output t id ∧
    ∀ tensor, graph.tensors.get? t = some tensor → tensor.producer ≠ some node.id
  consumed : ∀ {t id tensor}, after.Shows .input t id → graph.tensors.get? t = some tensor →
    ∃ consumer ∈ tensor.consumers, consumer ≠ node.id ∧ plane.nodeOf.get? consumer = some id
  output : ∀ {t producer consumer id}, graph.Carries t producer consumer → producer ≠ node.id →
    plane.nodeOf.get? producer = some id → plane.Shows .output t id → after.Shows .output t id
  input : ∀ {t producer consumer id}, graph.Carries t producer consumer → consumer ≠ node.id →
    plane.nodeOf.get? consumer = some id → plane.Shows .input t id → after.Shows .input t id

theorem Loses.represents_iff (loses : Loses graph plane node after) (member : NodeId) (id : PlaneNodeId) :
    after.nodeOf.get? member = some id ↔ member ≠ node.id ∧ plane.nodeOf.get? member = some id := by
  rw [loses.nodeOf]
  by_cases own : member = node.id <;> simp [own]

theorem Loses.exposes (loses : Loses graph plane node after) (linked : graph.Linked)
    (present : graph.nodes.get? node.id = some node) (exposes : plane.Exposes graph []) :
    after.Exposes (graph.detach node) [] := by
  rintro t source target ⟨differ, producer, consumer, carries, left, right⟩ -
  obtain ⟨carries, makes, reads⟩ := (linked.carries_detach present).mp carries
  rw [loses.nodeOf, if_neg makes] at left
  rw [loses.nodeOf, if_neg reads] at right
  obtain ⟨output, input⟩ := exposes ⟨differ, producer, consumer, carries, left, right⟩ (by simp)
  exact ⟨loses.output carries makes left output, loses.input carries reads right input⟩

theorem Loses.sound (loses : Loses graph plane node after) (sound : plane.Sound graph)
    (tensorOf : after.tensorOf = plane.tensorOf) (nextTensor : after.nextTensor = plane.nextTensor)
    (nextNode : after.nextNode = plane.nextNode) (indexed : after.graph.Indexed)
    (nodeOf_iff : ∀ member id, after.nodeOf.get? member = some id ↔
      ∃ found, after.graph.nodes.get? id = some found ∧ member ∈ found.members)
    (fewer : ∀ {id found}, after.graph.nodes.get? id = some found → ∃ old, plane.graph.nodes.get? id = some old ∧
      found.inputs ⊆ old.inputs ∧ found.outputs ⊆ old.outputs ∧
      (found.bundle = none → found.members = old.members ∧ old.bundle = none)) : after.Sound (graph.detach node) := by
  have numbers : graph.nextTensor ≤ (graph.detach node).nextTensor := Nat.le_refl _
  apply sound.of_shown tensorOf nextTensor numbers indexed nodeOf_iff
  case nodeBelow =>
    intro id found there
    obtain ⟨old, there, -⟩ := fewer there
    exact nextNode ▸ sound.nodeBelow there
  case single =>
    intro id found there unbundled
    obtain ⟨old, there, -, -, kept⟩ := fewer there
    obtain ⟨members, unbundled⟩ := kept unbundled
    rw [members]
    exact (sound.faithful there).single unbundled
  case listed =>
    intro id found clone there lists
    obtain ⟨old, there, inputs, outputs, -⟩ := fewer there
    exact ⟨id, old, there, lists.imp (inputs ·) (outputs ·)⟩
  case produced =>
    intro t id shown
    obtain ⟨shown, other⟩ := loses.produced shown
    obtain ⟨tensor, producer, present, produced, represented⟩ := sound.producer_of_shown shown
    -- What is still shown was not made by the node that left.
    have foreign := other tensor present
    refine ⟨Graph.released node t tensor, producer, by rw [Graph.get?_tensors_detach, present]; rfl, ?_, ?_⟩
    next => rw [← produced]; exact if_neg fun own => foreign own.2
    next =>
      rw [loses.nodeOf, if_neg, represented]
      rintro rfl
      exact foreign produced
  case consumed =>
    intro t id tensor shown present
    rw [Graph.get?_tensors_detach] at present
    obtain ⟨before, older, rfl⟩ := Option.map_eq_some_iff.mp present
    obtain ⟨consumer, consumes, other, represented⟩ := loses.consumed shown older
    refine ⟨consumer, ?_, by rw [loses.nodeOf, if_neg other, represented]⟩
    by_cases listed : t ∈ node.allInputs <;> simp [Graph.released, listed, consumes, other]

theorem removeNode_eq_ok {final : Graph} (unfrozen : plane.frozen = false)
    (removed : removeNode final node none plane = .ok () after) :
    ∃ id found, plane.nodeOf.get? node.id = some id ∧ plane.graph.nodes.get? id = some found ∧
      (found.isBundle = true ∧ after = { plane with
          graph := plane.withoutMember final found node none, nodeOf := plane.nodeOf.erase node.id } ∨
        (found.isBundle = true → found.members.length = 1) ∧ ∃ bundleOf, after = { plane with
          graph := plane.graph.removeNode found, nodeOf := plane.nodeOf.erase node.id, bundleOf }) := by
  unfold removeNode at removed
  rw [unlessFrozen_eq _ unfrozen] at removed
  obtain ⟨producer, none, rest⟩ := query_bind_eq_ok.mp removed
  cases none
  obtain ⟨found, asked, rest⟩ := query_bind_eq_ok.mp rest
  obtain ⟨id, represented, there⟩ := planeNode_eq_ok.mp asked
  refine ⟨id, found, represented, there, ?_⟩
  by_cases several : found.isBundle && found.members.length ≠ 1
  next =>
    rw [if_pos several] at rest
    cases rest
    exact Or.inl ⟨(Bool.and_eq_true _ _ ▸ several).1, rfl⟩
  next =>
    rw [if_neg several] at rest
    refine Or.inr ⟨fun bundled => by simpa [bundled] using several, ?_⟩
    cases bundle : found.bundle with
    | none => rw [bundle] at rest; cases rest; exact ⟨_, rfl⟩
    | some info => rw [bundle] at rest; cases rest; exact ⟨_, rfl⟩

section Alone

variable {found : PlaneNode}

theorem Sound.represents_alone (sound : plane.Sound graph) (there : plane.graph.nodes.get? found.id = some found)
    (alone : found.members = [node.id]) (member : NodeId) :
    plane.nodeOf.get? member = some found.id ↔ member = node.id := by
  rw [sound.nodeOf_iff, there]
  simp [alone]

theorem Sound.loses_alone (sound : plane.Sound graph) (there : plane.graph.nodes.get? found.id = some found)
    (alone : found.members = [node.id]) (bundleOf : Table UInt32 PlaneNodeId) :
    Loses graph plane node { plane with
      graph := plane.graph.removeNode found, nodeOf := plane.nodeOf.erase node.id, bundleOf } := by
  have shows (usage : Usage) (t : TensorId) (id : PlaneNodeId) :
      Shows { plane with graph := plane.graph.removeNode found, nodeOf := plane.nodeOf.erase node.id, bundleOf }
        usage t id ↔ id ≠ found.id ∧ plane.Shows usage t id := by
    unfold Shows
    rw [PlaneGraph.nodes_removeNode, Table.get?_erase_eq]
    by_cases own : id = found.id <;> simp [own]
  have own_iff := sound.represents_alone there alone
  constructor
  case nodeOf => exact Table.get?_erase_eq _ _
  case produced =>
    intro t id shown
    obtain ⟨other, shown⟩ := (shows .output t id).mp shown
    refine ⟨shown, fun tensor present produced => other ?_⟩
    obtain ⟨tensor', producer, present', produced', represented⟩ := sound.producer_of_shown shown
    cases present.symm.trans present'
    cases produced.symm.trans produced'
    exact Option.some.inj (represented.symm.trans ((own_iff _).mpr rfl))
  case consumed =>
    intro t id tensor shown present
    obtain ⟨other, shown⟩ := (shows .input t id).mp shown
    obtain ⟨consumer, consumes, represented⟩ := sound.consumer_of_shown shown present
    refine ⟨consumer, consumes, fun own => other ?_, represented⟩
    exact Option.some.inj (represented.symm.trans ((own_iff _).mpr own))
  case output =>
    intro t producer consumer id _ foreign represented shown
    exact (shows .output t id).mpr ⟨fun own => foreign ((own_iff _).mp (own ▸ represented)), shown⟩
  case input =>
    intro t producer consumer id _ foreign represented shown
    exact (shows .input t id).mpr ⟨fun own => foreign ((own_iff _).mp (own ▸ represented)), shown⟩

theorem Sound.removeAlone (sound : plane.Sound graph) (there : plane.graph.nodes.get? found.id = some found)
    (alone : found.members = [node.id]) (bundleOf : Table UInt32 PlaneNodeId) :
    Sound (graph.detach node) { plane with
      graph := plane.graph.removeNode found, nodeOf := plane.nodeOf.erase node.id, bundleOf } := by
  have nodes (id : PlaneNodeId) : (plane.graph.removeNode found).nodes.get? id =
      if id = found.id then none else plane.graph.nodes.get? id := by
    rw [PlaneGraph.nodes_removeNode, Table.get?_erase_eq]
  have loses := sound.loses_alone there alone bundleOf
  have own_iff := sound.represents_alone there alone
  apply loses.sound sound rfl rfl rfl (sound.indexed.removeNode there)
  case nodeOf_iff =>
    intro member id
    rw [loses.represents_iff, nodes]
    by_cases own : id = found.id
    next =>
      rw [if_pos own]
      constructor
      next => exact fun ⟨other, represented⟩ => absurd ((own_iff member).mp (own ▸ represented)) other
      next => rintro ⟨_, gone, -⟩; cases gone
    next =>
      rw [if_neg own, ← sound.nodeOf_iff]
      refine and_iff_right_of_imp fun represented same => own ?_
      exact Option.some.inj (represented.symm.trans ((own_iff member).mpr same))
  case fewer =>
    intro id other left
    rw [nodes] at left
    split at left
    next => cases left
    next =>
      exact ⟨other, left, List.Subset.refl _, List.Subset.refl _, fun unbundled => ⟨rfl, unbundled⟩⟩

end Alone

section Bundled

variable {found : PlaneNode}

theorem Sound.keepsClone_iff (sound : plane.Sound graph) {t : TensorId} {clone : PlaneTensorId}
    (stands : plane.tensorOf.get? t = some clone) (others : List Node) (listed : Node → List TensorId)
    (tensors : List TensorId) :
    plane.keepsClone others listed tensors clone = true ↔ (t ∈ tensors → ∃ other ∈ others, t ∈ listed other) := by
  simp only [keepsClone, List.all_eq_true, Bool.or_eq_true, decide_eq_true_iff, List.any_eq_true]
  constructor
  next => exact fun kept listed => (kept t listed).resolve_left fun differs => differs stands
  next =>
    intro kept u listed
    by_cases same : plane.tensorOf.get? u = some clone
    next =>
      cases sound.injective stands same
      exact Or.inr (kept listed)
    next => exact Or.inl same

theorem Sound.shows_withoutMember (sound : plane.Sound graph) (final : Graph) (found : PlaneNode) (node : Node)
    (nodeOf : Table NodeId PlaneNodeId) (t : TensorId) (id : PlaneNodeId) :
    (Shows { plane with graph := plane.withoutMember final found node none, nodeOf } .output t id ↔
      plane.Shows .output t id ∧
        (id = found.id → t ∈ node.allOutputs → ∃ other ∈ othersIn final found node, t ∈ other.allOutputs)) ∧
    (Shows { plane with graph := plane.withoutMember final found node none, nodeOf } .input t id ↔
      plane.Shows .input t id ∧
        (id = found.id → t ∈ node.allInputs → ∃ other ∈ othersIn final found node, t ∈ other.allInputs)) := by
  have shown := shows_of_changes plane
    { plane with graph := plane.withoutMember final found node none, nodeOf }
    (fun other old => if other = found.id then plane.lessMember (othersIn final found node) node old else old) rfl
    (sound.withoutMember_eq final found node).2
  rw [shown, shown]
  cases stands : plane.tensorOf.get? t with
  | none => simp [Shows, stands]
  | some clone =>
    have kept := sound.keepsClone_iff stands (othersIn final found node)
    by_cases own : id = found.id
    next => simp [Shows, own, stands, lessMember, PlaneNode.exposed, List.mem_filter, kept, ← and_assoc]
    next => simp [Shows, own, stands]

theorem mem_othersIn {other : Node} : other ∈ othersIn (graph.detach node) found node ↔
    ∃ member ∈ found.members, member ≠ node.id ∧ graph.nodes.get? member = some other := by
  simp only [othersIn, List.mem_filterMap, List.mem_filter, decide_eq_true_iff, Graph.get?_nodes_detach]
  refine exists_congr fun member => ?_
  by_cases own : member = node.id <;> simp [own]

theorem Sound.loses_member (sound : plane.Sound graph) (linked : graph.Linked)
    (present : graph.nodes.get? node.id = some node) (there : plane.graph.nodes.get? found.id = some found)
    (inside : node.id ∈ found.members) :
    Loses graph plane node { plane with
      graph := plane.withoutMember (graph.detach node) found node none, nodeOf := plane.nodeOf.erase node.id } := by
  have shows := sound.shows_withoutMember (graph.detach node) found node (plane.nodeOf.erase node.id)
  have represented := (sound.nodeOf_iff node.id found.id).mpr ⟨found, there, inside⟩
  constructor
  case nodeOf => exact Table.get?_erase_eq _ _
  case produced =>
    intro t id shown
    obtain ⟨shown, kept⟩ := (shows t id).1.mp shown
    refine ⟨shown, fun tensor known produced => ?_⟩
    obtain ⟨tensor', producer, known', produced', represented'⟩ := sound.producer_of_shown shown
    cases known.symm.trans known'
    cases produced.symm.trans produced'
    obtain ⟨own, found', lists⟩ := (linked.producer_iff known node.id).mp produced
    cases present.symm.trans found'
    -- Another member that lists the tensor as an output would be its producer too.
    obtain ⟨other, member, otherLists⟩ := kept (Option.some.inj (represented'.symm.trans represented)) lists
    obtain ⟨otherId, -, differs, otherThere⟩ := mem_othersIn.mp member
    have produced'' := (linked.producer_iff known otherId).mpr ⟨other, otherThere, otherLists⟩
    exact differs (Option.some.inj (produced''.symm.trans produced))
  case consumed =>
    intro t id tensor shown known
    obtain ⟨shown, kept⟩ := (shows t id).2.mp shown
    obtain ⟨consumer, consumes, represented'⟩ := sound.consumer_of_shown shown known
    by_cases own : consumer = node.id
    next =>
      subst own
      obtain ⟨same, found', lists⟩ := (linked.consumer_iff known node.id).mp consumes
      cases present.symm.trans found'
      have bundle := Option.some.inj (represented'.symm.trans represented)
      obtain ⟨other, member, otherLists⟩ := kept bundle lists
      obtain ⟨otherId, within, differs, otherThere⟩ := mem_othersIn.mp member
      refine ⟨otherId, (linked.consumer_iff known otherId).mpr ⟨other, otherThere, otherLists⟩, differs, ?_⟩
      rw [bundle]
      exact (sound.nodeOf_iff otherId found.id).mpr ⟨found, there, within⟩
    next => exact ⟨consumer, consumes, own, represented'⟩
  case output =>
    rintro t producer consumer id ⟨tensor, known, produced, -⟩ foreign represented' shown
    refine (shows t id).1.mpr ⟨shown, fun _ lists => ?_⟩
    have own := (linked.producer_iff known node.id).mpr ⟨node, present, lists⟩
    exact absurd (Option.some.inj (produced.symm.trans own)) foreign
  case input =>
    rintro t producer consumer id ⟨tensor, known, -, consumes⟩ foreign represented' shown
    refine (shows t id).2.mpr ⟨shown, fun bundle _ => ?_⟩
    subst bundle
    obtain ⟨found', there', within⟩ := (sound.nodeOf_iff consumer found.id).mp represented'
    cases there.symm.trans there'
    obtain ⟨other, otherThere, otherLists⟩ := (linked.consumer_iff known consumer).mp consumes
    exact ⟨other, mem_othersIn.mpr ⟨consumer, within, foreign, otherThere⟩, otherLists⟩

theorem Sound.removeMember (sound : plane.Sound graph) (linked : graph.Linked)
    (present : graph.nodes.get? node.id = some node) (there : plane.graph.nodes.get? found.id = some found)
    (inside : node.id ∈ found.members) (bundled : found.isBundle = true) :
    Sound (graph.detach node) { plane with
      graph := plane.withoutMember (graph.detach node) found node none, nodeOf := plane.nodeOf.erase node.id } := by
  have loses := sound.loses_member linked present there inside
  obtain ⟨indexed, nodes⟩ := sound.withoutMember_eq (graph.detach node) found node
  apply loses.sound sound rfl rfl rfl indexed
  case nodeOf_iff =>
    intro member id
    rw [loses.represents_iff, nodes, sound.nodeOf_iff]
    have represented := (sound.nodeOf_iff node.id found.id).mpr ⟨found, there, inside⟩
    cases known : plane.graph.nodes.get? id with
    | none => simp
    | some old =>
      by_cases own : id = found.id
      next => simp [own, lessMember, and_comm]
      next =>
        -- The node that left was a member of its bundle only.
        have other : node.id ∉ old.members := by
          intro within
          have both := (sound.nodeOf_iff node.id id).mpr ⟨old, known, within⟩
          exact own (Option.some.inj (both.symm.trans represented))
        simp only [own, if_false, Option.map_some, Option.some.injEq, exists_eq_left']
        exact and_iff_right_of_imp fun within same => other (same ▸ within)
  case fewer =>
    intro id left remains
    rw [nodes, Option.map_eq_some_iff] at remains
    obtain ⟨old, known, rfl⟩ := remains
    refine ⟨old, known, ?_⟩
    split
    next own =>
      subst own
      cases there.symm.trans known
      refine ⟨List.filter_subset_self _, List.filter_subset_self _, fun unbundled => ?_⟩
      rw [PlaneNode.isBundle, show found.bundle = none from unbundled] at bundled
      cases bundled
    next => exact ⟨List.Subset.refl _, List.Subset.refl _, fun unbundled => ⟨rfl, unbundled⟩⟩

end Bundled

theorem Follows.removeNode (follows : plane.Follows graph) (linked : graph.Linked)
    (present : graph.nodes.get? node.id = some node)
    (removed : removeNode (graph.detach node) node none plane = .ok () after) :
    after.Follows (graph.detach node) ∧ (plane.Exposes graph [] → after.Exposes (graph.detach node) []) := by
  obtain ⟨id, found, represented, there, outcome⟩ := removeNode_eq_ok follows.unfrozen removed
  cases follows.sound.indexed.nodeKey there
  obtain ⟨same, there', inside⟩ := (follows.sound.nodeOf_iff node.id found.id).mp represented
  cases there.symm.trans there'
  obtain ⟨loses, sound, unfrozen⟩ : Loses graph plane node after ∧ after.Sound (graph.detach node) ∧
      after.frozen = plane.frozen := by
    rcases outcome with ⟨bundled, rfl⟩ | ⟨single, bundleOf, rfl⟩
    next =>
      exact ⟨follows.sound.loses_member linked present there inside,
        follows.sound.removeMember linked present there inside bundled, rfl⟩
    next =>
      have alone : found.members = [node.id] := by
        obtain ⟨member, members⟩ : ∃ member, found.members = [member] := by
          by_cases bundled : found.isBundle
          next => exact List.length_eq_one_iff.mp (single bundled)
          next => exact (follows.sound.faithful there).single (by simpa [PlaneNode.isBundle] using bundled)
        rw [members, List.mem_singleton] at inside
        rw [members, inside]
      exact ⟨follows.sound.loses_alone there alone bundleOf, follows.sound.removeAlone there alone bundleOf, rfl⟩
  refine ⟨⟨sound, fun member => ?_, unfrozen.trans follows.unfrozen⟩, loses.exposes linked present⟩
  have covers := follows.covers member
  rw [Graph.mem_nodeIds_iff] at covers ⊢
  rw [loses.nodeOf, Graph.get?_nodes_detach]
  by_cases own : member = node.id
  next => simp [own]
  next => rwa [if_neg own, if_neg own]

end Plane

end Dataflow
