import Dataflow.Proofs.Graph.Disconnect
import Dataflow.Proofs.Graph.Replacement
import Dataflow.Proofs.Plane.Arrival

set_option autoImplicit false

namespace Dataflow

theorem PlaneNode.Faithful.subset {graph : Graph} {tensorOf : Table TensorId PlaneTensorId} {node fewer : PlaneNode}
    (faithful : node.Faithful graph tensorOf) (members : fewer.members = node.members)
    (bundle : fewer.bundle = node.bundle) (inputs : fewer.inputs ⊆ node.inputs)
    (outputs : fewer.outputs ⊆ node.outputs) : fewer.Faithful graph tensorOf where
  single := by rw [members, bundle]; exact faithful.single
  cloned := fun lists => faithful.cloned (lists.imp (inputs ·) (outputs ·))
  produces := by rw [members]; exact fun lists => faithful.produces (outputs lists)
  consumes := by rw [members]; exact fun lists => faithful.consumes (inputs lists)

namespace Plane

variable {graph final : Graph} {plane after : Plane} {t : TensorId}

structure Drops (plane : Plane) (t : TensorId) (after : Plane) : Prop where
  nodeOf : after.nodeOf = plane.nodeOf
  frozen : after.frozen = plane.frozen
  fewer : ∀ {usage u id}, after.Shows usage u id → plane.Shows usage u id
  kept : ∀ {usage u id}, u ≠ t → plane.Shows usage u id → after.Shows usage u id

theorem Drops.refl (plane : Plane) (t : TensorId) : Drops plane t plane := ⟨rfl, rfl, id, fun _ => id⟩

theorem Drops.trans {last : Plane} (first : Drops plane t after) (second : Drops after t last) : Drops plane t last :=
  ⟨second.nodeOf.trans first.nodeOf, second.frozen.trans first.frozen, first.fewer ∘ second.fewer,
    fun other => second.kept other ∘ first.kept other⟩

def lessClone (usage : Usage) (clone : PlaneTensorId) (node : PlaneNode) : PlaneNode :=
  match usage with
  | .input => node.withoutInput clone
  | .output => node.withoutOutput clone

theorem mem_exposed_lessClone {usage : Usage} (side : Usage) {clone other : PlaneTensorId} {node : PlaneNode} :
    other ∈ (lessClone usage clone node).exposed side ↔ other ∈ node.exposed side ∧ ¬ (side = usage ∧ other = clone) := by
  cases usage <;> cases side <;>
    simp [lessClone, PlaneNode.exposed, PlaneNode.withoutInput, PlaneNode.withoutOutput, List.mem_filter]

section LessClone

variable {changed : PlaneGraph} {id : PlaneNodeId} {clone : PlaneTensorId} {usage : Usage}
  (nodes : ∀ other, changed.nodes.get? other =
    (plane.graph.nodes.get? other).map fun node => if other = id then lessClone usage clone node else node)

include nodes

theorem Sound.shows_lessClone (sound : plane.Sound graph) (stands : plane.tensorOf.get? t = some clone)
    (side : Usage) (u : TensorId) (other : PlaneNodeId) :
    Shows { plane with graph := changed } side u other ↔
      plane.Shows side u other ∧ ¬ (side = usage ∧ u = t ∧ other = id) := by
  rw [shows_of_changes plane { plane with graph := changed } _ rfl nodes]
  constructor
  next =>
    rintro ⟨found, own, there, standsFor, lists⟩
    split at lists
    next same =>
      obtain ⟨lists, differs⟩ := (mem_exposed_lessClone side).mp lists
      refine ⟨⟨found, own, there, standsFor, lists⟩, fun dropped => differs ⟨dropped.1, ?_⟩⟩
      rw [dropped.2.1, stands] at standsFor
      exact (Option.some.inj standsFor).symm
    next other => exact ⟨⟨found, own, there, standsFor, lists⟩, fun dropped => other dropped.2.2⟩
  next =>
    rintro ⟨⟨found, own, there, standsFor, lists⟩, remains⟩
    refine ⟨found, own, there, standsFor, ?_⟩
    split
    -- Only one tensor has this clone, so a plane node that gives it up gives up no other tensor.
    next same =>
      refine (mem_exposed_lessClone side).mpr ⟨lists, fun dropped => remains ⟨dropped.1, ?_, same⟩⟩
      exact sound.injective standsFor (dropped.2 ▸ stands)
    next => exact lists

theorem Sound.lessClone (sound : plane.Sound graph) (indexed : changed.Indexed) :
    ({ plane with graph := changed } : Plane).Sound graph := by
  refine sound.of_change indexed nodes (fun node => ?_) fun found there => ?_
  next => cases usage <;> rfl
  next =>
    refine (sound.faithful there).subset ?_ ?_ ?_ ?_
    next => cases usage <;> rfl
    next => cases usage <;> rfl
    next => exact fun _ lists => ((mem_exposed_lessClone .input).mp lists).1
    next => exact fun _ lists => ((mem_exposed_lessClone .output).mp lists).1

end LessClone

theorem Sound.removeRelationship (sound : plane.Sound graph) (unfrozen : plane.frozen = false) {member : NodeId}
    {usage : Usage} (removed : removeRelationship t member usage plane = .ok () after) :
    after.Sound graph ∧ Drops plane t after ∧
      ∀ id, plane.nodeOf.get? member = some id → ¬ after.Shows usage t id := by
  unfold Plane.removeRelationship at removed
  rw [unlessFrozen_eq _ unfrozen] at removed
  obtain ⟨id, asked, rest⟩ := query_bind_eq_ok.mp removed
  have represented := representation_eq_ok.mp asked
  rw [stateful_get_bind] at rest
  cases stands : plane.tensorOf.get? t with
  | none =>
    rw [stands] at rest
    cases rest
    refine ⟨sound, .refl plane t, ?_⟩
    rintro id - ⟨found, clone, -, stands', -⟩
    cases stands.symm.trans stands'
  | some clone =>
    rw [stands] at rest
    obtain ⟨changed, rfl, indexed, nodes⟩ : ∃ changed, after = { plane with graph := changed } ∧ changed.Indexed ∧
        ∀ other, changed.nodes.get? other = (plane.graph.nodes.get? other).map fun node =>
          if other = id then Plane.lessClone usage clone node else node := by
      cases usage with
      | input =>
        cases rest
        exact ⟨_, rfl, sound.indexed.removeInput clone id, PlaneGraph.get?_nodes_removeInput clone id⟩
      | output =>
        cases rest
        exact ⟨_, rfl, sound.indexed.removeOutput clone id, PlaneGraph.get?_nodes_removeOutput clone id⟩
    have shown := sound.shows_lessClone nodes stands
    refine ⟨sound.lessClone nodes indexed, ⟨rfl, rfl, fun shows => ((shown _ _ _).mp shows).1, ?_⟩, ?_⟩
    next =>
      intro side u other differs shows
      exact (shown _ _ _).mpr ⟨shows, fun dropped => differs dropped.2.1⟩
    next =>
      intro own represented' shows
      cases represented.symm.trans represented'
      exact ((shown _ _ _).mp shows).2 ⟨rfl, rfl, rfl⟩

theorem Sound.removeInputs (sound : plane.Sound graph) (unfrozen : plane.frozen = false) {consumers : List NodeId}
    (removed : (consumers.forM fun consumer => Plane.removeRelationship t consumer .input) plane = .ok ⟨⟩ after) :
    after.Sound graph ∧ Drops plane t after := by
  induction consumers generalizing plane with
  | nil => cases removed; exact ⟨sound, .refl _ _⟩
  | cons consumer rest ih =>
    obtain ⟨_, between, first, others⟩ := stateful_bind_eq_ok.mp removed
    obtain ⟨sound, drops, -⟩ := sound.removeRelationship unfrozen first
    obtain ⟨sound, drops'⟩ := ih sound (drops.frozen.trans unfrozen) others
    exact ⟨sound, drops.trans drops'⟩

def disconnect (t : TensorId) (producer : Option NodeId) (consumers : List NodeId) : PlaneM Unit := do
  match producer with
  | none => pure ()
  | some producer => removeRelationship t producer .output
  consumers.forM fun consumer => removeRelationship t consumer .input

theorem Sound.disconnect (sound : plane.Sound graph) (unfrozen : plane.frozen = false) {tensor : Tensor}
    (present : graph.tensors.get? t = some tensor) {consumers : List NodeId}
    (updated : Plane.disconnect t tensor.producer consumers plane = .ok () after) :
    after.Sound graph ∧ Drops plane t after ∧ ∀ id, ¬ after.Shows .output t id := by
  unfold Plane.disconnect at updated
  cases made : tensor.producer with
  | none =>
    rw [made] at updated
    obtain ⟨sound, drops⟩ := sound.removeInputs unfrozen updated
    refine ⟨sound, drops, fun id shown => ?_⟩
    obtain ⟨tensor', producer, present', produced', -⟩ := sound.producer_of_shown shown
    cases present.symm.trans present'
    cases made.symm.trans produced'
  | some producer =>
    rw [made] at updated
    obtain ⟨_, between, first, rest⟩ := stateful_bind_eq_ok.mp updated
    obtain ⟨sound, drops, unshown⟩ := sound.removeRelationship unfrozen first
    obtain ⟨sound', drops'⟩ := sound.removeInputs (drops.frozen.trans unfrozen) rest
    refine ⟨sound', drops.trans drops', fun id shown => ?_⟩
    obtain ⟨tensor', producer', present', produced', represented⟩ := sound.producer_of_shown (drops'.fewer shown)
    cases present.symm.trans present'
    cases made.symm.trans produced'
    exact unshown id (drops.nodeOf ▸ represented) (drops'.fewer shown)

theorem Follows.disconnect (follows : plane.Follows graph) (removed : graph.removeControlEdge t = .ok final)
    (updated : Plane.disconnect t (graph.producer? t) (graph.tensorConsumers t) plane = .ok () after) :
    after.Follows final ∧ (plane.Exposes graph [] → after.Exposes final []) := by
  obtain ⟨tensor, present, -, -, nextTensor, -⟩ := Graph.removeControlEdge_eq_ok removed
  have tensors := Graph.get?_tensors_removeControlEdge removed
  have produced : graph.producer? t = tensor.producer := by rw [Graph.producer?, present]; rfl
  rw [produced] at updated
  obtain ⟨sound, drops, unshown⟩ := follows.sound.disconnect follows.unfrozen present updated
  have sound_final : after.Sound final := by
    apply sound.of_graph (Nat.le_of_eq nextTensor.symm)
    case produced =>
      intro u id shown
      have other : u ≠ t := by rintro rfl; exact unshown id shown
      rw [tensors, if_neg other]
      exact sound.producer_of_shown shown
    case consumed =>
      intro u id tensor shown left
      rw [tensors] at left
      split at left
      next => cases left
      next => exact sound.consumer_of_shown shown left
  refine ⟨⟨sound_final, fun node => ?_, drops.frozen.trans follows.unfrozen⟩, ?_⟩
  next => rw [drops.nodeOf, follows.covers, Graph.nodeIds_removeControlEdge removed]
  next =>
    rintro exposes u source target ⟨differ, producer, consumer, ⟨tensor, left, makes, reads⟩, leftOf, rightOf⟩ -
    rw [tensors] at left
    split at left
    next => cases left
    next other =>
      rw [drops.nodeOf] at leftOf rightOf
      obtain ⟨output, input⟩ :=
        exposes ⟨differ, producer, consumer, ⟨tensor, left, makes, reads⟩, leftOf, rightOf⟩ (by simp)
      exact ⟨drops.kept other output, drops.kept other input⟩

section Replacement

variable {old new : NodeId}

def replaced (plane : Plane) (old new : NodeId) (id : PlaneNodeId) : Plane :=
  { plane with
    graph := plane.graph.modifyNode id fun node => { node with members := node.members.map (renamed old new) }
    nodeOf := (plane.nodeOf.erase old).insert new id }

theorem replaceNode_eq_ok (unfrozen : plane.frozen = false) (updated : replaceNode old new plane = .ok () after) :
    ∃ id, plane.nodeOf.get? old = some id ∧ plane.nodeOf.get? new = none ∧ after = plane.replaced old new id := by
  unfold replaceNode at updated
  rw [unlessFrozen_eq _ unfrozen] at updated
  obtain ⟨id, asked, rest⟩ := query_bind_eq_ok.mp updated
  rw [stateful_get_bind] at rest
  by_cases known : plane.nodeOf.contains new
  next => rw [if_pos known] at rest; cases rest
  next =>
    rw [if_neg known] at rest
    cases rest
    refine ⟨id, representation_eq_ok.mp asked, ?_, rfl⟩
    simpa [Table.contains] using known

variable {id : PlaneNodeId}

theorem get?_nodes_replaced (other : PlaneNodeId) : (plane.replaced old new id).graph.nodes.get? other =
    (plane.graph.nodes.get? other).map fun node =>
      if other = id then { node with members := node.members.map (renamed old new) } else node :=
  PlaneGraph.get?_nodes_modifyNode ..

theorem get?_nodeOf_replaced (member : NodeId) : (plane.replaced old new id).nodeOf.get? member =
    if member = new then some id else if member = old then none else plane.nodeOf.get? member := by
  show ((plane.nodeOf.erase old).insert new id).get? member = _
  rw [Table.get?_insert_eq, Table.get?_erase_eq]

theorem shows_replaced (usage : Usage) (t : TensorId) (other : PlaneNodeId) :
    (plane.replaced old new id).Shows usage t other ↔ plane.Shows usage t other := by
  rw [shows_of_changes plane (plane.replaced old new id) _ rfl get?_nodes_replaced]
  refine exists_congr fun found => exists_congr fun clone => and_congr_right fun _ => and_congr_right fun _ => ?_
  split
  next => cases usage <;> rfl
  next => exact Iff.rfl

theorem represented_replaced (represented : plane.nodeOf.get? old = some id) (unknown : plane.nodeOf.get? new = none)
    {member : NodeId} {other : PlaneNodeId} (known : plane.nodeOf.get? member = some other) :
    (plane.replaced old new id).nodeOf.get? (renamed old new member) = some other := by
  rw [get?_nodeOf_replaced]
  by_cases own : member = old
  next => rw [renamed, if_pos own, if_pos rfl, ← represented, ← own, known]
  next =>
    have foreign : member ≠ new := by rintro rfl; rw [unknown] at known; cases known
    rw [renamed, if_neg own, if_neg foreign, if_neg own, known]

theorem Sound.nodeOf_replaced_iff (sound : plane.Sound graph) (represented : plane.nodeOf.get? old = some id)
    (unknown : plane.nodeOf.get? new = none) (member : NodeId) (other : PlaneNodeId) :
    (plane.replaced old new id).nodeOf.get? member = some other ↔
      ∃ found, (plane.replaced old new id).graph.nodes.get? other = some found ∧ member ∈ found.members := by
  rw [get?_nodes_replaced]
  constructor
  next =>
    intro known
    rw [get?_nodeOf_replaced] at known
    split at known
    next own =>
      cases known
      obtain ⟨found, there, inside⟩ := (sound.nodeOf_iff old id).mp represented
      refine ⟨_, by rw [there, Option.map_some, if_pos rfl], ?_⟩
      exact List.mem_map.mpr ⟨old, inside, by rw [own]; exact if_pos rfl⟩
    next =>
      split at known
      next => cases known
      next other =>
        obtain ⟨found, there, inside⟩ := (sound.nodeOf_iff member _).mp known
        refine ⟨_, by rw [there]; rfl, ?_⟩
        split
        next => exact List.mem_map.mpr ⟨member, inside, if_neg other⟩
        next => exact inside
  next =>
    rintro ⟨found, there, inside⟩
    obtain ⟨node, present, rfl⟩ := Option.map_eq_some_iff.mp there
    split at inside
    next =>
      obtain ⟨before, member, rfl⟩ := List.mem_map.mp inside
      exact represented_replaced represented unknown ((sound.nodeOf_iff before other).mpr ⟨node, present, member⟩)
    next foreign =>
      have known := (sound.nodeOf_iff member other).mpr ⟨node, present, inside⟩
      have kept : renamed old new member = member := by
        refine if_neg ?_
        rintro rfl
        exact foreign (Option.some.inj (known.symm.trans represented))
      rw [← kept]
      exact represented_replaced represented unknown known

theorem Sound.replaced (sound : plane.Sound graph) (represented : plane.nodeOf.get? old = some id)
    (unknown : plane.nodeOf.get? new = none) (renames : graph.Renames old new final) :
    (plane.replaced old new id).Sound final := by
  have get_node {other : PlaneNodeId} {found : PlaneNode}
      (there : (plane.replaced old new id).graph.nodes.get? other = some found) :
      ∃ node, plane.graph.nodes.get? other = some node ∧ found.inputs = node.inputs ∧ found.outputs = node.outputs ∧
        found.bundle = node.bundle ∧ (found.members = node.members ∨ found.members = node.members.map (renamed old new)) := by
    rw [get?_nodes_replaced, Option.map_eq_some_iff] at there
    obtain ⟨node, there, rfl⟩ := there
    refine ⟨node, there, ?_⟩
    split
    next => exact ⟨rfl, rfl, rfl, Or.inr rfl⟩
    next => exact ⟨rfl, rfl, rfl, Or.inl rfl⟩
  apply sound.of_shown
  case tensorOf => rfl
  case nextTensor => rfl
  case numbers => exact Nat.le_of_eq renames.nextTensor.symm
  case indexed => exact sound.indexed.modifyNode id (fun _ => rfl) (fun _ => rfl) (fun _ => rfl)
  case nodeOf_iff => exact sound.nodeOf_replaced_iff represented unknown
  case nodeBelow =>
    intro other found there
    obtain ⟨node, there, -⟩ := get_node there
    exact sound.nodeBelow there
  case single =>
    intro other found there unbundled
    obtain ⟨node, there, -, -, bundle, members⟩ := get_node there
    obtain ⟨member, single⟩ := (sound.faithful there).single (bundle ▸ unbundled)
    rcases members with members | members
    next => exact ⟨member, members.trans single⟩
    next => exact ⟨renamed old new member, by rw [members, single]; rfl⟩
  case listed =>
    intro other found clone there lists
    obtain ⟨node, there, inputs, outputs, -⟩ := get_node there
    exact ⟨other, node, there, by rwa [← inputs, ← outputs]⟩
  -- The one who makes a tensor is known under the new name on both sides.
  case produced =>
    intro t other shown
    obtain ⟨tensor, producer, present, produced, known⟩ := sound.producer_of_shown ((shows_replaced ..).mp shown)
    obtain ⟨after, present', produced', -⟩ := renames.forth present
    exact ⟨after, renamed old new producer, present', by rw [produced', produced]; rfl,
      represented_replaced represented unknown known⟩
  case consumed =>
    intro t other tensor shown present
    obtain ⟨before, present', -, consumers⟩ := renames.back present
    obtain ⟨consumer, consumes, known⟩ := sound.consumer_of_shown ((shows_replaced ..).mp shown) present'
    exact ⟨renamed old new consumer, (consumers _).mpr ⟨consumer, consumes, rfl⟩,
      represented_replaced represented unknown known⟩

theorem Follows.replaceNode (follows : plane.Follows graph) (linked : graph.Linked)
    (renames : graph.Renames old new final) (updated : replaceNode old new plane = .ok () after) :
    after.Follows final ∧ (plane.Exposes graph [] → after.Exposes final []) := by
  obtain ⟨id, represented, unknown, rfl⟩ := replaceNode_eq_ok follows.unfrozen updated
  refine ⟨⟨follows.sound.replaced represented unknown renames, fun member => ?_, follows.unfrozen⟩, ?_⟩
  next =>
    rw [renames.nodeIds, get?_nodeOf_replaced]
    by_cases own : member = new
    next => simp [own]
    next => by_cases gone : member = old <;> simp [own, gone, follows.covers]
  next =>
    rintro exposes t source target ⟨differ, producer, consumer, ⟨tensor, present, makes, reads⟩, left, right⟩ -
    obtain ⟨before, there, produced, consumers⟩ := renames.back present
    rw [produced, Option.map_eq_some_iff] at makes
    obtain ⟨maker, makes, rfl⟩ := makes
    obtain ⟨reader, consumes, rfl⟩ := (consumers consumer).mp reads
    -- The ends of a tensor are nodes of the graph, so the plane stood for them.
    obtain ⟨record, known, -⟩ := (linked.producer_iff there maker).mp makes
    obtain ⟨oldSource, sourceOf⟩ := (follows.covers maker).mpr ((Graph.mem_nodeIds_iff _).mpr ⟨record, known⟩)
    obtain ⟨record, known, -⟩ := (linked.consumer_iff there reader).mp consumes
    obtain ⟨oldTarget, targetOf⟩ := (follows.covers reader).mpr ((Graph.mem_nodeIds_iff _).mpr ⟨record, known⟩)
    cases (represented_replaced represented unknown sourceOf).symm.trans left
    cases (represented_replaced represented unknown targetOf).symm.trans right
    obtain ⟨output, input⟩ := exposes ⟨differ, maker, reader, ⟨before, there, makes, consumes⟩, sourceOf, targetOf⟩ (by simp)
    exact ⟨(shows_replaced ..).mpr output, (shows_replaced ..).mpr input⟩

end Replacement

end Plane

end Dataflow
