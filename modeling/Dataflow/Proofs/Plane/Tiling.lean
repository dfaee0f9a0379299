import Dataflow.Proofs.Plane.Fuse

set_option autoImplicit false

namespace Dataflow

namespace Plane

variable {graph : Graph} {plane : Plane} {done : List NodeId}

section Shown

variable {t : TensorId} {tensor : Tensor} {producer consumer : NodeId} {id : PlaneNodeId}
  (tiles : Tiles graph done plane)

include tiles

theorem Tiles.tensor_of_shown {usage : Usage} (shown : plane.Shows usage t id) :
    ∃ tensor, graph.tensors.get? t = some tensor := by
  have ⟨found, _, there, _⟩ := shown
  have lists := (shows_iff there).mp shown
  cases usage with
  | input =>
    rcases (tiles.boundary there).input lists with ⟨tensor, present, -⟩ | ⟨⟨-, tensor, -, present, -⟩, -⟩
    all_goals exact ⟨tensor, present⟩
  | output =>
    rcases (tiles.boundary there).output lists with ⟨tensor, present, -⟩ | ⟨⟨-, tensor, -, present, -⟩, -⟩
    all_goals exact ⟨tensor, present⟩

variable (present : graph.tensors.get? t = some tensor)

include present

theorem Tiles.shows_output (produced : tensor.producer = some producer)
    (represented : plane.nodeOf.get? producer = some id)
    (leaves : tensor.consumers = [] ∨ ∃ consumer ∈ tensor.consumers, plane.nodeOf.get? consumer ≠ some id) :
    plane.Shows .output t id := by
  obtain ⟨found, there, inside⟩ := (tiles.sound.nodeOf_iff producer id).mp represented
  refine (shows_iff there).mpr ((tiles.boundary there).leaves ⟨tensor, present, ⟨producer, inside, produced⟩, ?_⟩)
  refine leaves.imp_right ?_
  rintro ⟨consumer, consumes, elsewhere⟩
  refine ⟨consumer, consumes, fun member => elsewhere ?_⟩
  exact (tiles.sound.nodeOf_iff consumer id).mpr ⟨found, there, member⟩

theorem Tiles.shows_input (consumes : consumer ∈ tensor.consumers)
    (represented : plane.nodeOf.get? consumer = some id)
    (enters : ∀ producer, tensor.producer = some producer → plane.nodeOf.get? producer ≠ some id) :
    plane.Shows .input t id := by
  obtain ⟨found, there, inside⟩ := (tiles.sound.nodeOf_iff consumer id).mp represented
  refine (shows_iff there).mpr ((tiles.boundary there).enters ⟨tensor, present, ⟨consumer, inside, consumes⟩, ?_⟩)
  exact fun producer produced member =>
    enters producer produced ((tiles.sound.nodeOf_iff producer id).mpr ⟨found, there, member⟩)

theorem Tiles.shows_output_of_input (shown : plane.Shows .input t id) (produced : tensor.producer = some producer)
    (represented : plane.nodeOf.get? producer = some id) : plane.Shows .output t id := by
  obtain ⟨found, there, inside⟩ := (tiles.sound.nodeOf_iff producer id).mp represented
  rcases (tiles.boundary there).input ((shows_iff there).mp shown) with enters | ⟨-, lists⟩
  next => exact absurd inside (((Graph.enters_iff present).mp enters).2 producer produced)
  next => exact (shows_iff there).mpr lists

theorem Tiles.exists_reader (known : ∀ consumer ∈ tensor.consumers, consumer ∈ done)
    (shown : plane.Shows .output t id) (read : tensor.consumers ≠ []) : ∃ reader, plane.Shows .input t reader := by
  obtain ⟨tensor', producer, present', produced, represented⟩ := tiles.sound.producer_of_shown shown
  cases present.symm.trans present'
  by_cases inner : ∀ consumer ∈ tensor.consumers, plane.nodeOf.get? consumer = some id
  next =>
    -- Nothing leaves the plane node, so it shows the tensor as a loop.
    have ⟨found, _, there, _⟩ := shown
    rcases (tiles.boundary there).output ((shows_iff there).mp shown) with leaves | ⟨-, lists⟩
    next =>
      rcases ((Graph.leaves_iff present).mp leaves).2 with none | ⟨consumer, consumes, outside⟩
      next => exact absurd none read
      next =>
        obtain ⟨same, there', inside⟩ := (tiles.sound.nodeOf_iff consumer id).mp (inner consumer consumes)
        cases there.symm.trans there'
        exact absurd inside outside
    next => exact ⟨id, (shows_iff there).mpr lists⟩
  next =>
    push Not at inner
    obtain ⟨consumer, consumes, elsewhere⟩ := inner
    obtain ⟨reader, stands⟩ := (tiles.covers consumer).mpr (known consumer consumes)
    refine ⟨reader, tiles.shows_input present consumes stands fun other produced' represented' => ?_⟩
    cases produced.symm.trans produced'
    cases represented.symm.trans represented'
    exact elsewhere stands

end Shown

section Merge

variable {nodes : List PlaneNodeId} {members : List NodeId} (consistent : graph.Consistent)
  (tiles : Tiles graph graph.nodeIds plane) (mem_members : ∀ node, node ∈ members ↔
    ∃ id ∈ nodes, ∃ found, plane.graph.nodes.get? id = some found ∧ node ∈ found.members)

include tiles mem_members

theorem Tiles.mem_merged_iff {node : NodeId} {id : PlaneNodeId} (represented : plane.nodeOf.get? node = some id) :
    node ∈ members ↔ id ∈ nodes := by
  simp only [mem_members, ← tiles.sound.nodeOf_iff, represented, Option.some.injEq, exists_eq_right']

include consistent

theorem Tiles.merged_enters_iff (t : TensorId) : graph.Enters members t ↔
    (∃ old ∈ nodes, plane.Shows .input t old) ∧ ∀ old ∈ nodes, ¬ plane.Shows .output t old := by
  have inside {node : NodeId} {id : PlaneNodeId} := @tiles.mem_merged_iff _ _ _ _ mem_members node id
  constructor
  next =>
    rintro ⟨tensor, present, ⟨consumer, within, consumes⟩, apart⟩
    obtain ⟨old, stands⟩ := (tiles.covers consumer).mpr (consistent.consumer_known present consumes)
    constructor
    next =>
      refine ⟨old, (inside stands).mp within, tiles.shows_input present consumes stands ?_⟩
      exact fun producer produced represented =>
        apart producer produced ((inside represented).mpr ((inside stands).mp within))
    next =>
      intro other merged shown
      obtain ⟨tensor', producer, present', produced, represented⟩ := tiles.sound.producer_of_shown shown
      cases present.symm.trans present'
      exact apart producer produced ((inside represented).mpr merged)
  next =>
    rintro ⟨⟨old, merged, shown⟩, hidden⟩
    obtain ⟨tensor, present⟩ := tiles.tensor_of_shown shown
    obtain ⟨consumer, consumes, stands⟩ := tiles.sound.consumer_of_shown shown present
    refine ⟨tensor, present, ⟨consumer, (inside stands).mpr merged, consumes⟩, fun producer produced within => ?_⟩
    -- The producer's plane node would show the tensor, be it the reader's own or another.
    obtain ⟨source, represented⟩ := (tiles.covers producer).mpr (consistent.producer_known present produced)
    refine hidden source ((inside represented).mp within) ?_
    by_cases same : source = old
    next =>
      subst same
      exact tiles.shows_output_of_input present shown produced represented
    next =>
      refine tiles.shows_output present produced represented (Or.inr ⟨consumer, consumes, fun both => same ?_⟩)
      exact Option.some.inj (both.symm.trans stands)

theorem Tiles.merged_leaves_iff (t : TensorId) : graph.Leaves members t ↔
    (∃ old ∈ nodes, plane.Shows .output t old) ∧
      ((∀ reader, ¬ plane.Shows .input t reader) ∨ ∃ reader, reader ∉ nodes ∧ plane.Shows .input t reader) := by
  have inside {node : NodeId} {id : PlaneNodeId} := @tiles.mem_merged_iff _ _ _ _ mem_members node id
  constructor
  next =>
    rintro ⟨tensor, present, ⟨producer, within, produced⟩, leaves⟩
    obtain ⟨old, represented⟩ := (tiles.covers producer).mpr (consistent.producer_known present produced)
    have merged := (inside represented).mp within
    constructor
    next =>
      refine ⟨old, merged, tiles.shows_output present produced represented (leaves.imp_right ?_)⟩
      rintro ⟨consumer, consumes, outside⟩
      exact ⟨consumer, consumes, fun stands => outside ((inside stands).mpr merged)⟩
    next =>
      -- Either nobody reads the tensor, or a reader stands outside of all the merged plane nodes.
      refine leaves.imp (fun none reader shown => ?_) ?_
      next =>
        obtain ⟨consumer, consumes, -⟩ := tiles.sound.consumer_of_shown shown present
        rw [none] at consumes
        cases consumes
      next =>
        rintro ⟨consumer, consumes, outside⟩
        obtain ⟨reader, stands⟩ := (tiles.covers consumer).mpr (consistent.consumer_known present consumes)
        have apart : reader ∉ nodes := fun merged => outside ((inside stands).mpr merged)
        refine ⟨reader, apart, tiles.shows_input present consumes stands fun other produced' represented' => apart ?_⟩
        cases produced.symm.trans produced'
        cases represented.symm.trans represented'
        exact merged
  next =>
    rintro ⟨⟨old, merged, shown⟩, readers⟩
    obtain ⟨tensor, producer, present, produced, represented⟩ := tiles.sound.producer_of_shown shown
    refine ⟨tensor, present, ⟨producer, (inside represented).mpr merged, produced⟩, ?_⟩
    refine readers.imp (fun unread => ?_) ?_
    next =>
      by_contra read
      obtain ⟨reader, shown'⟩ := tiles.exists_reader present (fun _ => consistent.consumer_known present) shown read
      exact unread reader shown'
    next =>
      rintro ⟨reader, apart, shown'⟩
      obtain ⟨consumer, consumes, stands⟩ := tiles.sound.consumer_of_shown shown' present
      exact ⟨consumer, consumes, fun within => apart ((inside stands).mp within)⟩

theorem Tiles.exact_merged (info : BundleInfo) : (bundleNode info ⟨plane.nextNode⟩ (plane.externalTensors nodes).1
    (plane.externalTensors nodes).2 members).Exact graph plane.tensorOf := by
  have there := tiles.sound.get?_nodes_merged nodes info members ⟨plane.nextNode⟩
  rw [if_pos rfl] at there
  have merges := tiles.sound.merges info mem_members
  have unused (usage : Usage) (t : TensorId) : ¬ plane.Shows usage t ⟨plane.nextNode⟩ := by
    rintro ⟨found, clone, there, -⟩
    rw [tiles.sound.nextNode_unused] at there
    cases there
  refine PlaneNode.exact_of_iff (fun t => (shows_iff there).symm.trans ?_) fun t => (shows_iff there).symm.trans ?_
  next => simp [merges.input, unused, bundleNode, tiles.merged_enters_iff consistent mem_members]
  next => simp [merges.output, unused, bundleNode, tiles.merged_leaves_iff consistent mem_members]

theorem Tiles.merged (info : BundleInfo) (distinct : members.Nodup) :
    Tiles graph graph.nodeIds (plane.merged nodes info members) := by
  have merges := tiles.sound.merges info mem_members
  constructor
  case sound => exact tiles.sound.merged info mem_members
  case covers =>
    intro node
    rw [← tiles.covers, merges.nodeOf]
    cases plane.nodeOf.get? node <;> simp
  case distinct =>
    intro id found there
    rcases tiles.sound.cases_merged there with ⟨-, rfl⟩ | ⟨-, old⟩
    next => exact distinct
    next => exact tiles.distinct old
  case boundary =>
    intro id found there
    rcases tiles.sound.cases_merged there with ⟨-, rfl⟩ | ⟨-, old⟩
    next => exact tiles.exact_merged consistent mem_members info
    next => exact tiles.boundary old

end Merge

theorem Tiles.nodup_members {nodes : List PlaneNodeId} {members : List (List NodeId)} (tiles : Tiles graph done plane)
    (nodup : nodes.Nodup) (mapped : nodes.mapM plane.membersOf = .ok members) : members.flatten.Nodup := by
  induction nodes generalizing members with
  | nil => cases mapped; exact List.nodup_nil
  | cons id rest ih =>
    obtain ⟨apart, nodup⟩ := List.nodup_cons.mp nodup
    obtain ⟨found, others, there, mapped', rfl⟩ := mapM_membersOf_cons mapped
    rw [List.flatten_cons, List.nodup_append']
    refine ⟨tiles.distinct there, ih nodup mapped', fun node inside within => apart ?_⟩
    obtain ⟨other, member, otherFound, otherThere, otherInside⟩ := (members_of_mapM mapped' node).mp within
    have stands := (tiles.sound.nodeOf_iff node id).mpr ⟨found, there, inside⟩
    have otherStands := (tiles.sound.nodeOf_iff node other).mpr ⟨otherFound, otherThere, otherInside⟩
    cases stands.symm.trans otherStands
    exact member

theorem Tiles.modifyNode (tiles : Tiles graph done plane) (id : PlaneNodeId) (change : PlaneNode → PlaneNode)
    (own : ∀ node, (change node).id = node.id) (inputs : ∀ node, (change node).inputs = node.inputs)
    (outputs : ∀ node, (change node).outputs = node.outputs) (members : ∀ node, (change node).members = node.members)
    (single : ∀ {found}, plane.graph.nodes.get? id = some found → (change found).bundle = none →
      ∃ member, found.members = [member]) :
    Tiles graph done { plane with graph := plane.graph.modifyNode id change } := by
  have changed {other : PlaneNodeId} {node : PlaneNode}
      (there : (plane.graph.modifyNode id change).nodes.get? other = some node) :
      ∃ found, plane.graph.nodes.get? other = some found ∧ node.members = found.members ∧
        ∀ usage, node.exposed usage = found.exposed usage := by
    rw [PlaneGraph.get?_nodes_modifyNode, Option.map_eq_some_iff] at there
    obtain ⟨found, present, rfl⟩ := there
    refine ⟨found, present, ?_, fun usage => ?_⟩
    all_goals split
    next => exact members found
    next => rfl
    next => cases usage <;> simp [PlaneNode.exposed, inputs, outputs]
    next => rfl
  constructor
  case sound => exact tiles.sound.modifyNode id change own inputs outputs members single
  case covers => exact tiles.covers
  case distinct =>
    intro other node there
    obtain ⟨found, present, same, -⟩ := changed there
    rw [same]
    exact tiles.distinct present
  case boundary =>
    intro other node there
    obtain ⟨found, present, same, exposed⟩ := changed there
    exact (tiles.boundary present).of_lists same fun usage t => by simp only [PlaneNode.Lists, exposed]

theorem get?_foldl_erase (members : List NodeId) (nodeOf : Table NodeId PlaneNodeId) (node : NodeId) :
    (members.foldl Table.erase nodeOf).get? node = if node ∈ members then none else nodeOf.get? node := by
  induction members generalizing nodeOf with
  | nil => simp
  | cons member rest ih =>
    rw [List.foldl_cons, ih, Table.get?_erase_eq]
    by_cases own : node = member <;> simp [own]

def without (plane : Plane) (found : PlaneNode) : Plane :=
  { plane with
    graph := plane.graph.removeNode found
    nodeOf := found.members.foldl Table.erase plane.nodeOf }

theorem Tiles.without {found : PlaneNode} (tiles : Tiles graph done plane)
    (there : plane.graph.nodes.get? found.id = some found) :
    Tiles graph (done.filter (· ∉ found.members)) (plane.without found) := by
  have kept {id : PlaneNodeId} {other : PlaneNode} :
      (plane.without found).graph.nodes.get? id = some other ↔
        id ≠ found.id ∧ plane.graph.nodes.get? id = some other := by
    show (plane.graph.removeNode found).nodes.get? id = _ ↔ _
    rw [PlaneGraph.nodes_removeNode, Table.get?_erase_eq]
    by_cases own : id = found.id <;> simp [own]
  have nodeOf (node : NodeId) : (plane.without found).nodeOf.get? node =
      if node ∈ found.members then none else plane.nodeOf.get? node := get?_foldl_erase ..
  have sound := tiles.sound
  constructor
  case sound =>
    refine { sound with
      indexed := sound.indexed.removeNode there
      nodeOf_iff := fun node id => ?_
      nodeBelow := fun left => sound.nodeBelow (kept.mp left).2
      faithful := fun left => sound.faithful (kept.mp left).2 }
    simp only [kept, nodeOf]
    -- A member of the removed node stands in no other plane node.
    have inside_iff : node ∈ found.members ↔ plane.nodeOf.get? node = some found.id := by
      rw [sound.nodeOf_iff, there]
      simp
    by_cases inside : node ∈ found.members
    next =>
      rw [if_pos inside]
      constructor
      next => intro stands; cases stands
      next =>
        rintro ⟨other, ⟨differs, otherThere⟩, listed⟩
        have stands := (sound.nodeOf_iff node id).mpr ⟨other, otherThere, listed⟩
        exact absurd (Option.some.inj (stands.symm.trans (inside_iff.mp inside))) differs
    next =>
      rw [if_neg inside]
      constructor
      next =>
        intro stands
        obtain ⟨other, otherThere, listed⟩ := (sound.nodeOf_iff node id).mp stands
        exact ⟨other, ⟨fun same => inside (inside_iff.mpr (same ▸ stands)), otherThere⟩, listed⟩
      next =>
        rintro ⟨other, ⟨-, otherThere⟩, listed⟩
        exact (sound.nodeOf_iff node id).mpr ⟨other, otherThere, listed⟩
  case covers =>
    intro node
    rw [nodeOf, List.mem_filter, ← tiles.covers, decide_eq_true_iff]
    by_cases inside : node ∈ found.members <;> simp [inside]
  case distinct => exact fun left => tiles.distinct (kept.mp left).2
  case boundary => exact fun left => tiles.boundary (kept.mp left).2

end Plane

end Dataflow
