import Dataflow.Proofs.Plane.Relationship

set_option autoImplicit false

namespace Dataflow

namespace PlaneGraph

variable {graph : PlaneGraph}

theorem Indexed.get?_nodes_erase (indexed : graph.Indexed) (id other : PlaneNodeId) :
    (graph.erase id).nodes.get? other = if other = id then none else graph.nodes.get? other := by
  unfold erase
  cases there : graph.nodes.get? id with
  | none =>
    by_cases own : other = id
    next => simp [own, there]
    next => simp [own]
  | some node =>
    simp only [nodes_removeNode, indexed.nodeKey there, Table.get?_erase_eq]

theorem Indexed.erase (indexed : graph.Indexed) (id : PlaneNodeId) : (graph.erase id).Indexed := by
  unfold PlaneGraph.erase
  cases there : graph.nodes.get? id with
  | none => exact indexed
  | some node =>
    cases indexed.nodeKey there
    exact indexed.removeNode there

theorem Indexed.eraseAll (indexed : graph.Indexed) (ids : List PlaneNodeId) :
    (ids.foldl PlaneGraph.erase graph).Indexed ∧
      ∀ other, (ids.foldl PlaneGraph.erase graph).nodes.get? other =
        if other ∈ ids then none else graph.nodes.get? other := by
  induction ids generalizing graph with
  | nil => exact ⟨indexed, fun other => by simp⟩
  | cons id rest ih =>
    obtain ⟨indexed', nodes⟩ := ih (indexed.erase id)
    refine ⟨indexed', fun other => ?_⟩
    rw [List.foldl_cons, nodes, indexed.get?_nodes_erase]
    by_cases own : other = id <;> simp [own]

end PlaneGraph

namespace Plane

variable {graph : Graph} {plane : Plane} {nodes : List PlaneNodeId}

section Views

variable {t : TensorId} {clone : PlaneTensorId}

theorem Sound.showsOutput_iff (sound : plane.Sound graph) (stands : plane.tensorOf.get? t = some clone)
    (id : PlaneNodeId) : plane.Shows .output t id ↔ plane.graph.producerOf.get? clone = some id := by
  rw [sound.indexed.producer_iff]
  simp [Shows, PlaneNode.exposed, stands]

theorem Sound.showsInput_iff (sound : plane.Sound graph) (stands : plane.tensorOf.get? t = some clone)
    (id : PlaneNodeId) : plane.Shows .input t id ↔ id ∈ plane.graph.tensorConsumers clone := by
  rw [sound.indexed.consumer_iff]
  simp [Shows, PlaneNode.exposed, stands]

theorem Sound.mem_externalInputs (sound : plane.Sound graph) (stands : plane.tensorOf.get? t = some clone) :
    clone ∈ (plane.externalTensors nodes).1 ↔
      (∃ id ∈ nodes, plane.Shows .input t id) ∧ ∀ id ∈ nodes, ¬ plane.Shows .output t id := by
  simp only [externalTensors, Ranked.mem_ascending, List.mem_filter, List.mem_flatMap, List.mem_filterMap,
    sound.showsOutput_iff stands]
  refine and_congr ?_ ?_
  next =>
    constructor
    next =>
      rintro ⟨found, ⟨id, member, there⟩, lists⟩
      exact ⟨id, member, found, clone, there, stands, lists⟩
    next =>
      rintro ⟨id, member, found, clone', there, stands', lists⟩
      cases stands.symm.trans stands'
      exact ⟨found, ⟨id, member, there⟩, lists⟩
  next =>
    cases plane.graph.producerOf.get? clone with
    | none => simp
    | some producer =>
      simp only [Option.any_some, Option.some.injEq, Bool.not_eq_true', decide_eq_false_iff_not]
      exact ⟨fun outside id member same => outside (same ▸ member), fun apart member => apart _ member rfl⟩

theorem Sound.mem_externalOutputs (sound : plane.Sound graph) (stands : plane.tensorOf.get? t = some clone) :
    clone ∈ (plane.externalTensors nodes).2 ↔ (∃ id ∈ nodes, plane.Shows .output t id) ∧
      ((∀ id, ¬ plane.Shows .input t id) ∨ ∃ id, id ∉ nodes ∧ plane.Shows .input t id) := by
  simp only [externalTensors, Ranked.mem_ascending, List.mem_filter, List.mem_flatMap, List.mem_filterMap,
    sound.showsInput_iff stands]
  refine and_congr ?_ ?_
  next =>
    constructor
    next =>
      rintro ⟨found, ⟨id, member, there⟩, lists⟩
      exact ⟨id, member, found, clone, there, stands, lists⟩
    next =>
      rintro ⟨id, member, found, clone', there, stands', lists⟩
      cases stands.symm.trans stands'
      exact ⟨found, ⟨id, member, there⟩, lists⟩
  next => simp [List.eq_nil_iff_forall_not_mem, and_comm]

theorem listed_of_external
    (lists : clone ∈ (plane.externalTensors nodes).1 ∨ clone ∈ (plane.externalTensors nodes).2) :
    ∃ id found, plane.graph.nodes.get? id = some found ∧ (clone ∈ found.inputs ∨ clone ∈ found.outputs) := by
  simp only [externalTensors, Ranked.mem_ascending, List.mem_filter, List.mem_flatMap, List.mem_filterMap] at lists
  rcases lists with ⟨⟨found, ⟨id, -, there⟩, lists⟩, -⟩ | ⟨⟨found, ⟨id, -, there⟩, lists⟩, -⟩
  next => exact ⟨id, found, there, Or.inl lists⟩
  next => exact ⟨id, found, there, Or.inr lists⟩

end Views

theorem mapM_membersOf_cons {id : PlaneNodeId} {members : List (List NodeId)}
    (mapped : (id :: nodes).mapM plane.membersOf = .ok members) : ∃ found others,
      plane.graph.nodes.get? id = some found ∧ nodes.mapM plane.membersOf = .ok others ∧
        members = found.members :: others := by
  rw [List.mapM_cons] at mapped
  obtain ⟨own, listed, mapped⟩ := bind_eq_ok.mp mapped
  obtain ⟨others, mapped', ended⟩ := bind_eq_ok.mp mapped
  cases ended
  unfold membersOf at listed
  cases there : plane.graph.nodes.get? id with
  | none => rw [there] at listed; cases listed
  | some found =>
    rw [there] at listed
    cases listed
    exact ⟨found, others, rfl, mapped', rfl⟩

theorem members_of_mapM {members : List (List NodeId)} (mapped : nodes.mapM plane.membersOf = .ok members)
    (node : NodeId) : node ∈ members.flatten ↔
      ∃ id ∈ nodes, ∃ found, plane.graph.nodes.get? id = some found ∧ node ∈ found.members := by
  induction nodes generalizing members with
  | nil => cases mapped; simp
  | cons id rest ih =>
    obtain ⟨found, others, there, mapped', rfl⟩ := mapM_membersOf_cons mapped
    simp [ih mapped', there]

def merged (plane : Plane) (nodes : List PlaneNodeId) (info : BundleInfo) (members : List NodeId) : Plane :=
  { { plane with graph := nodes.foldl PlaneGraph.erase plane.graph }.pushed
      (bundleNode info ⟨plane.nextNode⟩ (plane.externalTensors nodes).1 (plane.externalTensors nodes).2 members) with
    bundleOf := plane.bundleOf.insert info.bundleIndex ⟨plane.nextNode⟩ }

theorem fuse_of_members {members : List (List NodeId)} (info : BundleInfo)
    (mapped : nodes.eraseDups.mapM plane.membersOf = .ok members) :
    fuse nodes info plane = (do
      if ← query fun plane => plane.graph.isAcyclic then return ⟨plane.nextNode⟩
      throw (.fault .cyclicFusion) : PlaneM PlaneNodeId) (plane.merged nodes.eraseDups info members.flatten) := by
  have erased : modifyGraph (fun graph => nodes.eraseDups.foldl PlaneGraph.erase graph) plane =
      .ok () { plane with graph := nodes.eraseDups.foldl PlaneGraph.erase plane.graph } := rfl
  unfold fuse
  rw [stateful_bind_of_ok _ (query_eq_ok.mpr ⟨mapped, rfl⟩), stateful_get_bind]
  exact (stateful_bind_of_ok _ erased).trans (stateful_bind_of_ok _ (pushBundle_eq ..))

theorem fuse_of_error {error : GraphError} (info : BundleInfo)
    (failed : nodes.eraseDups.mapM plane.membersOf = .error error) : fuse nodes info plane = .error error plane :=
  stateful_bind_of_error _ (query_of_error failed)

theorem query_isAcyclic_of_error {fault : Fault} (failed : plane.graph.isAcyclic = .error fault) :
    query (fun plane => plane.graph.isAcyclic) plane = .error (.fault fault) plane :=
  query_of_error (congrArg (Except.mapError GraphError.fault) failed)

theorem query_isAcyclic_of_ok {acyclic : Bool} (decided : plane.graph.isAcyclic = .ok acyclic) :
    query (fun plane => plane.graph.isAcyclic) plane = .ok acyclic plane :=
  query_eq_ok.mpr ⟨congrArg (Except.mapError GraphError.fault) decided, rfl⟩

theorem fuse_eq_error {info : BundleInfo} {error : GraphError} {after : Plane}
    (failed : fuse nodes info plane = .error error after) : (∃ fault, error = .fault fault) ∨ after = plane := by
  cases mapped : nodes.eraseDups.mapM plane.membersOf with
  | error missing =>
    rw [fuse_of_error info mapped] at failed
    cases failed
    exact Or.inr rfl
  | ok members =>
    rw [fuse_of_members info mapped] at failed
    cases decided : (plane.merged nodes.eraseDups info members.flatten).graph.isAcyclic with
    | error fault =>
      rw [stateful_bind_of_error _ (query_isAcyclic_of_error decided)] at failed
      cases failed
      exact Or.inl ⟨fault, rfl⟩
    | ok acyclic =>
      rw [stateful_bind_of_ok _ (query_isAcyclic_of_ok decided)] at failed
      cases acyclic with
      | true => cases failed
      | false => cases failed; exact Or.inl ⟨_, rfl⟩

theorem fuse_eq_ok {info : BundleInfo} {id : PlaneNodeId} {after : Plane} (fused : fuse nodes info plane = .ok id after) :
    ∃ members, nodes.eraseDups.mapM plane.membersOf = .ok members ∧
      after = plane.merged nodes.eraseDups info members.flatten := by
  cases mapped : nodes.eraseDups.mapM plane.membersOf with
  | error error => rw [fuse_of_error info mapped] at fused; cases fused
  | ok members =>
    rw [fuse_of_members info mapped] at fused
    obtain ⟨acyclic, -, rest⟩ := query_bind_eq_ok.mp fused
    cases acyclic with
    | false => cases rest
    | true => cases rest; exact ⟨members, rfl, rfl⟩

structure Merges (plane : Plane) (nodes : List PlaneNodeId) (id : PlaneNodeId) (after : Plane) : Prop where
  nodeOf : ∀ node, after.nodeOf.get? node = (plane.nodeOf.get? node).map fun old => if old ∈ nodes then id else old
  unused : ∀ node, plane.nodeOf.get? node ≠ some id
  output : ∀ t other, after.Shows .output t other ↔ other ∉ nodes ∧ plane.Shows .output t other ∨
    other = id ∧ (∃ old ∈ nodes, plane.Shows .output t old) ∧
      ((∀ reader, ¬ plane.Shows .input t reader) ∨ ∃ reader, reader ∉ nodes ∧ plane.Shows .input t reader)
  input : ∀ t other, after.Shows .input t other ↔ other ∉ nodes ∧ plane.Shows .input t other ∨
    other = id ∧ (∃ old ∈ nodes, plane.Shows .input t old) ∧ ∀ old ∈ nodes, ¬ plane.Shows .output t old

theorem Merges.shown_before {id : PlaneNodeId} {after : Plane} (merges : Merges plane nodes id after) {usage : Usage}
    {t : TensorId} {other : PlaneNodeId} (shown : after.Shows usage t other) :
    ∃ old, plane.Shows usage t old ∧ (if old ∈ nodes then id else old) = other := by
  cases usage with
  | input =>
    rcases (merges.input t other).mp shown with ⟨outside, shown⟩ | ⟨rfl, ⟨old, within, shown⟩, -⟩
    next => exact ⟨other, shown, if_neg outside⟩
    next => exact ⟨old, shown, if_pos within⟩
  | output =>
    rcases (merges.output t other).mp shown with ⟨outside, shown⟩ | ⟨rfl, ⟨old, within, shown⟩, -⟩
    next => exact ⟨other, shown, if_neg outside⟩
    next => exact ⟨old, shown, if_pos within⟩

theorem Sound.get?_nodes_merged (sound : plane.Sound graph) (nodes : List PlaneNodeId) (info : BundleInfo)
    (members : List NodeId) (id : PlaneNodeId) :
    (plane.merged nodes info members).graph.nodes.get? id =
      if id = ⟨plane.nextNode⟩ then some (bundleNode info ⟨plane.nextNode⟩ (plane.externalTensors nodes).1
        (plane.externalTensors nodes).2 members)
      else if id ∈ nodes then none else plane.graph.nodes.get? id := by
  show (Plane.pushed _ _).graph.nodes.get? id = _
  rw [nodes_pushed, ← (sound.indexed.eraseAll nodes).2]
  exact Table.get?_insert_eq ..

theorem Sound.cases_merged (sound : plane.Sound graph) {info : BundleInfo} {members : List NodeId} {id : PlaneNodeId}
    {found : PlaneNode} (there : (plane.merged nodes info members).graph.nodes.get? id = some found) :
    id = ⟨plane.nextNode⟩ ∧ found = bundleNode info ⟨plane.nextNode⟩ (plane.externalTensors nodes).1
      (plane.externalTensors nodes).2 members ∨ id ∉ nodes ∧ plane.graph.nodes.get? id = some found := by
  rw [sound.get?_nodes_merged] at there
  split at there
  next new => exact Or.inl ⟨new, (Option.some.inj there).symm⟩
  next =>
    split at there
    next => cases there
    next outside => exact Or.inr ⟨outside, there⟩

theorem Sound.merges (sound : plane.Sound graph) (info : BundleInfo) {members : List NodeId}
    (mem_members : ∀ node, node ∈ members ↔
      ∃ id ∈ nodes, ∃ found, plane.graph.nodes.get? id = some found ∧ node ∈ found.members) :
    Merges plane nodes ⟨plane.nextNode⟩ (plane.merged nodes info members) := by
  have unused := sound.nextNode_unused
  have get_nodes := sound.get?_nodes_merged nodes info members
  have shows (usage : Usage) (t : TensorId) (other : PlaneNodeId) :
      (plane.merged nodes info members).Shows usage t other ↔ other ∉ nodes ∧ plane.Shows usage t other ∨
        other = ⟨plane.nextNode⟩ ∧ ∃ clone, plane.tensorOf.get? t = some clone ∧
          clone ∈ (bundleNode info ⟨plane.nextNode⟩ (plane.externalTensors nodes).1 (plane.externalTensors nodes).2
            members).exposed usage := by
    have tensorOf : (plane.merged nodes info members).tensorOf = plane.tensorOf := rfl
    unfold Shows
    rw [get_nodes, tensorOf]
    by_cases new : other = ⟨plane.nextNode⟩
    next => simp [new, unused]
    next => by_cases within : other ∈ nodes <;> simp [new, within]
  constructor
  case nodeOf =>
    intro node
    have lookup : (plane.merged nodes info members).nodeOf.get? node =
        if node ∈ members then some ⟨plane.nextNode⟩ else plane.nodeOf.get? node := get?_nodeOf_pushed ..
    -- The members are exactly the nodes that the merged plane nodes stood for.
    have inside : node ∈ members ↔ ∃ id ∈ nodes, plane.nodeOf.get? node = some id := by
      simp only [mem_members, sound.nodeOf_iff]
    rw [lookup]
    cases represented : plane.nodeOf.get? node with
    | none =>
      rw [represented] at inside
      rw [if_neg (by simp [inside]), Option.map_none]
    | some old =>
      rw [represented] at inside
      by_cases within : old ∈ nodes <;> simp [inside, within]
  case unused =>
    intro node represented
    obtain ⟨found, there, -⟩ := (sound.nodeOf_iff node _).mp represented
    rw [unused] at there
    cases there
  case output =>
    intro t other
    rw [shows]
    cases stands : plane.tensorOf.get? t with
    | none => simp [Shows, stands]
    | some clone =>
      simp only [PlaneNode.exposed, bundleNode, Option.some.injEq, exists_eq_left', sound.mem_externalOutputs stands]
  case input =>
    intro t other
    rw [shows]
    cases stands : plane.tensorOf.get? t with
    | none => simp [Shows, stands]
    | some clone =>
      simp only [PlaneNode.exposed, bundleNode, Option.some.injEq, exists_eq_left', sound.mem_externalInputs stands]

theorem Sound.indexed_merged (sound : plane.Sound graph) (nodes : List PlaneNodeId) (info : BundleInfo)
    (members : List NodeId) : (plane.merged nodes info members).graph.Indexed := by
  obtain ⟨indexed, erased⟩ := sound.indexed.eraseAll nodes
  refine indexed.addNode ?_ fun clone lists => ?_
  next =>
    rw [erased]
    split
    next => rfl
    next => exact sound.nextNode_unused
  next =>
    -- Whoever else listed the clone as an output would be one of the merged nodes.
    by_contra produced
    obtain ⟨id, produced⟩ := Option.ne_none_iff_exists'.mp produced
    obtain ⟨other, there, otherLists⟩ := (indexed.producer_iff clone id).mp produced
    rw [erased] at there
    split at there
    next => cases there
    next outside =>
      obtain ⟨t, stands⟩ := (sound.faithful there).cloned (Or.inr otherLists)
      obtain ⟨⟨old, within, shown⟩, -⟩ := (sound.mem_externalOutputs stands).mp lists
      rw [sound.showsOutput_iff stands, (sound.indexed.producer_iff clone id).mpr ⟨other, there, otherLists⟩] at shown
      exact outside (Option.some.inj shown ▸ within)

section Merged

variable (info : BundleInfo) {members : List NodeId}

theorem Sound.nodeOf_merged_iff (sound : plane.Sound graph) (mem_members : ∀ node, node ∈ members ↔
      ∃ id ∈ nodes, ∃ found, plane.graph.nodes.get? id = some found ∧ node ∈ found.members)
    (node : NodeId) (id : PlaneNodeId) : (plane.merged nodes info members).nodeOf.get? node = some id ↔
      ∃ found, (plane.merged nodes info members).graph.nodes.get? id = some found ∧ node ∈ found.members := by
  have merges := sound.merges info mem_members
  rw [merges.nodeOf, Option.map_eq_some_iff]
  constructor
  next =>
    rintro ⟨old, represented, rfl⟩
    obtain ⟨found, there, inside⟩ := (sound.nodeOf_iff node old).mp represented
    rw [sound.get?_nodes_merged]
    by_cases within : old ∈ nodes
    next =>
      rw [if_pos within, if_pos rfl]
      exact ⟨_, rfl, (mem_members node).mpr ⟨old, within, found, there, inside⟩⟩
    next =>
      have other : old ≠ ⟨plane.nextNode⟩ := fun same => merges.unused node (same ▸ represented)
      rw [if_neg within, if_neg other, if_neg within]
      exact ⟨found, there, inside⟩
  next =>
    rintro ⟨found, there, inside⟩
    rcases sound.cases_merged there with ⟨rfl, rfl⟩ | ⟨outside, old⟩
    next =>
      obtain ⟨old, within, found, there, inside⟩ := (mem_members node).mp inside
      exact ⟨old, (sound.nodeOf_iff node old).mpr ⟨found, there, inside⟩, if_pos within⟩
    next => exact ⟨id, (sound.nodeOf_iff node id).mpr ⟨found, old, inside⟩, if_neg outside⟩

theorem Sound.merged (sound : plane.Sound graph) (mem_members : ∀ node, node ∈ members ↔
      ∃ id ∈ nodes, ∃ found, plane.graph.nodes.get? id = some found ∧ node ∈ found.members) :
    (plane.merged nodes info members).Sound graph := by
  have merges := sound.merges info mem_members
  apply sound.of_shown
  case tensorOf => rfl
  case nextTensor => rfl
  case numbers => exact Nat.le_refl _
  case indexed => exact sound.indexed_merged nodes info members
  case nodeOf_iff => exact sound.nodeOf_merged_iff info mem_members
  case nodeBelow =>
    intro id found there
    rcases sound.cases_merged there with ⟨rfl, -⟩ | ⟨-, old⟩
    next => exact Nat.lt_succ_self _
    next => exact Nat.lt_succ_of_lt (sound.nodeBelow old)
  case single =>
    intro id found there unbundled
    rcases sound.cases_merged there with ⟨-, rfl⟩ | ⟨-, old⟩
    next => cases unbundled
    next => exact (sound.faithful old).single unbundled
  case listed =>
    intro id found clone there lists
    rcases sound.cases_merged there with ⟨-, rfl⟩ | ⟨-, old⟩
    next => exact listed_of_external lists
    next => exact ⟨id, found, old, lists⟩
  case produced =>
    intro t id shown
    obtain ⟨old, shown, moves⟩ := merges.shown_before shown
    obtain ⟨tensor, producer, present, produced, represented⟩ := sound.producer_of_shown shown
    exact ⟨tensor, producer, present, produced, by rw [merges.nodeOf, represented, Option.map_some, moves]⟩
  case consumed =>
    intro t id tensor shown present
    obtain ⟨old, shown, moves⟩ := merges.shown_before shown
    obtain ⟨consumer, consumes, represented⟩ := sound.consumer_of_shown shown present
    exact ⟨consumer, consumes, by rw [merges.nodeOf, represented, Option.map_some, moves]⟩

end Merged

section Merges

variable {id : PlaneNodeId} {after : Plane}

theorem Merges.crossed (merges : Merges plane nodes id after) {t : TensorId} {source target : PlaneNodeId}
    (crosses : after.Crosses graph t source target) : ∃ oldSource oldTarget, plane.Crosses graph t oldSource oldTarget ∧
      (if oldSource ∈ nodes then id else oldSource) = source ∧ (if oldTarget ∈ nodes then id else oldTarget) = target ∧
      ¬ (oldSource ∈ nodes ∧ oldTarget ∈ nodes) := by
  obtain ⟨differ, producer, consumer, carries, left, right⟩ := crosses
  rw [merges.nodeOf, Option.map_eq_some_iff] at left right
  obtain ⟨oldSource, left, rfl⟩ := left
  obtain ⟨oldTarget, right, rfl⟩ := right
  refine ⟨oldSource, oldTarget, ⟨?_, producer, consumer, carries, left, right⟩, rfl, rfl, ?_⟩
  next => rintro rfl; exact differ rfl
  next => rintro ⟨first, second⟩; exact differ (by rw [if_pos first, if_pos second])

theorem Merges.crosses (merges : Merges plane nodes id after) {t : TensorId} {source target : PlaneNodeId}
    (crosses : plane.Crosses graph t source target) (apart : ¬ (source ∈ nodes ∧ target ∈ nodes)) :
    after.Crosses graph t (if source ∈ nodes then id else source) (if target ∈ nodes then id else target) := by
  obtain ⟨differ, producer, consumer, carries, left, right⟩ := crosses
  refine ⟨?_, producer, consumer, carries, by rw [merges.nodeOf, left]; rfl, by rw [merges.nodeOf, right]; rfl⟩
  by_cases first : source ∈ nodes <;> by_cases second : target ∈ nodes
  · exact absurd ⟨first, second⟩ apart
  · rw [if_pos first, if_neg second]; exact fun same => merges.unused consumer (same ▸ right)
  · rw [if_neg first, if_pos second]; exact fun same => merges.unused producer (same ▸ left)
  · rwa [if_neg first, if_neg second]

theorem Merges.exposes (merges : Merges plane nodes id after) (sound : plane.Sound graph)
    (exposes : plane.Exposes graph nodes) : after.Exposes graph [] := by
  intro t source target crosses _
  obtain ⟨oldSource, oldTarget, crossed, rfl, rfl, apart⟩ := merges.crossed crosses
  obtain ⟨output, input⟩ := exposes crossed apart
  obtain ⟨-, producer, consumer, carries, represented, -⟩ := crossed
  constructor
  next =>
    rw [merges.output]
    by_cases within : oldSource ∈ nodes
    next =>
      rw [if_pos within]
      have outside : oldTarget ∉ nodes := fun inside => apart ⟨within, inside⟩
      exact Or.inr ⟨rfl, ⟨oldSource, within, output⟩, Or.inr ⟨oldTarget, outside, input⟩⟩
    next => rw [if_neg within]; exact Or.inl ⟨within, output⟩
  next =>
    rw [merges.input]
    by_cases within : oldTarget ∈ nodes
    next =>
      rw [if_pos within]
      refine Or.inr ⟨rfl, ⟨oldTarget, within, input⟩, fun old inside shown => ?_⟩
      cases sound.source_of_shown carries represented shown
      exact apart ⟨inside, within⟩
    next => rw [if_neg within]; exact Or.inl ⟨within, input⟩

theorem Merges.shown_of_exposes (merges : Merges plane nodes id after) (sound : plane.Sound graph)
    (exposes : after.Exposes graph []) {t : TensorId} {source target : PlaneNodeId}
    (crosses : plane.Crosses graph t source target) (apart : ¬ (source ∈ nodes ∧ target ∈ nodes)) :
    plane.Shows .output t source ∧ (target ∉ nodes → plane.Shows .input t target) := by
  obtain ⟨output, input⟩ := exposes (merges.crosses crosses apart) (by simp)
  obtain ⟨-, producer, consumer, carries, left, right⟩ := crosses
  constructor
  next =>
    obtain ⟨old, shown, -⟩ := merges.shown_before output
    exact sound.source_of_shown carries left shown ▸ shown
  next =>
    intro outside
    rw [if_neg outside] at input
    rcases (merges.input _ _).mp input with ⟨-, shown⟩ | ⟨rfl, -⟩
    next => exact shown
    next => exact absurd right (merges.unused consumer)

end Merges

theorem Sound.fuse (sound : plane.Sound graph) {info : BundleInfo} {id : PlaneNodeId} {after : Plane}
    (fused : fuse nodes info plane = .ok id after) : after.Sound graph ∧ after.frozen = plane.frozen ∧
      ∃ id, Merges plane nodes id after := by
  obtain ⟨members, mapped, rfl⟩ := fuse_eq_ok fused
  have mem_members := members_of_mapM mapped
  have merges := sound.merges info mem_members
  refine ⟨sound.merged info mem_members, rfl, ⟨plane.nextNode⟩, ?_⟩
  constructor
  case nodeOf => simpa only [List.mem_eraseDups] using merges.nodeOf
  case unused => exact merges.unused
  case output => simpa only [List.mem_eraseDups] using merges.output
  case input => simpa only [List.mem_eraseDups] using merges.input

end Plane

end Dataflow
