import Dataflow.Proofs.Plane.Registry

set_option autoImplicit false

namespace Dataflow

structure Seat where
  id : PlaneNodeId
  members : List NodeId
  bundle : Option BundleInfo

def PlaneNode.seat (node : PlaneNode) : Seat := ⟨node.id, node.members, node.bundle⟩

namespace PlaneGraph

def seat? (graph : PlaneGraph) (id : PlaneNodeId) : Option Seat := (graph.nodes.get? id).map PlaneNode.seat

variable {graph after : PlaneGraph} {id : PlaneNodeId}

theorem seat?_eq_some {seat : Seat} :
    graph.seat? id = some seat ↔ ∃ found, graph.nodes.get? id = some found ∧ found.seat = seat :=
  Option.map_eq_some_iff

theorem seat?_of_found {found : PlaneNode} (there : graph.nodes.get? id = some found) :
    graph.seat? id = some found.seat := by
  rw [seat?, there]
  rfl

theorem seat?_of_changes (change : PlaneNodeId → PlaneNode → PlaneNode)
    (nodes : ∀ id, after.nodes.get? id = (graph.nodes.get? id).map (change id))
    (same : ∀ id node, (change id node).seat = node.seat) : after.seat? = graph.seat? := by
  funext id
  rw [seat?, nodes, Option.map_map, seat?]
  exact congrArg (Option.map · _) (funext (same id))

theorem seat?_foldl {α : Type} {step : PlaneGraph → α → PlaneGraph}
    (same : ∀ graph item, (step graph item).seat? = graph.seat?) (items : List α) (graph : PlaneGraph) :
    (items.foldl step graph).seat? = graph.seat? := by
  induction items generalizing graph with
  | nil => rfl
  | cons item rest ih => rw [List.foldl_cons, ih, same]

section

variable (graph) (id) (clone : PlaneTensorId)

theorem seat?_addInput : (graph.addInput id clone).seat? = graph.seat? := by
  refine seat?_of_changes _ (get?_nodes_addInput clone id) fun other node => ?_
  split
  next =>
    obtain ⟨own, -, members, bundle⟩ := node.withInput_frame clone
    rw [PlaneNode.seat, own, members, bundle]
    rfl
  next => rfl

theorem seat?_addOutput : (graph.addOutput id clone).seat? = graph.seat? := by
  refine seat?_of_changes _ (get?_nodes_addOutput clone id) fun other node => ?_
  split
  next =>
    obtain ⟨own, -, members, bundle⟩ := node.withOutput_frame clone
    rw [PlaneNode.seat, own, members, bundle]
    rfl
  next => rfl

theorem seat?_removeInput : (graph.removeInput id clone).seat? = graph.seat? := by
  refine seat?_of_changes _ (get?_nodes_removeInput clone id) fun other node => ?_
  split <;> rfl

theorem seat?_removeOutput : (graph.removeOutput id clone).seat? = graph.seat? := by
  refine seat?_of_changes _ (get?_nodes_removeOutput clone id) fun other node => ?_
  split <;> rfl

end

theorem seat?_addNode (node : PlaneNode) (other : PlaneNodeId) :
    (graph.addNode node).seat? other = if other = node.id then some node.seat else graph.seat? other := by
  rw [seat?, nodes_addNode, Table.get?_insert_eq]
  split <;> rfl

theorem seat?_removeNode (node : PlaneNode) (other : PlaneNodeId) :
    (graph.removeNode node).seat? other = if other = node.id then none else graph.seat? other := by
  rw [seat?, nodes_removeNode, Table.get?_erase_eq]
  split <;> rfl

theorem seat?_modifyNode {change : PlaneNode → PlaneNode} (alter : Seat → Seat)
    (alters : ∀ node, (change node).seat = alter node.seat) (other : PlaneNodeId) :
    (graph.modifyNode id change).seat? other =
      if other = id then (graph.seat? other).map alter else graph.seat? other := by
  rw [seat?, get?_nodes_modifyNode, seat?]
  cases graph.nodes.get? other with
  | none => simp
  | some node => by_cases own : other = id <;> simp [own, alters]

theorem seat?_erase (keyed : ∀ {id seat}, graph.seat? id = some seat → seat.id = id) (id other : PlaneNodeId) :
    (graph.erase id).seat? other = if other = id then none else graph.seat? other := by
  unfold erase
  cases there : graph.nodes.get? id with
  | none =>
    by_cases own : other = id
    next => simp [own, seat?, there]
    next => simp [own]
  | some node =>
    have own : node.id = id := keyed (seat?_of_found there)
    simp only [seat?_removeNode, own]

theorem seat?_eraseAll (keyed : ∀ {id seat}, graph.seat? id = some seat → seat.id = id) (ids : List PlaneNodeId)
    (other : PlaneNodeId) :
    (ids.foldl PlaneGraph.erase graph).seat? other = if other ∈ ids then none else graph.seat? other := by
  induction ids generalizing graph with
  | nil => simp
  | cons id rest ih =>
    have erased := seat?_erase keyed id
    rw [List.foldl_cons, ih, erased]
    next => by_cases own : other = id <;> simp [own]
    next =>
      intro id' seat there
      rw [erased] at there
      split at there
      next => cases there
      next => exact keyed there

end PlaneGraph

namespace Plane

variable {plane after : Plane}

structure Seated (plane : Plane) : Prop where
  key : ∀ {id seat}, plane.graph.seat? id = some seat → seat.id = id
  below : ∀ {id seat}, plane.graph.seat? id = some seat → id.val < plane.nextNode
  nodeOf_iff : ∀ node id, plane.nodeOf.get? node = some id ↔
    ∃ seat, plane.graph.seat? id = some seat ∧ node ∈ seat.members
  distinct : ∀ {id seat}, plane.graph.seat? id = some seat → seat.members.Nodup
  single : ∀ {id seat}, plane.graph.seat? id = some seat → seat.bundle = none → seat.members.length = 1

namespace Seated

theorem empty (accepts : Node → Bool) : Seated { accepts } where
  key there := by cases there
  below there := by cases there
  nodeOf_iff node id := iff_of_false (by rintro ⟨⟩) (by rintro ⟨seat, ⟨⟩, -⟩)
  distinct there := by cases there
  single there := by cases there

theorem id_eq (seated : plane.Seated) {id : PlaneNodeId} {found : PlaneNode}
    (there : plane.graph.nodes.get? id = some found) : found.id = id :=
  seated.key (PlaneGraph.seat?_of_found there)

theorem mem_iff (seated : plane.Seated) {id : PlaneNodeId} {seat : Seat} (there : plane.graph.seat? id = some seat)
    (node : NodeId) : node ∈ seat.members ↔ plane.nodeOf.get? node = some id := by
  rw [seated.nodeOf_iff, there]
  simp

theorem nextNode_unused (seated : plane.Seated) : plane.graph.seat? ⟨plane.nextNode⟩ = none := by
  cases there : plane.graph.seat? ⟨plane.nextNode⟩ with
  | none => rfl
  | some seat => exact absurd (seated.below there) (Nat.lt_irrefl _)

theorem members_of_alone (seated : plane.Seated) {id : PlaneNodeId} {seat : Seat} {node : NodeId}
    (there : plane.graph.seat? id = some seat) (alone : seat.members.length = 1)
    (stands : plane.nodeOf.get? node = some id) : seat.members = [node] := by
  obtain ⟨member, members⟩ := List.length_eq_one_iff.mp alone
  have inside := (seated.mem_iff there node).mpr stands
  rw [members, List.mem_singleton] at inside
  rw [members, inside]

theorem of_same (seated : plane.Seated) (seats : after.graph.seat? = plane.graph.seat?)
    (nodeOf : after.nodeOf = plane.nodeOf) (nextNode : after.nextNode = plane.nextNode) : after.Seated where
  key := seats ▸ seated.key
  below := by rw [seats, nextNode]; exact seated.below
  nodeOf_iff := by rw [seats, nodeOf]; exact seated.nodeOf_iff
  distinct := seats ▸ seated.distinct
  single := seats ▸ seated.single

section Entered

variable {gone : List PlaneNodeId} {seat : Seat}
  (seats : ∀ id, after.graph.seat? id =
    if id = ⟨plane.nextNode⟩ then some seat else if id ∈ gone then none else plane.graph.seat? id)

include seats

theorem cases_entered {id : PlaneNodeId} {found : Seat} (there : after.graph.seat? id = some found) :
    id = ⟨plane.nextNode⟩ ∧ found = seat ∨ id ∉ gone ∧ plane.graph.seat? id = some found := by
  rw [seats] at there
  split at there
  next new => exact Or.inl ⟨new, (Option.some.inj there).symm⟩
  next =>
    split at there
    next => cases there
    next outside => exact Or.inr ⟨outside, there⟩

theorem nodeOf_entered_iff (seated : plane.Seated)
    (nodeOf : ∀ node, after.nodeOf.get? node =
      if node ∈ seat.members then some ⟨plane.nextNode⟩ else plane.nodeOf.get? node)
    (moved : ∀ node id, plane.nodeOf.get? node = some id → (node ∈ seat.members ↔ id ∈ gone))
    (node : NodeId) (id : PlaneNodeId) : after.nodeOf.get? node = some id ↔
      ∃ seat, after.graph.seat? id = some seat ∧ node ∈ seat.members := by
  rw [nodeOf]
  by_cases inside : node ∈ seat.members
  next =>
    rw [if_pos inside]
    constructor
    next => rintro ⟨⟩; exact ⟨seat, by rw [seats, if_pos rfl], inside⟩
    next =>
      rintro ⟨found, there, listed⟩
      rcases cases_entered seats there with ⟨rfl, -⟩ | ⟨outside, old⟩
      next => rfl
      next =>
        have stood := (seated.mem_iff old node).mp listed
        exact absurd ((moved node id stood).mp inside) outside
  next =>
    rw [if_neg inside, seated.nodeOf_iff]
    constructor
    next =>
      rintro ⟨found, there, listed⟩
      have stood := (seated.mem_iff there node).mp listed
      have other : id ≠ ⟨plane.nextNode⟩ := by rintro rfl; rw [seated.nextNode_unused] at there; cases there
      have outside : id ∉ gone := fun within => inside ((moved node id stood).mpr within)
      exact ⟨found, by rw [seats, if_neg other, if_neg outside, there], listed⟩
    next =>
      rintro ⟨found, there, listed⟩
      rcases cases_entered seats there with ⟨-, rfl⟩ | ⟨-, old⟩
      next => exact absurd listed inside
      next => exact ⟨found, old, listed⟩

end Entered

theorem entered (seated : plane.Seated) (gone : List PlaneNodeId) (seat : Seat) (own : seat.id = ⟨plane.nextNode⟩)
    (seats : ∀ id, after.graph.seat? id =
      if id = ⟨plane.nextNode⟩ then some seat else if id ∈ gone then none else plane.graph.seat? id)
    (nodeOf : ∀ node, after.nodeOf.get? node =
      if node ∈ seat.members then some ⟨plane.nextNode⟩ else plane.nodeOf.get? node)
    (nextNode : after.nextNode = plane.nextNode + 1) (distinct : seat.members.Nodup)
    (single : seat.bundle = none → seat.members.length = 1)
    (moved : ∀ node id, plane.nodeOf.get? node = some id → (node ∈ seat.members ↔ id ∈ gone)) : after.Seated where
  key := by
    intro id found there
    rcases cases_entered seats there with ⟨rfl, rfl⟩ | ⟨-, old⟩
    next => exact own
    next => exact seated.key old
  below := by
    intro id found there
    rw [nextNode]
    rcases cases_entered seats there with ⟨rfl, -⟩ | ⟨-, old⟩
    next => exact Nat.lt_succ_self _
    next => exact Nat.lt_succ_of_lt (seated.below old)
  nodeOf_iff := nodeOf_entered_iff seats seated nodeOf moved
  distinct := by
    intro id found there
    rcases cases_entered seats there with ⟨-, rfl⟩ | ⟨-, old⟩
    next => exact distinct
    next => exact seated.distinct old
  single := by
    intro id found there
    rcases cases_entered seats there with ⟨-, rfl⟩ | ⟨-, old⟩
    next => exact single
    next => exact seated.single old

theorem dropped (seated : plane.Seated) {id : PlaneNodeId} {seat : Seat} (there : plane.graph.seat? id = some seat)
    (seats : ∀ other, after.graph.seat? other = if other = id then none else plane.graph.seat? other)
    (nodeOf : ∀ node, after.nodeOf.get? node = if node ∈ seat.members then none else plane.nodeOf.get? node)
    (nextNode : after.nextNode = plane.nextNode) : after.Seated := by
  have kept {other : PlaneNodeId} {found : Seat} :
      after.graph.seat? other = some found ↔ other ≠ id ∧ plane.graph.seat? other = some found := by
    rw [seats]
    by_cases own : other = id <;> simp [own]
  constructor
  case key => exact fun left => seated.key (kept.mp left).2
  case below => exact fun left => nextNode ▸ seated.below (kept.mp left).2
  case nodeOf_iff =>
    intro node other
    simp only [nodeOf, kept, seated.mem_iff there]
    by_cases inside : plane.nodeOf.get? node = some id
    next =>
      rw [if_pos inside]
      refine iff_of_false (by rintro ⟨⟩) ?_
      rintro ⟨found, ⟨differs, left⟩, listed⟩
      have stands := (seated.mem_iff left node).mp listed
      exact differs (Option.some.inj (stands.symm.trans inside))
    next =>
      rw [if_neg inside, seated.nodeOf_iff]
      constructor
      next =>
        rintro ⟨found, left, listed⟩
        refine ⟨found, ⟨?_, left⟩, listed⟩
        rintro rfl
        exact inside ((seated.mem_iff left node).mp listed)
      next => rintro ⟨found, ⟨-, left⟩, listed⟩; exact ⟨found, left, listed⟩
  case distinct => exact fun left => seated.distinct (kept.mp left).2
  case single => exact fun left => seated.single (kept.mp left).2

theorem changed (seated : plane.Seated) {id : PlaneNodeId} {seat : Seat} (there : plane.graph.seat? id = some seat)
    (new : Seat)
    (seats : ∀ other, after.graph.seat? other = if other = id then some new else plane.graph.seat? other)
    (nodeOf : ∀ node other, after.nodeOf.get? node = some other ↔
      if other = id then node ∈ new.members else plane.nodeOf.get? node = some other)
    (nextNode : after.nextNode = plane.nextNode) (own : new.id = seat.id) (distinct : new.members.Nodup)
    (single : new.bundle = none → new.members.length = 1) : after.Seated := by
  have cases {other : PlaneNodeId} {found : Seat} (left : after.graph.seat? other = some found) :
      other = id ∧ found = new ∨ other ≠ id ∧ plane.graph.seat? other = some found := by
    rw [seats] at left
    split at left
    next same => exact Or.inl ⟨same, (Option.some.inj left).symm⟩
    next other => exact Or.inr ⟨other, left⟩
  constructor
  case key =>
    intro other found left
    rcases cases left with ⟨rfl, rfl⟩ | ⟨-, old⟩
    next => exact own.trans (seated.key there)
    next => exact seated.key old
  case below =>
    intro other found left
    rw [nextNode]
    rcases cases left with ⟨rfl, -⟩ | ⟨-, old⟩
    next => exact seated.below there
    next => exact seated.below old
  case nodeOf_iff =>
    intro node other
    rw [nodeOf, seats]
    by_cases same : other = id
    next => simp [same]
    next => simp only [same, if_false, seated.nodeOf_iff]
  case distinct =>
    intro other found left
    rcases cases left with ⟨-, rfl⟩ | ⟨-, old⟩
    next => exact distinct
    next => exact seated.distinct old
  case single =>
    intro other found left
    rcases cases left with ⟨-, rfl⟩ | ⟨-, old⟩
    next => exact single
    next => exact seated.single old

theorem nodup_members (seated : plane.Seated) {nodes : List PlaneNodeId} {members : List (List NodeId)}
    (nodup : nodes.Nodup) (mapped : nodes.mapM plane.membersOf = .ok members) : members.flatten.Nodup := by
  induction nodes generalizing members with
  | nil => cases mapped; exact List.nodup_nil
  | cons id rest ih =>
    obtain ⟨apart, nodup⟩ := List.nodup_cons.mp nodup
    obtain ⟨found, others, there, mapped', rfl⟩ := mapM_membersOf_cons mapped
    rw [List.flatten_cons, List.nodup_append']
    refine ⟨seated.distinct (PlaneGraph.seat?_of_found there), ih nodup mapped', fun node inside within => apart ?_⟩
    obtain ⟨other, member, otherFound, otherThere, otherInside⟩ := (members_of_mapM mapped' node).mp within
    have stands := (seated.mem_iff (PlaneGraph.seat?_of_found there) node).mp inside
    have otherStands := (seated.mem_iff (PlaneGraph.seat?_of_found otherThere) node).mp otherInside
    cases stands.symm.trans otherStands
    exact member

end Seated

def marked (plane : Plane) (id : PlaneNodeId) (info : BundleInfo) : Plane :=
  { plane with
    graph := plane.graph.modifyNode id fun found => { found with bundle := some info, name := bundleName info }
    bundleOf := plane.bundleOf.insert info.bundleIndex id }

def disbanded (plane : Plane) (id : PlaneNodeId) (info : BundleInfo) : Plane :=
  { plane with
    graph := plane.graph.modifyNode id fun node => { node with bundle := none }
    bundleOf := plane.bundleOf.erase info.bundleIndex }

def dismissed (plane : Plane) (found : PlaneNode) : Plane :=
  { plane.without found with bundleOf := found.bundleIndex?.elim plane.bundleOf plane.bundleOf.erase }

-- A strict move does not enter a plane node under an index that another one keeps.
inductive Move (strict : Prop) (plane : Plane) : Plane → Prop
  | stay {after : Plane} (seats : after.graph.seat? = plane.graph.seat?) (nodeOf : after.nodeOf = plane.nodeOf)
      (bundleOf : after.bundleOf = plane.bundleOf) (nextNode : after.nextNode = plane.nextNode) :
      Move strict plane after
  | arrive {node : PlaneNode} {member : NodeId} (own : node.id = ⟨plane.nextNode⟩) (members : node.members = [member])
      (plain : node.bundle = none) (absent : plane.nodeOf.get? member = none) : Move strict plane (plane.pushed node)
  | merge {nodes : List PlaneNodeId} {members : List (List NodeId)} {info : BundleInfo} (nodup : nodes.Nodup)
      (mapped : nodes.mapM plane.membersOf = .ok members)
      (joining : ∀ id ∈ nodes, ∀ seat, plane.graph.seat? id = some seat →
        seat.bundle = none ∨ plane.bundleOf.get? info.bundleIndex = some id)
      (free : strict → ∀ id, plane.bundleOf.get? info.bundleIndex = some id → id ∈ nodes) :
      Move strict plane (plane.merged nodes info members.flatten)
  | mark {id : PlaneNodeId} {seat : Seat} {info : BundleInfo} (there : plane.graph.seat? id = some seat)
      (plain : seat.bundle = none) (free : strict → plane.bundleOf.get? info.bundleIndex = none) :
      Move strict plane (plane.marked id info)
  | disband {id : PlaneNodeId} {seat : Seat} {info : BundleInfo} (there : plane.graph.seat? id = some seat)
      (bundle : seat.bundle = some info) (alone : seat.members.length = 1) : Move strict plane (plane.disbanded id info)
  | dismiss {found : PlaneNode} (there : plane.graph.nodes.get? found.id = some found) :
      Move strict plane (plane.dismissed found)
  | leave {after : Plane} {id : PlaneNodeId} {seat : Seat} {node : NodeId} (there : plane.graph.seat? id = some seat)
      (bundled : seat.bundle ≠ none) (inside : node ∈ seat.members)
      (seats : ∀ other, after.graph.seat? other =
        if other = id then some { seat with members := seat.members.filter (· ≠ node) } else plane.graph.seat? other)
      (nodeOf : after.nodeOf = plane.nodeOf.erase node) (bundleOf : after.bundleOf = plane.bundleOf)
      (nextNode : after.nextNode = plane.nextNode) : Move strict plane after
  | rename {old new : NodeId} {id : PlaneNodeId} (stands : plane.nodeOf.get? old = some id)
      (absent : plane.nodeOf.get? new = none) : Move strict plane (plane.replaced old new id)

section Seats

variable (plane)

theorem seat?_pushed (node : PlaneNode) (id : PlaneNodeId) :
    (plane.pushed node).graph.seat? id = if id = node.id then some node.seat else plane.graph.seat? id :=
  PlaneGraph.seat?_addNode node id

theorem seat?_marked (id : PlaneNodeId) (info : BundleInfo) (other : PlaneNodeId) :
    (plane.marked id info).graph.seat? other =
      if other = id then (plane.graph.seat? other).map fun seat => { seat with bundle := some info }
      else plane.graph.seat? other :=
  PlaneGraph.seat?_modifyNode _ (fun _ => rfl) other

theorem seat?_disbanded (id : PlaneNodeId) (info : BundleInfo) (other : PlaneNodeId) :
    (plane.disbanded id info).graph.seat? other =
      if other = id then (plane.graph.seat? other).map fun seat => { seat with bundle := none }
      else plane.graph.seat? other :=
  PlaneGraph.seat?_modifyNode _ (fun _ => rfl) other

theorem seat?_dismissed (found : PlaneNode) (other : PlaneNodeId) : (plane.dismissed found).graph.seat? other =
    if other = found.id then none else plane.graph.seat? other :=
  PlaneGraph.seat?_removeNode found other

theorem seat?_replaced (old new : NodeId) (id other : PlaneNodeId) : (plane.replaced old new id).graph.seat? other =
    if other = id then
      (plane.graph.seat? other).map fun seat => { seat with members := seat.members.map (renamed old new) }
    else plane.graph.seat? other :=
  PlaneGraph.seat?_modifyNode _ (fun _ => rfl) other

variable {plane}

theorem Seated.seat?_merged (seated : plane.Seated) (nodes : List PlaneNodeId) (info : BundleInfo)
    (members : List NodeId) (id : PlaneNodeId) : (plane.merged nodes info members).graph.seat? id =
      if id = ⟨plane.nextNode⟩ then some ⟨⟨plane.nextNode⟩, members, some info⟩
      else if id ∈ nodes then none else plane.graph.seat? id := by
  rw [← PlaneGraph.seat?_eraseAll seated.key nodes]
  exact PlaneGraph.seat?_addNode _ id

end Seats

namespace Seated

theorem merged (seated : plane.Seated) {nodes : List PlaneNodeId} {members : List (List NodeId)} (nodup : nodes.Nodup)
    (mapped : nodes.mapM plane.membersOf = .ok members) (info : BundleInfo) :
    (plane.merged nodes info members.flatten).Seated := by
  refine seated.entered nodes ⟨⟨plane.nextNode⟩, members.flatten, some info⟩ rfl
    (seated.seat?_merged nodes info members.flatten) (fun node => get?_nodeOf_pushed ..) rfl
    (seated.nodup_members nodup mapped) (by rintro ⟨⟩) fun node id stands => ?_
  rw [members_of_mapM mapped]
  constructor
  next =>
    rintro ⟨other, member, found, there, inside⟩
    cases stands.symm.trans ((seated.mem_iff (PlaneGraph.seat?_of_found there) node).mp inside)
    exact member
  next =>
    intro member
    obtain ⟨seat, there, inside⟩ := (seated.nodeOf_iff node id).mp stands
    obtain ⟨found, present, rfl⟩ := PlaneGraph.seat?_eq_some.mp there
    exact ⟨id, member, found, present, inside⟩

theorem replaced (seated : plane.Seated) {old new : NodeId} {id : PlaneNodeId}
    (stands : plane.nodeOf.get? old = some id) (absent : plane.nodeOf.get? new = none) :
    (plane.replaced old new id).Seated := by
  obtain ⟨seat, there, inside⟩ := (seated.nodeOf_iff old id).mp stands
  have fresh : new ∉ seat.members := fun listed => by
    rw [(seated.mem_iff there new).mp listed] at absent
    cases absent
  have listed_iff {node : NodeId} : node ∈ seat.members.map (renamed old new) ↔
      node = new ∨ node ≠ old ∧ node ∈ seat.members := by
    simp only [List.mem_map, renamed]
    grind
  refine seated.changed there { seat with members := seat.members.map (renamed old new) } (fun other => ?_)
    (fun node other => ?_) rfl rfl ?_ fun plain => ?_
  next =>
    rw [seat?_replaced]
    split
    next same => rw [same, there]; rfl
    next => rfl
  next =>
    rw [get?_nodeOf_replaced]
    have own := seated.mem_iff there node
    by_cases same : other = id
    next =>
      rw [if_pos same, same, listed_iff, own]
      grind
    next =>
      rw [if_neg same]
      grind
  next =>
    refine List.Nodup.map_on (fun a first b second equal => ?_) (seated.distinct there)
    unfold renamed at equal
    grind
  next => rw [List.length_map]; exact seated.single there plain

theorem rebundled (seated : plane.Seated) {id : PlaneNodeId} {seat : Seat} {bundle : Option BundleInfo}
    (there : plane.graph.seat? id = some seat)
    (seats : ∀ other, after.graph.seat? other =
      if other = id then (plane.graph.seat? other).map fun seat => { seat with bundle } else plane.graph.seat? other)
    (nodeOf : after.nodeOf = plane.nodeOf) (nextNode : after.nextNode = plane.nextNode)
    (single : bundle = none → seat.members.length = 1) : after.Seated := by
  have distinct := seated.distinct there
  refine seated.changed there { seat with bundle } (fun other => ?_) (fun node other => ?_) nextNode rfl distinct single
  next =>
    rw [seats]
    split
    next same => rw [same, there]; rfl
    next => rfl
  next =>
    rw [nodeOf]
    split
    next same => rw [same]; exact (seated.mem_iff there node).symm
    next => exact Iff.rfl

theorem move {strict : Prop} (seated : plane.Seated) (move : Move strict plane after) : after.Seated := by
  cases move with
  | stay seats nodeOf _ nextNode => exact seated.of_same seats nodeOf nextNode
  | @arrive node member own members plain absent =>
    have listed : node.seat.members = [member] := members
    refine seated.entered [] node.seat own (fun id => ?_) (fun other => get?_nodeOf_pushed node other) rfl ?_ ?_ ?_
    next => rw [seat?_pushed, own]; simp
    next => rw [listed]; exact List.nodup_singleton member
    next => exact fun _ => by rw [listed]; rfl
    next =>
      intro other id stands
      have differs : other ≠ member := by rintro rfl; rw [absent] at stands; cases stands
      simp [listed, differs]
  | merge nodup mapped _ _ => exact seated.merged nodup mapped _
  | @mark id seat info there plain _ =>
    exact seated.rebundled there (seat?_marked plane id info) rfl rfl (by rintro ⟨⟩)
  | @disband id seat info there bundle alone =>
    exact seated.rebundled there (seat?_disbanded plane id info) rfl rfl fun _ => alone
  | @dismiss found there =>
    exact seated.dropped (PlaneGraph.seat?_of_found there) (seat?_dismissed plane found)
      (fun node => get?_foldl_erase found.members plane.nodeOf node) rfl
  | @leave after id seat node there bundled inside seats nodeOf _ nextNode =>
    refine seated.changed there _ seats (fun other id' => ?_) nextNode rfl ((seated.distinct there).filter _)
      fun plain => absurd plain bundled
    -- The node was mapped to this bundle, so no other loses it.
    rw [nodeOf, Table.get?_erase_eq]
    have stands := (seated.mem_iff there node).mp inside
    have own := seated.mem_iff there other
    simp only [List.mem_filter, decide_eq_true_iff]
    grind
  | rename stands absent => exact seated.replaced stands absent

end Seated

end Plane

end Dataflow
