import Dataflow.Proofs.Plane.Quotient
import Dataflow.Proofs.Plane.Seating

set_option autoImplicit false

namespace Dataflow

open Relation

namespace Plane

variable {graph : Graph} {start plane after : Plane} {strict : Prop}

theorem plain_of_unbundled {node : NodeId} {id : PlaneNodeId} (unbundled : plane.unbundled node = .ok id) :
    ∃ found, plane.graph.nodes.get? id = some found ∧ found.bundle = none := by
  have stands := unbundled_eq_ok unbundled
  unfold Plane.unbundled at unbundled
  obtain ⟨found, asked, unbundled⟩ := bind_eq_ok.mp unbundled
  obtain ⟨same, stands', there⟩ := planeNode_eq_ok.mp asked
  cases stands.symm.trans stands'
  split at unbundled
  next => cases unbundled
  next plain => exact ⟨found, there, by simpa [PlaneNode.isBundle] using plain⟩

theorem seat?_withoutMember (graph : Graph) (plane : Plane) (bundle : PlaneNode) (node : Node)
    (newProducer : Option PlaneNodeId) (id : PlaneNodeId) :
    (plane.withoutMember graph bundle node newProducer).seat? id =
      if id = bundle.id then
        (plane.graph.seat? id).map fun seat => { seat with members := seat.members.filter (· ≠ node.id) }
      else plane.graph.seat? id := by
  refine (PlaneGraph.seat?_modifyNode (fun seat => { seat with members := seat.members.filter (· ≠ node.id) })
    (fun _ => rfl) id).trans ?_
  -- Dropping what the member read and wrote unseats nobody.
  rw [PlaneGraph.seat?_foldl, PlaneGraph.seat?_foldl]
  next =>
    intro current t
    split
    next => rfl
    next =>
      split
      next => rfl
      next => exact PlaneGraph.seat?_removeInput ..
  next =>
    intro current t
    dsimp only
    split
    next => rfl
    next =>
      split
      next =>
        cases newProducer with
        | none => exact PlaneGraph.seat?_removeOutput ..
        | some producer => exact (PlaneGraph.seat?_addOutput ..).trans (PlaneGraph.seat?_removeOutput ..)
      next => rfl

def restoreMember (graph : Graph) (member : NodeId) : PlaneM PUnit :=
  match graph.get member with
  | .error error => throw error
  | .ok record => discard <| addSingle graph record

section Dismantling

variable {node : NodeId} {found : PlaneNode} {info : BundleInfo} (asked : plane.planeNode node = .ok found)
include asked

theorem removeBundle_of_plain (plain : found.bundle = none) :
    removeBundle graph node plane = .error (.notBundled node) plane := by
  unfold removeBundle
  rw [stateful_bind_of_ok _ (query_eq_ok.mpr ⟨asked, rfl⟩), plain]
  rfl

theorem unbundle_of_plain (plain : found.bundle = none) : unbundle graph node plane = .ok () plane := by
  unfold unbundle
  rw [stateful_bind_of_ok _ (query_eq_ok.mpr ⟨asked, rfl⟩), plain]
  rfl

variable (bundle : found.bundle = some info)
include bundle

theorem removeBundle_of_alone (alone : found.members.length = 1) :
    removeBundle graph node plane = .ok () (plane.disbanded found.id info) := by
  unfold removeBundle
  rw [stateful_bind_of_ok _ (query_eq_ok.mpr ⟨asked, rfl⟩), bundle]
  simp only [if_pos alone]
  rfl

theorem removeBundle_of_several (several : found.members.length ≠ 1) :
    removeBundle graph node plane = found.members.forM (restoreMember graph) (plane.dismissed found) := by
  unfold removeBundle
  rw [stateful_bind_of_ok _ (query_eq_ok.mpr ⟨asked, rfl⟩), dismissed, PlaneNode.bundleIndex?, bundle]
  simp only [if_neg several]
  rfl

theorem unbundle_of_alone (alone : found.members.length = 1) :
    unbundle graph node plane = .ok () (plane.disbanded found.id info) := by
  unfold unbundle
  rw [stateful_bind_of_ok _ (query_eq_ok.mpr ⟨asked, rfl⟩), bundle]
  simp only [if_pos alone]
  rfl

theorem unbundle_of_several (several : found.members.length ≠ 1) : unbundle graph node plane =
    (removeBundle graph node >>= fun _ => discard <| createBundle (found.members.filter (· ≠ node)) info) plane := by
  unfold unbundle
  rw [stateful_bind_of_ok _ (query_eq_ok.mpr ⟨asked, rfl⟩), bundle]
  simp only [if_neg several]

end Dismantling

def Moves (strict : Prop) : Plane → Plane → Prop := ReflTransGen (Move strict)

theorem Moves.seated (moves : Moves strict start plane) (seated : start.Seated) : plane.Seated := by
  induction moves with
  | refl => exact seated
  | tail _ move ih => exact ih.move move

theorem Moves.seats {α : Type} {operation : PlaneM α} (seated : plane.Seated)
    (maintains : Maintains (Moves False plane) operation plane) : Maintains Seated operation plane :=
  maintains.mono (fun moves => moves.seated seated) fun moves => moves.seated seated

theorem Seated.fuse (seated : plane.Seated) (nodes : List PlaneNodeId) (info : BundleInfo) :
    Maintains Seated (fuse nodes info) plane := by
  constructor
  case ok =>
    intro id after fused
    obtain ⟨members, mapped, rfl⟩ := fuse_eq_ok fused
    exact seated.merged (List.nodup_eraseDups nodes) mapped info
  case error =>
    intro error after failed
    refine (fuse_eq_error failed).imp_right fun same => ?_
    rw [same]
    exact seated

namespace Moves

variable (moves : Moves strict start plane)
include moves

theorem stay (seats : after.graph.seat? = plane.graph.seat?) (nodeOf : after.nodeOf = plane.nodeOf)
    (bundleOf : after.bundleOf = plane.bundleOf) (nextNode : after.nextNode = plane.nextNode) :
    Moves strict start after := moves.tail (.stay seats nodeOf bundleOf nextNode)

theorem grows (grows : plane.Grows after) : Moves strict start after :=
  moves.stay (by rw [grows.graph_eq]) grows.nodeOf_eq grows.bundleOf_eq grows.nextNode_eq

theorem addSingle (node : Node) : Maintains (Moves strict start) (addSingle graph node) plane := by
  unfold Plane.addSingle
  refine concludes_get_bind ?_
  cases known : plane.nodeOf.get? node.id with
  | some id => exact concludes_of_refused (by rw [Table.contains, known]; rfl) moves
  | none =>
    rw [Table.contains, known]
    -- Cloning seats nobody, so the node still stands nowhere when its plane node comes.
    have stable {plane grown : Plane} (grows : plane.Grows grown)
        (holds : Moves strict start plane ∧ plane.nodeOf.get? node.id = none) :
        Moves strict start grown ∧ grown.nodeOf.get? node.id = none :=
      ⟨holds.1.grows grows, grows.nodeOf_eq ▸ holds.2⟩
    refine ((maintains_cloneAll stable ⟨moves, known⟩ node.allInputs).mono id And.left).bind fun _ holds => ?_
    refine ((maintains_cloneAll stable holds node.allOutputs).mono id And.left).bind fun {_ after} _ holds => ?_
    exact concludes_of_ok (pushNode_eq _ after) (holds.1.tail (.arrive rfl rfl rfl holds.2))

theorem fuse {nodes : List PlaneNodeId} {info : BundleInfo}
    (joining : ∀ id ∈ nodes, ∀ seat, plane.graph.seat? id = some seat →
      seat.bundle = none ∨ plane.bundleOf.get? info.bundleIndex = some id)
    (free : strict → ∀ id, plane.bundleOf.get? info.bundleIndex = some id → id ∈ nodes) :
    Maintains (Moves strict start) (fuse nodes info) plane := by
  constructor
  case ok =>
    intro id after fused
    obtain ⟨members, mapped, rfl⟩ := fuse_eq_ok fused
    refine moves.tail (.merge (List.nodup_eraseDups nodes) mapped (fun id listed => ?_) fun strictly id named => ?_)
    next => exact joining id (List.mem_eraseDups.mp listed)
    next => exact List.mem_eraseDups.mpr (free strictly id named)
  case error =>
    intro error after failed
    refine (fuse_eq_error failed).imp_right fun same => ?_
    rw [same]
    exact moves

theorem createBundle (nodes : List NodeId) (info : BundleInfo) :
    Maintains (Moves strict start) (createBundle nodes info) plane := by
  unfold Plane.createBundle
  by_cases empty : nodes.isEmpty
  next => rw [if_pos empty]; exact concludes_of_refused rfl moves
  next =>
    rw [if_neg empty]
    refine concludes_get_bind ?_
    by_cases taken : plane.bundleOf.contains info.bundleIndex
    next => rw [if_pos taken]; exact concludes_of_refused rfl moves
    next =>
      rw [if_neg taken]
      refine concludes_query_bind moves fun {ids} asked => ?_
      refine moves.fuse (fun id listed seat there => ?_) fun _ id named => ?_
      next =>
        obtain ⟨same, asked', mem_iff⟩ := mapM_ok (mapM_eq_ok asked)
        cases asked.symm.trans asked'
        obtain ⟨node, -, answered⟩ := (mem_iff id).mp listed
        obtain ⟨found, present, plain⟩ := plain_of_unbundled answered
        rw [PlaneGraph.seat?_of_found present] at there
        cases there
        exact Or.inl plain
      next => simp [Table.contains, named] at taken

theorem addNewBundle {node : NodeId} {info : BundleInfo}
    (free : strict → plane.Alone node → plane.bundleOf.get? info.bundleIndex = none) :
    Maintains (Moves strict start) (addNewBundle node info) plane := by
  unfold Plane.addNewBundle
  refine concludes_query_bind moves fun {id} represented => concludes_query_bind moves fun {found} asked => ?_
  obtain ⟨same, stands, there⟩ := planeNode_eq_ok.mp asked
  cases (representation_eq_ok.mp represented).symm.trans stands
  cases bundle : found.bundle with
  | some own => exact concludes_of_ok (by rw [PlaneNode.isBundle, bundle]; rfl) moves
  | none =>
    rw [PlaneNode.isBundle, bundle]
    refine concludes_of_ok rfl (moves.tail (.mark (PlaneGraph.seat?_of_found there) bundle fun strictly => ?_))
    exact free strictly ⟨id, found, stands, there, bundle⟩

theorem addToBundle (node : NodeId) (info : BundleInfo) :
    Maintains (Moves strict start) (addToBundle node info) plane := by
  unfold Plane.addToBundle
  refine concludes_get_bind ?_
  cases named : plane.bundleOf.get? info.bundleIndex with
  | none => exact moves.addNewBundle fun _ _ => named
  | some bundle =>
    refine concludes_query_bind moves fun {candidate} _ => ?_
    by_cases same : candidate = bundle
    next => rw [if_pos same]; exact concludes_of_ok rfl moves
    next =>
      rw [if_neg same]
      by_cases bundled : (plane.graph.nodes.get? candidate).any PlaneNode.isBundle
      next => rw [if_pos bundled]; exact concludes_of_refused rfl moves
      next =>
        rw [if_neg bundled]
        refine (moves.fuse (fun id listed seat there => ?_) fun _ id named' => ?_).discard.bind fun _ moves =>
          concludes_of_ok rfl moves
        next =>
          rcases List.mem_pair.mp listed with rfl | rfl
          next =>
            obtain ⟨found, present, rfl⟩ := PlaneGraph.seat?_eq_some.mp there
            rw [present, Option.any_some, PlaneNode.isBundle, Bool.not_eq_true, Option.isSome_eq_false_iff,
              Option.isNone_iff_eq_none] at bundled
            exact Or.inl bundled
          next => exact Or.inr named
        next => rw [named] at named'; cases named'; simp

theorem restoreAll (graph : Graph) (members : List NodeId) :
    Maintains (Moves strict start) (members.forM (restoreMember graph)) plane := by
  refine concludes_forM moves fun member _ {_} moves => ?_
  unfold restoreMember
  cases graph.get member with
  | error error => exact concludes_of_refused rfl moves
  | ok record => exact (moves.addSingle record).discard

theorem replaceNode (old new : NodeId) : Maintains (Moves strict start) (replaceNode old new) plane := by
  refine maintains_unlessFrozen moves (concludes_query_bind moves fun {id} represented => concludes_get_bind ?_)
  cases known : plane.nodeOf.get? new with
  | some other => exact concludes_of_refused (by rw [Table.contains, known]; rfl) moves
  | none =>
    rw [Table.contains, known]
    exact concludes_of_ok rfl (moves.tail (.rename (representation_eq_ok.mp represented) known))

variable (seated : start.Seated)
include seated

theorem removeBundle (node : NodeId) : Maintains (Moves strict start) (removeBundle graph node) plane := by
  cases asked : plane.planeNode node with
  | error error => exact concludes_of_refused (stateful_bind_of_error _ (query_of_error asked)) moves
  | ok found =>
    obtain ⟨id, -, there⟩ := planeNode_eq_ok.mp asked
    cases (moves.seated seated).id_eq there
    cases bundle : found.bundle with
    | none => exact concludes_of_refused (removeBundle_of_plain asked bundle) moves
    | some info =>
      -- A bundle of one member keeps its plane node; that of several goes, and all of them arrive anew.
      by_cases alone : found.members.length = 1
      next =>
        refine concludes_of_ok (removeBundle_of_alone asked bundle alone) (moves.tail ?_)
        exact .disband (PlaneGraph.seat?_of_found there) bundle alone
      next =>
        have gone : Moves strict start (plane.dismissed found) := moves.tail (.dismiss there)
        have kept := gone.restoreAll graph found.members
        exact .of_eq (removeBundle_of_several asked bundle alone) kept

theorem unbundle (node : NodeId) : Maintains (Moves strict start) (unbundle graph node) plane := by
  cases asked : plane.planeNode node with
  | error error => exact concludes_of_refused (stateful_bind_of_error _ (query_of_error asked)) moves
  | ok found =>
    obtain ⟨id, -, there⟩ := planeNode_eq_ok.mp asked
    cases (moves.seated seated).id_eq there
    cases bundle : found.bundle with
    | none => exact concludes_of_ok (unbundle_of_plain asked bundle) moves
    | some info =>
      by_cases alone : found.members.length = 1
      next =>
        refine concludes_of_ok (unbundle_of_alone asked bundle alone) (moves.tail ?_)
        exact .disband (PlaneGraph.seat?_of_found there) bundle alone
      next =>
        refine .of_eq (unbundle_of_several asked bundle alone) ?_
        exact (moves.removeBundle seated node).bind fun _ moves => (moves.createBundle _ info).discard

omit seated

theorem addNode (node : NodeId) : Maintains (Moves strict start) (Plane.addNode graph node) plane := by
  refine maintains_unlessFrozen moves ?_
  cases graph.get node with
  | error error => exact concludes_of_refused rfl moves
  | ok record =>
    refine (moves.addSingle record).discard.bind fun _ moves => ?_
    cases record.annotations.bundle with
    | none => exact concludes_of_ok rfl moves
    | some info => exact (moves.addToBundle node info).discard

theorem addRelationship (t : TensorId) (producer consumer : NodeId) :
    Maintains (Moves strict start) (Plane.addRelationship graph t producer consumer) plane := by
  refine maintains_unlessFrozen moves ?_
  refine concludes_query_bind moves fun {source} _ => concludes_query_bind moves fun {target} _ => ?_
  by_cases same : source = target
  next => rw [if_pos same]; exact concludes_of_ok rfl moves
  next =>
    rw [if_neg same]
    refine (maintains_cloneTensor (fun grows moves => moves.grows grows) moves t).bind fun _ moves => ?_
    exact concludes_of_ok rfl (moves.stay (by rw [PlaneGraph.seat?_addInput, PlaneGraph.seat?_addOutput]) rfl rfl rfl)

theorem removeRelationship (t : TensorId) (node : NodeId) (usage : Usage) :
    Maintains (Moves strict start) (Plane.removeRelationship t node usage) plane := by
  refine maintains_unlessFrozen moves (concludes_query_bind moves fun {id} _ => concludes_get_bind ?_)
  cases plane.tensorOf.get? t with
  | none => exact concludes_of_ok rfl moves
  | some clone =>
    cases usage with
    | input => exact concludes_of_ok rfl (moves.stay (PlaneGraph.seat?_removeInput ..) rfl rfl rfl)
    | output => exact concludes_of_ok rfl (moves.stay (PlaneGraph.seat?_removeOutput ..) rfl rfl rfl)

theorem disconnect (t : TensorId) (producer : Option NodeId) (consumers : List NodeId) :
    Maintains (Moves strict start) (Plane.disconnect t producer consumers) plane := by
  have inputs {plane : Plane} (moves : Moves strict start plane) : Maintains (Moves strict start)
      (consumers.forM fun consumer => Plane.removeRelationship t consumer .input) plane :=
    concludes_forM moves fun consumer _ {_} moves => moves.removeRelationship t consumer .input
  unfold Plane.disconnect
  cases producer with
  | none => exact inputs moves
  | some producer => exact (moves.removeRelationship t producer .output).bind fun _ moves => inputs moves

theorem freeze : Maintains (Moves strict start) freeze plane := by
  unfold Plane.freeze
  refine concludes_get_bind ?_
  cases plane.frozen with
  | true => exact concludes_of_refused rfl moves
  | false => exact concludes_of_ok rfl (moves.stay rfl rfl rfl rfl)

theorem unfreeze : Maintains (Moves strict start) unfreeze plane := by
  unfold Plane.unfreeze
  refine concludes_get_bind ?_
  cases plane.frozen with
  | false => exact concludes_of_refused rfl moves
  | true => exact concludes_of_ok rfl (moves.stay rfl rfl rfl rfl)

include seated

theorem removeNode (node : Node) (newProducer : Option NodeId) :
    Maintains (Moves strict start) (Plane.removeNode graph node newProducer) plane := by
  refine maintains_unlessFrozen moves (concludes_query_bind moves fun {producer} _ => ?_)
  refine concludes_query_bind moves fun {found} asked => ?_
  obtain ⟨id, stands, there⟩ := planeNode_eq_ok.mp asked
  have sits := moves.seated seated
  cases sits.id_eq there
  have seat := PlaneGraph.seat?_of_found there
  by_cases several : found.isBundle && found.members.length ≠ 1
  next =>
    rw [if_pos several]
    rw [Bool.and_eq_true, decide_eq_true_iff] at several
    refine concludes_of_ok rfl (moves.tail (.leave seat ?_ ((sits.mem_iff seat node.id).mpr stands) ?_ rfl rfl rfl))
    next => exact Option.isSome_iff_ne_none.mp several.1
    next =>
      intro other
      refine (seat?_withoutMember graph plane found node producer other).trans ?_
      by_cases same : other = found.id
      next => simp only [same, if_true, seat, Option.map_some]
      next => simp only [same, if_false]
  next =>
    rw [if_neg several]
    have alone : found.members = [node.id] := by
      refine sits.members_of_alone seat ?_ stands
      by_contra other
      refine several (Bool.and_eq_true_iff.mpr ⟨?_, decide_eq_true other⟩)
      exact Option.isSome_iff_ne_none.mpr fun plain => other (sits.single seat plain)
    have gone : Moves strict start (plane.dismissed found) := moves.tail (.dismiss there)
    have nodeOf : plane.nodeOf.erase node.id = (plane.dismissed found).nodeOf := by
      show _ = found.members.foldl Table.erase plane.nodeOf
      rw [alone]
      rfl
    -- What the node exposed may have moved to another plane node, which unseats nobody.
    have left {changed : PlaneGraph} {bundleOf : Table UInt32 PlaneNodeId}
        (seats : changed.seat? = (plane.graph.removeNode found).seat?)
        (forgets : bundleOf = found.bundleIndex?.elim plane.bundleOf plane.bundleOf.erase) :
        Moves strict start { plane with graph := changed, nodeOf := plane.nodeOf.erase node.id, bundleOf } :=
      gone.stay seats nodeOf forgets rfl
    have handed (producer : PlaneNodeId) := PlaneGraph.seat?_foldl
      (fun graph t => PlaneGraph.seat?_addOutput graph producer t) found.outputs (plane.graph.removeNode found)
    cases bundle : found.bundle with
    | none =>
      have forgets : plane.bundleOf = found.bundleIndex?.elim plane.bundleOf plane.bundleOf.erase := by
        rw [PlaneNode.bundleIndex?, bundle]; rfl
      cases producer with
      | none => exact concludes_of_ok rfl (left rfl forgets)
      | some producer => exact concludes_of_ok rfl (left (handed producer) forgets)
    | some info =>
      have forgets : plane.bundleOf.erase info.bundleIndex =
          found.bundleIndex?.elim plane.bundleOf plane.bundleOf.erase := by
        rw [PlaneNode.bundleIndex?, bundle]; rfl
      cases producer with
      | none => exact concludes_of_ok rfl (left rfl forgets)
      | some producer => exact concludes_of_ok rfl (left (handed producer) forgets)

end Moves

theorem moves_ofGraph (made : ofGraph graph = .ok plane) : Moves strict {} plane := by
  have maintains : Maintains (Moves strict {})
      (graph.nodes.values.forM fun node => discard <| addSingle graph node) {} :=
    concludes_forM .refl fun node _ {_} moves => (moves.addSingle node).discard
  unfold ofGraph Plane.built at made
  split at made
  next after built => cases made; exact maintains.ok built
  next => cases made

theorem seated_ofGraph (made : ofGraph graph = .ok plane) : plane.Seated :=
  (@moves_ofGraph _ _ True made).seated (.empty _)

inductive Rebundling where
  | regroup (operation : Regrouping)
  | mark (node : NodeId) (info : BundleInfo)
  | replace (old new : NodeId)

namespace Rebundling

def perform (graph : Graph) : Rebundling → PlaneM Unit
  | .regroup operation => operation.perform graph
  | .mark node info => discard <| addNewBundle node info
  | .replace old new => replaceNode old new

-- A plane node alone becomes a bundle under an index that is taken.
def Overwrites (plane : Plane) : Rebundling → Prop
  | .regroup _ => False
  | .mark node info => plane.Alone node ∧ ∃ id, plane.bundleOf.get? info.bundleIndex = some id
  | .replace _ _ => False

end Rebundling

theorem Moves.perform (moves : Moves strict start plane) (seated : start.Seated) {operation : Rebundling}
    (careful : strict → ¬ operation.Overwrites plane) :
    Maintains (Moves strict start) (operation.perform graph) plane := by
  cases operation with
  | regroup operation =>
    cases operation with
    | create nodes info => exact (moves.createBundle nodes info).discard
    | add node info => exact (moves.addToBundle node info).discard
    | remove node => exact moves.removeBundle seated node
    | unbundle node => exact moves.unbundle seated node
  | mark node info =>
    refine (moves.addNewBundle fun strictly alone => ?_).discard
    have free := careful strictly
    simp only [Rebundling.Overwrites, alone, true_and, not_exists] at free
    exact Option.eq_none_iff_forall_ne_some.mpr free
  | replace old new => exact moves.replaceNode old new

end Plane

end Dataflow
