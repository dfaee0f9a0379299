import Dataflow.Frontier.Offset
import Dataflow.Proofs.Acyclic
import Dataflow.Proofs.Graph.Alias
import Dataflow.Proofs.Results
import Dataflow.Proofs.Schedule.Traversal
import Dataflow.Proofs.Tables
import Dataflow.Proofs.Topology.Reach

set_option autoImplicit false

namespace Dataflow

open Relation

namespace OffsetEdges

variable (state : OffsetEdges)

def Precedes (blocking blocked : NodeId) : Prop := blocked ∈ state.dependents blocking

theorem isBlocked_iff {node : NodeId} : state.isBlocked node = true ↔ ∃ blocking, blocking ∈ state.blockers node := by
  simp [isBlocked, List.eq_nil_iff_forall_not_mem]

theorem canTake_iff {node : NodeId} {role : OffsetRole} :
    state.canTake node role = true ↔ ∀ taken, state.roles.get? node = some taken → taken = role := by
  unfold canTake
  cases state.roles.get? node <;> simp

theorem Precedes.listed {a b : NodeId} (edge : state.Precedes a b) : b ∈ state.dependentsOf.values.flatten := by
  unfold Precedes dependents at edge
  cases found : state.dependentsOf.get? a with
  | none =>
    rw [found] at edge
    cases edge
  | some listed =>
    rw [found] at edge
    exact List.mem_flatten.mpr ⟨listed, (Table.mem_values_iff _ _).mpr ⟨a, found⟩, edge⟩

theorem reaches_iff {source target : NodeId} :
    state.reaches source target = true ↔ ReflTransGen state.Precedes source target := by
  have inside : ∀ a ∈ source :: state.dependentsOf.values.flatten, ∀ b ∈ state.dependents a,
      b ∈ source :: state.dependentsOf.values.flatten := by
    intro a _ b step
    exact .tail _ (Precedes.listed state step)
  rw [reaches, Reach.reaches_iff inside (.head _) (by simp [edgeCount])]
  rfl

section Lists

variable {lists : Table NodeId (List NodeId)} {a b node : NodeId}

theorem mem_insert_getD {x : NodeId} : b ∈ ((lists.insert node (Ranked.insert a ((lists.get? node).getD []))).get? x).getD [] ↔
    b ∈ (lists.get? x).getD [] ∨ x = node ∧ b = a := by
  rw [Table.get?_insert_eq]
  by_cases own : x = node
  next => simp [own, or_comm]
  next => simp [own]

theorem mem_erase_getD : b ∈ ((lists.erase node).get? a).getD [] ↔ a ≠ node ∧ b ∈ (lists.get? a).getD [] := by
  rw [Table.get?_erase_eq]
  by_cases own : a = node
  next => simp [own]
  next => simp [own]

theorem mem_dropFrom_getD {nodes : List NodeId} : b ∈ ((dropFrom nodes node lists).get? a).getD [] ↔
    b ∈ (lists.get? a).getD [] ∧ (a ∈ nodes → b ≠ node) := by
  rw [dropFrom, Table.get?_foldl_modify (by simp)]
  by_cases changed : a ∈ nodes
  next => cases lists.get? a <;> simp [changed]
  next => simp [changed]

end Lists

variable {state}

theorem addEdge_cases (blocking blocked : NodeId) (role : OffsetRole) :
    state.addEdge blocking blocked role = state ∨
      ¬ ReflTransGen state.Precedes blocked blocking ∧
      (∀ a b, (state.addEdge blocking blocked role).Precedes a b ↔ state.Precedes a b ∨ a = blocking ∧ b = blocked) ∧
      (∀ a b, a ∈ (state.addEdge blocking blocked role).blockers b ↔
        a ∈ state.blockers b ∨ b = blocked ∧ a = blocking) ∧
      (state.addEdge blocking blocked role).roles = (state.roles.insert blocking role).insert blocked role := by
  unfold addEdge
  split
  next => exact Or.inl rfl
  next admitted =>
    rw [Bool.or_eq_true, not_or, reaches_iff] at admitted
    exact Or.inr ⟨admitted.1, fun _ _ => mem_insert_getD, fun _ _ => mem_insert_getD, rfl⟩

structure Within (state : OffsetEdges) (nodes : List NodeId) : Prop where
  inside : ∀ {a b}, state.Precedes a b → a ∈ nodes ∧ b ∈ nodes
  converse : ∀ a b, a ∈ state.blockers b ↔ state.Precedes a b
  roles : ∀ {a b}, state.Precedes a b →
    ∃ role, state.roles.get? a = some role ∧ state.roles.get? b = some role
  acyclic : Acyclic state.Precedes

theorem Within.mono {nodes wider : List NodeId} (within : state.Within nodes) (wide : nodes ⊆ wider) :
    state.Within wider :=
  { within with inside := fun edge => ⟨wide (within.inside edge).1, wide (within.inside edge).2⟩ }

theorem Within.addEdge {nodes : List NodeId} (within : state.Within nodes) {blocking blocked : NodeId}
    (blockingThere : blocking ∈ nodes) (blockedThere : blocked ∈ nodes) {role : OffsetRole}
    (blockingTakes : state.canTake blocking role = true) (blockedTakes : state.canTake blocked role = true) :
    (state.addEdge blocking blocked role).Within nodes := by
  rcases addEdge_cases blocking blocked role with same | ⟨apart, precedes, blockers, roles⟩
  next =>
    rw [same]
    exact within
  next =>
    -- A role that was taken is the one that is taken now.
    have kept {node : NodeId} {taken : OffsetRole} (took : state.roles.get? node = some taken) :
        (state.addEdge blocking blocked role).roles.get? node = some taken := by
      rw [roles, Table.get?_insert_eq, Table.get?_insert_eq]
      by_cases second : node = blocked
      next => rw [if_pos second, (canTake_iff state).mp blockedTakes taken (second ▸ took)]
      next =>
        by_cases first : node = blocking
        next => rw [if_neg second, if_pos first, (canTake_iff state).mp blockingTakes taken (first ▸ took)]
        next => rw [if_neg second, if_neg first, took]
    constructor
    case inside =>
      intro a b edge
      rcases (precedes a b).mp edge with old | ⟨rfl, rfl⟩
      next => exact within.inside old
      next => exact ⟨blockingThere, blockedThere⟩
    case converse =>
      intro a b
      rw [blockers, precedes, within.converse, and_comm]
    case roles =>
      intro a b edge
      rcases (precedes a b).mp edge with old | ⟨rfl, rfl⟩
      next =>
        obtain ⟨taken, first, second⟩ := within.roles old
        exact ⟨taken, kept first, kept second⟩
      next =>
        refine ⟨role, ?_, ?_⟩
        next =>
          rw [roles, Table.get?_insert_eq, Table.get?_insert_self]
          exact ite_self _
        next => rw [roles, Table.get?_insert_self]
    case acyclic => exact (within.acyclic.insert_edge apart).mono fun a b => (precedes a b).mp

theorem Within.precedes_erase {nodes : List NodeId} (within : state.Within nodes) {node a b : NodeId} :
    (state.erase node).Precedes a b ↔ state.Precedes a b ∧ a ≠ node ∧ b ≠ node := by
  -- Each end of an edge at the node is found from the other end.
  have ends := within.converse a node
  unfold Precedes dependents blockers at *
  simp only [OffsetEdges.erase, mem_dropFrom_getD, mem_erase_getD]
  grind

theorem Within.erase {nodes : List NodeId} (within : state.Within nodes) (node : NodeId) :
    (state.erase node).Within (nodes.filter (· ≠ node)) := by
  have precedes {a b : NodeId} : (state.erase node).Precedes a b ↔ state.Precedes a b ∧ a ≠ node ∧ b ≠ node :=
    within.precedes_erase
  have blockers {a b : NodeId} : a ∈ (state.erase node).blockers b ↔ state.Precedes a b ∧ a ≠ node ∧ b ≠ node := by
    have ends := within.converse a b
    unfold Precedes dependents OffsetEdges.blockers at *
    simp only [OffsetEdges.erase, mem_dropFrom_getD, mem_erase_getD]
    grind [OffsetEdges.dependents]
  constructor
  case inside =>
    intro a b edge
    obtain ⟨old, first, second⟩ := precedes.mp edge
    obtain ⟨blocking, blocked⟩ := within.inside old
    exact ⟨List.mem_filter.mpr ⟨blocking, decide_eq_true first⟩, List.mem_filter.mpr ⟨blocked, decide_eq_true second⟩⟩
  case converse =>
    intro a b
    rw [blockers, precedes]
  case roles =>
    intro a b edge
    obtain ⟨old, first, second⟩ := precedes.mp edge
    obtain ⟨role, taken⟩ := within.roles old
    refine ⟨role, ?_⟩
    simp only [OffsetEdges.erase, Table.get?_erase_eq, if_neg first, if_neg second]
    exact taken
  case acyclic => exact within.acyclic.mono fun _ _ edge => (precedes.mp edge).1

end OffsetEdges

namespace Graph

variable {graph : Graph}

theorem differingOffset?_ok (fits : graph.OffsetsFit) (real : TensorId) (offset : Nat)
    (tensors : List TensorId) : ∃ found, graph.differingOffset? real offset tensors = .ok found := by
  induction tensors with
  | nil => exact ⟨none, rfl⟩
  | cons tensor rest ih =>
    rw [differingOffset?, fits.realOffset_eq]
    split
    next =>
      simp only [bind, Except.bind]
      split
      next => exact ⟨_, rfl⟩
      next => exact ih
    next => exact ih

theorem sharedOffsets?_ok (fits : graph.OffsetsFit) (second first : List TensorId) :
    ∃ found, graph.sharedOffsets? second first = .ok found := by
  induction first with
  | nil => exact ⟨none, rfl⟩
  | cons tensor rest ih =>
    obtain ⟨found, differing⟩ := differingOffset?_ok fits (graph.realTensor tensor)
      (graph.chainOffsets graph.tensors.size tensor).sum second
    simp only [sharedOffsets?, fits.realOffset_eq, bind, Except.bind, differing]
    cases found with
    | none => exact ih
    | some other => exact ⟨_, rfl⟩

theorem offsetRole?_ok (fits : graph.OffsetsFit) (new existing : Node) :
    ∃ found, graph.offsetRole? new existing = .ok found := by
  obtain ⟨writes, written⟩ := sharedOffsets?_ok fits existing.outputs new.outputs
  obtain ⟨reads, read⟩ := sharedOffsets?_ok fits existing.inputs new.inputs
  simp only [offsetRole?, written, read, bind, Except.bind]
  cases writes <;> cases reads <;> exact ⟨_, rfl⟩

end Graph

theorem OffsetEdges.Within.compareWith {graph : Graph} (fits : graph.OffsetsFit) {state : OffsetEdges}
    {nodes : List NodeId} (within : state.Within nodes) {node other : NodeId} (new : Node)
    (there : node ∈ nodes) (otherThere : other ∈ nodes) :
    ∃ after, state.compareWith graph node new other = .ok after ∧ after.Within nodes := by
  rw [OffsetEdges.compareWith.eq_def]
  cases graph.logical? other with
  | none => exact ⟨state, rfl, within⟩
  | some existing =>
    obtain ⟨found, compared⟩ := Graph.offsetRole?_ok fits new existing
    simp only [compared, bind, Except.bind]
    match found with
    | none => exact ⟨state, rfl, within⟩
    | some (role, newOffset, otherOffset) =>
      simp only
      split
      next takes =>
        obtain ⟨taken, otherTaken⟩ := Bool.and_eq_true_iff.mp takes
        split
        next => exact ⟨_, rfl, within.addEdge there otherThere taken otherTaken⟩
        next => exact ⟨_, rfl, within.addEdge otherThere there otherTaken taken⟩
      next => exact ⟨state, rfl, within⟩

theorem OffsetEdges.Within.compareAll {graph : Graph} (fits : graph.OffsetsFit) {state : OffsetEdges}
    {nodes : List NodeId} (within : state.Within nodes) {node : NodeId} (new : Node) (there : node ∈ nodes)
    (tied : List NodeId) (tiedThere : tied ⊆ nodes) :
    ∃ after, tied.foldlM (OffsetEdges.compareWith graph node new) state = .ok after ∧ after.Within nodes := by
  apply foldlM_succeeds (fun _ state => OffsetEdges.Within state nodes)
  next =>
    intro done other rest state split within
    exact within.compareWith fits new there (tiedThere (by simp [split]))
  next => exact within

namespace OffsetFrontier

variable {K : Type} [Ord K] {key : NodeId → K} {free : OffsetFrontier key}

structure Sound (free : OffsetFrontier key) : Prop where
  nodup : free.frontier.nodes.Nodup
  within : free.order.Within free.frontier.nodes

theorem sound_empty : ({} : OffsetFrontier key).Sound where
  nodup := List.nodup_nil
  within :=
    { inside := fun edge => by cases edge
      converse := fun a b => iff_of_false (by rintro ⟨⟩) (by rintro ⟨⟩)
      roles := fun edge => by cases edge
      acyclic := .of_rank (fun _ => 0) fun _ _ edge => by cases edge }

theorem insert_ok {graph : Graph} (fits : graph.OffsetsFit) (sound : free.Sound) (node : NodeId) :
    ∃ after, free.insert graph node = .ok after ∧ after.Sound ∧
      ∀ other, other ∈ after.frontier.nodes ↔ other = node ∨ other ∈ free.frontier.nodes := by
  rw [insert.eq_def]
  split
  next member =>
    have member : node ∈ free.frontier.nodes := by simpa [contains, Frontier.contains] using member
    exact ⟨free, rfl, sound, fun other => by grind⟩
  next =>
    have listed := free.frontier.mem_insert node
    have distinct := Frontier.nodup_insert sound.nodup node
    have older := sound.within.mono fun other old => (listed other).mpr (Or.inr old)
    cases graph.logical? node with
    | none => exact ⟨_, rfl, ⟨distinct, older⟩, listed⟩
    | some new =>
      obtain ⟨order, folded, within⟩ := older.compareAll fits new ((listed node).mpr (Or.inl rfl))
        (free.frontier.nodes.filter fun other => compare (key other) (key node) == .eq)
        fun other tied => (listed other).mpr (Or.inr (List.mem_of_mem_filter tied))
      exact ⟨{ frontier := free.frontier.insert node, order }, by simp only [folded]; rfl,
        ⟨distinct, within⟩, listed⟩

theorem nodes_erase (free : OffsetFrontier key) (node : NodeId) :
    (free.erase node).frontier.nodes = free.frontier.nodes.filter (· ≠ node) := by
  unfold erase
  split
  next => rfl
  next absent =>
    symm
    rw [List.filter_eq_self]
    intro other member
    refine decide_eq_true fun same => absent ?_
    simpa [contains, Frontier.contains, same] using member

theorem Sound.erase (sound : free.Sound) (node : NodeId) : (free.erase node).Sound := by
  unfold OffsetFrontier.erase
  split
  next => exact ⟨sound.nodup.filter _, sound.within.erase node⟩
  next => exact sound

theorem pop?_of_ne_nil (sound : free.Sound) (nonempty : free.frontier.nodes ≠ []) :
    ∃ node rest, free.pop? = some (node, rest) ∧ rest.Sound ∧ node ∈ free.frontier.nodes ∧
      ∀ other, other ∈ rest.frontier.nodes ↔ other ∈ free.frontier.nodes ∧ other ≠ node := by
  obtain ⟨least, member, minimal⟩ := sound.within.acyclic.exists_minimal nonempty
  have unblocked : free.order.isBlocked least = false := by
    rw [Bool.eq_false_iff, ne_eq, OffsetEdges.isBlocked_iff]
    rintro ⟨blocking, listed⟩
    have edge := (sound.within.converse blocking least).mp listed
    exact minimal blocking (sound.within.inside edge).1 edge
  obtain ⟨node, found⟩ : ∃ node, free.next? = some node := by
    rw [← Option.isSome_iff_exists, next?, List.find?_isSome]
    exact ⟨least, member, by simp [unblocked]⟩
  have there : node ∈ free.frontier.nodes := List.mem_of_find?_eq_some found
  refine ⟨node, free.erase node, by simp [pop?, found], sound.erase node, there, ?_⟩
  simp [nodes_erase]

theorem pop?_of_nil (empty : free.frontier.nodes = []) : free.pop? = none := by
  simp [pop?, next?, empty]

end OffsetFrontier

end Dataflow
