import Dataflow.Proofs.Description.Build
import Dataflow.Proofs.Frontier.Release

set_option autoImplicit false

namespace Dataflow

open Relation

namespace Graph

def Writes (graph : Graph) (node : NodeId) (view : TensorId) : Prop :=
  ∃ record, graph.nodes.get? node = some record ∧ record.isLogical = true ∧ record.inputs = [] ∧
    record.outputs = [view]

def WritesAt (graph : Graph) (real : TensorId) (node : NodeId) (offset : Nat) : Prop :=
  ∃ view, graph.Writes node view ∧ graph.realTensor view = real ∧ graph.realOffset view = .ok offset

def WritesBelow (graph : Graph) (real : TensorId) (first second : NodeId) : Prop :=
  ∃ low high, graph.WritesAt real first low ∧ graph.WritesAt real second high ∧
    (low < high ∨ low = high ∧ first < second)

theorem Writes.logical? {graph : Graph} {node : NodeId} {view : TensorId} (writes : graph.Writes node view) :
    ∃ record, graph.logical? node = some record ∧ record.inputs = [] ∧ record.outputs = [view] := by
  obtain ⟨record, found, logical, inputs, outputs⟩ := writes
  exact ⟨record, by simp [Graph.logical?, found, logical], inputs, outputs⟩

theorem offsetRole?_writers {graph : Graph} {new existing : Node} {view other : TensorId} {offset offset' : Nat}
    (outputs : new.outputs = [view]) (outputs' : existing.outputs = [other]) (inputs : new.inputs = [])
    (same : graph.realTensor other = graph.realTensor view) (starts : graph.realOffset view = .ok offset)
    (starts' : graph.realOffset other = .ok offset') :
    graph.offsetRole? new existing = .ok (if offset = offset' then none else some (.writes, offset, offset')) := by
  simp only [offsetRole?, outputs, outputs', inputs, sharedOffsets?, differingOffset?, same, starts, starts', bind,
    Except.bind, if_true]
  by_cases equal : offset = offset' <;> simp [equal, pure, Except.pure]

end Graph

theorem placeByKey_of_tied {K : Type} [Ord K] {key : NodeId → K} {node : NodeId} {nodes : List NodeId}
    (fresh : node ∉ nodes) (tied : ∀ other ∈ nodes, compare (key node) (key other) = .eq) :
    placeByKey key node nodes = Ranked.insert node nodes := by
  induction nodes with
  | nil => rfl
  | cons other rest ih =>
    have ahead : precedes key node other = true ↔ node.val < other.val := by
      simp [precedes, tied other (.head _), compare, compareOfLessAndEq_eq_lt]
    have differ : node.val ≠ other.val := fun same => fresh (Ident.ext same ▸ .head _)
    have tail := ih (fun member => fresh (.tail _ member)) fun later member => tied later (.tail _ member)
    simp only [placeByKey, Ranked.insert, ahead, Ident.rank_eq, if_neg differ, tail]

namespace OffsetEdges

variable {state : OffsetEdges} {offset : NodeId → Nat}

theorem precedes_addEdge {blocking blocked : NodeId} (role : OffsetRole)
    (apart : ¬ ReflTransGen state.Precedes blocked blocking) (a b : NodeId) :
    (state.addEdge blocking blocked role).Precedes a b ↔ state.Precedes a b ∨ a = blocking ∧ b = blocked := by
  unfold addEdge
  split
  next refused =>
    rw [Bool.or_eq_true, reaches_iff, decide_eq_true_iff] at refused
    have there : state.Precedes blocking blocked := refused.resolve_left apart
    refine ⟨Or.inl, ?_⟩
    rintro (old | ⟨rfl, rfl⟩)
    next => exact old
    next => exact there
  next => exact mem_insert_getD

theorem role_of_addEdge {blocking blocked node : NodeId} {role taken : OffsetRole}
    (took : (state.addEdge blocking blocked role).roles.get? node = some taken) :
    taken = role ∨ state.roles.get? node = some taken := by
  rcases @addEdge_cases state blocking blocked role with same | ⟨-, -, -, roles⟩
  next => exact Or.inr (same ▸ took)
  next =>
    rw [roles, Table.get?_insert_eq, Table.get?_insert_eq] at took
    grind

structure ByOffset (offset : NodeId → Nat) (joined : NodeId → NodeId → Prop) (state : OffsetEdges) : Prop where
  precedes : ∀ a b, state.Precedes a b ↔ joined a b ∧ offset a < offset b
  writes : ∀ {node role}, state.roles.get? node = some role → role = .writes

namespace ByOffset

variable {joined : NodeId → NodeId → Prop}

theorem congr {other : NodeId → NodeId → Prop} (ordered : state.ByOffset offset joined)
    (same : ∀ a b, offset a < offset b → (other a b ↔ joined a b)) : state.ByOffset offset other where
  precedes := fun a b => (ordered.precedes a b).trans (and_congr_left fun below => (same a b below).symm)
  writes := ordered.writes

theorem offset_le (ordered : state.ByOffset offset joined) {a b : NodeId} (path : ReflTransGen state.Precedes a b) :
    offset a ≤ offset b := by
  induction path with
  | refl => exact Nat.le_refl _
  | tail _ edge ih => exact Nat.le_trans ih ((ordered.precedes _ _).mp edge).2.le

-- An edge from a lower to a higher offset closes no cycle, so it is never left out.
theorem addEdge (ordered : state.ByOffset offset joined) {low high : NodeId} (below : offset low < offset high) :
    (state.addEdge low high .writes).ByOffset offset fun a b => joined a b ∨ a = low ∧ b = high where
  precedes := by
    intro a b
    have apart : ¬ ReflTransGen state.Precedes high low := fun path => absurd (ordered.offset_le path) (by omega)
    rw [precedes_addEdge .writes apart, ordered.precedes]
    constructor
    next =>
      rintro (old | ⟨rfl, rfl⟩)
      next => exact ⟨Or.inl old.1, old.2⟩
      next => exact ⟨Or.inr ⟨rfl, rfl⟩, below⟩
    next =>
      rintro ⟨old | new, less⟩
      next => exact Or.inl ⟨old, less⟩
      next => exact Or.inr new
  writes := fun took => (role_of_addEdge took).elim id ordered.writes

theorem canTake (ordered : state.ByOffset offset joined) (node : NodeId) : state.canTake node .writes = true :=
  (canTake_iff state).mpr fun _ took => ordered.writes took

section

variable {graph : Graph} {real : TensorId} {node : NodeId} {new : Node} {view : TensorId}

theorem compareWith (ordered : state.ByOffset offset joined) (outputs : new.outputs = [view]) (inputs : new.inputs = [])
    (into : graph.realTensor view = real) (starts : graph.realOffset view = .ok (offset node)) {other : NodeId}
    (writes : graph.WritesAt real other (offset other)) :
    ∃ after, state.compareWith graph node new other = .ok after ∧
      after.ByOffset offset fun a b => joined a b ∨ (a = node ∧ b = other ∨ a = other ∧ b = node) := by
  obtain ⟨view', writes', into', starts'⟩ := writes
  obtain ⟨existing, found, -, outputs'⟩ := writes'.logical?
  have role := Graph.offsetRole?_writers outputs outputs' inputs (into'.trans into.symm) starts starts'
  simp only [OffsetEdges.compareWith, found, role, bind, Except.bind, pure, Except.pure]
  by_cases equal : offset node = offset other
  next =>
    refine ⟨state, by simp [equal], ordered.congr fun a b below => ?_⟩
    grind
  next =>
    simp only [equal, if_false, ordered.canTake, Bool.and_self, if_true]
    by_cases below : offset node < offset other
    next =>
      refine ⟨_, by rw [if_pos below], (ordered.addEdge below).congr fun a b less => ?_⟩
      grind
    next =>
      have above : offset other < offset node := by omega
      refine ⟨_, by rw [if_neg below], (ordered.addEdge above).congr fun a b less => ?_⟩
      grind

theorem compareAll (ordered : state.ByOffset offset joined) (outputs : new.outputs = [view]) (inputs : new.inputs = [])
    (into : graph.realTensor view = real) (starts : graph.realOffset view = .ok (offset node)) (others : List NodeId)
    (writers : ∀ other ∈ others, graph.WritesAt real other (offset other)) :
    ∃ after, others.foldlM (OffsetEdges.compareWith graph node new) state = .ok after ∧
      after.ByOffset offset fun a b => joined a b ∨ (a = node ∧ b ∈ others ∨ a ∈ others ∧ b = node) := by
  apply foldlM_succeeds fun done (state : OffsetEdges) =>
    state.ByOffset offset fun a b => joined a b ∨ (a = node ∧ b ∈ done ∨ a ∈ done ∧ b = node)
  next =>
    intro done other rest state split ordered
    have listed : other ∈ others := by simp [split]
    obtain ⟨after, compared, ordered⟩ := ordered.compareWith outputs inputs into starts (writers other listed)
    refine ⟨after, compared, ordered.congr fun a b below => ?_⟩
    simp only [List.mem_append, List.mem_singleton]
    grind
  next => exact ordered.congr fun a b below => by simp

end

end ByOffset

end OffsetEdges

namespace OffsetFrontier

variable {K : Type} [Ord K] {key : NodeId → K} {free : OffsetFrontier key} {offset : NodeId → Nat}

structure ByOffset (offset : NodeId → Nat) (free : OffsetFrontier key) : Prop extends free.Sound where
  ascending : Ranked.Ascending free.frontier.nodes
  edges : free.order.ByOffset offset fun a b => a ∈ free.frontier.nodes ∧ b ∈ free.frontier.nodes

namespace ByOffset

theorem empty : ({} : OffsetFrontier key).ByOffset offset where
  toSound := sound_empty
  ascending := List.Pairwise.nil
  edges :=
    { precedes := fun a b => iff_of_false (by rintro ⟨⟩) (by simp)
      writes := fun took => by cases took }

theorem insert {graph : Graph} {real : TensorId} {writers : List NodeId} (ordered : free.ByOffset offset)
    (fits : graph.OffsetsFit) (writes : ∀ node ∈ writers, graph.WritesAt real node (offset node))
    (tied : ∀ a ∈ writers, ∀ b ∈ writers, compare (key a) (key b) = .eq) (inside : free.frontier.nodes ⊆ writers)
    {node : NodeId} (writer : node ∈ writers) :
    ∃ after, free.insert graph node = .ok after ∧ after.ByOffset offset ∧
      ∀ other, other ∈ after.frontier.nodes ↔ other = node ∨ other ∈ free.frontier.nodes := by
  obtain ⟨after, inserted, sound, listed⟩ := insert_ok fits ordered.toSound node
  refine ⟨after, inserted, ?_, listed⟩
  rw [OffsetFrontier.insert.eq_def] at inserted
  split at inserted
  next =>
    cases inserted
    exact ordered
  next absent =>
    have fresh : node ∉ free.frontier.nodes := by simpa [contains, Frontier.contains] using absent
    obtain ⟨view, written, into, starts⟩ := writes node writer
    obtain ⟨new, found, inputs, outputs⟩ := written.logical?
    have all : (free.frontier.nodes.filter fun other => compare (key other) (key node) == .eq) = free.frontier.nodes :=
      List.filter_eq_self.mpr fun other member => by simp [tied other (inside member) node writer]
    obtain ⟨order, folded, edges⟩ := ordered.edges.compareAll outputs inputs into starts free.frontier.nodes
      fun other member => writes other (inside member)
    simp only [found, all, folded, bind, Except.bind, pure, Except.pure] at inserted
    cases inserted
    refine ⟨sound, ?_, edges.congr fun a b below => ?_⟩
    next =>
      have placed : (free.frontier.insert node).nodes = Ranked.insert node free.frontier.nodes := by
        rw [Frontier.insert, if_neg (by simpa [contains] using absent)]
        exact placeByKey_of_tied fresh fun other member => tied node writer other (inside member)
      rw [placed]
      exact Ranked.ascending_insert node ordered.ascending
    next =>
      simp only [listed]
      grind

theorem pop? (ordered : free.ByOffset offset) (nonempty : free.frontier.nodes ≠ []) :
    ∃ node, free.pop? = some (node, free.erase node) ∧ node ∈ free.frontier.nodes ∧
      ∀ other ∈ free.frontier.nodes, other ≠ node →
        offset node < offset other ∨ offset node = offset other ∧ node < other := by
  have blocked_iff {node : NodeId} (there : node ∈ free.frontier.nodes) :
      free.order.isBlocked node = true ↔ ∃ other ∈ free.frontier.nodes, offset other < offset node := by
    rw [OffsetEdges.isBlocked_iff]
    simp only [ordered.within.converse, ordered.edges.precedes, there, and_true]
  obtain ⟨node, rest, popped, -, there, -⟩ := pop?_of_ne_nil ordered.toSound nonempty
  obtain ⟨next, found, same⟩ := Option.map_eq_some_iff.mp popped
  cases same
  obtain ⟨free_to_go, before, after, split, held⟩ := List.find?_eq_some_iff_append.mp found
  rw [Bool.not_eq_true', ← Bool.not_eq_true, blocked_iff there] at free_to_go
  push Not at free_to_go
  refine ⟨node, popped, there, fun other member differ => ?_⟩
  have least := free_to_go other member
  by_cases equal : offset node = offset other
  next =>
    refine Or.inr ⟨equal, ?_⟩
    have place : other ∈ before ∨ other ∈ after := by
      rw [split, List.mem_append, List.mem_cons] at member
      tauto
    rcases place with front | back
    next =>
      -- What stands in front of the node is held back, and whatever holds it back would hold the node back.
      have stuck := held other front
      rw [Bool.not_not, blocked_iff member] at stuck
      obtain ⟨lower, there', below⟩ := stuck
      exact absurd (free_to_go lower there') (by omega)
    next =>
      have ascending := split ▸ ordered.ascending
      exact (List.pairwise_cons.mp (List.pairwise_append.mp ascending).2.1).1 other back
  next => exact Or.inl (by omega)

theorem erase (ordered : free.ByOffset offset) (node : NodeId) : (free.erase node).ByOffset offset where
  toSound := ordered.toSound.erase node
  ascending := by
    rw [nodes_erase]
    exact List.Pairwise.filter _ ordered.ascending
  edges := by
    rw [nodes_erase]
    unfold OffsetFrontier.erase
    split
    next =>
      refine ⟨fun a b => ?_, fun {other role} took => ?_⟩
      next =>
        rw [ordered.within.precedes_erase, ordered.edges.precedes]
        simp only [List.mem_filter, decide_eq_true_iff]
        tauto
      next =>
        simp only [OffsetEdges.erase, Table.get?_erase_eq] at took
        split at took
        next => cases took
        next => exact ordered.edges.writes took
    next absent =>
      have fresh : node ∉ free.frontier.nodes := by simpa [contains, Frontier.contains] using absent
      refine ordered.edges.congr fun a b below => ?_
      simp only [List.mem_filter, decide_eq_true_iff]
      grind

theorem drain (ordered : free.ByOffset offset) (count : Nat) (enough : free.frontier.nodes.length ≤ count) :
    (drain count free).1.Pairwise fun a b => offset a < offset b ∨ offset a = offset b ∧ a < b := by
  induction count generalizing free with
  | zero => exact List.Pairwise.nil
  | succ count ih =>
    by_cases empty : free.frontier.nodes = []
    next => simp [OffsetFrontier.drain, pop?_of_nil empty]
    next =>
      obtain ⟨node, popped, there, least⟩ := ordered.pop? empty
      have fewer : (free.erase node).frontier.nodes.length ≤ count := by
        have less : (free.frontier.nodes.filter (· ≠ node)).length < free.frontier.nodes.length :=
          List.length_filter_lt_length_iff_exists.mpr ⟨node, there, by simp⟩
        rw [nodes_erase]
        omega
      have left := ((ordered.erase node).toSound.drain count fewer).2.1
      simp only [OffsetFrontier.drain, popped]
      refine List.pairwise_cons.mpr ⟨fun other later => ?_, ih (ordered.erase node) fewer⟩
      rw [left, nodes_erase, List.mem_filter, decide_eq_true_iff] at later
      exact least other later.1 later.2

end ByOffset

theorem drain_writers_sorted {graph : Graph} (fits : graph.OffsetsFit) (real : TensorId) {nodes : List NodeId}
    (writers : ∀ node ∈ nodes, ∃ view, graph.Writes node view ∧ graph.realTensor view = real)
    (tied : ∀ a ∈ nodes, ∀ b ∈ nodes, compare (key a) (key b) = .eq) :
    ∃ free : OffsetFrontier key,
      nodes.foldlM (fun (free : OffsetFrontier key) node => free.insert graph node) {} = .ok free ∧
      ∀ count, nodes.length ≤ count → (∀ node, node ∈ (drain count free).1 ↔ node ∈ nodes) ∧
        (drain count free).1.Pairwise (graph.WritesBelow real) ∧ (drain count free).2.frontier.nodes = [] := by
  have starts : ∀ node ∈ nodes, ∃ offset, graph.WritesAt real node offset := by
    intro node member
    obtain ⟨view, writes, into⟩ := writers node member
    exact ⟨_, view, writes, into, fits.realOffset_eq view⟩
  choose! offset writes using starts
  obtain ⟨free, inserted, ordered, listed⟩ : ∃ free : OffsetFrontier key,
      nodes.foldlM (fun (free : OffsetFrontier key) node => free.insert graph node) {} = .ok free ∧
        free.ByOffset offset ∧ ∀ node, node ∈ free.frontier.nodes ↔ node ∈ nodes := by
    apply foldlM_succeeds fun done (free : OffsetFrontier key) =>
      free.ByOffset offset ∧ ∀ node, node ∈ free.frontier.nodes ↔ node ∈ done
    next =>
      intro done node rest free split
      rintro ⟨ordered, listed⟩
      have inside : free.frontier.nodes ⊆ nodes := fun other member => by simp [split, (listed other).mp member]
      have own : node ∈ nodes := by simp [split]
      obtain ⟨after, inserted, ordered, added⟩ := ordered.insert fits writes tied inside own
      refine ⟨after, inserted, ordered, fun other => ?_⟩
      simp only [added, listed, List.mem_append, List.mem_singleton, or_comm]
    next => exact ⟨.empty, by simp⟩
  refine ⟨free, inserted, fun count enough => ?_⟩
  have fewer : free.frontier.nodes.length ≤ nodes.length :=
    (ordered.nodup.subperm fun node member => (listed node).mp member).length_le
  obtain ⟨-, mem_iff, emptied⟩ := ordered.toSound.drain count (by omega)
  refine ⟨fun node => (mem_iff node).trans (listed node), ?_, emptied⟩
  refine (ordered.drain count (by omega)).imp_of_mem fun {a b} first second below => ?_
  exact ⟨offset a, offset b, writes a ((listed a).mp ((mem_iff a).mp first)),
    writes b ((listed b).mp ((mem_iff b).mp second)), below⟩

-- The views start at 12, 8, 0 and 8, and two of them are views of views.
def pool : GraphDescription :=
  { tensors := [{ name := "pool" }, { name := "upper", aliasOf := "pool", offset := 8 },
      { name := "top", aliasOf := "upper", offset := 4 }, { name := "bottom", aliasOf := "pool" },
      { name := "raised", aliasOf := "bottom", offset := 8 }]
    nodes := [{ name := "fillTop", kind := .logical, outputs := ["top"] },
      { name := "fillUpper", kind := .logical, outputs := ["upper"] },
      { name := "fillBottom", kind := .logical, outputs := ["bottom"] },
      { name := "fillRaised", kind := .logical, outputs := ["raised"] }] }

theorem drain_pool_writers :
    ∃ free : OffsetFrontier fun _ => 0,
      [⟨3⟩, ⟨0⟩, ⟨1⟩, ⟨2⟩].foldlM (fun (free : OffsetFrontier fun _ => 0) node => free.insert pool.graph node) {} =
        .ok free ∧
        (drain 4 free).1 = [⟨2⟩, ⟨1⟩, ⟨3⟩, ⟨0⟩] ∧ [⟨2⟩, ⟨1⟩, ⟨3⟩, ⟨0⟩].Pairwise (pool.graph.WritesBelow ⟨0⟩) := by
  have fits : pool.graph.OffsetsFit :=
    Graph.offsetsFit_of_bound (fun t => min 32 (8 * t.val)) (fun t => by simp [Word.largest]) (by decide)
  have writers : ∀ node ∈ [⟨3⟩, ⟨0⟩, ⟨1⟩, ⟨2⟩],
      ∃ view, pool.graph.Writes node view ∧ pool.graph.realTensor view = ⟨0⟩ := by
    intro node member
    simp only [List.mem_cons, List.not_mem_nil, or_false] at member
    rcases member with rfl | rfl | rfl | rfl
    next => exact ⟨⟨4⟩, ⟨_, rfl, rfl, rfl, rfl⟩, rfl⟩
    next => exact ⟨⟨2⟩, ⟨_, rfl, rfl, rfl, rfl⟩, rfl⟩
    next => exact ⟨⟨1⟩, ⟨_, rfl, rfl, rfl, rfl⟩, rfl⟩
    next => exact ⟨⟨3⟩, ⟨_, rfl, rfl, rfl, rfl⟩, rfl⟩
  have tied : ∀ a ∈ [⟨3⟩, ⟨0⟩, ⟨1⟩, ⟨2⟩], ∀ b ∈ [⟨3⟩, ⟨0⟩, ⟨1⟩, ⟨2⟩],
      compare ((fun _ => 0 : NodeId → Nat) a) ((fun _ => 0 : NodeId → Nat) b) = .eq := fun _ _ _ _ => rfl
  obtain ⟨free, inserted, drained⟩ := drain_writers_sorted fits ⟨0⟩ writers tied
  refine ⟨free, inserted, ?_⟩
  cases inserted
  exact ⟨by decide, (drained 4 (by decide)).2.1⟩

end OffsetFrontier

end Dataflow
