import Dataflow.Proofs.Description.Build
import Dataflow.Proofs.Graph.Relation
import Dataflow.Proofs.Schedule.Placement

set_option autoImplicit false

namespace Dataflow

namespace Dependencies

variable {deps : Dependencies} {order : List NodeId}

def BlockersFirst (deps : Dependencies) (order : List NodeId) : Prop :=
  ∀ blocked ∈ order, ∀ blocking ∈ deps.blockers blocked, order.idxOf blocking < order.idxOf blocked

-- Blockers that are not listed do not count.
def InOrder (deps : Dependencies) (order : List NodeId) : Prop :=
  ∀ blocked ∈ order, ∀ blocking ∈ order, blocking ∈ deps.blockers blocked →
    order.idxOf blocking < order.idxOf blocked

theorem inOrder_iff (nodup : order.Nodup) :
    deps.InOrder order ↔ order.Pairwise (fun earlier later => later ∉ deps.blockers earlier) ∧
      ∀ node ∈ order, node ∉ deps.blockers node := by
  constructor
  next =>
    intro inOrder
    constructor
    next =>
      rw [List.pairwise_iff_getElem]
      intro i j inside inside' before blocks
      have after := inOrder _ (List.getElem_mem inside) _ (List.getElem_mem inside') blocks
      rw [nodup.idxOf_getElem, nodup.idxOf_getElem] at after
      omega
    next => exact fun node inside blocks => Nat.lt_irrefl _ (inOrder node inside node inside blocks)
  next =>
    rintro ⟨pairwise, loopless⟩ blocked inside blocking inside' blocks
    refine List.idxOf_lt_of_pairwise pairwise inside' inside blocks ?_
    rintro rfl
    exact loopless blocking inside blocks

theorem blockersFirst_iff :
    deps.BlockersFirst order ↔ deps.InOrder order ∧
      ∀ blocked ∈ order, ∀ blocking ∈ deps.blockers blocked, blocking ∈ order := by
  constructor
  next =>
    intro first
    refine ⟨fun blocked inside blocking _ => first blocked inside blocking, ?_⟩
    intro blocked inside blocking blocks
    -- A node that is not listed would have the length of the list as its place.
    rw [← List.idxOf_lt_length_iff]
    exact Nat.lt_trans (first blocked inside blocking blocks) (List.idxOf_lt_length_iff.mpr inside)
  next =>
    rintro ⟨inOrder, closed⟩ blocked inside blocking blocks
    exact inOrder blocked inside blocking (closed blocked inside blocking blocks) blocks

end Dependencies

namespace Rearranged

variable {deps : Dependencies} {order moved : List NodeId}

theorem inOrder (moves : Rearranged deps.blockers order moved) (nodup : order.Nodup) (inOrder : deps.InOrder order) :
    deps.InOrder moved := by
  obtain ⟨pairwise, loopless⟩ := (Dependencies.inOrder_iff nodup).mp inOrder
  rw [Dependencies.inOrder_iff (moves.perm.nodup_iff.mpr nodup)]
  exact ⟨moves.ordered pairwise, fun node inside => loopless node (moves.perm.mem_iff.mp inside)⟩

theorem blockersFirst (moves : Rearranged deps.blockers order moved) (nodup : order.Nodup)
    (first : deps.BlockersFirst order) : deps.BlockersFirst moved := by
  obtain ⟨inOrder, closed⟩ := Dependencies.blockersFirst_iff.mp first
  refine Dependencies.blockersFirst_iff.mpr ⟨moves.inOrder nodup inOrder, ?_⟩
  intro blocked inside blocking blocks
  exact moves.perm.mem_iff.mpr (closed blocked (moves.perm.mem_iff.mp inside) blocking blocks)

end Rearranged

namespace Graph

def placementPasses (graph : Graph) (deps : Dependencies) : List (List NodeId → Nat × List NodeId) :=
  [graph.reorderProbes deps, graph.optimizeMemsets deps, graph.gatherLogical deps, graph.moveFills deps,
    graph.moveSpills deps]

theorem dependents_complete {graph : Graph} (filter : EdgeFilter) {order : List NodeId}
    (known : ∀ node ∈ order, node ∈ graph.nodeIds) : ∀ node ∈ order, ∀ waiting,
      node ∈ (graph.dependencies filter).blockers waiting → waiting ∈ (graph.dependencies filter).dependents node :=
  fun node inside _ blocks => mem_dependents.mpr ⟨known node inside, blocks⟩

theorem placementPasses_rearranged {graph : Graph} {filter : EdgeFilter} {order : List NodeId} (nodup : order.Nodup)
    (known : ∀ node ∈ order, node ∈ graph.nodeIds) :
    ∀ pass ∈ graph.placementPasses (graph.dependencies filter),
      Rearranged (graph.dependencies filter).blockers order (pass order).2 := by
  have complete := dependents_complete filter known
  simp only [placementPasses, List.forall_mem_cons, List.not_mem_nil, false_implies, implies_true, and_true]
  exact ⟨reorderProbes_rearranged nodup, optimizeMemsets_rearranged complete, gatherLogical_rearranged complete,
    moveFills_rearranged complete, moveSpills_rearranged nodup⟩

theorem placementPasses_keep_blockers_first (graph : Graph) (filter : EdgeFilter) {order : List NodeId}
    (nodup : order.Nodup) (known : ∀ node ∈ order, node ∈ graph.nodeIds) :
    ∀ pass ∈ graph.placementPasses (graph.dependencies filter), (pass order).2.Perm order ∧
      ((graph.dependencies filter).InOrder order → (graph.dependencies filter).InOrder (pass order).2) ∧
      ((graph.dependencies filter).BlockersFirst order →
        (graph.dependencies filter).BlockersFirst (pass order).2) := by
  intro pass listed
  have moves := placementPasses_rearranged nodup known pass listed
  exact ⟨moves.perm, moves.inOrder nodup, moves.blockersFirst nodup⟩

-- Each of the five passes finds one node to move.
def spread : GraphDescription :=
  { tensors := [{ name := "zero" }, { name := "weights" }, { name := "rows" }, { name := "input" },
      { name := "product" }, { name := "sum" }]
    nodes := [{ name := "clear", kind := .memset, outputs := ["zero"] },
      { name := "fetch", kind := .dramFill, outputs := ["weights"] },
      { name := "view", kind := .logical, outputs := ["rows"] },
      { name := "load", outputs := ["input"] },
      { name := "multiply", inputs := ["input"], outputs := ["product"] },
      { name := "add", inputs := ["product", "zero", "weights", "rows"], outputs := ["sum"] },
      { name := "check", kind := .nanInfProbe, inputs := ["input"] },
      { name := "store", kind := .dramSpill, inputs := ["product"], barriers := ["clear"] }] }

theorem placementPasses_spread :
    (spread.graph.dependencies .both).BlockersFirst spread.graph.nodeIds ∧
    ∀ pass ∈ spread.graph.placementPasses (spread.graph.dependencies .both),
      (pass spread.graph.nodeIds).1 = 1 ∧ (pass spread.graph.nodeIds).2.Perm spread.graph.nodeIds ∧
        (spread.graph.dependencies .both).BlockersFirst (pass spread.graph.nodeIds).2 := by
  have first : (spread.graph.dependencies .both).BlockersFirst spread.graph.nodeIds := by
    unfold Dependencies.BlockersFirst
    decide +kernel
  have moved : ∀ pass ∈ spread.graph.placementPasses (spread.graph.dependencies .both),
      (pass spread.graph.nodeIds).1 = 1 := by
    simp only [placementPasses, List.forall_mem_cons, List.not_mem_nil, false_implies, implies_true, and_true]
    decide +kernel
  refine ⟨first, fun pass listed => ?_⟩
  obtain ⟨perm, -, kept⟩ :=
    placementPasses_keep_blockers_first spread.graph .both nodup_nodeIds (fun _ inside => inside) pass listed
  exact ⟨moved pass listed, perm, kept first⟩

end Graph

end Dataflow
