import Dataflow.Proofs.Graph.Alias
import Dataflow.Proofs.Graph.History

set_option autoImplicit false

namespace Dataflow.Graph

variable {graph after : Graph}

structure Aged (graph : Graph) : Prop where
  tensorBelow : ∀ {t tensor}, graph.tensors.get? t = some tensor → t.val < graph.nextTensor
  viewsDescend : graph.ViewsDescend

theorem Aged.of_kept (aged : graph.Aged) (nextTensor : after.nextTensor = graph.nextTensor)
    (kept : ∀ t tensor, after.tensors.get? t = some tensor →
      ∃ old, graph.tensors.get? t = some old ∧ old.view = tensor.view) : after.Aged where
  tensorBelow {t tensor} found := by
    obtain ⟨old, there, -⟩ := kept t tensor found
    exact nextTensor ▸ aged.tensorBelow there
  viewsDescend := by
    intro t view viewed
    obtain ⟨tensor, found, own⟩ := Option.bind_eq_some_iff.mp viewed
    obtain ⟨old, there, same⟩ := kept t tensor found
    exact aged.viewsDescend t view (Option.bind_eq_some_iff.mpr ⟨old, there, same.trans own⟩)

theorem Aged.of_map (aged : graph.Aged) {change : TensorId → Tensor → Tensor}
    (nextTensor : after.nextTensor = graph.nextTensor)
    (tensors : ∀ t, after.tensors.get? t = (graph.tensors.get? t).map (change t))
    (views : ∀ t tensor, (change t tensor).view = tensor.view) : after.Aged := by
  refine aged.of_kept nextTensor fun t tensor found => ?_
  rw [tensors] at found
  obtain ⟨old, there, rfl⟩ := Option.map_eq_some_iff.mp found
  exact ⟨old, there, (views t old).symm⟩

theorem Aged.of_push (aged : graph.Aged) {tensor : Tensor} (nextTensor : after.nextTensor = graph.nextTensor + 1)
    (tensors : after.tensors = graph.tensors.insert ⟨graph.nextTensor⟩ tensor)
    (older : ∀ view, tensor.view = some view → view.real.val < graph.nextTensor) : after.Aged := by
  have found (t : TensorId) : after.tensors.get? t =
      if t = ⟨graph.nextTensor⟩ then some tensor else graph.tensors.get? t := by
    rw [tensors, Table.get?_insert_eq]
  constructor
  case tensorBelow =>
    intro t record there
    rw [found] at there
    split at there
    next new => rw [new, nextTensor]; exact Nat.lt_succ_self _
    next => rw [nextTensor]; exact Nat.lt_succ_of_lt (aged.tensorBelow there)
  case viewsDescend =>
    intro t view viewed
    rw [view?, found] at viewed
    split at viewed
    next new => rw [new]; exact older view viewed
    next => exact aged.viewsDescend t view viewed

theorem Aged.annotate (aged : graph.Aged) {id : NodeId} {change : Annotations → Annotations}
    (annotated : graph.annotate id change = .ok after) : after.Aged := by
  obtain ⟨node, -, rfl⟩ := annotate_eq_ok annotated
  exact aged.of_kept rfl fun t tensor found => ⟨tensor, found, rfl⟩

namespace History

theorem Performed.aged {history after : History} {operation : Operation}
    (performed : Performed history operation after) (aged : history.graph.Aged) : after.graph.Aged := by
  cases performed with
  | addTensor => exact aged.of_push rfl rfl (by rintro view ⟨⟩)
  | addAlias edited =>
    obtain ⟨⟨tensor, there⟩, rfl⟩ := addAlias_eq_ok edited
    refine aged.of_push rfl rfl ?_
    rintro view ⟨⟩
    exact aged.tensorBelow there
  | addNode edited =>
    obtain ⟨-, rfl, -⟩ := addNode_eq_ok edited
    exact aged.of_map rfl (get?_tensors_attach _) fun _ _ => rfl
  | addControlEdge edited =>
    obtain ⟨-, -, -, -, -, rfl⟩ := addControlEdge_eq_ok edited
    exact aged.of_push rfl rfl (by rintro view ⟨⟩)
  | removeNode edited =>
    obtain ⟨-, rfl⟩ := removeNode_eq_ok edited
    exact aged.of_map rfl (get?_tensors_detach _) fun _ _ => rfl
  | restoreNothing => exact aged
  | restoreNode _ edited =>
    obtain ⟨-, rfl, -⟩ := restoreNode_eq_ok edited
    exact aged.of_map rfl (get?_tensors_attach _) fun _ _ => rfl
  | replaceNode edited =>
    obtain ⟨node, -, rfl, rfl⟩ := replaceNode_eq_ok edited
    have detached : (history.graph.detach node).Aged := aged.of_map rfl (get?_tensors_detach node) fun _ _ => rfl
    exact detached.of_map rfl (get?_tensors_attach _) fun _ _ => rfl
  | @removeControlEdge t graph edited =>
    -- A view of the dropped tensor stays as it is: it shows a number that is gone.
    have tensors := get?_tensors_removeControlEdge edited
    obtain ⟨-, -, -, -, nextTensor, -⟩ := removeControlEdge_eq_ok edited
    refine aged.of_kept nextTensor fun u tensor found => ?_
    rw [tensors] at found
    split at found
    next => cases found
    next => exact ⟨tensor, found, rfl⟩
  | setBundle edited => exact aged.annotate edited
  | setBarriers edited => exact aged.annotate edited

-- Records from elsewhere can be put back like removed ones.
def runWith (records : List Node) (operations : List Operation) : History :=
  operations.foldl attempt { removed := records }

theorem aged_runWith (records : List Node) (operations : List Operation) : (runWith records operations).graph.Aged := by
  induction operations using List.reverseRecOn with
  | nil =>
    constructor
    next => intro t tensor found; cases found
    next => intro t view viewed; cases viewed
  | append_singleton done operation ih =>
    rw [runWith, List.foldl_concat]
    rcases attempt_cases (runWith records done) operation with ⟨same, -⟩ | success
    next => rw [runWith] at same; rw [same]; exact ih
    next => exact (performed success).aged ih

end History

def Reachable (graph : Graph) : Prop := ∃ records operations, graph = (History.runWith records operations).graph

theorem Reachable.viewsDescend (reachable : graph.Reachable) : graph.ViewsDescend := by
  obtain ⟨records, operations, rfl⟩ := reachable
  exact (History.aged_runWith records operations).viewsDescend

theorem Resolves.view?_eq_none {t real : TensorId} {offset : Nat} (resolves : graph.Resolves t real offset) :
    graph.view? real = none := by
  induction resolves with
  | real own => exact own
  | view _ _ ih => exact ih

theorem realOffset_eq_ite (t : TensorId) : graph.realOffset t =
    if (graph.chainOffsets graph.tensors.size t).sum < 2 ^ 64 then .ok (graph.chainOffsets graph.tensors.size t).sum
    else .error .sumOverflow := by
  rw [realOffset_eq_checkedAdd, Word.checkedAdd, Nat.zero_add]
  exact if_congr Nat.lt_succ_iff.symm rfl rfl

section

variable (descends : graph.ViewsDescend)
include descends

theorem ViewsDescend.realTensor_idempotent (t : TensorId) :
    graph.realTensor (graph.realTensor t) = graph.realTensor t := by
  -- The end of a chain is a chain of its own without links, and chains are unique.
  have own := (descends.resolves t).view?_eq_none
  exact ((descends.resolves (graph.realTensor t)).unique (.real own)).1

theorem ViewsDescend.resolution_of_view {t : TensorId} {view : Alias} (viewed : graph.view? t = some view) :
    graph.realTensor t = graph.realTensor view.real ∧ (graph.chainOffsets graph.tensors.size t).sum =
      view.offset + (graph.chainOffsets graph.tensors.size view.real).sum :=
  (descends.resolves t).unique (.view viewed (descends.resolves view.real))

end

theorem resolution_never_cut_short (reachable : graph.Reachable) (t : TensorId) :
    ∃ sum, graph.Resolves t (graph.realTensor t) sum ∧
      graph.realOffset t = (if sum < 2 ^ 64 then .ok sum else .error .sumOverflow) ∧
      (graph.tensors.get? (graph.realTensor t) = none ∨
        ∃ tensor, graph.tensors.get? (graph.realTensor t) = some tensor ∧ tensor.view = none) ∧
      graph.realTensor (graph.realTensor t) = graph.realTensor t ∧
      ∀ tensor view, graph.tensors.get? t = some tensor → tensor.view = some view →
        graph.realTensor t = graph.realTensor view.real ∧
          (sum < 2 ^ 64 → ∃ rest, graph.realOffset view.real = .ok rest ∧
            graph.realOffset t = .ok (view.offset + rest)) := by
  have descends := reachable.viewsDescend
  have resolves := descends.resolves t
  refine ⟨_, resolves, realOffset_eq_ite t, ?_, descends.realTensor_idempotent t, ?_⟩
  next =>
    have own := resolves.view?_eq_none
    rw [view?, Option.bind_eq_none_iff] at own
    cases found : graph.tensors.get? (graph.realTensor t) with
    | none => exact Or.inl rfl
    | some tensor => exact Or.inr ⟨tensor, rfl, own tensor found⟩
  next =>
    intro tensor view found views
    obtain ⟨real, sum⟩ := descends.resolution_of_view (Option.bind_eq_some_iff.mpr ⟨tensor, found, views⟩)
    refine ⟨real, fun fits => ⟨(graph.chainOffsets graph.tensors.size view.real).sum, ?_, ?_⟩⟩
    next => rw [realOffset_eq_ite, if_pos (by omega)]
    next => rw [realOffset_eq_ite, if_pos fits, sum]

-- Two views on top of a control edge that is dropped below them.
def droppedBase : List Operation :=
  [.addNode { name := "load" } [] [], .addNode { name := "store" } [] [], .addControlEdge ⟨0⟩ ⟨1⟩ .schedule,
    .addAlias "upper" 32 ⟨0⟩ 8, .addAlias "top" 8 ⟨1⟩ 16, .removeControlEdge ⟨0⟩]

def droppedBaseGraph : Graph := (History.runWith [] droppedBase).graph

theorem resolution_droppedBase :
    droppedBaseGraph.tensors.size = 2 ∧ droppedBaseGraph.tensors.get? ⟨0⟩ = none ∧
      droppedBaseGraph.realWithin 1 ⟨2⟩ = ⟨1⟩ ∧ droppedBaseGraph.realTensor ⟨2⟩ = ⟨0⟩ ∧
      droppedBaseGraph.Resolves ⟨2⟩ ⟨0⟩ 24 ∧ droppedBaseGraph.realOffset ⟨1⟩ = .ok 8 ∧
      droppedBaseGraph.realOffset ⟨2⟩ = .ok (16 + 8) := by
  have upper : droppedBaseGraph.view? ⟨1⟩ = some { real := ⟨0⟩, offset := 8 } := rfl
  have top : droppedBaseGraph.view? ⟨2⟩ = some { real := ⟨1⟩, offset := 16 } := rfl
  -- The chain of the upper view has as many links as there are tensors left, and ends at the number that is gone.
  obtain ⟨sum, resolves, -, -, -, viewed⟩ := resolution_never_cut_short ⟨[], droppedBase, rfl⟩ ⟨2⟩
  obtain ⟨-, rfl⟩ := resolves.unique (.view top (.view upper (.real rfl)))
  obtain ⟨-, further⟩ := viewed _ { real := ⟨1⟩, offset := 16 } rfl rfl
  obtain ⟨rest, below, above⟩ := further (by decide)
  have same : rest = 8 := Except.ok.inj (below.symm.trans rfl)
  subst same
  exact ⟨rfl, rfl, rfl, rfl, resolves, below, above⟩

end Dataflow.Graph
