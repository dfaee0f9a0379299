import Dataflow.Proofs.Graph.Disconnect
import Dataflow.Proofs.Results
import Mathlib.Data.List.Induction

set_option autoImplicit false

namespace Dataflow.Graph

inductive Operation where
  | addTensor (name : String) (sizeBytes : Nat)
  | addAlias (name : String) (sizeBytes : Nat) (real : TensorId) (offset : Nat)
  | addNode (spec : NodeSpec) (inputs outputs : List TensorId)
  | addControlEdge (blocking blocked : NodeId) (type : ControlType)
  | removeNode (id : NodeId)
  -- Puts back the record that the removal at this position has returned.
  | restoreNode (position : Nat)
  | replaceNode (old : NodeId) (spec : NodeSpec)
  | removeControlEdge (t : TensorId)
  | setBundle (id : NodeId) (bundle : Option BundleInfo)
  | setBarriers (id : NodeId) (barriers : List NodeId)

structure History where
  graph : Graph := {}
  removed : List Node := []

namespace History

def perform (history : History) : Operation → Except GraphError History
  | .addTensor name sizeBytes => return { history with graph := (history.graph.addTensor name sizeBytes).2 }
  | .addAlias name sizeBytes real offset => do
    let (_, graph) ← history.graph.addAlias name sizeBytes real offset
    return { history with graph }
  | .addNode spec inputs outputs => do
    let (_, graph) ← history.graph.addNode spec inputs outputs
    return { history with graph }
  | .addControlEdge blocking blocked type => do
    let (_, graph) ← history.graph.addControlEdge blocking blocked type
    return { history with graph }
  | .removeNode id => do
    let (node, graph) ← history.graph.removeNode id
    return { graph, removed := history.removed ++ [node] }
  | .restoreNode position =>
    match history.removed[position]? with
    | none => return history
    | some record => return { history with graph := ← history.graph.restoreNode record }
  | .replaceNode old spec => do
    let (_, graph) ← history.graph.replaceNode old spec
    return { history with graph }
  | .removeControlEdge t => return { history with graph := ← history.graph.removeControlEdge t }
  | .setBundle id bundle => return { history with graph := ← history.graph.setBundle id bundle }
  | .setBarriers id barriers => return { history with graph := ← history.graph.setBarriers id barriers }

def attempt (history : History) (operation : Operation) : History :=
  match history.perform operation with
  | .ok after => after
  | .error _ => history

def run (operations : List Operation) : History := operations.foldl attempt {}

-- Takes away a tensor that some node lists as data, or brings back a reader of a tensor that is gone.
def Dangles (history : History) (operation : Operation) : Prop :=
  (∃ after, history.perform operation = .ok after) ∧
    match operation with
    | .removeControlEdge t =>
      ∃ id node, history.graph.nodes.get? id = some node ∧ (t ∈ node.inputs ∨ t ∈ node.outputs)
    | .restoreNode position =>
      ∃ record t, history.removed[position]? = some record ∧ t ∈ record.allInputs ∧
        history.graph.tensors.get? t = none
    | _ => False

variable {history after : History} {operation : Operation}

inductive Performed (history : History) : Operation → History → Prop
  | addTensor (name : String) (sizeBytes : Nat) :
    Performed history (.addTensor name sizeBytes) { history with graph := (history.graph.addTensor name sizeBytes).2 }
  | addAlias {name : String} {sizeBytes : Nat} {real id : TensorId} {offset : Nat} {graph : Graph}
    (edited : history.graph.addAlias name sizeBytes real offset = .ok (id, graph)) :
    Performed history (.addAlias name sizeBytes real offset) { history with graph }
  | addNode {spec : NodeSpec} {inputs outputs : List TensorId} {id : NodeId} {graph : Graph}
    (edited : history.graph.addNode spec inputs outputs = .ok (id, graph)) :
    Performed history (.addNode spec inputs outputs) { history with graph }
  | addControlEdge {blocking blocked : NodeId} {type : ControlType} {t : TensorId} {graph : Graph}
    (edited : history.graph.addControlEdge blocking blocked type = .ok (t, graph)) :
    Performed history (.addControlEdge blocking blocked type) { history with graph }
  | removeNode {id : NodeId} {node : Node} {graph : Graph} (edited : history.graph.removeNode id = .ok (node, graph)) :
    Performed history (.removeNode id) { graph, removed := history.removed ++ [node] }
  | restoreNothing {position : Nat} (absent : history.removed[position]? = none) :
    Performed history (.restoreNode position) history
  | restoreNode {position : Nat} {record : Node} {graph : Graph} (kept : history.removed[position]? = some record)
    (edited : history.graph.restoreNode record = .ok graph) :
    Performed history (.restoreNode position) { history with graph }
  | replaceNode {old id : NodeId} {spec : NodeSpec} {graph : Graph}
    (edited : history.graph.replaceNode old spec = .ok (id, graph)) :
    Performed history (.replaceNode old spec) { history with graph }
  | removeControlEdge {t : TensorId} {graph : Graph} (edited : history.graph.removeControlEdge t = .ok graph) :
    Performed history (.removeControlEdge t) { history with graph }
  | setBundle {id : NodeId} {bundle : Option BundleInfo} {graph : Graph}
    (edited : history.graph.setBundle id bundle = .ok graph) :
    Performed history (.setBundle id bundle) { history with graph }
  | setBarriers {id : NodeId} {barriers : List NodeId} {graph : Graph}
    (edited : history.graph.setBarriers id barriers = .ok graph) :
    Performed history (.setBarriers id barriers) { history with graph }

theorem performed (success : history.perform operation = .ok after) : Performed history operation after := by
  cases operation with
  | addTensor name sizeBytes => cases success; exact .addTensor name sizeBytes
  | addAlias | addNode | addControlEdge | removeNode | replaceNode =>
    obtain ⟨⟨_, graph⟩, edited, rest⟩ := bind_eq_ok.mp success
    cases rest
    constructor
    exact edited
  | removeControlEdge | setBundle | setBarriers =>
    obtain ⟨graph, edited, rest⟩ := bind_eq_ok.mp success
    cases rest
    constructor
    exact edited
  | restoreNode position =>
    rw [perform] at success
    split at success
    next absent => cases success; exact .restoreNothing absent
    next record kept =>
      obtain ⟨graph, edited, rest⟩ := bind_eq_ok.mp success
      cases rest
      exact .restoreNode kept edited

theorem attempt_cases (history : History) (operation : Operation) :
    history.attempt operation = history ∧ (∀ after, history.perform operation ≠ .ok after) ∨
      history.perform operation = .ok (history.attempt operation) := by
  unfold attempt
  cases history.perform operation with
  | error => exact Or.inl ⟨rfl, by simp⟩
  | ok after => exact Or.inr rfl

theorem run_append (operations : List Operation) (operation : Operation) :
    run (operations ++ [operation]) = (run operations).attempt operation := by
  rw [run, List.foldl_append]
  rfl

structure Keeps (graph after : Graph) : Prop where
  nextTensor : graph.nextTensor ≤ after.nextTensor
  kept : ∀ {t tensor}, graph.tensors.get? t = some tensor → ∃ later, after.tensors.get? t = some later
  fresh : ∀ {t : TensorId}, graph.nextTensor ≤ t.val → t.val < after.nextTensor →
    ∃ tensor, after.tensors.get? t = some tensor

theorem Keeps.of_map {graph after : Graph} {change : TensorId → Tensor → Tensor}
    (nextTensor : after.nextTensor = graph.nextTensor)
    (tensors : ∀ t, after.tensors.get? t = (graph.tensors.get? t).map (change t)) : Keeps graph after where
  nextTensor := Nat.le_of_eq nextTensor.symm
  kept {t _} found := ⟨_, by rw [tensors t, found]; rfl⟩
  fresh above below := by omega

theorem Keeps.of_same {graph after : Graph} (nextTensor : after.nextTensor = graph.nextTensor)
    (tensors : after.tensors = graph.tensors) : Keeps graph after where
  nextTensor := Nat.le_of_eq nextTensor.symm
  kept found := ⟨_, by rw [tensors]; exact found⟩
  fresh above below := by omega

theorem Keeps.of_push {graph after : Graph} {tensor : Tensor} (nextTensor : after.nextTensor = graph.nextTensor + 1)
    (tensors : after.tensors = graph.tensors.insert ⟨graph.nextTensor⟩ tensor) : Keeps graph after where
  nextTensor := by omega
  kept {t _} found := by
    rw [tensors, Table.get?_insert_eq]
    by_cases new : t = ⟨graph.nextTensor⟩
    next => exact ⟨_, if_pos new⟩
    next => exact ⟨_, (if_neg new).trans found⟩
  fresh {t} above below := by
    have new : t = ⟨graph.nextTensor⟩ := Ident.ext (show t.val = graph.nextTensor by omega)
    rw [tensors, Table.get?_insert_eq, if_pos new]
    exact ⟨_, rfl⟩

theorem Keeps.trans {graph between after : Graph} (first : Keeps graph between) (second : Keeps between after) :
    Keeps graph after where
  nextTensor := Nat.le_trans first.nextTensor second.nextTensor
  kept found := by
    obtain ⟨later, there⟩ := first.kept found
    exact second.kept there
  fresh {t} above below := by
    by_cases early : t.val < between.nextTensor
    next =>
      obtain ⟨tensor, there⟩ := first.fresh above early
      exact second.kept there
    next => exact second.fresh (Nat.le_of_not_lt early) below

theorem keeps_annotate {graph after : Graph} {id : NodeId} {change : Annotations → Annotations}
    (annotated : graph.annotate id change = .ok after) : Keeps graph after := by
  obtain ⟨node, -, rfl⟩ := annotate_eq_ok annotated
  exact .of_same rfl rfl

theorem Performed.keeps (performed : Performed history operation after) :
    Keeps history.graph after.graph ∨
      ∃ t, operation = .removeControlEdge t ∧ after.graph.nextTensor = history.graph.nextTensor ∧
        ∀ u ≠ t, after.graph.tensors.get? u = history.graph.tensors.get? u := by
  cases performed with
  | addTensor => exact Or.inl (.of_push rfl rfl)
  | addAlias edited =>
    obtain ⟨-, rfl⟩ := addAlias_eq_ok edited
    exact Or.inl (.of_push rfl rfl)
  | addNode edited =>
    obtain ⟨-, rfl, -⟩ := addNode_eq_ok edited
    exact Or.inl (.of_map rfl (get?_tensors_attach _))
  | addControlEdge edited =>
    obtain ⟨-, -, -, -, -, rfl⟩ := addControlEdge_eq_ok edited
    exact Or.inl (.of_push rfl rfl)
  | removeNode edited =>
    obtain ⟨-, rfl⟩ := removeNode_eq_ok edited
    exact Or.inl (.of_map rfl (get?_tensors_detach _))
  | restoreNothing => exact Or.inl (.of_same rfl rfl)
  | restoreNode _ edited =>
    obtain ⟨-, rfl, -⟩ := restoreNode_eq_ok edited
    exact Or.inl (.of_map rfl (get?_tensors_attach _))
  | replaceNode edited =>
    obtain ⟨node, -, rfl, rfl⟩ := replaceNode_eq_ok edited
    have freed : Keeps history.graph (history.graph.detach node) := .of_map rfl (get?_tensors_detach node)
    exact Or.inl (freed.trans (.of_map rfl (get?_tensors_attach _)))
  | @removeControlEdge t graph edited =>
    refine Or.inr ⟨t, rfl, ?_, ?_⟩
    next =>
      obtain ⟨-, -, -, -, same, -⟩ := removeControlEdge_eq_ok edited
      exact same
    next =>
      intro u other
      rw [get?_tensors_removeControlEdge edited, if_neg other]
  | setBundle edited => exact Or.inl (keeps_annotate edited)
  | setBarriers edited => exact Or.inl (keeps_annotate edited)

theorem Performed.nextTensor_le (performed : Performed history operation after) :
    history.graph.nextTensor ≤ after.graph.nextTensor := by
  rcases performed.keeps with keeps | ⟨_, _, same, _⟩
  next => exact keeps.nextTensor
  next => exact Nat.le_of_eq same.symm

structure Sound (history : History) : Prop where
  linked : history.graph.Linked
  older : ∀ record ∈ history.removed, ∀ t, t ∈ record.allInputs ∨ t ∈ record.allOutputs →
    t.val < history.graph.nextTensor

theorem Sound.performed (sound : history.Sound) (performed : Performed history operation after) : after.Sound := by
  have grows := performed.nextTensor_le
  have older : ∀ record ∈ history.removed, ∀ t, t ∈ record.allInputs ∨ t ∈ record.allOutputs →
      t.val < after.graph.nextTensor :=
    fun record kept t listed => Nat.lt_of_lt_of_le (sound.older record kept t listed) grows
  have linked := sound.linked
  cases performed with
  | addTensor name sizeBytes => exact ⟨linked.addTensor name sizeBytes, older⟩
  | addAlias edited => exact ⟨linked.addAlias edited, older⟩
  | addNode edited => exact ⟨linked.addNode edited, older⟩
  | @addControlEdge _ _ type _ _ edited =>
    obtain ⟨-, blockingThere, blockedThere, -, -, rfl⟩ := addControlEdge_eq_ok edited
    exact ⟨linked.withControl type blockingThere blockedThere, older⟩
  | removeNode edited =>
    refine ⟨linked.removeNode edited, ?_⟩
    intro record kept t listed
    rcases List.mem_append.mp kept with before | last
    next => exact older record before t listed
    next =>
      obtain rfl := List.mem_singleton.mp last
      obtain ⟨present, -⟩ := removeNode_eq_ok edited
      exact Nat.lt_of_lt_of_le (linked.listedBelow present listed) grows
  | restoreNothing => exact sound
  | restoreNode kept edited =>
    exact ⟨linked.restoreNode edited (sound.older _ (List.mem_of_getElem? kept)), older⟩
  | replaceNode edited => exact ⟨linked.replaceNode edited, older⟩
  | removeControlEdge edited => exact ⟨linked.removeControlEdge edited, older⟩
  | setBundle edited => exact ⟨linked.annotate edited, older⟩
  | setBarriers edited => exact ⟨linked.annotate edited, older⟩

theorem Performed.consistent (performed : Performed history operation after) (consistent : history.graph.Consistent)
    (sane : ¬ history.Dangles operation) (success : history.perform operation = .ok after) :
    after.graph.Consistent := by
  cases performed with
  | addTensor name sizeBytes => exact consistent.addTensor name sizeBytes
  | addAlias edited => exact consistent.addAlias edited
  | addNode edited => exact consistent.addNode edited
  | @addControlEdge _ _ type _ _ edited =>
    obtain ⟨-, blockingThere, blockedThere, -, -, rfl⟩ := addControlEdge_eq_ok edited
    exact consistent.withControl type blockingThere blockedThere
  | removeNode edited => exact consistent.removeNode edited
  | restoreNothing => exact consistent
  | @restoreNode position record graph kept edited =>
    refine consistent.restoreNode edited fun t reads => ?_
    rw [← Option.ne_none_iff_exists']
    exact fun gone => sane ⟨⟨_, success⟩, record, t, kept, reads, gone⟩
  | replaceNode edited => exact consistent.replaceNode edited
  | removeControlEdge edited =>
    refine consistent.removeControlEdge edited fun {id node} present => ?_
    constructor
    next => exact fun reads => sane ⟨⟨_, success⟩, id, node, present, Or.inl reads⟩
    next => exact fun writes => sane ⟨⟨_, success⟩, id, node, present, Or.inr writes⟩
  | setBundle edited => exact consistent.annotate edited
  | setBarriers edited => exact consistent.annotate edited

theorem not_consistent_of_dangles (dangles : history.Dangles operation) :
    ¬ (history.attempt operation).graph.Consistent := by
  intro consistent
  obtain ⟨⟨after, success⟩, dangling⟩ := dangles
  have attempted : history.attempt operation = after := by rw [attempt, success]
  rw [attempted] at consistent
  cases performed success with
  | addTensor | addAlias | addNode | addControlEdge | removeNode | replaceNode | setBundle | setBarriers =>
    exact dangling
  | restoreNothing absent =>
    obtain ⟨record, t, kept, -⟩ := dangling
    cases absent.symm.trans kept
  | @restoreNode _ record graph kept edited =>
    obtain ⟨_, t, kept', reads, gone⟩ := dangling
    cases kept.symm.trans kept'
    obtain ⟨-, rfl, -⟩ := restoreNode_eq_ok edited
    obtain ⟨tensor, there⟩ := consistent.listed ((get?_nodes_attach record record.id).trans (if_pos rfl)) (Or.inl reads)
    rw [get?_tensors_attach, gone] at there
    cases there
  | @removeControlEdge t graph edited =>
    obtain ⟨id, node, present, data⟩ := dangling
    have gone := get?_tensors_removeControlEdge edited t
    rw [if_pos rfl] at gone
    obtain ⟨tensor, -, -, -, -, nodes⟩ := removeControlEdge_eq_ok edited
    have later : graph.nodes.get? id = some (parted tensor t id node) := by rw [nodes, present]; rfl
    have listed : t ∈ (parted tensor t id node).allInputs ∨ t ∈ (parted tensor t id node).allOutputs :=
      data.imp (List.mem_append_left _) (List.mem_append_left _)
    obtain ⟨found, there⟩ := consistent.listed later listed
    cases gone.symm.trans there

theorem sound_run (operations : List Operation) : (run operations).Sound := by
  induction operations using List.reverseRecOn with
  | nil => exact ⟨consistent_empty.toLinked, by rintro record ⟨⟩⟩
  | append_singleton done operation ih =>
    rw [run_append]
    rcases attempt_cases (run done) operation with ⟨same, -⟩ | success
    next => rw [same]; exact ih
    next => exact ih.performed (performed success)

theorem there_or_dropped (operations : List Operation) {t : TensorId}
    (numbered : t.val < (run operations).graph.nextTensor) :
    (∃ tensor, (run operations).graph.tensors.get? t = some tensor) ∨
      ∃ done rest after, operations = done ++ .removeControlEdge t :: rest ∧
        (run done).perform (.removeControlEdge t) = .ok after := by
  induction operations using List.reverseRecOn with
  | nil => exact absurd numbered (Nat.not_lt_zero _)
  | append_singleton before operation ih =>
    rw [run_append] at numbered ⊢
    -- A removal among the earlier operations is one among all of them.
    have earlier (dropped : ∃ done rest after, before = done ++ .removeControlEdge t :: rest ∧
        (run done).perform (.removeControlEdge t) = .ok after) :
        ∃ done rest after, before ++ [operation] = done ++ .removeControlEdge t :: rest ∧
          (run done).perform (.removeControlEdge t) = .ok after := by
      obtain ⟨done, rest, after, rfl, dropped⟩ := dropped
      exact ⟨done, rest ++ [operation], after, by simp, dropped⟩
    rcases attempt_cases (run before) operation with ⟨same, -⟩ | success
    next =>
      rw [same] at numbered ⊢
      exact (ih numbered).imp_right earlier
    next =>
      rcases (performed success).keeps with keeps | ⟨u, rfl, nextTensor, others⟩
      next =>
        by_cases old : t.val < (run before).graph.nextTensor
        next =>
          rcases ih old with ⟨tensor, there⟩ | dropped
          next => exact Or.inl (keeps.kept there)
          next => exact Or.inr (earlier dropped)
        next => exact Or.inl (keeps.fresh (Nat.le_of_not_lt old) numbered)
      next =>
        -- Only a removed control edge takes a tensor away, and then it is the one that was named.
        by_cases own : t = u
        next => subst own; exact Or.inr ⟨before, [], _, rfl, success⟩
        next =>
          rw [others t own]
          exact (ih (nextTensor ▸ numbered)).imp_right earlier

theorem consistent_run {operations : List Operation}
    (sane : ∀ done operation rest, operations = done ++ operation :: rest → ¬ (run done).Dangles operation) :
    (run operations).graph.Consistent := by
  induction operations using List.reverseRecOn with
  | nil => exact consistent_empty
  | append_singleton before operation ih =>
    have consistent := ih fun done next rest split => sane done next (rest ++ [operation]) (by rw [split]; simp)
    rw [run_append]
    rcases attempt_cases (run before) operation with ⟨same, -⟩ | success
    next => rw [same]; exact consistent
    next => exact (performed success).consistent consistent (sane before operation [] rfl) success

theorem run_consistent_iff_nothing_dangles (operations : List Operation) :
    (run operations).graph.Linked ∧
      ((∀ done rest, operations = done ++ rest → (run done).graph.Consistent) ↔
        ∀ done operation rest, operations = done ++ operation :: rest → ¬ (run done).Dangles operation) ∧
      ∀ id node t, (run operations).graph.nodes.get? id = some node → t ∈ node.allInputs ∨ t ∈ node.allOutputs →
        (∃ tensor, (run operations).graph.tensors.get? t = some tensor) ∨
          ∃ done rest after, operations = done ++ .removeControlEdge t :: rest ∧
            (run done).perform (.removeControlEdge t) = .ok after := by
  refine ⟨(sound_run operations).linked, ⟨?_, ?_⟩, ?_⟩
  next =>
    intro consistent done operation rest split dangles
    refine not_consistent_of_dangles dangles ?_
    rw [← run_append]
    exact consistent (done ++ [operation]) rest (by rw [split]; simp)
  next =>
    intro sane done rest split
    refine consistent_run fun earlier operation between split' => ?_
    exact sane earlier operation (between ++ rest) (by rw [split, split']; simp)
  next =>
    intro id node t present listed
    exact there_or_dropped operations ((sound_run operations).linked.listedBelow present listed)

-- A third node reads the control edge between the first two as data, and the edge is dropped.
def staleRead : List Operation :=
  [.addNode { name := "load" } [] [], .addNode { name := "store" } [] [], .addControlEdge ⟨0⟩ ⟨1⟩ .schedule,
    .addNode { name := "watch" } [⟨0⟩] [], .removeControlEdge ⟨0⟩]

theorem run_staleRead :
    ¬ (run staleRead).graph.Consistent ∧ (run staleRead).graph.Linked ∧
      ∃ done rest after, staleRead = done ++ .removeControlEdge ⟨0⟩ :: rest ∧
        (run done).perform (.removeControlEdge ⟨0⟩) = .ok after := by
  obtain ⟨linked, -, dropped⟩ := run_consistent_iff_nothing_dangles staleRead
  have gone : (run staleRead).graph.tensors.get? ⟨0⟩ = none := rfl
  obtain ⟨node, present, reads⟩ :
      ∃ node, (run staleRead).graph.nodes.get? ⟨2⟩ = some node ∧ ⟨0⟩ ∈ node.allInputs :=
    ⟨_, rfl, by decide⟩
  refine ⟨?_, linked, ?_⟩
  next =>
    intro consistent
    obtain ⟨tensor, there⟩ := consistent.listed present (Or.inl reads)
    cases gone.symm.trans there
  next =>
    rcases dropped ⟨2⟩ node ⟨0⟩ present (Or.inl reads) with ⟨tensor, there⟩ | dropped
    next => cases gone.symm.trans there
    next => exact dropped

end History

end Dataflow.Graph
