import Dataflow.Proofs.Description.Build
import Dataflow.Proofs.Gaudi.Steps
import Dataflow.Proofs.MemoryOriented.Run
import Dataflow.Proofs.PathMetrics
import Dataflow.Proofs.Schedule.DepthFirst
import Dataflow.Proofs.Schedule.Placement
import Dataflow.Proofs.Schedule.Validity
import Dataflow.Proofs.Workspace.FlashAttention

set_option autoImplicit false

namespace Dataflow

structure Graph.Settles (graph : Graph) (answer : Except ScheduleError (List NodeId)) : Prop where
  orders : Acyclic (graph.Blocks .both) →
    ∃ order, answer = .ok order ∧ (graph.dependencies .both).network.IsOrder order
  refuses : ¬ Acyclic (graph.Blocks .both) → ∃ placed, answer = .error (.notAllScheduled placed graph.size)

namespace Graph

variable {graph : Graph}

theorem settles_of_stuck (linked : graph.Linked) {answer : Except ScheduleError (List NodeId)}
    (exhausts : ∃ placed, answer = requireAll (graph.dependencies .both).network.nodes.length placed ∧
      (graph.dependencies .both).network.Progress placed ∧
      ∀ node, ¬ (graph.dependencies .both).network.Free placed node) : graph.Settles answer := by
  obtain ⟨placed, rfl, progress, stuck⟩ := exhausts
  have outcome := requireAll_of_stuck (sound_network linked .both) (network_loopless linked .both) progress stuck
  rw [blocks_network linked] at outcome
  constructor
  case orders => exact fun acyclic => ⟨placed, outcome.1 acyclic⟩
  case refuses =>
    intro cyclic
    refine ⟨placed.length, (outcome.2 cyclic).trans ?_⟩
    rw [nodes_network, length_nodeIds]

theorem settles_bind {α : Type} {first : Except ScheduleError α} {next : α → Except ScheduleError (List NodeId)}
    (succeeds : Acyclic (graph.Blocks .both) → ∃ value, first = .ok value)
    (fails : ¬ Acyclic (graph.Blocks .both) → first = .error (.notAllScheduled 0 graph.size))
    (later : ∀ value, Acyclic (graph.Blocks .both) → graph.Settles (next value)) : graph.Settles (first >>= next) := by
  constructor
  case orders =>
    intro acyclic
    obtain ⟨value, rfl⟩ := succeeds acyclic
    exact (later value acyclic).orders acyclic
  case refuses => exact fun cyclic => ⟨0, by rw [fails cyclic]; rfl⟩

theorem Settles.rearrange {answer : Except ScheduleError (List NodeId)} (settles : graph.Settles answer)
    (pass : List NodeId → List NodeId)
    (moves : ∀ {order}, (graph.dependencies .both).network.IsOrder order →
      (graph.dependencies .both).network.IsOrder (pass order)) :
    graph.Settles (do return pass (← answer)) := by
  constructor
  case orders =>
    intro acyclic
    obtain ⟨order, rfl, valid⟩ := settles.orders acyclic
    exact ⟨pass order, rfl, moves valid⟩
  case refuses =>
    intro cyclic
    obtain ⟨placed, rfl⟩ := settles.refuses cyclic
    exact ⟨placed, rfl⟩

theorem settles_maxPath (linked : graph.Linked) (weight : PathWeight) (byParent : Bool) :
    graph.Settles (graph.scheduleMaxPath weight byParent) := by
  obtain ⟨computes, fails⟩ := pathMetrics_eq linked .both weight
  refine settles_bind (fun acyclic => (computes acyclic).imp fun _ => And.left) fails fun metrics _ => ?_
  exact settles_of_stuck linked (BreadthFirst.run_exhausts _ (sound_network linked .both))

theorem isOrder_place (linked : graph.Linked) (config : ScheduleConfig) {order : List NodeId}
    (valid : (graph.dependencies .both).network.IsOrder order) :
    (graph.dependencies .both).network.IsOrder (Gaudi.place graph (graph.dependencies .both) config order) := by
  have converse {blocking blocked : NodeId} : blocking ∈ (graph.dependencies .both).blockers blocked →
      blocked ∈ (graph.dependencies .both).dependents blocking :=
    (sound_network linked .both).converse.mp
  have probed : (graph.dependencies .both).network.IsOrder
      (if config.reorderProbes then (graph.reorderProbes (graph.dependencies .both) order).2 else order) := by
    split
    next => exact (reorderProbes_rearranged valid.nodup).isOrder valid
    next => exact valid
  unfold Gaudi.place
  dsimp only
  split
  next => exact (optimizeMemsets_rearranged fun _ _ _ => converse).isOrder probed
  next => exact probed

theorem settles_gaudi (linked : graph.Linked) (fits : graph.OffsetsFit) (config : ScheduleConfig) :
    graph.Settles (graph.scheduleGaudi config) := by
  have settled (metrics : Option PathMetrics) : graph.Settles (do
      return Gaudi.place graph (graph.dependencies .both) config
        (← Gaudi.run graph (graph.dependencies .both) (graph.gaudiKey config.parentIdSchedule metrics))) := by
    refine Settles.rearrange (settles_of_stuck linked ?_) _ (isOrder_place linked config)
    exact Gaudi.run_exhausts linked fits (sound_network linked .both) (size_dependencies .both) _
  unfold scheduleGaudi
  cases config.maxPathSchedule with
  | false => exact settled none
  | true =>
    obtain ⟨computes, fails⟩ := pathMetrics_eq linked .both config.maxPathWeight
    refine settles_bind ?_ ?_ fun metrics _ => settled metrics
    next =>
      intro acyclic
      obtain ⟨metrics, computed, -⟩ := computes acyclic
      exact ⟨some metrics, by rw [computed]; rfl⟩
    next => exact fun cyclic => by rw [fails cyclic]; rfl

theorem settles_memoryOriented (linked : graph.Linked) (offsets : graph.OffsetsFit) (sizes : graph.SizesFit)
    (config : ScheduleConfig) : graph.Settles (graph.scheduleMemoryOriented config) := by
  unfold scheduleMemoryOriented
  split
  next => exact settles_gaudi linked offsets config
  next =>
    obtain ⟨orders, fails⟩ := orderForPaths_eq linked .both
    refine settles_bind (fun acyclic => (orders acyclic).imp fun _ => And.left) fails fun order acyclic => ?_
    have converse {blocking blocked : NodeId} : blocking ∈ (graph.dependencies .both).blockers blocked →
        blocked ∈ (graph.dependencies .both).dependents blocking :=
      (sound_network linked .both).converse.mp
    refine Settles.rearrange ⟨?_, ?_⟩ (fun order =>
      (graph.moveSpills (graph.dependencies .both) (graph.moveFills (graph.dependencies .both) order).2).2) ?_
    next =>
      intro _
      exact MemoryOriented.run_ok sizes (sound_network linked .both) (by rwa [blocks_network linked])
        (nodes_network .both) config.ioInDram
    next => exact fun cyclic => absurd acyclic cyclic
    next =>
      intro order valid
      have filled : (graph.dependencies .both).network.IsOrder (graph.moveFills (graph.dependencies .both) order).2 :=
        (moveFills_rearranged fun _ _ _ => converse).isOrder valid
      exact (moveSpills_rearranged filled.nodup).isOrder filled

theorem settles_scheduleNodes (linked : graph.Linked) (offsets : graph.OffsetsFit) (sizes : graph.SizesFit)
    (strategy : Strategy) (config : ScheduleConfig) : graph.Settles (graph.scheduleNodes strategy config) := by
  cases strategy with
  | bfs => exact settles_of_stuck linked (BreadthFirst.run_exhausts _ (sound_network linked .both))
  | dfs => exact settles_of_stuck linked (DepthFirst.run_exhausts _ (sound_network linked .both))
  | maxPath => exact settles_maxPath linked config.maxPathWeight config.parentIdSchedule
  | gaudi => exact settles_gaudi linked offsets config
  | memoryOriented => exact settles_memoryOriented linked offsets sizes config

theorem Settles.validated {answer : Except ScheduleError (List NodeId)} (linked : graph.Linked)
    (settles : graph.Settles answer) :
    graph.Settles (do let order ← answer; graph.validateSchedule order; return order) := by
  constructor
  case orders =>
    intro acyclic
    obtain ⟨order, rfl, valid⟩ := settles.orders acyclic
    refine ⟨order, ?_, valid⟩
    show (graph.validateSchedule order >>= fun _ => _) = _
    rw [validateSchedule_eq_ok linked valid]
    rfl
  case refuses =>
    intro cyclic
    obtain ⟨placed, rfl⟩ := settles.refuses cyclic
    exact ⟨placed, rfl⟩

theorem GainsControls.sizesFit {after : Graph} {type : ControlType} {pairs : List (NodeId × NodeId)}
    (gains : GainsControls type graph pairs after) (consistent : graph.Consistent) (fits : graph.SizesFit) :
    after.SizesFit := by
  have total {tensors : List TensorId} (known : ∀ t ∈ tensors, ∃ tensor, graph.tensors.get? t = some tensor) :
      after.totalSize tensors = graph.totalSize tensors := by
    unfold totalSize
    rw [List.filterMap_congr fun t listed => ?_]
    obtain ⟨tensor, found⟩ := known t listed
    rw [gains.get?_tensors consistent found, found]
  intro id node found
  obtain ⟨before, present, _, _, rfl⟩ := gains.get?_nodes found
  obtain ⟨inputs, outputs⟩ := fits id before present
  have inputsThere : ∀ t ∈ before.inputs, ∃ tensor, graph.tensors.get? t = some tensor :=
    fun t listed => consistent.listed present (Or.inl (List.mem_append_left _ listed))
  have outputsThere : ∀ t ∈ before.outputs, ∃ tensor, graph.tensors.get? t = some tensor :=
    fun t listed => consistent.listed present (Or.inr (List.mem_append_left _ listed))
  exact ⟨by rwa [total inputsThere], by rwa [total outputsThere]⟩

theorem GainsControls.isSchedule {after : Graph} {type : ControlType} {pairs : List (NodeId × NodeId)}
    (gains : GainsControls type graph pairs after) (consistent : graph.Consistent) {order : List NodeId}
    (scheduled : after.IsSchedule order) : graph.IsSchedule order where
  nodup := scheduled.nodup
  mem_iff := by
    rw [← gains.nodeIds_eq]
    exact scheduled.mem_iff
  ordered := fun blocks => scheduled.ordered ((gains.blocks_iff consistent _ _).mpr (Or.inl blocks))

theorem orderedIfAsked_eq (consistent : graph.Consistent) (strategy : Strategy) (config : ScheduleConfig) :
    ∃ pairs after,
      (if strategy = .gaudi && config.orderFlashAttention then graph.orderedFlashAttention else (graph, none)) =
        (after, none) ∧ graph.GainsControls .schedule pairs after ∧
      (strategy = .gaudi ∧ config.orderFlashAttention = true →
        ∃ workspace ordered, graph.annotatedWorkspace = .ok workspace ∧
          Workspace.orderFlashAttention workspace = .ok pairs.length ordered ∧ after = ordered.graph) ∧
      (¬ (strategy = .gaudi ∧ config.orderFlashAttention = true) → pairs = [] ∧ after = graph) := by
  simp only [Bool.and_eq_true, decide_eq_true_eq]
  split
  next asked =>
    obtain ⟨workspace, pairs, ordered, annotated, ran, prepared, gains⟩ := orderedFlashAttention_eq consistent
    exact ⟨pairs, ordered.graph, prepared, gains, fun _ => ⟨workspace, ordered, annotated, ran, rfl⟩, absurd asked⟩
  next unasked => exact ⟨[], graph, rfl, .nothing, fun asked => absurd asked unasked, fun _ => ⟨rfl, rfl⟩⟩

theorem schedule_eq_ok_iff_acyclic :
    (∀ (description : GraphDescription) graph, description.build = .ok graph → graph.Consistent) ∧
      ∀ graph : Graph, graph.Consistent → graph.OffsetsFit → graph.SizesFit → ∀ strategy config,
        ∃ after answer pairs, graph.schedule strategy config = (after, answer) ∧
          graph.GainsControls .schedule pairs after ∧
          (strategy = .gaudi ∧ config.orderFlashAttention = true →
            ∃ workspace ordered, graph.annotatedWorkspace = .ok workspace ∧
              Workspace.orderFlashAttention workspace = .ok pairs.length ordered ∧ after = ordered.graph) ∧
          (¬ (strategy = .gaudi ∧ config.orderFlashAttention = true) → pairs = [] ∧ after = graph) ∧
          ((∃ order, answer = .ok order) ↔ Acyclic (graph.Blocks .both)) ∧
          (∀ order, answer = .ok order → graph.IsSchedule order ∧ after.IsSchedule order) ∧
          (¬ Acyclic (graph.Blocks .both) → ∃ placed, answer = .error (.notAllScheduled placed graph.size)) := by
  refine ⟨fun description graph => GraphDescription.consistent_build, ?_⟩
  intro graph consistent offsets sizes strategy config
  obtain ⟨pairs, after, prepared, gains, asked, unasked⟩ := orderedIfAsked_eq consistent strategy config
  have linked := (gains.consistent consistent).toLinked
  have settles := (settles_scheduleNodes linked (gains.offsetsFit consistent offsets)
    (gains.sizesFit consistent sizes) strategy config).validated linked
  have acyclic_iff := gains.acyclic_iff consistent
  refine ⟨after, _, pairs, by rw [schedule, prepared], gains, asked, unasked, ⟨?_, ?_⟩, ?_, ?_⟩
  next =>
    rintro ⟨order, answered⟩
    by_contra cyclic
    obtain ⟨placed, refused⟩ := settles.refuses (mt acyclic_iff.mp cyclic)
    cases answered.symm.trans refused
  next =>
    intro acyclic
    obtain ⟨order, answered, -⟩ := settles.orders (acyclic_iff.mpr acyclic)
    exact ⟨order, answered⟩
  next =>
    intro order answered
    have acyclic : Acyclic (after.Blocks .both) := by
      by_contra cyclic
      obtain ⟨placed, refused⟩ := settles.refuses cyclic
      cases answered.symm.trans refused
    obtain ⟨found, answered', valid⟩ := settles.orders acyclic
    cases answered.symm.trans answered'
    have scheduled := IsSchedule.of_isOrder linked valid
    exact ⟨gains.isSchedule consistent scheduled, scheduled⟩
  next =>
    intro cyclic
    rw [← gains.size_eq]
    exact settles.refuses (mt acyclic_iff.mp cyclic)

-- Two chains of two nodes each, the first of which passes on a view of a buffer. Nothing joins the chains.
def attention : GraphDescription :=
  { tensors := [{ name := "buffer", sizeBytes := 8 },
      { name := "scores", sizeBytes := 4, aliasOf := "buffer", offset := 4 }, { name := "mixed", sizeBytes := 4 }]
    nodes := [{ name := "score", parentId := some 10, flashAttention := true, outputs := ["scores"] },
      { name := "mask", parentId := some 10, flashAttention := true, inputs := ["scores"] },
      { name := "mix", parentId := some 20, flashAttention := true, outputs := ["mixed"] },
      { name := "store", parentId := some 20, flashAttention := true, inputs := ["mixed"] }] }

theorem schedule_attention :
    attention.build = .ok attention.graph ∧ Acyclic (attention.graph.Blocks .both) ∧
      attention.graph.reaches ⟨1⟩ ⟨2⟩ = false ∧
      ∃ workspace ordered order, attention.graph.annotatedWorkspace = .ok workspace ∧
        Workspace.orderFlashAttention workspace = .ok 1 ordered ∧ ordered.graph.reaches ⟨1⟩ ⟨2⟩ = true ∧
        attention.graph.schedule .gaudi { orderFlashAttention := true } = (ordered.graph, .ok order) ∧
        attention.graph.IsSchedule order ∧ ordered.graph.IsSchedule order ∧
        order.idxOf ⟨1⟩ < order.idxOf ⟨2⟩ := by
  have acyclic : Acyclic (attention.graph.Blocks .both) := acyclic_of_numbered (by decide) (by decide)
  have sizes : attention.graph.SizesFit := by
    intro id node found
    have each : ∀ entry ∈ attention.graph.nodes.entries, attention.graph.totalSize entry.2.inputs ≤ Word.largest ∧
        attention.graph.totalSize entry.2.outputs ≤ Word.largest := by decide
    exact each (id, node) ((Table.mem_entries_iff _ _ _).mpr found)
  have consistent : attention.graph.Consistent := schedule_eq_ok_iff_acyclic.1 attention _ rfl
  obtain ⟨_, answer, pairs, scheduled, gains, asked, -, answers, valid, -⟩ := schedule_eq_ok_iff_acyclic.2
    attention.graph consistent (offsetsFit_of_shallow (by decide)) sizes .gaudi { orderFlashAttention := true }
  obtain ⟨workspace, ordered, annotated, ran, rfl⟩ := asked ⟨rfl, rfl⟩
  obtain ⟨order, rfl⟩ := answers.mpr acyclic
  obtain ⟨before, after⟩ := valid order rfl
  have counted : attention.graph.annotatedWorkspace.toOption.bind (fun workspace =>
      Workspace.orderFlashAttention.run' workspace) = some 1 := by decide +kernel
  have reaches : (attention.graph.schedule .gaudi { orderFlashAttention := true }).1.reaches ⟨1⟩ ⟨2⟩ = true := by
    decide +kernel
  rw [scheduled] at reaches
  rw [annotated] at counted
  obtain ⟨_, ran'⟩ := stateful_run'_eq_some.mp counted
  obtain ⟨single, -⟩ := EStateM.Result.ok.inj (ran.symm.trans ran')
  rw [single] at ran
  have linked := (gains.consistent consistent).toLinked
  have there : (⟨1⟩ : NodeId) ∈ ordered.graph.nodeIds := by rw [gains.nodeIds_eq]; decide
  have leads := (reaches_iff linked there _).mp reaches
  have path := (Relation.reflTransGen_iff_eq_or_transGen.mp leads).resolve_left (by decide)
  exact ⟨rfl, acyclic, by decide +kernel, workspace, ordered, order, annotated, ran, reaches, scheduled, before, after,
    after.idxOf_lt_of_path path⟩

end Graph

end Dataflow
