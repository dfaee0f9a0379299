import Dataflow.Proofs.Graph.Controls
import Dataflow.Proofs.Plane.Build
import Dataflow.Proofs.Workspace.Basic
import Dataflow.Schedule.Strategy

set_option autoImplicit false

namespace Dataflow

open Relation

theorem PlaneGraph.Indexed.pathCount_ok {graph : PlaneGraph} (indexed : graph.Indexed) (source target : PlaneNodeId) :
    ∃ count, graph.pathCount source target = .ok count := by
  unfold PlaneGraph.pathCount
  split
  next => exact ⟨1, rfl⟩
  next =>
    by_cases acyclic : Acyclic graph.Feeds
    next =>
      obtain ⟨order, ordered, -⟩ := indexed.topologicalOrder?_eq.1 acyclic
      exact ⟨_, by rw [ordered]; rfl⟩
    next => exact ⟨_, by rw [indexed.topologicalOrder?_eq.2 acyclic]; rfl⟩

theorem Plane.Follows.reaches_ok {graph : Graph} {plane : Plane} (follows : plane.Follows graph) {source target : NodeId}
    (sourceThere : source ∈ graph.nodeIds) (targetThere : target ∈ graph.nodeIds) :
    ∃ answer, plane.reaches source target = .ok answer := by
  obtain ⟨first, firstOf⟩ := (follows.covers source).mpr sourceThere
  obtain ⟨last, lastOf⟩ := (follows.covers target).mpr targetThere
  obtain ⟨count, counted⟩ := follows.sound.indexed.pathCount_ok first last
  unfold Plane.reaches Plane.pathCount
  rw [Plane.representation_eq_ok.mpr firstOf, Plane.representation_eq_ok.mpr lastOf]
  exact ⟨decide (0 < count), by simp only [bind, Except.bind, counted]; rfl⟩

namespace Workspace

variable {workspace : Workspace}

theorem forbidsEdge_eq (tracks : workspace.Tracks) {last first : NodeId}
    (lastThere : last ∈ workspace.graph.nodeIds) (firstThere : first ∈ workspace.graph.nodeIds) :
    workspace.forbidsEdge last first = .ok true ∨
      workspace.forbidsEdge last first = .ok false ∧ workspace.graph.reaches first last = false := by
  unfold forbidsEdge
  cases attached : workspace.plane with
  | none => cases workspace.graph.reaches first last <;> simp [pure, Except.pure]
  | some plane =>
    have follows := tracks plane attached
    obtain ⟨source, sourceOf⟩ := (follows.covers last).mpr lastThere
    obtain ⟨target, targetOf⟩ := (follows.covers first).mpr firstThere
    obtain ⟨answer, answered⟩ := follows.reaches_ok firstThere lastThere
    dsimp only
    rw [Plane.representation_eq_ok.mpr sourceOf, Plane.representation_eq_ok.mpr targetOf, answered]
    simp only [bind, Except.bind]
    split
    next => exact Or.inl rfl
    next =>
      cases answer with
      | true => exact Or.inl rfl
      | false => cases workspace.graph.reaches first last <;> simp [pure, Except.pure]

def Skips (workspace : Workspace) (chain next : List NodeId) : Prop :=
  ∃ last first, chain.getLast? = some last ∧ next.head? = some first ∧ workspace.forbidsEdge last first = .ok true

def Links (graph : Graph) (chain next : List NodeId) : Prop :=
  ∃ last first, chain.getLast? = some last ∧ next.head? = some first ∧ TransGen (graph.Blocks .both) last first

inductive OrdersPair (before : Workspace) (chain next : List NodeId) : Nat → Workspace → Prop
  | skipped (skips : before.Skips chain next) : OrdersPair before chain next 0 before
  | linked (links : Links before.graph chain next) : OrdersPair before chain next 0 before
  | joined {last first : NodeId} {after : Workspace} (ends : chain.getLast? = some last) (starts : next.head? = some first)
      (differ : last ≠ first) (lastThere : last ∈ before.graph.nodeIds) (firstThere : first ∈ before.graph.nodeIds)
      (allowed : before.forbidsEdge last first = .ok false) (apart : before.graph.reaches first last = false)
      (edited : addControlEdge last first .schedule before = .ok ⟨before.graph.nextTensor⟩ after)
      (graph_eq : after.graph = before.graph.withControl last first .schedule) (tracks : after.Tracks) :
      OrdersPair before chain next 1 after

theorem orderChains_ordersPair (consistent : workspace.graph.Consistent) (tracks : workspace.Tracks)
    {chain next : List NodeId} (nonempty : chain ≠ []) (nonempty' : next ≠ [])
    (there : ∀ node, node ∈ chain ∨ node ∈ next → node ∈ workspace.graph.nodeIds) (added : Nat) :
    ∃ gained after, orderChains added (chain, next) workspace = .ok (added + gained) after ∧
      OrdersPair workspace chain next gained after := by
  obtain ⟨last, ends⟩ : ∃ last, chain.getLast? = some last := ⟨_, List.getLast?_eq_some_getLast nonempty⟩
  obtain ⟨first, starts⟩ : ∃ first, next.head? = some first := ⟨_, List.head?_eq_some_head nonempty'⟩
  have lastThere := there last (Or.inl (List.mem_of_getLast? ends))
  have firstThere := there first (Or.inr (List.mem_of_head? starts))
  have reached_iff := Graph.reaches_iff consistent.toLinked lastThere first
  unfold orderChains
  dsimp only
  rw [ends, starts]
  dsimp only
  rw [stateful_get_bind]
  rcases forbidsEdge_eq tracks lastThere firstThere with forbidden | ⟨allowed, apart⟩
  next =>
    rw [forbidden]
    exact ⟨0, workspace, rfl, .skipped ⟨last, first, ends, starts, forbidden⟩⟩
  next =>
    -- A node reaches itself, so a pair that is not forbidden has two nodes.
    have differ : last ≠ first := by
      rintro rfl
      rw [← Bool.not_eq_true, reached_iff] at apart
      exact apart .refl
    rw [allowed]
    dsimp only
    cases ordered : workspace.graph.reaches last first with
    | true =>
      have path := (reflTransGen_iff_eq_or_transGen.mp (reached_iff.mp ordered)).resolve_left differ.symm
      exact ⟨0, workspace, rfl, .linked ⟨last, first, ends, starts, path⟩⟩
    | false =>
      obtain ⟨after, edited, graph_eq, tracks, -⟩ :=
        addControlEdge_ok consistent tracks .schedule differ lastThere firstThere apart
      refine ⟨1, after, ?_, .joined ends starts differ lastThere firstThere allowed apart edited graph_eq tracks⟩
      show (discard (addControlEdge last first .schedule) >>= fun _ => _ : EditM Nat) workspace = _
      rw [stateful_bind_of_ok _ (stateful_discard_eq_ok.mpr ⟨_, edited⟩)]
      rfl

namespace OrdersPair

variable {chain next : List NodeId} {gained : Nat} {after : Workspace}

theorem blocks_mono (step : OrdersPair workspace chain next gained after) (consistent : workspace.graph.Consistent)
    {source target : NodeId} (blocks : workspace.graph.Blocks .both source target) :
    after.graph.Blocks .both source target := by
  cases step with
  | skipped | linked => exact blocks
  | joined _ _ differ lastThere firstThere _ _ _ graph_eq _ =>
    rw [graph_eq, Graph.blocks_withControl consistent.toLinked .schedule differ lastThere firstThere]
    exact Or.inl blocks

theorem skips_or_links (step : OrdersPair workspace chain next gained after) (consistent : workspace.graph.Consistent) :
    workspace.Skips chain next ∨ Links after.graph chain next := by
  cases step with
  | skipped skips => exact Or.inl skips
  | linked links => exact Or.inr links
  | joined ends starts differ lastThere firstThere _ _ _ graph_eq _ =>
    refine Or.inr ⟨_, _, ends, starts, TransGen.single ?_⟩
    rw [graph_eq, Graph.blocks_withControl consistent.toLinked .schedule differ lastThere firstThere]
    exact Or.inr ⟨rfl, rfl⟩

end OrdersPair

def Extends (start : Graph) (added : Nat) (workspace : Workspace) : Prop :=
  (∃ pairs, pairs.length = added ∧ start.GainsControls .schedule pairs workspace.graph) ∧ workspace.Tracks

theorem Extends.step {start : Graph} {chain next : List NodeId} {added gained : Nat} {after : Workspace}
    (sofar : Extends start added workspace) (step : OrdersPair workspace chain next gained after) :
    Extends start (added + gained) after := by
  obtain ⟨⟨pairs, counted, gains⟩, tracks⟩ := sofar
  cases step with
  | skipped | linked => exact ⟨⟨pairs, counted, gains⟩, tracks⟩
  | joined _ _ differ lastThere firstThere _ apart _ graph_eq tracks =>
    have more := gains.more differ lastThere firstThere apart
    rw [← graph_eq] at more
    exact ⟨⟨_, by simp [counted], more⟩, tracks⟩

theorem mem_flashAttentionChains {graph : Graph} (linked : graph.Linked) {chain : List NodeId}
    (listed : chain ∈ graph.flashAttentionChains) : chain ≠ [] ∧ ∀ node ∈ chain, node ∈ graph.nodeIds := by
  obtain ⟨parent, known, rfl⟩ := List.mem_map.mp listed
  constructor
  next =>
    obtain ⟨record, member, same⟩ := List.mem_map.mp (Ranked.mem_ascending.mp known)
    exact List.ne_nil_of_mem (List.mem_map_of_mem (List.mem_filter.mpr ⟨member, decide_eq_true same⟩))
  next =>
    intro node inside
    obtain ⟨record, member, rfl⟩ := List.mem_map.mp inside
    obtain ⟨id, found⟩ := (Table.mem_values_iff _ _).mp (List.mem_filter.mp (List.mem_filter.mp member).1).1
    rw [linked.nodeKey found]
    exact Table.mem_keys_of_get? found

def neighbours (graph : Graph) : List (List NodeId × List NodeId) :=
  graph.flashAttentionChains.zip graph.flashAttentionChains.tail

-- The state in which a pair has its turn is the one that the pairs before it lead to.
def TakesTurn (start : Workspace) (final : Graph) (earlier : List (List NodeId × List NodeId))
    (pair : List NodeId × List NodeId) : Prop :=
  ∃ added between, earlier.foldlM orderChains 0 start = .ok added between ∧
    (between.Skips pair.1 pair.2 ∨ Links final pair.1 pair.2)

theorem TakesTurn.mono {start : Workspace} {final larger : Graph} {earlier : List (List NodeId × List NodeId)}
    {pair : List NodeId × List NodeId} (turn : TakesTurn start final earlier pair)
    (grows : ∀ {source target}, final.Blocks .both source target → larger.Blocks .both source target) :
    TakesTurn start larger earlier pair := by
  obtain ⟨added, between, ran, skips | ⟨last, first, ends, starts, path⟩⟩ := turn
  next => exact ⟨added, between, ran, Or.inl skips⟩
  next => exact ⟨added, between, ran, Or.inr ⟨last, first, ends, starts, TransGen.mono (fun _ _ => grows) _ _ path⟩⟩

theorem orderFlashAttention_run (consistent : workspace.graph.Consistent) (tracks : workspace.Tracks)
    (P : List (List NodeId × List NodeId) → Nat → Workspace → Prop) (start : P [] 0 workspace)
    (steps : ∀ {done chain next added state gained after}, state.graph.Consistent →
      (∀ node, node ∈ chain ∨ node ∈ next → node ∈ state.graph.nodeIds) → P done added state →
      orderChains added (chain, next) state = .ok (added + gained) after → OrdersPair state chain next gained after →
      P (done ++ [(chain, next)]) (added + gained) after) :
    ∃ count after, orderFlashAttention workspace = .ok count after ∧ Extends workspace.graph count after ∧
      P (neighbours workspace.graph) count after := by
  have linked := consistent.toLinked
  have run : ∃ count after, (neighbours workspace.graph).foldlM orderChains 0 workspace = .ok count after ∧
      Extends workspace.graph count after ∧ P (neighbours workspace.graph) count after := by
    apply stateful_foldlM_succeeds fun done added state => Extends workspace.graph added state ∧ P done added state
    case start => exact ⟨⟨⟨[], rfl, .nothing⟩, tracks⟩, start⟩
    case steps =>
      rintro done ⟨chain, next⟩ rest added state split ⟨sofar, kept⟩
      obtain ⟨⟨pairs, counted, gains⟩, tracks⟩ := sofar
      have listed : (chain, next) ∈ neighbours workspace.graph := by rw [split]; simp
      obtain ⟨left, right⟩ := List.of_mem_zip listed
      obtain ⟨nonempty, leftThere⟩ := mem_flashAttentionChains linked left
      obtain ⟨nonempty', rightThere⟩ := mem_flashAttentionChains linked (List.mem_of_mem_tail right)
      have there : ∀ node, node ∈ chain ∨ node ∈ next → node ∈ state.graph.nodeIds := by
        rw [gains.nodeIds_eq]
        exact fun node inside => inside.elim (leftThere node) (rightThere node)
      have consistent' := gains.consistent consistent
      obtain ⟨gained, after, stepped, step⟩ :=
        orderChains_ordersPair consistent' tracks nonempty nonempty' there added
      have extended := Extends.step ⟨⟨pairs, counted, gains⟩, tracks⟩ step
      exact ⟨_, after, stepped, extended, steps consistent' there kept stepped step⟩
  obtain ⟨count, after, ran, kept⟩ := run
  refine ⟨count, after, ?_, kept⟩
  unfold orderFlashAttention
  rw [stateful_get_bind]
  exact ran

def Traces (start : Workspace) (done : List (List NodeId × List NodeId)) (added : Nat) (state : Workspace) : Prop :=
  done.foldlM orderChains 0 start = .ok added state ∧ Stepwise (TakesTurn start state.graph) done

theorem Traces.step {start state after : Workspace} {done : List (List NodeId × List NodeId)} {chain next : List NodeId}
    {added gained : Nat} (traces : Traces start done added state) (consistent : state.graph.Consistent)
    (stepped : orderChains added (chain, next) state = .ok (added + gained) after)
    (step : OrdersPair state chain next gained after) : Traces start (done ++ [(chain, next)]) (added + gained) after := by
  obtain ⟨ran, turns⟩ := traces
  refine ⟨?_, stepwise_snoc.mpr ⟨?_, added, state, ran, step.skips_or_links consistent⟩⟩
  next =>
    rw [List.foldlM_append, stateful_bind_of_ok _ ran]
    exact stateful_bind_of_ok _ stepped
  next =>
    intro earlier pair later split
    exact (turns earlier pair later split).mono (step.blocks_mono consistent)

theorem orderFlashAttention_ok (consistent : workspace.graph.Consistent) (tracks : workspace.Tracks) :
    ∃ count after, orderFlashAttention workspace = .ok count after ∧ Extends workspace.graph count after ∧
      Stepwise (TakesTurn workspace after.graph) (neighbours workspace.graph) := by
  obtain ⟨count, after, ordered, sofar, -, turns⟩ := orderFlashAttention_run consistent tracks (Traces workspace)
    ⟨rfl, stepwise_nil⟩ fun consistent _ traces stepped step => traces.step consistent stepped step
  exact ⟨count, after, ordered, sofar, turns⟩

end Workspace

theorem Graph.orderedFlashAttention_eq {graph : Graph} (consistent : graph.Consistent) :
    ∃ workspace pairs ordered, graph.annotatedWorkspace = .ok workspace ∧
      Workspace.orderFlashAttention workspace = .ok pairs.length ordered ∧
      graph.orderedFlashAttention = (ordered.graph, none) ∧ graph.GainsControls .schedule pairs ordered.graph := by
  obtain ⟨workspace, annotated, rfl, tracks⟩ : ∃ workspace, graph.annotatedWorkspace = .ok workspace ∧
      workspace.graph = graph ∧ workspace.Tracks := by
    unfold Graph.annotatedWorkspace
    rcases Plane.ofAnnotations_eq consistent with ⟨plane, formed, whole⟩ | ⟨defect, invalid⟩
    next =>
      rw [formed]
      refine ⟨_, rfl, rfl, ?_⟩
      rintro _ ⟨⟩
      exact ⟨whole.sound, whole.covers, whole.unfrozen⟩
    next =>
      rw [invalid]
      exact ⟨_, rfl, rfl, fun plane none => (nomatch none)⟩
  obtain ⟨_, after, ordered, ⟨⟨pairs, rfl, gains⟩, -⟩, -⟩ := Workspace.orderFlashAttention_ok consistent tracks
  refine ⟨workspace, pairs, after, annotated, ordered, ?_, gains⟩
  rw [Graph.orderedFlashAttention, annotated]
  dsimp only
  rw [ordered]

end Dataflow
