import Dataflow.Proofs.Topology.Paths
import Dataflow.Proofs.Workspace.Acyclicity
import Dataflow.Proofs.Workspace.FlashAttention

set_option autoImplicit false

namespace Dataflow

open Relation

theorem Plane.Sound.reaches_eq {graph : Graph} {plane : Plane} (sound : plane.Sound graph)
    (loopless : Acyclic plane.graph.Feeds) {node other : NodeId} {source target : PlaneNodeId}
    (sourceOf : plane.nodeOf.get? node = some source) (targetOf : plane.nodeOf.get? other = some target) :
    ∃ answer, plane.reaches node other = .ok answer ∧ (answer = true ↔ ReflTransGen plane.graph.Feeds source target) := by
  obtain ⟨found, there, -⟩ := (sound.nodeOf_iff other target).mp targetOf
  obtain ⟨number, counted, counts⟩ :=
    sound.indexed.counts_pathCount loopless source (Table.mem_keys_of_get? there)
  refine ⟨decide (0 < number), ?_, ?_⟩
  next =>
    unfold Plane.reaches Plane.pathCount
    rw [representation_eq_ok.mpr sourceOf, representation_eq_ok.mpr targetOf]
    simp only [bind, Except.bind, counted]
    rfl
  next =>
    rw [decide_eq_true_iff, counts.pos_iff, ← sound.indexed.reaches_consumers]
    rfl

theorem Plane.Tiles.feeds_gains {graph after : Graph} {plane final : Plane} {type : ControlType}
    {pairs : List (NodeId × NodeId)} (tiles : Tiles graph graph.nodeIds plane) (tiled : Tiles after after.nodeIds final)
    (same : final.nodeOf = plane.nodeOf) (consistent : graph.Consistent) (gains : graph.GainsControls type pairs after)
    {source target : PlaneNodeId} : final.graph.Feeds source target ↔ plane.graph.Feeds source target ∨
      source ≠ target ∧ ∃ pair ∈ pairs, plane.nodeOf.get? pair.1 = some source ∧
        plane.nodeOf.get? pair.2 = some target := by
  -- Both planes have exactly the edges between the plane nodes of tensors, and the nodes stay in their plane nodes.
  simp only [tiled.feeds_iff, tiles.feeds_iff, same, gains.feeds_iff consistent]
  constructor
  next =>
    rintro ⟨apart, producer, consumer, old | joined, left, right⟩
    next => exact Or.inl ⟨apart, producer, consumer, old, left, right⟩
    next => exact Or.inr ⟨apart, (producer, consumer), joined, left, right⟩
  next =>
    rintro (⟨apart, producer, consumer, old, left, right⟩ | ⟨apart, pair, joined, left, right⟩)
    next => exact ⟨apart, producer, consumer, Or.inl old, left, right⟩
    next => exact ⟨apart, pair.1, pair.2, Or.inr joined, left, right⟩

namespace Workspace

variable {workspace after : Workspace} {last first : NodeId}

def Loopless (workspace : Workspace) : Prop :=
  ∀ plane, workspace.plane = some plane → Layered workspace plane ∧ Acyclic plane.graph.Feeds

def LeadsBack (workspace : Workspace) (last first : NodeId) : Prop :=
  ReflTransGen (workspace.graph.Blocks .both) first last ∨
    ∃ plane source target, workspace.plane = some plane ∧ plane.nodeOf.get? first = some source ∧
      plane.nodeOf.get? last = some target ∧ ReflTransGen plane.graph.Feeds source target

theorem leadsBack_iff {plane : Plane} {source target : PlaneNodeId} (attached : workspace.plane = some plane)
    (sourceOf : plane.nodeOf.get? first = some source) (targetOf : plane.nodeOf.get? last = some target) :
    workspace.LeadsBack last first ↔ ReflTransGen (workspace.graph.Blocks .both) first last ∨
      ReflTransGen plane.graph.Feeds source target := by
  simp [LeadsBack, attached, sourceOf, targetOf]

theorem forbidsEdge_iff (linked : workspace.graph.Linked) (loopless : workspace.Loopless)
    (lastThere : last ∈ workspace.graph.nodeIds) (firstThere : first ∈ workspace.graph.nodeIds) :
    ∃ answer, workspace.forbidsEdge last first = .ok answer ∧ (answer = true ↔ workspace.LeadsBack last first) := by
  have reached_iff := Graph.reaches_iff linked firstThere last
  unfold forbidsEdge
  cases attached : workspace.plane with
  | none => exact ⟨_, rfl, by simp [LeadsBack, attached, reached_iff]⟩
  | some plane =>
    obtain ⟨layered, acyclic⟩ := loopless plane attached
    obtain ⟨source, sourceOf⟩ := (layered.tiles.covers first).mpr firstThere
    obtain ⟨target, targetOf⟩ := (layered.tiles.covers last).mpr lastThere
    obtain ⟨answer, answered, answer_iff⟩ := layered.tiles.sound.reaches_eq acyclic sourceOf targetOf
    rw [leadsBack_iff attached sourceOf targetOf, ← reached_iff, ← answer_iff]
    dsimp only
    rw [Plane.representation_eq_ok.mpr sourceOf, Plane.representation_eq_ok.mpr targetOf, answered]
    simp only [bind, Except.bind]
    split
    next same =>
      -- Within one plane node the empty path leads back.
      exact ⟨true, rfl, by simp [answer_iff.mpr (same ▸ .refl)]⟩
    next =>
      cases answer with
      | true => exact ⟨true, rfl, by simp⟩
      | false => exact ⟨_, rfl, by simp⟩

-- Ordered one way or the other, or kept from it by bundles.
def Settled (workspace : Workspace) (last first : NodeId) : Prop :=
  ReflTransGen (workspace.graph.Blocks .both) last first ∨ workspace.LeadsBack last first

structure Grows (before after : Workspace) : Prop where
  blocks : ∀ {source target}, before.graph.Blocks .both source target → after.graph.Blocks .both source target
  nodeOf_eq : after.plane.map Plane.nodeOf = before.plane.map Plane.nodeOf
  feeds : ∀ {plane next}, before.plane = some plane → after.plane = some next →
    ∀ {source target}, plane.graph.Feeds source target → next.graph.Feeds source target

theorem Grows.refl (workspace : Workspace) : Grows workspace workspace where
  blocks := id
  nodeOf_eq := rfl
  feeds := by
    intro plane next attached attached' source target fed
    cases attached.symm.trans attached'
    exact fed

theorem Settled.mono (settled : workspace.Settled last first) (grows : Grows workspace after) :
    after.Settled last first := by
  rcases settled with forth | back | ⟨plane, source, target, attached, sourceOf, targetOf, path⟩
  next => exact Or.inl (ReflTransGen.mono (fun _ _ => grows.blocks) _ _ forth)
  next => exact Or.inr (Or.inl (ReflTransGen.mono (fun _ _ => grows.blocks) _ _ back))
  next =>
    have kept := grows.nodeOf_eq
    rw [attached] at kept
    obtain ⟨next, attached', same⟩ := Option.map_eq_some_iff.mp kept
    exact Or.inr (Or.inr ⟨next, source, target, attached', same ▸ sourceOf, same ▸ targetOf,
      ReflTransGen.mono (fun _ _ => grows.feeds attached attached') _ _ path⟩)

theorem addControlEdge_grows (consistent : workspace.graph.Consistent) (loopless : workspace.Loopless)
    (differ : last ≠ first) (lastThere : last ∈ workspace.graph.nodeIds) (firstThere : first ∈ workspace.graph.nodeIds)
    (forward : ¬ workspace.LeadsBack last first)
    (edited : addControlEdge last first .schedule workspace = .ok ⟨workspace.graph.nextTensor⟩ after) :
    Grows workspace after ∧ after.Loopless := by
  have linked := consistent.toLinked
  have apart : workspace.graph.reaches first last = false := by
    rw [← Bool.not_eq_true, Graph.reaches_iff linked firstThere]
    exact fun back => forward (Or.inl back)
  have blocks {source target : NodeId} (blocks : workspace.graph.Blocks .both source target) :
      (workspace.graph.withControl last first .schedule).Blocks .both source target :=
    (Graph.blocks_withControl linked .schedule differ lastThere firstThere source target).mpr (Or.inl blocks)
  cases attached : workspace.plane with
  | none =>
    have tracks : workspace.Tracks := by
      intro plane attached'
      cases attached.symm.trans attached'
    obtain ⟨same, edited', graph_eq, -, detached⟩ :=
      addControlEdge_ok consistent tracks .schedule differ lastThere firstThere apart
    cases edited.symm.trans edited'
    have none := detached attached
    refine ⟨⟨graph_eq ▸ blocks, by rw [none, attached], ?_⟩, ?_⟩
    next => intro plane next attached'; cases attached.symm.trans attached'
    next => intro plane attached'; cases none.symm.trans attached'
  | some plane =>
    obtain ⟨layered, acyclic⟩ := loopless plane attached
    obtain ⟨source, sourceOf⟩ := (layered.tiles.covers first).mpr firstThere
    obtain ⟨target, targetOf⟩ := (layered.tiles.covers last).mpr lastThere
    have known : workspace.graph.addControlEdge last first .schedule =
        .ok (⟨workspace.graph.nextTensor⟩, workspace.graph.withControl last first .schedule) := by
      rw [Graph.addControlEdge_of_known .schedule differ lastThere firstThere, apart]
      rfl
    obtain ⟨next, edited', layered', same, -⟩ := layered.addControlEdge_ok known
    cases edited.symm.trans edited'
    have feeds {start stop : PlaneNodeId} :=
      @layered.tiles.feeds_withControl _ _ _ _ _ _ _ _ linked layered'.tiles same targetOf sourceOf start stop
    refine ⟨⟨blocks, by simp [attached, same], ?_⟩, ?_⟩
    next =>
      intro plane' next' attached' attached'' start stop fed
      cases attached.symm.trans attached'
      cases attached''
      exact feeds.mpr (Or.inl fed)
    next =>
      rintro _ ⟨⟩
      refine ⟨layered', ?_⟩
      -- The new edge would close a cycle of the plane only with a path back.
      rw [layered.tiles.acyclic_withControl_iff linked layered'.tiles same targetOf sourceOf acyclic]
      exact Or.inr fun back => forward ((leadsBack_iff attached sourceOf targetOf).mpr (Or.inr back))

def PairSettled (workspace : Workspace) (pair : List NodeId × List NodeId) : Prop :=
  ∀ last first, pair.1.getLast? = some last → pair.2.head? = some first → workspace.Settled last first

theorem pairSettled_of_ends {chain next : List NodeId} (ends : chain.getLast? = some last)
    (starts : next.head? = some first) (settled : workspace.Settled last first) : workspace.PairSettled (chain, next) := by
  intro last' first' ends' starts'
  cases ends.symm.trans ends'
  cases starts.symm.trans starts'
  exact settled

theorem OrdersPair.settles {chain next : List NodeId} {gained : Nat} (step : OrdersPair workspace chain next gained after)
    (consistent : workspace.graph.Consistent) (loopless : workspace.Loopless)
    (there : ∀ node, node ∈ chain ∨ node ∈ next → node ∈ workspace.graph.nodeIds) :
    Grows workspace after ∧ after.Loopless ∧ after.PairSettled (chain, next) := by
  have linked := consistent.toLinked
  cases step with
  | skipped skips =>
    obtain ⟨last, first, ends, starts, forbidden⟩ := skips
    obtain ⟨answer, asked, answer_iff⟩ := forbidsEdge_iff linked loopless
      (there last (Or.inl (List.mem_of_getLast? ends))) (there first (Or.inr (List.mem_of_head? starts)))
    cases forbidden.symm.trans asked
    exact ⟨.refl workspace, loopless, pairSettled_of_ends ends starts (Or.inr (answer_iff.mp rfl))⟩
  | linked links =>
    obtain ⟨last, first, ends, starts, path⟩ := links
    exact ⟨.refl workspace, loopless, pairSettled_of_ends ends starts (Or.inl path.to_reflTransGen)⟩
  | joined ends starts differ lastThere firstThere allowed _ edited graph_eq _ =>
    obtain ⟨answer, asked, answer_iff⟩ := forbidsEdge_iff linked loopless lastThere firstThere
    cases allowed.symm.trans asked
    have forward := fun back => Bool.false_ne_true (answer_iff.mpr back)
    obtain ⟨grows, loopless'⟩ :=
      addControlEdge_grows consistent loopless differ lastThere firstThere forward edited
    refine ⟨grows, loopless', pairSettled_of_ends ends starts (Or.inl (.single ?_))⟩
    rw [graph_eq, Graph.blocks_withControl linked .schedule differ lastThere firstThere]
    exact Or.inr ⟨rfl, rfl⟩

structure Advances (start : Workspace) (done : List (List NodeId × List NodeId)) (state : Workspace) : Prop where
  nodeOf_eq : state.plane.map Plane.nodeOf = start.plane.map Plane.nodeOf
  loopless : state.Loopless
  settled : ∀ pair ∈ done, state.PairSettled pair

theorem Advances.step {start state : Workspace} {done : List (List NodeId × List NodeId)} {chain next : List NodeId}
    {gained : Nat} (advances : Advances start done state) (consistent : state.graph.Consistent)
    (there : ∀ node, node ∈ chain ∨ node ∈ next → node ∈ state.graph.nodeIds)
    (step : OrdersPair state chain next gained after) : Advances start (done ++ [(chain, next)]) after := by
  obtain ⟨grows, loopless, settled⟩ := step.settles consistent advances.loopless there
  constructor
  case nodeOf_eq => exact grows.nodeOf_eq.trans advances.nodeOf_eq
  case loopless => exact loopless
  case settled =>
    -- What settled an earlier pair is still there, since nothing was taken away.
    intro pair member
    rcases List.mem_append.mp member with earlier | latest
    next => exact fun last first ends starts => (advances.settled pair earlier last first ends starts).mono grows
    next => cases List.mem_singleton.mp latest; exact settled

theorem Settled.reaches (settled : workspace.Settled last first) (linked : workspace.graph.Linked)
    (loopless : workspace.Loopless) (lastThere : last ∈ workspace.graph.nodeIds)
    (firstThere : first ∈ workspace.graph.nodeIds) :
    workspace.graph.reaches last first = true ∨ workspace.graph.reaches first last = true ∨
      ∃ plane, workspace.plane = some plane ∧ ((∃ id, plane.nodeOf.get? last = some id ∧
        plane.nodeOf.get? first = some id) ∨ plane.reaches first last = .ok true) := by
  rw [Graph.reaches_iff linked lastThere, Graph.reaches_iff linked firstThere]
  refine settled.imp_right (Or.imp_right ?_)
  rintro ⟨plane, source, target, attached, sourceOf, targetOf, path⟩
  obtain ⟨layered, acyclic⟩ := loopless plane attached
  obtain ⟨answer, answered, answer_iff⟩ := layered.tiles.sound.reaches_eq acyclic sourceOf targetOf
  exact ⟨plane, attached, Or.inr (answered.trans (congrArg Except.ok (answer_iff.mpr path)))⟩

theorem orderFlashAttention_keeps_acyclic {graph : Graph} (consistent : graph.Consistent)
    (acyclic : Acyclic (graph.Blocks .both)) {attached : Option Plane}
    (annotated : ∀ plane, attached = some plane → Plane.ofAnnotations graph (fun _ => true) = .ok plane) :
    ∃ (pairs : List (NodeId × NodeId)) (after : Workspace),
      orderFlashAttention { graph, plane := attached } = .ok pairs.length after ∧
      after.graph = pairs.foldl (fun graph pair => graph.withControl pair.1 pair.2 .schedule) graph ∧
      Acyclic (after.graph.Blocks .both) ∧
      (attached = none → after.plane = none) ∧
      (∀ plane, attached = some plane → ∃ final, after.plane = some final ∧ final.graph.isAcyclic = .ok true ∧
        final.nodeOf = plane.nodeOf ∧
        ∀ source target, final.graph.Feeds source target ↔ plane.graph.Feeds source target ∨ source ≠ target ∧
          ∃ pair ∈ pairs, plane.nodeOf.get? pair.1 = some source ∧ plane.nodeOf.get? pair.2 = some target) ∧
      ∀ chain next, (chain, next) ∈ neighbours graph → ∀ last first,
        chain.getLast? = some last → next.head? = some first →
        after.graph.reaches last first = true ∨ after.graph.reaches first last = true ∨
          ∃ final, after.plane = some final ∧ ((∃ id, final.nodeOf.get? last = some id ∧
            final.nodeOf.get? first = some id) ∨ final.reaches first last = .ok true) := by
  have start : Loopless { graph, plane := attached } := by
    rintro plane rfl
    exact layered_ofAnnotations consistent (annotated plane rfl)
  have tracks : Tracks { graph, plane := attached } := by
    intro plane stands
    have layered := (start plane stands).1
    exact ⟨layered.tiles.sound, layered.tiles.covers, layered.unfrozen⟩
  -- One run over the pairs gives the edges, the untouched membership and the state of every pair at its end.
  obtain ⟨count, after, ordered, ⟨⟨pairs, rfl, gains⟩, -⟩, nodeOf_eq, loopless, settled⟩ :=
    orderFlashAttention_run consistent tracks (fun done _ => Advances { graph, plane := attached } done)
      ⟨rfl, start, fun pair member => absurd member List.not_mem_nil⟩
      fun consistent there advances _ step => advances.step consistent there step
  have linked := (gains.consistent consistent).toLinked
  refine ⟨pairs, after, ordered, gains.eq_foldl, (gains.acyclic_iff consistent).mpr acyclic, ?_, ?_, ?_⟩
  next =>
    rintro rfl
    exact Option.map_eq_none_iff.mp nodeOf_eq
  next =>
    rintro plane rfl
    obtain ⟨final, standing, same⟩ := Option.map_eq_some_iff.mp nodeOf_eq
    obtain ⟨begins, -⟩ := start plane rfl
    obtain ⟨layered, acyclic⟩ := loopless final standing
    exact ⟨final, standing, layered.tiles.sound.indexed.isAcyclic_iff.mpr acyclic, same,
      fun source target => begins.tiles.feeds_gains layered.tiles same consistent gains⟩
  next =>
    intro chain next listed last first ends starts
    obtain ⟨left, right⟩ := List.of_mem_zip listed
    have leftThere := (mem_flashAttentionChains consistent.toLinked left).2
    have rightThere := (mem_flashAttentionChains consistent.toLinked (List.mem_of_mem_tail right)).2
    rw [← gains.nodeIds_eq] at leftThere rightThere
    exact (settled (chain, next) listed last first ends starts).reaches linked loopless
      (leftThere last (List.mem_of_getLast? ends)) (rightThere first (List.mem_of_head? starts))

-- The first two chains share a bundle; the bundle of the last chain feeds the third, though its own node does not.
def sharedHeads : GraphDescription :=
  { tensors := [{ name := "mixed" }]
    nodes := [{ name := "mix", outputs := ["mixed"], bundle := some { bundleIndex := 1 } },
      { name := "query", parentId := some 10, flashAttention := true, bundle := some { bundleIndex := 0 } },
      { name := "key", parentId := some 20, flashAttention := true, bundle := some { bundleIndex := 0 } },
      { name := "value", parentId := some 30, flashAttention := true, inputs := ["mixed"] },
      { name := "output", parentId := some 40, flashAttention := true, bundle := some { bundleIndex := 1 } }] }

theorem orderFlashAttention_besidePlane : ∃ plane after,
    Plane.ofAnnotations sharedHeads.graph (fun _ => true) = .ok plane ∧
      orderFlashAttention { graph := sharedHeads.graph, plane := some plane } = .ok 1 after ∧
      after.graph.reaches ⟨3⟩ ⟨4⟩ = false ∧ after.graph.reaches ⟨4⟩ ⟨3⟩ = false := by
  have outcome : (Plane.ofAnnotations sharedHeads.graph fun _ => true).toOption.bind (fun plane =>
      (do return (← orderFlashAttention, (← get).graph.reaches ⟨3⟩ ⟨4⟩, (← get).graph.reaches ⟨4⟩ ⟨3⟩) :
        EditM (Nat × Bool × Bool)).run' { graph := sharedHeads.graph, plane := some plane }) =
          some (1, false, false) := by decide +kernel
  cases annotated : Plane.ofAnnotations sharedHeads.graph fun _ => true with
  | error error => rw [annotated] at outcome; cases outcome
  | ok plane =>
    rw [annotated] at outcome
    obtain ⟨after, ran⟩ := stateful_run'_eq_some.mp outcome
    cases ordered : orderFlashAttention { graph := sharedHeads.graph, plane := some plane } with
    | error error state => rw [stateful_bind_of_error _ ordered] at ran; cases ran
    | ok count state =>
      rw [stateful_bind_of_ok _ ordered] at ran
      obtain ⟨same, rfl⟩ := EStateM.Result.ok.inj ran
      simp only [Prod.mk.injEq] at same
      obtain ⟨rfl, forth, back⟩ := same
      exact ⟨plane, state, rfl, ordered, forth, back⟩

theorem orderFlashAttention_sharedHeads : (∃ after, orderFlashAttention { graph := sharedHeads.graph } = .ok 3 after ∧
      after.plane = none ∧ Acyclic (after.graph.Blocks .both)) ∧
    ∃ plane after final, Plane.ofAnnotations sharedHeads.graph (fun _ => true) = .ok plane ∧
      orderFlashAttention { graph := sharedHeads.graph, plane := some plane } = .ok 1 after ∧
      Acyclic (after.graph.Blocks .both) ∧ after.plane = some final ∧ final.graph.isAcyclic = .ok true ∧
      ((∃ id, final.nodeOf.get? ⟨3⟩ = some id ∧ final.nodeOf.get? ⟨4⟩ = some id) ∨
        final.reaches ⟨4⟩ ⟨3⟩ = .ok true) := by
  have consistent := sharedHeads.consistent_graph
  have acyclic : Acyclic (sharedHeads.graph.Blocks .both) := Graph.acyclic_of_numbered (by decide) (by decide)
  constructor
  next =>
    have alone : ∀ plane, none = some plane → Plane.ofAnnotations sharedHeads.graph (fun _ => true) = .ok plane := by
      intro plane attached
      cases attached
    have counted : orderFlashAttention.run' { graph := sharedHeads.graph } = some 3 := by decide +kernel
    obtain ⟨after, ordered⟩ := stateful_run'_eq_some.mp counted
    obtain ⟨pairs, same, ordered', -, acyclic', detached, -⟩ := orderFlashAttention_keeps_acyclic consistent acyclic alone
    obtain ⟨-, rfl⟩ := EStateM.Result.ok.inj (ordered.symm.trans ordered')
    exact ⟨after, ordered, detached rfl, acyclic'⟩
  next =>
    obtain ⟨plane, after, annotated, ordered, forth, back⟩ := orderFlashAttention_besidePlane
    have own : ∀ other, some plane = some other → Plane.ofAnnotations sharedHeads.graph (fun _ => true) = .ok other :=
      fun _ same => Option.some.inj same ▸ annotated
    obtain ⟨pairs, same, ordered', -, acyclic', -, planes, settled⟩ := orderFlashAttention_keeps_acyclic consistent acyclic own
    obtain ⟨-, rfl⟩ := EStateM.Result.ok.inj (ordered.symm.trans ordered')
    obtain ⟨final, attached, loopless, -⟩ := planes plane rfl
    refine ⟨plane, after, final, annotated, ordered, acyclic', attached, loopless, ?_⟩
    rcases settled [⟨3⟩] [⟨4⟩] (by decide) ⟨3⟩ ⟨4⟩ rfl rfl with forth' | back' | ⟨final', attached', held⟩
    next => cases forth.symm.trans forth'
    next => cases back.symm.trans back'
    next => cases attached.symm.trans attached'; exact held

end Workspace

end Dataflow
