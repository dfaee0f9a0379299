import Dataflow.Proofs.Gaudi.Steps
import Dataflow.Proofs.Graph.Relation
import Dataflow.Proofs.Schedule.Strategies

set_option autoImplicit false

namespace Dataflow

def Graph.UnitBlocks (graph : Graph) (first second : UInt32 ⊕ NodeId) : Prop :=
  first ≠ second ∧ ∃ blocking blocked, graph.Blocks .both blocking blocked ∧
    graph.unitOf blocking = first ∧ graph.unitOf blocked = second

def Together (kind : NodeId → Prop) (order : List NodeId) : Prop :=
  ∀ first between last, [first, between, last].Sublist order → kind first → kind last → kind between

def Closing (kind : NodeId → Prop) (order : List NodeId) : Prop :=
  ∀ first later, [first, later].Sublist order → kind first → kind later

section

variable {kind : NodeId → Prop} {order : List NodeId} {node : NodeId}

theorem closing_of_absent (absent : ∀ other, kind other → other ∉ order) : Closing kind order := by
  intro first later sublist holds
  exact absurd (sublist.subset (.head _)) (absent first holds)

theorem Closing.together (closing : Closing kind order) : Together kind order := by
  intro first between last sublist holds _
  exact closing first between (List.Sublist.trans (by simp) sublist) holds

theorem Closing.snoc (closing : Closing kind order) (holds : kind node) : Closing kind (order ++ [node]) := by
  intro first later sublist firstHolds
  rcases List.sublist_snoc [first] sublist with old | ⟨rfl, -⟩
  next => exact closing first later old firstHolds
  next => exact holds

theorem Together.snoc (together : Together kind order) (fails : ¬ kind node) : Together kind (order ++ [node]) := by
  intro first between last sublist firstHolds lastHolds
  rcases List.sublist_snoc [first, between] sublist with old | ⟨rfl, -⟩
  next => exact together first between last old firstHolds lastHolds
  next => exact absurd lastHolds fails

end

namespace Gaudi

variable {K : Type} [Ord K] {key : NodeId → K} {graph : Graph} {run after : Run key}

theorem exists_ready_unit (linked : graph.Linked) (acyclic : Acyclic (graph.Blocks .both))
    (quotient : Acyclic graph.UnitBlocks) {placed : List NodeId}
    (unplaced : ∃ node ∈ graph.nodeIds, node ∉ placed) :
    ∃ node, (graph.dependencies .both).network.Free placed node ∧
      ∀ bundle, graph.bundleOf node = some bundle → openPairs graph (graph.dependencies .both) placed bundle = 0 := by
  let waiting := graph.nodeIds.filter (· ∉ placed)
  have mem_waiting (node : NodeId) : node ∈ waiting ↔ node ∈ graph.nodeIds ∧ node ∉ placed := by simp [waiting]
  obtain ⟨some, there, unseen⟩ := unplaced
  have waits : waiting.map graph.unitOf ≠ [] := by
    rw [Ne, List.map_eq_nil_iff]
    exact List.ne_nil_of_mem ((mem_waiting some).mpr ⟨there, unseen⟩)
  obtain ⟨least, inside, minimal⟩ := quotient.exists_minimal waits
  -- The unit is least, so whatever blocks a node of it is placed or in the unit.
  have blocked {blocking node : NodeId} (unit : graph.unitOf node = least) (blocks : graph.Blocks .both blocking node)
      (outside : graph.unitOf blocking ≠ least) : blocking ∈ placed := by
    by_contra missing
    have member := (mem_waiting blocking).mpr ⟨blocks.2.1, missing⟩
    exact minimal _ (List.mem_map_of_mem member) ⟨outside, blocking, node, blocks, rfl, unit⟩
  obtain ⟨other, waitingOther, unitOther⟩ := List.mem_map.mp inside
  have own : waiting.filter (fun node => graph.unitOf node = least) ≠ [] :=
    List.ne_nil_of_mem (List.mem_filter.mpr ⟨waitingOther, decide_eq_true unitOther⟩)
  obtain ⟨node, member, first⟩ := acyclic.exists_minimal own
  obtain ⟨waitingNode, unit⟩ := List.mem_filter.mp member
  obtain ⟨known, unseen⟩ := (mem_waiting node).mp waitingNode
  have unit := of_decide_eq_true unit
  refine ⟨node, ⟨by rwa [Graph.nodes_network], unseen, ?_⟩, ?_⟩
  next =>
    intro blocking blocks
    have blocks := (Graph.mem_blockers_iff linked).mp blocks
    by_contra missing
    by_cases same : graph.unitOf blocking = least
    next =>
      refine first blocking (List.mem_filter.mpr ⟨(mem_waiting blocking).mpr ⟨blocks.2.1, missing⟩, ?_⟩) blocks
      exact decide_eq_true same
    next => exact missing (blocked unit blocks same)
  next =>
    intro bundle bundled
    have least_eq : least = .inl bundle := unit.symm.trans (Graph.unitOf_eq_inl.mpr bundled)
    rw [openPairs_eq_zero_iff]
    intro member blocking inBundle blocks outside
    refine blocked (least_eq ▸ Graph.unitOf_eq_inl.mpr inBundle) ((Graph.mem_blockers_iff linked).mp blocks) ?_
    rw [least_eq, Ne, Graph.unitOf_eq_inl]
    exact outside

theorem choice_ne_force (linked : graph.Linked) (acyclic : Acyclic (graph.Blocks .both))
    (quotient : Acyclic graph.UnitBlocks) (sound : run.Sound graph (graph.dependencies .both)) (bundle : UInt32) :
    run.choice ≠ .force bundle := by
  intro choice
  have holds := sound.choice_holds
  rw [choice] at holds
  obtain ⟨-, ⟨free, ready, -⟩, allBlocked⟩ := holds
  have known : free ∈ graph.nodeIds := by rw [← Graph.nodes_network .both]; exact ready.1
  obtain ⟨node, readyNode, closed⟩ := exists_ready_unit linked acyclic quotient ⟨free, known, ready.2.1⟩
  obtain ⟨own, bundled, blocked⟩ := allBlocked node readyNode
  exact blocked (closed own bundled)

def Settled (graph : Graph) (order : List NodeId) (bundle : UInt32) : Prop :=
  (∀ node, graph.bundleOf node = some bundle → node ∉ order) ∨
    (∀ node, graph.bundleOf node = some bundle → node ∈ order) ∧
      Together (fun node => graph.bundleOf node = some bundle) order

theorem Settled.snoc {order : List NodeId} {node : NodeId} {bundle : UInt32} (settled : Settled graph order bundle)
    (outside : graph.bundleOf node ≠ some bundle) : Settled graph (order ++ [node]) bundle := by
  rcases settled with untouched | ⟨complete, together⟩
  next =>
    refine Or.inl fun other bundled member => ?_
    rcases List.mem_append.mp member with old | new
    next => exact untouched other bundled old
    next => exact outside (List.mem_singleton.mp new ▸ bundled)
  next =>
    exact Or.inr ⟨fun other bundled => List.mem_append_left _ (complete other bundled), together.snoc outside⟩

-- Only the active bundle is unsettled: nothing outside holds it back, and its members stand last.
structure Run.Tidy (graph : Graph) (run : Run key) : Prop where
  settled : ∀ bundle, run.active ≠ some bundle → Settled graph run.order bundle
  current : ∀ bundle, run.active = some bundle →
    openPairs graph (graph.dependencies .both) run.order bundle = 0 ∧
      Closing (fun node => graph.bundleOf node = some bundle) run.order

theorem exists_free_member (linked : graph.Linked) (acyclic : Acyclic (graph.Blocks .both)) {placed : List NodeId}
    {bundle : UInt32} (closed : openPairs graph (graph.dependencies .both) placed bundle = 0)
    (incomplete : ∃ node, graph.bundleOf node = some bundle ∧ node ∉ placed) :
    ∃ node, (graph.dependencies .both).network.Free placed node ∧ graph.bundleOf node = some bundle := by
  obtain ⟨missing, bundled, unplaced⟩ := incomplete
  have waits : (members graph bundle).filter (· ∉ placed) ≠ [] :=
    List.ne_nil_of_mem (List.mem_filter.mpr ⟨mem_members.mpr bundled, decide_eq_true unplaced⟩)
  obtain ⟨node, member, first⟩ := acyclic.exists_minimal waits
  obtain ⟨inBundle, unseen⟩ := List.mem_filter.mp member
  have inBundle := mem_members.mp inBundle
  refine ⟨node, ⟨?_, of_decide_eq_true unseen, ?_⟩, inBundle⟩
  next => rw [Graph.nodes_network]; exact known_of_bundleOf inBundle
  next =>
    intro blocking blocks
    by_contra missing
    by_cases inside : graph.bundleOf blocking = some bundle
    next =>
      refine first blocking (List.mem_filter.mpr ⟨mem_members.mpr inside, decide_eq_true missing⟩) ?_
      exact (Graph.mem_blockers_iff linked).mp blocks
    next => exact missing (openPairs_eq_zero_iff.mp closed node blocking inBundle blocks inside)

theorem Run.Tidy.settled_of_idle (linked : graph.Linked) (acyclic : Acyclic (graph.Blocks .both))
    (tidy : run.Tidy graph) (idle : run.Idle graph (graph.dependencies .both)) (bundle : UInt32) :
    Settled graph run.order bundle := by
  by_cases active : run.active = some bundle
  case neg => exact tidy.settled bundle active
  case pos =>
    obtain ⟨closed, closing⟩ := tidy.current bundle active
    refine Or.inr ⟨?_, closing.together⟩
    by_contra incomplete
    obtain ⟨node, ready, inBundle⟩ := exists_free_member linked acyclic closed (by simpa using incomplete)
    exact idle bundle node active ready inBundle

section

variable (linked : graph.Linked) (fits : graph.OffsetsFit) (acyclic : Acyclic (graph.Blocks .both))
  (quotient : Acyclic graph.UnitBlocks) (sound : run.Sound graph (graph.dependencies .both)) (tidy : run.Tidy graph)
include linked fits acyclic quotient sound tidy

theorem Run.Tidy.step (stepped : run.step graph (graph.dependencies .both) = .ok (some after)) :
    after.Sound graph (graph.dependencies .both) ∧ after.Tidy graph := by
  have net := Graph.sound_network linked .both
  have holds := sound.choice_holds
  cases choice : run.choice with
  | member bundle state node rest =>
    obtain ⟨next, stepped', places, active, bundled⟩ := sound.step_member fits net choice
    cases stepped.symm.trans stepped'
    rw [choice] at holds
    refine ⟨places.sound, ?_, ?_⟩
    next =>
      intro other differs
      rw [active] at differs
      rw [places.order_eq]
      refine (tidy.settled other (by rwa [holds.1])).snoc ?_
      rwa [bundled]
    next =>
      intro other same
      rw [active] at same
      cases same
      obtain ⟨closed, closing⟩ := tidy.current bundle holds.1
      rw [places.order_eq]
      refine ⟨openPairs_eq_zero_iff.mpr ?_, closing.snoc bundled⟩
      intro member blocking inBundle blocks outside
      exact List.mem_append_left _ (openPairs_eq_zero_iff.mp closed member blocking inBundle blocks outside)
  | start bundle =>
    rw [choice] at holds
    obtain ⟨idle, closed, node, ready, bundled⟩ := holds
    rw [Run.step, choice] at stepped
    cases stepped
    refine ⟨sound.activate _, ?_, ?_⟩
    next => exact fun other _ => tidy.settled_of_idle linked acyclic idle other
    next =>
      intro other same
      cases same
      -- The bundle has a free node, so it is not complete and thus not started.
      rcases tidy.settled_of_idle linked acyclic idle bundle with untouched | ⟨complete, -⟩
      next => exact ⟨closed, closing_of_absent untouched⟩
      next => exact absurd (complete node bundled) ready.2.1
  | unbundled node rest =>
    obtain ⟨next, stepped', places, active, unbundled⟩ := sound.step_unbundled fits net choice
    cases stepped.symm.trans stepped'
    rw [choice] at holds
    refine ⟨places.sound, ?_, ?_⟩
    next =>
      intro other _
      rw [places.order_eq]
      refine (tidy.settled_of_idle linked acyclic holds.1 other).snoc ?_
      simp [unbundled]
    next =>
      intro other same
      rw [active] at same
      cases same
  | force bundle => exact absurd choice (choice_ne_force linked acyclic quotient sound bundle)
  | stop =>
    rw [Run.step, choice] at stepped
    cases stepped

omit sound tidy

theorem Run.Leads.sound_tidy {first : Run key} (started : start graph (graph.dependencies .both) key = .ok first)
    (leads : Run.Leads graph (graph.dependencies .both) first run) :
    run.Sound graph (graph.dependencies .both) ∧ run.Tidy graph := by
  induction leads with
  | refl =>
    obtain ⟨run, started', sound, order, active⟩ := start_ok linked fits (graph.dependencies .both) key
    cases started.symm.trans started'
    refine ⟨sound, ?_, ?_⟩
    next => exact fun bundle _ => Or.inl fun node _ => by simp [order]
    next => intro bundle same; rw [active] at same; cases same
  | tail _ stepped ih => exact ih.2.step linked fits acyclic quotient ih.1 stepped

end

end Gaudi

section

variable {graph : Graph} {order moved : List NodeId} {bundle : UInt32}

theorem memsetAnchor_first {first : NodeId} {before after : List NodeId} {anchor : NodeId}
    (anchored : graph.memsetAnchor (before ++ anchor :: after) first = anchor) (fresh : anchor ∉ before)
    (bundled : graph.bundleOf anchor = some bundle) : ∀ node ∈ before, graph.bundleOf node ≠ some bundle := by
  intro node member inBundle
  unfold Graph.memsetAnchor at anchored
  cases own : graph.bundleOf first with
  | none =>
    rw [own] at anchored
    dsimp only at anchored
    subst anchored
    rw [own] at bundled
    cases bundled
  | some other =>
    rw [own] at anchored
    dsimp only at anchored
    have same : other = bundle := by
      cases found : (before ++ anchor :: after).find? fun node => graph.bundleOf node = some other with
      | none =>
        rw [found] at anchored
        cases anchored
        exact Option.some.inj (own.symm.trans bundled)
      | some head =>
        rw [found] at anchored
        cases anchored
        have inOther := List.find?_some found
        exact Option.some.inj ((of_decide_eq_true inOther).symm.trans bundled)
    subst same
    obtain ⟨head, found⟩ : ∃ head, before.find? (fun node => graph.bundleOf node = some other) = some head := by
      rw [← Option.isSome_iff_exists, List.find?_isSome]
      exact ⟨node, member, decide_eq_true inBundle⟩
    rw [List.find?_append, found, Option.some_or, Option.getD_some] at anchored
    exact fresh (anchored ▸ List.mem_of_find?_eq_some found)

theorem Together.moveMemset {deps : Dependencies} {memset : NodeId} (nodup : order.Nodup)
    (unbundled : graph.bundleOf memset = none) (move : graph.moveMemset deps order memset = some moved)
    (together : Together (fun node => graph.bundleOf node = some bundle) order) :
    Together (fun node => graph.bundleOf node = some bundle) moved := by
  simp only [Graph.moveMemset, Option.bind_eq_bind, Option.bind_eq_some_iff] at move
  obtain ⟨served, -, move⟩ := move
  generalize anchored : graph.memsetAnchor order served = anchor at move
  obtain ⟨before, mid, after, rfl, rfl, fresh⟩ := moveBefore?_eq_some move
  intro first between last sublist firstIn lastIn
  have outsider {node : NodeId} (inBundle : graph.bundleOf node = some bundle) : node ≠ memset := by
    rintro rfl
    rw [unbundled] at inBundle
    cases inBundle
  by_cases own : between = memset
  case neg =>
    -- Without the memset nothing has moved.
    have kept := sublist.filter (fun node => decide (node ≠ memset))
    have rest : (before ++ mid ++ memset :: anchor :: after).filter (fun node => decide (node ≠ memset)) =
        (before ++ memset :: mid ++ anchor :: after).filter fun node => decide (node ≠ memset) := by
      simp [List.filter_append]
    rw [rest] at kept
    have whole : [first, between, last].filter (fun node => decide (node ≠ memset)) = [first, between, last] := by
      simp [outsider firstIn, own, outsider lastIn]
    rw [whole] at kept
    exact together first between last (kept.trans List.filter_sublist) firstIn lastIn
  case pos =>
    subst own
    have nodup' : (before ++ mid ++ between :: anchor :: after).Nodup := by
      refine (List.Perm.nodup_iff ?_).mpr nodup
      have moved : (mid ++ between :: anchor :: after).Perm (between :: (mid ++ anchor :: after)) := List.perm_middle
      simpa using moved.append_left before
    obtain ⟨ahead, behind⟩ := List.mem_sides nodup' sublist
    have ahead : first ∈ before ++ between :: mid := by
      rcases List.mem_append.mp ahead with member | member <;> simp [member]
    by_cases inBundle : graph.bundleOf anchor = some bundle
    next => exact absurd firstIn (memsetAnchor_first anchored fresh inBundle first ahead)
    next =>
      rcases List.mem_cons.mp behind with rfl | behind
      next => exact absurd lastIn inBundle
      next =>
        refine absurd (together first anchor last ?_ firstIn lastIn) inBundle
        exact (List.singleton_sublist.mpr ahead).append (.cons_cons _ (List.singleton_sublist.mpr behind))

theorem Together.optimizeMemsets {deps : Dependencies} (converse : ∀ {a b}, a ∈ deps.blockers b ↔ b ∈ deps.dependents a)
    (nodup : order.Nodup) (together : Together (fun node => graph.bundleOf node = some bundle) order) :
    Together (fun node => graph.bundleOf node = some bundle) (graph.optimizeMemsets deps order).2 := by
  suffices both : (graph.optimizeMemsets deps order).2.Nodup ∧
      Together (fun node => graph.bundleOf node = some bundle) (graph.optimizeMemsets deps order).2 from both.2
  apply moveEach_invariant (P := fun order => order.Nodup ∧
    Together (fun node => graph.bundleOf node = some bundle) order) ⟨nodup, together⟩
  intro order memset moved member ⟨nodup, together⟩ move
  have unbundled : graph.bundleOf memset = none := by
    have listed := (List.mem_filter.mp (List.mem_filter.mp (List.mem_reverse.mp member)).1).2
    unfold Graph.bundleOf
    cases found : graph.nodes.get? memset with
    | none => rfl
    | some record =>
      rw [found] at listed
      exact Option.isNone_iff_eq_none.mp (Bool.and_eq_true_iff.mp listed).2
  exact ⟨(moveMemset_rearranged (fun _ _ _ => converse.mp) move).perm.nodup_iff.mpr nodup, together.moveMemset nodup unbundled move⟩

theorem Together.split {kind : NodeId → Prop} [DecidablePred kind] (together : Together kind order) :
    ∃ before inside after, order = before ++ inside ++ after ∧ (∀ node ∈ inside, kind node) ∧
      ∀ node, node ∈ before ∨ node ∈ after → ¬ kind node := by
  let before := order.takeWhile fun node => ¬ kind node
  let rest := order.dropWhile fun node => ¬ kind node
  let inside := rest.takeWhile fun node => kind node
  let after := rest.dropWhile fun node => kind node
  have whole : order = before ++ inside ++ after := by
    rw [List.append_assoc, List.takeWhile_append_dropWhile, List.takeWhile_append_dropWhile]
  refine ⟨before, inside, after, whole, ?_, ?_⟩
  next =>
    intro node member
    simpa using List.mem_takeWhile_imp member
  next =>
    rintro node (member | member) holds
    next => exact absurd holds (by simpa using List.mem_takeWhile_imp member)
    next =>
      -- What `dropWhile` leaves starts with a node that fails the test: the stretch starts with a member, and
      -- what comes behind it with another node, which a later member would enclose.
      have stops {p : NodeId → Bool} {nodes tail : List NodeId} {head : NodeId}
          (drops : nodes.dropWhile p = head :: tail) : p head = false := by
        have first := List.head?_dropWhile_not p nodes
        rw [drops] at first
        exact first
      cases drops : rest.dropWhile fun node => kind node with
      | nil => simp only [after, drops] at member; cases member
      | cons other tail =>
        have fails : ¬ kind other := by simpa using stops drops
        obtain ⟨first, more, starts⟩ : ∃ first more, rest = first :: more :=
          List.exists_cons_of_ne_nil fun empty => by simp [empty] at drops
        have leads : kind first := by simpa using stops starts
        have inside_eq : first ∈ inside := by simp [inside, starts, leads]
        have tail_member : node ∈ tail := by
          simp only [after, drops] at member
          rcases List.mem_cons.mp member with rfl | member
          next => exact absurd holds fails
          next => exact member
        refine fails (together first other node ?_ leads holds)
        rw [whole, List.append_assoc]
        refine List.Sublist.trans ?_ (List.sublist_append_right _ _)
        have after_eq : after = other :: tail := drops
        rw [after_eq]
        exact (List.singleton_sublist.mpr inside_eq).append (.cons_cons _ (List.singleton_sublist.mpr tail_member))

end

namespace Gaudi

variable {K : Type} [Ord K] {graph : Graph}

theorem Run.Tidy.together {key : NodeId → K} {run : Run key} (tidy : run.Tidy graph) (bundle : UInt32) :
    Together (fun node => graph.bundleOf node = some bundle) run.order := by
  by_cases active : run.active = some bundle
  next => exact (tidy.current bundle active).2.together
  next =>
    rcases tidy.settled bundle active with untouched | ⟨-, together⟩
    next => exact (closing_of_absent untouched).together
    next => exact together

theorem run_complete (linked : graph.Linked) (fits : graph.OffsetsFit) (acyclic : Acyclic (graph.Blocks .both))
    (key : NodeId → K) : ∃ first last : Run key, start graph (graph.dependencies .both) key = .ok first ∧
      Run.Leads graph (graph.dependencies .both) first last ∧
      Gaudi.run graph (graph.dependencies .both) key = .ok last.order ∧
      (graph.dependencies .both).network.IsOrder last.order := by
  have net := Graph.sound_network linked .both
  obtain ⟨first, last, started, leads, sound, stuck, equal⟩ :=
    run_leads linked fits net (Graph.size_dependencies .both) key
  have outcome := requireAll_of_stuck net (Graph.network_loopless linked .both) sound.progress stuck
  rw [Graph.blocks_network linked] at outcome
  obtain ⟨complete, valid⟩ := outcome.1 acyclic
  exact ⟨first, last, started, leads, equal.trans complete, valid⟩

theorem run_together (linked : graph.Linked) (fits : graph.OffsetsFit) (acyclic : Acyclic (graph.Blocks .both))
    (quotient : Acyclic graph.UnitBlocks) (key : NodeId → K) :
    ∃ order, Gaudi.run graph (graph.dependencies .both) key = .ok order ∧
      (graph.dependencies .both).network.IsOrder order ∧
      ∀ bundle, Together (fun node => graph.bundleOf node = some bundle) order := by
  obtain ⟨first, last, started, leads, ran, valid⟩ := run_complete linked fits acyclic key
  have tidy := (leads.sound_tidy linked fits acyclic quotient started).2
  exact ⟨last.order, ran, valid, tidy.together⟩

end Gaudi

namespace Graph

variable {graph : Graph}

def Measures (graph : Graph) (config : ScheduleConfig) (metrics : Option PathMetrics) : Prop :=
  (if config.maxPathSchedule
    then some <$> PathMetrics.compute graph (graph.dependencies .both) config.maxPathWeight
    else pure none) = Except.ok metrics

theorem Measures.scheduleGaudi_eq {config : ScheduleConfig} {metrics : Option PathMetrics}
    (measures : graph.Measures config metrics) :
    graph.scheduleGaudi config = Gaudi.place graph (graph.dependencies .both) config <$>
      Gaudi.run graph (graph.dependencies .both) (graph.gaudiKey config.parentIdSchedule metrics) := by
  rw [← bind_pure_comp]
  unfold Measures at measures
  unfold scheduleGaudi
  dsimp only
  split at measures
  next asked => rw [if_pos asked, measures]; rfl
  next unasked => rw [if_neg unasked, measures]; rfl

theorem exists_measures (linked : graph.Linked) (acyclic : Acyclic (graph.Blocks .both)) (config : ScheduleConfig) :
    ∃ metrics, graph.Measures config metrics := by
  unfold Measures
  cases config.maxPathSchedule with
  | false => exact ⟨none, rfl⟩
  | true =>
    obtain ⟨metrics, computed, -⟩ := (pathMetrics_eq linked .both config.maxPathWeight).1 acyclic
    exact ⟨some metrics, by rw [if_pos rfl, computed]; rfl⟩

theorem scheduleGaudi_of_run (linked : graph.Linked) (acyclic : Acyclic (graph.Blocks .both)) (config : ScheduleConfig) :
    ∃ metrics, ∀ order, Gaudi.run graph (graph.dependencies .both) (graph.gaudiKey config.parentIdSchedule metrics) =
        .ok order → graph.scheduleGaudi config = .ok (Gaudi.place graph (graph.dependencies .both) config order) := by
  obtain ⟨metrics, measures⟩ := exists_measures linked acyclic config
  refine ⟨metrics, fun order ran => ?_⟩
  rw [measures.scheduleGaudi_eq, ran]
  rfl

theorem scheduleGaudi_keeps_bundles_together (consistent : graph.Consistent) (fits : graph.OffsetsFit)
    (acyclic : Acyclic (graph.Blocks .both)) (quotient : Acyclic graph.UnitBlocks) (config : ScheduleConfig)
    (probes : config.reorderProbes = false) :
    (∃ order, graph.scheduleGaudi config = .ok order ∧ graph.IsSchedule order ∧
      ∀ bundle, ∃ before inside after, order = before ++ inside ++ after ∧
        ∀ node, node ∈ inside ↔ graph.bundleOf node = some bundle) ∧
    ∀ (K : Type) [Ord K] (key : NodeId → K) (first run : Gaudi.Run key),
      Gaudi.start graph (graph.dependencies .both) key = .ok first →
      Gaudi.Run.Leads graph (graph.dependencies .both) first run → ∀ bundle, run.choice ≠ .force bundle := by
  have linked := consistent.toLinked
  constructor
  case right =>
    intro K _ key first run started leads
    have sound := (leads.sound_tidy linked fits acyclic quotient started).1
    exact Gaudi.choice_ne_force linked acyclic quotient sound
  case left =>
    obtain ⟨metrics, answers⟩ := scheduleGaudi_of_run linked acyclic config
    obtain ⟨order, ran, valid, together⟩ :=
      Gaudi.run_together linked fits acyclic quotient (graph.gaudiKey config.parentIdSchedule metrics)
    have placed := isOrder_place linked config valid
    refine ⟨_, answers order ran, .of_isOrder linked placed, fun bundle => ?_⟩
    have kept : Together (fun node => graph.bundleOf node = some bundle)
        (Gaudi.place graph (graph.dependencies .both) config order) := by
      unfold Gaudi.place
      rw [probes]
      dsimp only
      split
      next =>
        exact (together bundle).optimizeMemsets ((mem_blockers_iff linked).trans (mem_dependents_iff linked).symm)
          valid.nodup
      next => exact together bundle
    obtain ⟨before, inside, after, split, within, without⟩ := kept.split
    refine ⟨before, inside, after, split, fun node => ⟨within node, fun bundled => ?_⟩⟩
    have member := (placed.mem_iff node).mpr (by rw [nodes_network]; exact Gaudi.known_of_bundleOf bundled)
    rw [split, List.append_assoc, List.mem_append, List.mem_append] at member
    rcases member with member | member | member
    next => exact absurd bundled (without node (Or.inl member))
    next => exact member
    next => exact absurd bundled (without node (Or.inr member))

def fusedSum : GraphDescription :=
  { tensors := [{ name := "zero" }, { name := "product" }]
    nodes := [{ name := "clear", kind := .memset, outputs := ["zero"] },
      { name := "multiply", outputs := ["product"], bundle := some { bundleIndex := 1 } },
      { name := "add", inputs := ["product", "zero"], bundle := some { bundleIndex := 1 } }] }

theorem scheduleGaudi_fusedSum : ∃ order, fusedSum.graph.scheduleGaudi { reorderProbes := false } = .ok order ∧
    ∃ before inside after, order = before ++ inside ++ after ∧
      ∀ node, node ∈ inside ↔ fusedSum.graph.bundleOf node = some 1 := by
  have consistent := fusedSum.consistent_graph
  have acyclic : Acyclic (fusedSum.graph.Blocks .both) := acyclic_of_numbered (by decide) (by decide)
  have quotient : Acyclic fusedSum.graph.UnitBlocks := by
    apply Acyclic.of_rank fun unit : UInt32 ⊕ NodeId => if unit.isLeft then 1 else 0
    rintro _ _ ⟨differ, blocking, blocked, blocks, rfl, rfl⟩
    rcases (Blocks.both_iff.mp blocks).2.2.2 with ⟨t, tensor, found, -, produced, consumed⟩ | ⟨node, found, bars⟩
    next =>
      have each : ∀ entry ∈ fusedSum.graph.tensors.entries, ∀ producer ∈ entry.2.producer,
          ∀ consumer ∈ entry.2.consumers, fusedSum.graph.unitOf producer ≠ fusedSum.graph.unitOf consumer →
            (if (fusedSum.graph.unitOf producer).isLeft then 1 else 0) <
              if (fusedSum.graph.unitOf consumer).isLeft then 1 else 0 := by decide
      exact each (t, tensor) ((Table.mem_entries_iff _ _ _).mpr found) blocking produced blocked consumed differ
    next =>
      have none : ∀ entry ∈ fusedSum.graph.nodes.entries, entry.2.annotations.barriers = [] := by decide
      rw [none (blocked, node) ((Table.mem_entries_iff _ _ _).mpr found)] at bars
      cases bars
  obtain ⟨⟨order, scheduled, -, together⟩, -⟩ := scheduleGaudi_keeps_bundles_together consistent
    (offsetsFit_of_viewless (by decide)) acyclic quotient { reorderProbes := false } rfl
  exact ⟨order, scheduled, together 1⟩

end Graph

end Dataflow
