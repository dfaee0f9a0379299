import Dataflow.Proofs.Gaudi.Contiguity
import Dataflow.Proofs.Results

set_option autoImplicit false

namespace Dataflow

namespace Graph

-- The member of least identifier decides.
def ScalarPipe (graph : Graph) (bundle : UInt32) : Prop :=
  ∃ id node info, graph.nodes.get? id = some node ∧ node.annotations.bundle = some info ∧ info.bundleIndex = bundle ∧
    info.isScalarPipe = true ∧ ∀ other, graph.bundleOf other = some bundle → id.val ≤ other.val

def BundlesWait (graph : Graph) (waits : NodeId → Prop) : Prop :=
  ∀ bundle, ¬ graph.ScalarPipe bundle → (∃ member, waits member ∧ graph.bundleOf member = some bundle) →
    ∃ member blocking, graph.bundleOf member = some bundle ∧ graph.bundleOf blocking ≠ some bundle ∧
      graph.Blocks .both blocking member ∧ waits blocking

def UnbundledWait (graph : Graph) (waits : NodeId → Prop) : Prop :=
  ∀ node, waits node → graph.bundleOf node = none → ∃ blocking, graph.Blocks .both blocking node ∧ waits blocking

end Graph

namespace Gaudi

variable {K : Type} [Ord K] {key : NodeId → K} {graph : Graph} {deps : Dependencies} {run after : Run key}

def marks (bundles : Table UInt32 (BundleState key)) (bundle : UInt32) : Option Bool :=
  (bundles.get? bundle).map BundleState.scalarPipe

theorem marks_insert {bundles : Table UInt32 (BundleState key)} {bundle : UInt32} {old new : BundleState key}
    (found : bundles.get? bundle = some old) (same : new.scalarPipe = old.scalarPipe) :
    marks (bundles.insert bundle new) = marks bundles := by
  funext other
  unfold marks
  rw [Table.get?_insert_eq]
  split
  next own => rw [own, found, Option.map_some, Option.map_some, same]
  next => rfl

theorem Run.found_of_bundleOf? {node : NodeId} {bundle : UInt32} {state : BundleState key}
    (known : run.bundleOf? graph node = some (bundle, state)) : run.bundles.get? bundle = some state := by
  obtain ⟨other, -, rest⟩ := Option.bind_eq_some_iff.mp known
  obtain ⟨held, found, same⟩ := Option.bind_eq_some_iff.mp rest
  cases same
  exact found

theorem Run.marks_makeFree {node : NodeId} (made : run.makeFree graph node = .ok after) :
    marks after.bundles = marks run.bundles := by
  unfold Run.makeFree at made
  split at made
  next known => cases made; exact marks_insert (Run.found_of_bundleOf? known) rfl
  next => split at made <;> cases made; rfl

theorem Run.marks_releaseBundle {own : Option UInt32} {node : NodeId}
    (released : run.releaseBundle graph own node = .ok after) : marks after.bundles = marks run.bundles := by
  unfold Run.releaseBundle at released
  split at released
  next => cases released; rfl
  next known =>
    split at released
    next => cases released; rfl
    next =>
      split at released <;> cases released
      exact marks_insert (Run.found_of_bundleOf? known) rfl

theorem Run.marks_countOff (node : NodeId) : marks (run.countOff graph node).bundles = marks run.bundles := by
  unfold Run.countOff
  split
  next => rfl
  next known => exact marks_insert (Run.found_of_bundleOf? known) rfl

theorem Run.marks_emit {node : NodeId} (emitted : run.emit graph deps node = .ok after) :
    marks after.bundles = marks run.bundles := by
  obtain ⟨second, released, rest⟩ := bind_eq_ok.mp emitted
  obtain ⟨⟨freed, inDegrees⟩, -, freeing⟩ := bind_eq_ok.mp rest
  have counted : marks second.bundles = marks run.bundles :=
    foldlM_invariant (P := fun state => marks state.bundles = marks run.bundles)
      (fun kept made => (Run.marks_releaseBundle made).trans kept) (Run.marks_countOff node) released
  exact foldlM_invariant (P := fun state => marks state.bundles = marks run.bundles)
    (fun kept made => (Run.marks_makeFree made).trans kept) counted freeing

theorem Run.Sound.marks_step (sound : run.Sound graph deps) (stepped : run.step graph deps = .ok (some after)) :
    marks after.bundles = marks run.bundles := by
  have holds := sound.choice_holds
  unfold Run.step at stepped
  split at stepped
  next bundle state node rest choice =>
    rw [choice] at holds
    obtain ⟨next, emitted, same⟩ := bind_eq_ok.mp stepped
    cases same
    exact (Run.marks_emit emitted).trans (marks_insert holds.2.1 rfl)
  next => cases stepped; rfl
  next =>
    obtain ⟨next, emitted, same⟩ := bind_eq_ok.mp stepped
    cases same
    have kept := Run.marks_emit emitted
    exact kept
  next => cases stepped; rfl
  next => cases stepped

theorem marks_foldl (nodes : List Node) (bundle : UInt32) :
    marks (nodes.foldl (countMember graph deps) (∅ : Table UInt32 (BundleState key))) bundle =
      (nodes.find? fun node => node.bundleIndex? = some bundle).map Node.isScalarPipe := by
  -- By the nodes counted so far: a bundle gets its mark with its first member, and later members leave it.
  induction nodes using List.reverseRecOn with
  | nil => rfl
  | append_singleton nodes node ih =>
    rw [List.foldl_concat, List.find?_append]
    generalize nodes.foldl (countMember graph deps) (∅ : Table UInt32 (BundleState key)) = bundles at ih ⊢
    unfold marks at ih ⊢
    unfold countMember
    cases bundled : node.annotations.bundle with
    | none => simp [ih, Node.bundleIndex?, bundled]
    | some info =>
      have own : node.bundleIndex? = some info.bundleIndex := by simp [Node.bundleIndex?, bundled]
      dsimp only
      rw [Table.get?_insert_eq]
      split
      next same =>
        subst same
        rw [Option.map_some]
        cases before : bundles.get? info.bundleIndex with
        | none =>
          rw [before] at ih
          have first := Option.map_eq_none_iff.mp ih.symm
          simp [first, own, Node.isScalarPipe, bundled]
        | some old =>
          rw [before] at ih
          obtain ⟨first, found, mark⟩ := Option.map_eq_some_iff.mp ih.symm
          simp [found, mark]
      next differs => simp [ih, own, Ne.symm differs]

theorem find?_member {bundle : UInt32} {node : Node}
    (first : (graph.nodes.values.find? fun node => node.bundleIndex? = some bundle) = some node) :
    ∃ id, graph.nodes.get? id = some node ∧ node.bundleIndex? = some bundle ∧
      ∀ other, graph.bundleOf other = some bundle → id.val ≤ other.val := by
  rw [Table.values, List.find?_map] at first
  obtain ⟨⟨id, record⟩, found, rfl⟩ := Option.map_eq_some_iff.mp first
  obtain ⟨bundled, front, back, split, unbundled⟩ := List.find?_eq_some_iff_append.mp found
  have there : graph.nodes.get? id = some record := (Table.mem_entries_iff _ _ _).mp (by simp [split])
  refine ⟨id, there, of_decide_eq_true bundled, fun other inBundle => ?_⟩
  obtain ⟨node, found', index⟩ := Option.bind_eq_some_iff.mp inBundle
  have listed := (Table.mem_entries_iff _ _ _).mpr found'
  have ordered := graph.nodes.ordered
  rw [split] at listed ordered
  -- No member stands before the one that was found, and the identifiers behind it are greater.
  rcases List.mem_append.mp listed with before | here
  next =>
    have outside := unbundled _ before
    simp [index] at outside
  next =>
    rcases List.mem_cons.mp here with same | later
    next => cases same; exact Nat.le_refl _
    next =>
      obtain ⟨-, behind, -⟩ := List.pairwise_append.mp ordered
      exact Nat.le_of_lt ((List.pairwise_cons.mp behind).1 _ later)

theorem scalarPipe_iff {bundle : UInt32} : graph.ScalarPipe bundle ↔
    (graph.nodes.values.find? fun node => node.bundleIndex? = some bundle).map Node.isScalarPipe = some true := by
  constructor
  next =>
    rintro ⟨id, node, info, found, bundled, rfl, pipe, least⟩
    have index : node.bundleIndex? = some info.bundleIndex := by simp [Node.bundleIndex?, bundled]
    have listed : (graph.nodes.values.find? fun node => node.bundleIndex? = some info.bundleIndex).isSome := by
      rw [List.find?_isSome]
      exact ⟨node, (Table.mem_values_iff _ _).mpr ⟨id, found⟩, decide_eq_true index⟩
    obtain ⟨first, search⟩ := Option.isSome_iff_exists.mp listed
    obtain ⟨id', found', index', least'⟩ := find?_member search
    -- Both have the least identifier of the bundle.
    have same : id = id' := Ident.ext (Nat.le_antisymm (least id' (by rw [Graph.bundleOf_eq found', index']))
      (least' id (by rw [Graph.bundleOf_eq found, index])))
    subst same
    cases found.symm.trans found'
    simp [search, Node.isScalarPipe, bundled, pipe]
  next =>
    intro marked
    obtain ⟨node, search, pipe⟩ := Option.map_eq_some_iff.mp marked
    obtain ⟨id, found, index, least⟩ := find?_member search
    obtain ⟨info, bundled, same⟩ := Option.map_eq_some_iff.mp index
    refine ⟨id, node, info, found, bundled, same, ?_, least⟩
    simpa [Node.isScalarPipe, bundled] using pipe

def Run.Marked (graph : Graph) (run : Run key) : Prop :=
  ∀ bundle, marks run.bundles bundle = some true ↔ graph.ScalarPipe bundle

theorem Run.Marked.scalarPipe_iff (marked : run.Marked graph) {bundle : UInt32} {state : BundleState key}
    (found : run.bundles.get? bundle = some state) : state.scalarPipe = true ↔ graph.ScalarPipe bundle := by
  rw [← marked bundle, marks, found, Option.map_some, Option.some.injEq]

theorem marked_start (started : start graph deps key = .ok run) : run.Marked graph := by
  intro bundle
  have kept : marks run.bundles =
      marks (graph.nodes.values.foldl (countMember graph deps) (∅ : Table UInt32 (BundleState key))) :=
    foldlM_invariant (P := fun state : Run key => marks state.bundles =
        marks (graph.nodes.values.foldl (countMember graph deps) (∅ : Table UInt32 (BundleState key))))
      (fun kept made => (Run.marks_makeFree made).trans kept) rfl started
  rw [kept, marks_foldl, Gaudi.scalarPipe_iff]

def Unplaced (graph : Graph) (placed : List NodeId) (node : NodeId) : Prop := node ∈ graph.nodeIds ∧ node ∉ placed

def Choice.Defers (graph : Graph) (waits : NodeId → Prop) : Choice key → Prop
  | .member .. | .stop => True
  | .start bundle => graph.ScalarPipe bundle → graph.UnbundledWait waits ∧ graph.BundlesWait waits
  | .unbundled .. => graph.BundlesWait waits
  | .force _ => graph.UnbundledWait waits ∧ graph.BundlesWait waits

section Choices

variable (linked : graph.Linked) (sound : run.Sound graph (graph.dependencies .both))

include linked sound

theorem Run.Sound.bundlesWait (acyclic : Acyclic (graph.Blocks .both)) (marked : run.Marked graph)
    (vectors : (run.bestBundle? fun state => state.isEligible && !state.scalarPipe) = none) :
    graph.BundlesWait (Unplaced graph run.order) := by
  intro bundle vector incomplete
  obtain ⟨member, ⟨-, unplaced⟩, bundled⟩ := incomplete
  by_contra unblocked
  have closed : openPairs graph (graph.dependencies .both) run.order bundle = 0 := by
    rw [openPairs_eq_zero_iff]
    intro node blocking inBundle blocks outside
    by_contra missing
    have blocks := (Graph.mem_blockers_iff linked).mp blocks
    exact unblocked ⟨node, blocking, inBundle, outside, blocks, blocks.2.1, missing⟩
  -- Nothing outside holds the bundle back, so one of its members is free and it could have been chosen.
  obtain ⟨node, ready, inBundle⟩ := exists_free_member linked acyclic closed ⟨member, bundled, unplaced⟩
  obtain ⟨state, found⟩ := sound.matched.present inBundle
  have listed := (sound.mem_free found node).mpr ⟨ready, inBundle⟩
  have eligible := (sound.isEligible_iff found).mpr ⟨closed, List.ne_nil_of_mem listed⟩
  have unmarked : state.scalarPipe = false := by
    rw [← Bool.not_eq_true, marked.scalarPipe_iff found]
    exact vector
  rw [Run.bestBundle?_eq_none vectors found (by simp [eligible, unmarked])] at listed
  cases listed

theorem Run.Sound.unbundledWait (popped : run.unbundled.pop? = none) :
    graph.UnbundledWait (Unplaced graph run.order) := by
  rintro node ⟨known, unplaced⟩ unbundled
  by_contra unblocked
  have ready : (graph.dependencies .both).network.Free run.order node := by
    refine ⟨by rwa [Graph.nodes_network], unplaced, fun blocking blocks => ?_⟩
    by_contra missing
    have blocks := (Graph.mem_blockers_iff linked).mp blocks
    exact unblocked ⟨blocking, blocks, blocks.2.1, missing⟩
  have listed := (sound.matched.unbundledListed node).mpr ⟨ready, unbundled⟩
  obtain ⟨first, rest, some, -⟩ :=
    OffsetFrontier.pop?_of_ne_nil sound.matched.unbundledSound (List.ne_nil_of_mem listed)
  rw [popped] at some
  cases some

theorem Run.Sound.choose_defers (acyclic : Acyclic (graph.Blocks .both)) (marked : run.Marked graph) :
    run.choose.Defers graph (Unplaced graph run.order) := by
  unfold Run.choose
  split
  next bundle best =>
    intro pipe
    obtain ⟨state, -, found, passes, -⟩ := Run.bestBundle?_eq_some best
    have unmarked : state.scalarPipe = false := by simpa using (Bool.and_eq_true_iff.mp passes).2
    rw [(marked.scalarPipe_iff found).mpr pipe] at unmarked
    cases unmarked
  next vectors =>
    have bundles := sound.bundlesWait linked acyclic marked vectors
    split
    next => exact bundles
    next popped =>
      have unbundled := sound.unbundledWait linked popped
      split
      next => exact fun _ => ⟨unbundled, bundles⟩
      next =>
        split
        next => exact ⟨unbundled, bundles⟩
        next => trivial

theorem Run.Sound.choice_defers (acyclic : Acyclic (graph.Blocks .both)) (marked : run.Marked graph) :
    run.choice.Defers graph (Unplaced graph run.order) := by
  have choose := sound.choose_defers linked acyclic marked
  unfold Run.choice
  split
  next => exact choose
  next =>
    split
    next => exact choose
    next =>
      split
      next => exact choose
      next => trivial

end Choices

-- Unbundled nodes come after the bundles that can start, and a stretch of the scalar pipe after both.
structure Admits (graph : Graph) (before : List NodeId) (node : NodeId) : Prop where
  unbundled : graph.bundleOf node = none → graph.BundlesWait (Unplaced graph before)
  scalarPipe : ∀ bundle, graph.bundleOf node = some bundle → graph.ScalarPipe bundle →
    (∀ previous, before.getLast? = some previous → graph.bundleOf previous ≠ some bundle) →
      graph.UnbundledWait (Unplaced graph before) ∧ graph.BundlesWait (Unplaced graph before)

structure Run.Orderly (graph : Graph) (run : Run key) : Prop where
  marked : run.Marked graph
  admitted : Stepwise (Admits graph) run.order
  current : ∀ bundle, run.active = some bundle → graph.ScalarPipe bundle →
    (∃ previous, run.order.getLast? = some previous ∧ graph.bundleOf previous = some bundle) ∨
      graph.UnbundledWait (Unplaced graph run.order) ∧ graph.BundlesWait (Unplaced graph run.order)

theorem Run.Orderly.step (linked : graph.Linked) (fits : graph.OffsetsFit) (acyclic : Acyclic (graph.Blocks .both))
    (sound : run.Sound graph (graph.dependencies .both)) (orderly : run.Orderly graph)
    (stepped : run.step graph (graph.dependencies .both) = .ok (some after)) :
    after.Sound graph (graph.dependencies .both) ∧ after.Orderly graph := by
  have net := Graph.sound_network linked .both
  have marked : after.Marked graph := fun bundle => sound.marks_step stepped ▸ orderly.marked bundle
  have holds := sound.choice_holds
  have defers := sound.choice_defers linked acyclic orderly.marked
  cases choice : run.choice with
  | member bundle state node rest =>
    obtain ⟨next, stepped', places, active, bundled⟩ := sound.step_member fits net choice
    cases stepped.symm.trans stepped'
    rw [choice] at holds
    refine ⟨places.sound, marked, ?_, ?_⟩
    next =>
      rw [places.order_eq]
      refine stepwise_snoc.mpr ⟨orderly.admitted, fun unbundled => ?_, fun other own pipe apart => ?_⟩
      next => cases bundled.symm.trans unbundled
      next =>
        cases bundled.symm.trans own
        -- The stretch starts here, so the bundle became active just before and everything else waited then.
        refine (orderly.current bundle holds.1 pipe).resolve_left ?_
        rintro ⟨previous, latest, inside⟩
        exact apart previous latest inside
    next =>
      intro other own _
      cases active.symm.trans own
      exact Or.inl ⟨node, by rw [places.order_eq, List.getLast?_concat], bundled⟩
  | start bundle =>
    rw [choice] at defers
    rw [Run.step, choice] at stepped
    cases stepped
    refine ⟨sound.activate _, marked, orderly.admitted, fun other own pipe => Or.inr ?_⟩
    cases own
    exact defers pipe
  | unbundled node rest =>
    obtain ⟨next, stepped', places, active, unbundled⟩ := sound.step_unbundled fits net choice
    cases stepped.symm.trans stepped'
    rw [choice] at defers
    refine ⟨places.sound, marked, ?_, ?_⟩
    next =>
      rw [places.order_eq]
      refine stepwise_snoc.mpr ⟨orderly.admitted, fun _ => defers, fun bundle own => ?_⟩
      cases unbundled.symm.trans own
    next =>
      intro other own
      cases active.symm.trans own
  | force bundle =>
    rw [choice] at defers
    rw [Run.step, choice] at stepped
    cases stepped
    exact ⟨sound.activate _, marked, orderly.admitted, fun _ _ _ => Or.inr defers⟩
  | stop =>
    rw [Run.step, choice] at stepped
    cases stepped

theorem Run.Leads.orderly (linked : graph.Linked) (fits : graph.OffsetsFit) (acyclic : Acyclic (graph.Blocks .both))
    {first : Run key} (started : start graph (graph.dependencies .both) key = .ok first)
    (leads : Run.Leads graph (graph.dependencies .both) first run) :
    run.Sound graph (graph.dependencies .both) ∧ run.Orderly graph := by
  induction leads with
  | refl =>
    obtain ⟨run, started', sound, order, active⟩ := start_ok linked fits (graph.dependencies .both) key
    cases started.symm.trans started'
    refine ⟨sound, marked_start started, order ▸ stepwise_nil, ?_⟩
    intro bundle own
    cases active.symm.trans own
  | tail _ stepped ih => exact ih.2.step linked fits acyclic ih.1 stepped

end Gaudi

namespace Graph

variable {graph : Graph}

theorem unplaced_eq {before after : List NodeId} {node : NodeId}
    (valid : (graph.dependencies .both).network.IsOrder (before ++ node :: after)) :
    Gaudi.Unplaced graph before = (· ∈ node :: after) := by
  funext other
  have listed := valid.mem_iff other
  rw [nodes_network, List.mem_append] at listed
  rw [Gaudi.Unplaced, eq_iff_iff, ← listed]
  constructor
  next => exact fun unplaced => unplaced.1.resolve_left unplaced.2
  next => exact fun behind => ⟨Or.inr behind, fun placed => (List.nodup_append.mp valid.nodup).2.2 _ placed _ behind rfl⟩

theorem scheduleGaudi_yields (consistent : graph.Consistent) (fits : graph.OffsetsFit)
    (acyclic : Acyclic (graph.Blocks .both)) (config : ScheduleConfig) (probes : config.reorderProbes = false)
    (memsets : config.optimizeMemsets = false) :
    ∃ order, graph.scheduleGaudi config = .ok order ∧ graph.IsSchedule order ∧
      ∀ before node after, order = before ++ node :: after →
        (graph.bundleOf node = none → graph.BundlesWait (· ∈ node :: after)) ∧
        ∀ bundle, graph.bundleOf node = some bundle → graph.ScalarPipe bundle →
          (∀ previous, before.getLast? = some previous → graph.bundleOf previous ≠ some bundle) →
            graph.UnbundledWait (· ∈ node :: after) ∧ graph.BundlesWait (· ∈ node :: after) := by
  have linked := consistent.toLinked
  -- Without the two passes over the order the answer is what the run has placed.
  obtain ⟨metrics, answers⟩ := scheduleGaudi_of_run linked acyclic config
  obtain ⟨first, last, started, leads, ran, valid⟩ :=
    Gaudi.run_complete linked fits acyclic (graph.gaudiKey config.parentIdSchedule metrics)
  have unmoved : Gaudi.place graph (graph.dependencies .both) config last.order = last.order := by
    simp [Gaudi.place, probes, memsets]
  refine ⟨last.order, unmoved ▸ answers last.order ran, .of_isOrder linked valid, fun before node after split => ?_⟩
  obtain ⟨unbundled, scalarPipe⟩ := (leads.orderly linked fits acyclic started).2.admitted before node after split
  rw [unplaced_eq (split ▸ valid)] at unbundled scalarPipe
  exact ⟨unbundled, scalarPipe⟩

-- Two bundles that wait for each other; the first, in the scalar pipe by its first member alone, has to be forced.
def crossed : GraphDescription :=
  { tensors := [{ name := "loaded" }, { name := "fetched" }, { name := "product" }, { name := "sum" }]
    nodes := [{ name := "load", outputs := ["loaded"] },
      { name := "fetch", outputs := ["fetched"], bundle := some { bundleIndex := 0, bundleType := .scalarPipe } },
      { name := "multiply", inputs := ["loaded", "fetched"], outputs := ["product"], bundle := some { bundleIndex := 1 } },
      { name := "add", inputs := ["product"], outputs := ["sum"], bundle := some { bundleIndex := 0 } },
      { name := "log", inputs := ["sum"] }] }

theorem scheduleGaudi_crossed :
    crossed.graph.scheduleGaudi { reorderProbes := false, optimizeMemsets := false } =
        .ok [⟨0⟩, ⟨1⟩, ⟨2⟩, ⟨3⟩, ⟨4⟩] ∧
      crossed.graph.BundlesWait (· ∈ [(⟨0⟩ : NodeId), ⟨1⟩, ⟨2⟩, ⟨3⟩, ⟨4⟩]) ∧
      crossed.graph.UnbundledWait (· ∈ [(⟨1⟩ : NodeId), ⟨2⟩, ⟨3⟩, ⟨4⟩]) ∧
      crossed.graph.BundlesWait (· ∈ [(⟨1⟩ : NodeId), ⟨2⟩, ⟨3⟩, ⟨4⟩]) := by
  have consistent := crossed.consistent_graph
  have acyclic : Acyclic (crossed.graph.Blocks .both) := acyclic_of_numbered (by decide) (by decide)
  have pipe : crossed.graph.ScalarPipe 0 := Gaudi.scalarPipe_iff.mpr rfl
  obtain ⟨order, scheduled, -, yields⟩ := scheduleGaudi_yields consistent (offsetsFit_of_viewless (by decide)) acyclic
    { reorderProbes := false, optimizeMemsets := false } rfl rfl
  have computed : (crossed.graph.scheduleGaudi { reorderProbes := false, optimizeMemsets := false }).toOption =
      some [⟨0⟩, ⟨1⟩, ⟨2⟩, ⟨3⟩, ⟨4⟩] := by decide +kernel
  rw [scheduled] at computed
  cases computed
  refine ⟨scheduled, (yields [] ⟨0⟩ _ rfl).1 rfl, (yields [⟨0⟩] ⟨1⟩ _ rfl).2 0 rfl pipe ?_⟩
  rintro _ ⟨⟩
  decide

end Graph

end Dataflow
