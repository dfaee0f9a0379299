import Dataflow.Proofs.Frontier.Offset
import Dataflow.Proofs.Gaudi.Counts

set_option autoImplicit false

namespace Dataflow.Gaudi

variable {K : Type} [Ord K] {key : NodeId → K} {graph : Graph} {deps : Dependencies}

structure BundleState.Matches (graph : Graph) (free : NodeId → Prop) (remaining pairs : Nat) (bundle : UInt32)
    (state : BundleState key) : Prop where
  distinct : state.free.nodes.Nodup
  listed : ∀ node, node ∈ state.free.nodes ↔ free node ∧ graph.bundleOf node = some bundle
  remaining_eq : state.remaining = remaining
  pairs_eq : state.externalBlockers = pairs

structure Matches (graph : Graph) (free : NodeId → Prop) (remaining pairs : UInt32 → Nat)
    (bundles : Table UInt32 (BundleState key)) (unbundled : OffsetFrontier key) : Prop where
  present : ∀ {node bundle}, graph.bundleOf node = some bundle → ∃ state, bundles.get? bundle = some state
  bundled : ∀ {bundle state}, bundles.get? bundle = some state →
    state.Matches graph free (remaining bundle) (pairs bundle) bundle
  unbundledSound : unbundled.Sound
  unbundledListed : ∀ node, node ∈ unbundled.frontier.nodes ↔ free node ∧ graph.bundleOf node = none

variable {free free' : NodeId → Prop} {remaining remaining' pairs pairs' : UInt32 → Nat}
  {bundles : Table UInt32 (BundleState key)} {unbundled : OffsetFrontier key}

theorem Matches.setBundle (matched : Matches graph free remaining pairs bundles unbundled)
    {bundle : UInt32} {state : BundleState key}
    (own : state.Matches graph free' (remaining' bundle) (pairs' bundle) bundle)
    (counts : ∀ other, other ≠ bundle → remaining' other = remaining other ∧ pairs' other = pairs other)
    (nodes : ∀ node, graph.bundleOf node ≠ some bundle → (free' node ↔ free node)) :
    Matches graph free' remaining' pairs' (bundles.insert bundle state) unbundled where
  present := by
    intro node other member
    by_cases same : other = bundle
    next => exact ⟨state, by rw [same, Table.get?_insert_self]⟩
    next => rw [Table.get?_insert_of_ne _ _ same]; exact matched.present member
  bundled := by
    intro other found present
    by_cases same : other = bundle
    next =>
      subst same
      rw [Table.get?_insert_self] at present
      cases present
      exact own
    next =>
      rw [Table.get?_insert_of_ne _ _ same] at present
      have old := matched.bundled present
      refine ⟨old.distinct, fun node => ?_, ?_, ?_⟩
      next =>
        rw [old.listed]
        refine and_congr_left fun member => ?_
        exact (nodes node (by rw [member]; simpa using same)).symm
      next => rw [old.remaining_eq, (counts other same).1]
      next => rw [old.pairs_eq, (counts other same).2]
  unbundledSound := matched.unbundledSound
  unbundledListed := by
    intro node
    rw [matched.unbundledListed]
    exact and_congr_left fun none => (nodes node (by simp [none])).symm

theorem Matches.setUnbundled (matched : Matches graph free remaining pairs bundles unbundled)
    {unbundled' : OffsetFrontier key} (sound : unbundled'.Sound)
    (listed : ∀ node, node ∈ unbundled'.frontier.nodes ↔ free' node ∧ graph.bundleOf node = none)
    (nodes : ∀ node, graph.bundleOf node ≠ none → (free' node ↔ free node)) :
    Matches graph free' remaining pairs bundles unbundled' where
  present := matched.present
  bundled := by
    intro bundle state present
    have old := matched.bundled present
    refine ⟨old.distinct, fun node => ?_, old.remaining_eq, old.pairs_eq⟩
    rw [old.listed]
    exact and_congr_left fun member => (nodes node (by simp [member])).symm
  unbundledSound := sound
  unbundledListed := listed

structure Run.SameCourse (run after : Run key) : Prop where
  order_eq : after.order = run.order
  inDegrees_eq : after.inDegrees = run.inDegrees
  active_eq : after.active = run.active

theorem Run.SameCourse.trans {run after final : Run key} (first : run.SameCourse after)
    (second : after.SameCourse final) : run.SameCourse final where
  order_eq := second.order_eq.trans first.order_eq
  inDegrees_eq := second.inDegrees_eq.trans first.inDegrees_eq
  active_eq := second.active_eq.trans first.active_eq

theorem Run.bundleOf?_eq_none {run : Run key} {node : NodeId} (unbundled : graph.bundleOf node = none) :
    run.bundleOf? graph node = none := by
  simp [Run.bundleOf?, unbundled]

theorem Run.bundleOf?_eq_some {run : Run key} {node : NodeId} {bundle : UInt32} {state : BundleState key}
    (bundled : graph.bundleOf node = some bundle) (found : run.bundles.get? bundle = some state) :
    run.bundleOf? graph node = some (bundle, state) := by
  simp [Run.bundleOf?, bundled, found]

theorem Run.makeFree_ok (fits : graph.OffsetsFit) {run : Run key}
    (matched : Matches graph free remaining pairs run.bundles run.unbundled) (node : NodeId) :
    ∃ after, run.makeFree graph node = .ok after ∧ run.SameCourse after ∧
      Matches graph (fun other => other = node ∨ free other) remaining pairs after.bundles after.unbundled := by
  cases bundled : graph.bundleOf node with
  | none =>
    obtain ⟨unbundled, inserted, sound, listed⟩ :=
      OffsetFrontier.insert_ok fits matched.unbundledSound node
    refine ⟨{ run with unbundled }, ?_, ⟨rfl, rfl, rfl⟩, matched.setUnbundled sound ?_ ?_⟩
    next => simp [Run.makeFree, Run.bundleOf?_eq_none bundled, inserted]
    next =>
      intro other
      rw [listed, matched.unbundledListed]
      grind
    next => grind
  | some bundle =>
    obtain ⟨state, found⟩ := matched.present bundled
    have old := matched.bundled found
    refine ⟨{ run with
      bundles := run.bundles.insert bundle { state with free := state.free.insert node } }, ?_,
      ⟨rfl, rfl, rfl⟩, matched.setBundle ⟨Frontier.nodup_insert old.distinct node, ?_, old.remaining_eq,
        old.pairs_eq⟩ (fun _ _ => ⟨rfl, rfl⟩) ?_⟩
    next => simp [Run.makeFree, Run.bundleOf?_eq_some bundled found]
    next =>
      intro other
      rw [Frontier.mem_insert, old.listed]
      grind
    next => grind

theorem Run.makeFreeAll_ok (fits : graph.OffsetsFit) (run : Run key)
    (matched : Matches graph free remaining pairs run.bundles run.unbundled) (nodes : List NodeId) :
    ∃ after, nodes.foldlM (Run.makeFree graph) run = .ok after ∧ run.SameCourse after ∧
      Matches graph (fun other => other ∈ nodes ∨ free other) remaining pairs after.bundles
        after.unbundled := by
  apply foldlM_succeeds fun done after => run.SameCourse after ∧
    Matches graph (fun other => other ∈ done ∨ free other) remaining pairs after.bundles after.unbundled
  next =>
    intro done node rest state split ⟨course, matched⟩
    obtain ⟨after, made, course', matched⟩ := Run.makeFree_ok fits matched node
    refine ⟨after, made, course.trans course', ?_⟩
    have same : (fun other => other = node ∨ other ∈ done ∨ free other) =
        fun other => other ∈ done ++ [node] ∨ free other := by
      funext other
      simp only [List.mem_append, List.mem_singleton, eq_iff_iff]
      tauto
    rwa [same] at matched
  next => exact ⟨⟨rfl, rfl, rfl⟩, by simpa using matched⟩

theorem Run.releaseBundle_ok {run : Run key}
    (matched : Matches graph free remaining pairs run.bundles run.unbundled) (own : Option UInt32)
    (node : NodeId) (opened : ∀ bundle, graph.bundleOf node = some bundle → own ≠ some bundle → 0 < pairs bundle) :
    ∃ after, run.releaseBundle graph own node = .ok after ∧ run.SameCourse after ∧
      Matches graph free remaining (fun bundle =>
        pairs bundle - if graph.bundleOf node = some bundle ∧ own ≠ some bundle then 1 else 0)
        after.bundles after.unbundled := by
  cases bundled : graph.bundleOf node with
  | none =>
    refine ⟨run, by simp [Run.releaseBundle, Run.bundleOf?_eq_none bundled], ⟨rfl, rfl, rfl⟩, ?_⟩
    simpa using matched
  | some bundle =>
    obtain ⟨state, found⟩ := matched.present bundled
    have old := matched.bundled found
    by_cases served : own = some bundle
    next =>
      refine ⟨run, by simp [Run.releaseBundle, Run.bundleOf?_eq_some bundled found, served],
        ⟨rfl, rfl, rfl⟩, ?_⟩
      have same : (fun other => pairs other - if some bundle = some other ∧ own ≠ some other then 1 else 0) =
          pairs := by grind
      rwa [same]
    next =>
      -- The pair is still open, so the counter is not zero and the subtraction does not fault.
      have positive := opened bundle bundled served
      obtain ⟨outside, split⟩ : ∃ outside, state.externalBlockers = outside + 1 :=
        Nat.exists_eq_add_one.mpr (old.pairs_eq ▸ positive)
      refine ⟨{ run with
        bundles := run.bundles.insert bundle { state with externalBlockers := outside } }, ?_,
        ⟨rfl, rfl, rfl⟩, matched.setBundle ⟨old.distinct, old.listed, old.remaining_eq, ?_⟩ ?_
          fun _ _ => Iff.rfl⟩
      next => simp [Run.releaseBundle, Run.bundleOf?_eq_some bundled found, served, split]
      next =>
        have := old.pairs_eq
        simp [served]
        omega
      next =>
        intro other differs
        simp [Ne.symm differs]

theorem Run.releaseBundles_ok {run : Run key}
    (matched : Matches graph free remaining pairs run.bundles run.unbundled) {own : Option UInt32}
    {nodes : List NodeId} (opened : ∀ bundle, own ≠ some bundle →
      nodes.countP (fun node => graph.bundleOf node = some bundle) ≤ pairs bundle) :
    ∃ after, nodes.foldlM (Run.releaseBundle graph own) run = .ok after ∧ run.SameCourse after ∧
      Matches graph free remaining (fun bundle => pairs bundle - if own = some bundle then 0
        else nodes.countP fun node => graph.bundleOf node = some bundle) after.bundles after.unbundled := by
  apply foldlM_succeeds fun done after => run.SameCourse after ∧
    Matches graph free remaining (fun bundle => pairs bundle - if own = some bundle then 0
      else done.countP fun node => graph.bundleOf node = some bundle) after.bundles after.unbundled
  next =>
    intro done node rest state split ⟨course, matched⟩
    obtain ⟨after, released, course', matched⟩ := Run.releaseBundle_ok matched own node (by
      intro bundle bundled served
      have bound := opened bundle served
      simp [split, bundled] at bound
      simp only [served, if_false]
      omega)
    refine ⟨after, released, course.trans course', ?_⟩
    have same : (fun bundle => (pairs bundle - if own = some bundle then 0
        else done.countP fun node => graph.bundleOf node = some bundle) -
          if graph.bundleOf node = some bundle ∧ own ≠ some bundle then 1 else 0) =
        fun bundle => pairs bundle - if own = some bundle then 0
          else (done ++ [node]).countP fun node => graph.bundleOf node = some bundle := by
      funext bundle
      by_cases served : own = some bundle <;> by_cases bundled : graph.bundleOf node = some bundle <;>
        simp [served, bundled, Nat.sub_sub]
    rwa [same] at matched
  next => exact ⟨⟨rfl, rfl, rfl⟩, by simpa using matched⟩

theorem Run.matches_countOff (run : Run key) {placed : List NodeId} {node : NodeId} (fresh : node ∉ placed)
    (matched : Matches graph free (remainingMembers graph placed) pairs run.bundles run.unbundled) :
    run.SameCourse (run.countOff graph node) ∧
      Matches graph free (remainingMembers graph (placed ++ [node])) pairs (run.countOff graph node).bundles
        (run.countOff graph node).unbundled := by
  have counts := @remainingMembers_snoc graph placed node fresh
  cases bundled : graph.bundleOf node with
  | none =>
    have same : remainingMembers graph (placed ++ [node]) = remainingMembers graph placed := by
      funext bundle
      simp [counts bundle, bundled]
    rw [Run.countOff, Run.bundleOf?_eq_none bundled, same]
    exact ⟨⟨rfl, rfl, rfl⟩, matched⟩
  | some bundle =>
    obtain ⟨state, found⟩ := matched.present bundled
    have old := matched.bundled found
    rw [Run.countOff, Run.bundleOf?_eq_some bundled found]
    refine ⟨⟨rfl, rfl, rfl⟩, matched.setBundle ⟨old.distinct, old.listed, ?_, old.pairs_eq⟩ ?_
      fun _ _ => Iff.rfl⟩
    next =>
      show state.remaining - 1 = _
      rw [old.remaining_eq, counts bundle, if_pos bundled, Nat.add_sub_cancel]
    next =>
      intro other differs
      simp [counts other, bundled, Ne.symm differs]

structure Run.Sound (graph : Graph) (deps : Dependencies) (run : Run key) : Prop where
  progress : deps.network.Progress run.order
  counted : deps.network.Degrees run.order run.inDegrees
  matched : Matches graph (deps.network.Free run.order) (remainingMembers graph run.order)
    (openPairs graph deps run.order) run.bundles run.unbundled

section

variable (fits : graph.OffsetsFit) (sound : deps.network.Sound)
include fits sound

theorem Run.emit_ok (run : Run key) {node : NodeId} (progress : deps.network.Progress run.order)
    (counted : deps.network.Degrees run.order run.inDegrees) (ready : deps.network.Free run.order node)
    (matched : Matches graph (fun other => deps.network.Free run.order other ∧ other ≠ node)
      (remainingMembers graph run.order) (openPairs graph deps run.order) run.bundles run.unbundled) :
    ∃ after, run.emit graph deps node = .ok after ∧ after.Sound graph deps ∧
      after.order = run.order ++ [node] ∧ after.active = run.active := by
  have fresh := ready.2.1
  have pairs := @openPairs_snoc graph deps sound _ _ fresh
  -- The three stages in turn: count the node off its bundle, release the bundles that wait for it, and make free
  -- what it held back.
  obtain ⟨course, matched⟩ := Run.matches_countOff { run with order := run.order ++ [node] } fresh matched
  have enough : ∀ bundle, graph.bundleOf node ≠ some bundle → (deps.dependents node).countP
      (fun other => graph.bundleOf other = some bundle) ≤ openPairs graph deps run.order bundle := by
    intro bundle differs
    simp [pairs bundle, differs]
  obtain ⟨second, releasing, course', matched⟩ := Run.releaseBundles_ok matched enough
  obtain ⟨freed, lowered, released, counted, distinct, mem_freed⟩ := release_dependents sound counted fresh
  obtain ⟨after, freeing, course'', matched⟩ := Run.makeFreeAll_ok fits
    { second with inDegrees := lowered } matched freed
  have course := course.trans course'
  have order : after.order = run.order ++ [node] := course''.order_eq.trans course.order_eq
  have degrees : after.inDegrees = lowered := course''.inDegrees_eq
  refine ⟨after, ?_, ⟨?_, ?_, ?_⟩, order, course''.active_eq.trans course.active_eq⟩
  next =>
    have degrees : second.inDegrees = run.inDegrees := course.inDegrees_eq
    have dependents : deps.network.dependents node = deps.dependents node := rfl
    rw [dependents] at released
    simp only [Run.emit, releasing, degrees, released, bind, Except.bind, freeing]
  next => rw [order]; exact progress.snoc ready
  next => rw [order, degrees]; exact counted
  next =>
    rw [order]
    have free : (fun other => other ∈ freed ∨ deps.network.Free run.order other ∧ other ≠ node) =
        deps.network.Free (run.order ++ [node]) := by
      funext other
      rw [eq_iff_iff, progress.free_snoc_iff sound ready, mem_freed, or_comm]
    have closed : (fun bundle => openPairs graph deps run.order bundle -
        if graph.bundleOf node = some bundle then 0
        else (deps.dependents node).countP fun node => graph.bundleOf node = some bundle) =
        openPairs graph deps (run.order ++ [node]) := by
      funext bundle
      rw [pairs bundle, Nat.add_sub_cancel]
    rwa [free, closed] at matched

end

end Dataflow.Gaudi
