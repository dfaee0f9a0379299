import Dataflow.Proofs.Plane.Moves

set_option autoImplicit false

namespace Dataflow.Plane

variable {graph : Graph} {start plane after : Plane} {strict : Prop}

def Carries (plane : Plane) (id : PlaneNodeId) (index : UInt32) : Prop :=
  ∃ found, plane.graph.nodes.get? id = some found ∧ found.bundleIndex? = some index

structure IndexesBundles (plane : Plane) : Prop where
  leads_iff : ∀ index id, plane.bundleOf.get? index = some id ↔ ∀ other, plane.Carries other index ↔ other = id
  distinct : ∀ {index id other}, plane.Carries id index → plane.Carries other index → id = other

def indexOf (plane : Plane) (id : PlaneNodeId) : Option UInt32 :=
  (plane.graph.seat? id).bind fun seat => seat.bundle.map BundleInfo.bundleIndex

theorem carries_iff {id : PlaneNodeId} {index : UInt32} : plane.Carries id index ↔ plane.indexOf id = some index := by
  unfold Carries indexOf PlaneGraph.seat?
  cases plane.graph.nodes.get? id with
  | none => simp
  | some found => simp [PlaneNode.bundleIndex?, PlaneNode.seat]

structure Inverse (strict : Prop) (bundleOf : Table UInt32 PlaneNodeId) (indexOf : PlaneNodeId → Option UInt32) :
    Prop where
  names : ∀ {index id}, bundleOf.get? index = some id → indexOf id = some index
  carried : strict → ∀ {index id}, indexOf id = some index → bundleOf.get? index = some id

namespace Inverse

variable {bundleOf : Table UInt32 PlaneNodeId} {before now : PlaneNodeId → Option UInt32} {id : PlaneNodeId}
  {index : UInt32}

theorem entered (inverse : Inverse strict bundleOf before) {gone : List PlaneNodeId}
    (indexes : ∀ other, now other = if other = id then some index else if other ∈ gone then none else before other)
    (plain : before id = none) (joining : ∀ other ∈ gone, ∀ own, before other = some own → own = index)
    (free : strict → ∀ other, bundleOf.get? index = some other → other ∈ gone) :
    Inverse strict (bundleOf.insert index id) now where
  names := by
    intro key other led
    rw [Table.get?_insert_eq] at led
    rw [indexes]
    split at led
    next same => cases led; rw [if_pos rfl, same]
    next differs =>
      have own := inverse.names led
      have elsewhere : other ≠ id := by rintro rfl; rw [plain] at own; cases own
      have stays : other ∉ gone := fun going => differs (joining other going key own)
      rw [if_neg elsewhere, if_neg stays, own]
  carried := by
    intro strictly key other own
    rw [Table.get?_insert_eq]
    rw [indexes] at own
    split at own
    next same => cases own; rw [if_pos rfl, same]
    next =>
      split at own
      next => cases own
      next stays =>
        have led := inverse.carried strictly own
        have differs : key ≠ index := by rintro rfl; exact stays (free strictly other led)
        rw [if_neg differs, led]

theorem left (inverse : Inverse strict bundleOf before) (own : before id = some index)
    (indexes : ∀ other, now other = if other = id then none else before other) :
    Inverse strict (bundleOf.erase index) now where
  names := by
    intro key other led
    rw [Table.get?_erase_eq] at led
    split at led
    next => cases led
    next differs =>
      have has := inverse.names led
      have elsewhere : other ≠ id := by
        rintro rfl
        exact differs (Option.some.inj (has.symm.trans own))
      rw [indexes, if_neg elsewhere, has]
  carried := by
    intro strictly key other has
    rw [indexes] at has
    split at has
    next => cases has
    next elsewhere =>
      have led := inverse.carried strictly has
      have differs : key ≠ index := by
        rintro rfl
        exact elsewhere (Option.some.inj (led.symm.trans (inverse.carried strictly own)))
      rw [Table.get?_erase_eq, if_neg differs, led]

end Inverse

def Catalogued (strict : Prop) (plane : Plane) : Prop := Inverse strict plane.bundleOf plane.indexOf

namespace Catalogued

theorem of_same (catalogued : plane.Catalogued strict) (bundleOf : after.bundleOf = plane.bundleOf)
    (indexes : ∀ id, after.indexOf id = plane.indexOf id) : after.Catalogued strict := by
  rw [Catalogued, bundleOf, funext indexes]
  exact catalogued

theorem dismissed (catalogued : plane.Catalogued strict) {found : PlaneNode}
    (there : plane.graph.nodes.get? found.id = some found) : (plane.dismissed found).Catalogued strict := by
  have own : plane.indexOf found.id = found.bundleIndex? := by rw [indexOf, PlaneGraph.seat?_of_found there]; rfl
  have indexes (other : PlaneNodeId) : (plane.dismissed found).indexOf other =
      if other = found.id then none else plane.indexOf other := by
    rw [indexOf, seat?_dismissed]
    split <;> rfl
  cases has : found.bundleIndex? with
  | none =>
    -- It is no bundle, so no index leads to it.
    refine catalogued.of_same (by rw [Plane.dismissed, has]; rfl) fun other => ?_
    rw [indexes]
    split
    next same => rw [same, own, has]
    next => rfl
  | some index =>
    rw [has] at own
    have left := Inverse.left catalogued own indexes
    have erased : (plane.dismissed found).bundleOf = plane.bundleOf.erase index := by rw [Plane.dismissed, has]; rfl
    rwa [Catalogued, erased]

theorem move (catalogued : plane.Catalogued strict) (seated : plane.Seated) (move : Move strict plane after) :
    after.Catalogued strict := by
  cases move with
  | stay seats _ bundleOf _ => exact catalogued.of_same bundleOf fun id => by rw [indexOf, seats]; rfl
  | @arrive node member own members plain absent =>
    refine catalogued.of_same rfl fun id => ?_
    rw [indexOf, seat?_pushed, own]
    split
    next new => rw [new, indexOf, seated.nextNode_unused]; simp [PlaneNode.seat, plain]
    next => rfl
  | @merge nodes members info nodup mapped joining free =>
    refine Inverse.entered catalogued (fun other => ?_) ?_ (fun other going own has => ?_) free
    next =>
      rw [indexOf, seated.seat?_merged]
      split
      next => rfl
      next => split <;> rfl
    next => rw [indexOf, seated.nextNode_unused]; rfl
    next =>
      -- A bundle that is merged is the one that the index leads to.
      obtain ⟨seat, there, bundled⟩ := Option.bind_eq_some_iff.mp has
      rcases joining other going seat there with plain | led
      next => rw [plain] at bundled; cases bundled
      next => exact Option.some.inj (has.symm.trans (catalogued.names led))
  | @mark id seat info there plain free =>
    refine Inverse.entered catalogued (fun other => ?_) ?_ (List.forall_mem_nil _) fun strictly other led => ?_
    next =>
      rw [indexOf, seat?_marked]
      split
      next same => rw [same, there]; rfl
      next => rfl
    next => rw [indexOf, there]; simp [plain]
    next => rw [free strictly] at led; cases led
  | @disband id seat info there bundle alone =>
    have own : plane.indexOf id = some info.bundleIndex := by rw [indexOf, there]; simp [bundle]
    refine Inverse.left catalogued own fun other => ?_
    rw [indexOf, seat?_disbanded]
    split
    next same => rw [same, there]; rfl
    next => rfl
  | @dismiss found there => exact catalogued.dismissed there
  | @leave after id seat node there bundled inside seats nodeOf bundleOf _ =>
    refine catalogued.of_same bundleOf fun other => ?_
    rw [indexOf, seats]
    split
    next same => rw [same, indexOf, there]; rfl
    next => rfl
  | @rename old new id stands absent =>
    refine catalogued.of_same rfl fun other => ?_
    rw [indexOf, seat?_replaced]
    split
    next =>
      rw [indexOf]
      cases plane.graph.seat? other <;> rfl
    next => rfl

theorem moves (catalogued : start.Catalogued strict) (seated : start.Seated) (moves : Moves strict start plane) :
    plane.Catalogued strict := by
  induction moves with
  | refl => exact catalogued
  | tail before move ih => exact ih.move (Moves.seated before seated) move

theorem indexesBundles (catalogued : plane.Catalogued True) : plane.IndexesBundles where
  leads_iff index id := by
    simp only [carries_iff]
    constructor
    next =>
      intro led other
      constructor
      next => exact fun has => Option.some.inj ((catalogued.carried trivial has).symm.trans led)
      next => rintro rfl; exact catalogued.names led
    next => exact fun only => catalogued.carried trivial ((only id).mpr rfl)
  distinct := by
    intro index id other
    rw [carries_iff, carries_iff]
    intro has otherHas
    exact Option.some.inj ((catalogued.carried trivial has).symm.trans (catalogued.carried trivial otherHas))

end Catalogued

theorem addNewBundle_of_alone {node : NodeId} {id : PlaneNodeId} {found : PlaneNode} (info : BundleInfo)
    (stands : plane.nodeOf.get? node = some id) (there : plane.graph.nodes.get? id = some found)
    (plain : found.bundle = none) : addNewBundle node info plane = .ok true (plane.marked id info) := by
  unfold addNewBundle
  rw [stateful_bind_of_ok _ (query_eq_ok.mpr ⟨representation_eq_ok.mpr stands, rfl⟩),
    stateful_bind_of_ok _ (query_eq_ok.mpr ⟨planeNode_eq_ok.mpr ⟨id, stands, there⟩, rfl⟩), PlaneNode.isBundle, plain]
  rfl

theorem Catalogued.not_indexesBundles (catalogued : plane.Catalogued strict) {operation : Rebundling}
    (overwrites : operation.Overwrites plane) (left : ConcludesIn (operation.perform graph) plane after) :
    ¬ after.IndexesBundles := by
  cases operation with
  | regroup => cases overwrites
  | replace => cases overwrites
  | mark node info =>
    obtain ⟨⟨id, found, stands, there, plain⟩, other, led⟩ := overwrites
    have seat := PlaneGraph.seat?_of_found there
    have reached : after = plane.marked id info := by
      have made := stateful_discard_eq_ok.mpr ⟨_, addNewBundle_of_alone info stands there plain⟩
      rcases left with ⟨_, ended⟩ | ⟨_, failed, -⟩
      next => cases made.symm.trans ended; rfl
      next => cases made.symm.trans failed
    have otherHas := catalogued.names led
    have differs : other ≠ id := by
      rintro rfl
      rw [indexOf, seat, Option.bind_some, PlaneNode.seat, plain] at otherHas
      cases otherHas
    have otherKeeps : after.indexOf other = some info.bundleIndex := by
      rw [reached, indexOf, seat?_marked, if_neg differs]
      exact otherHas
    have gets : after.indexOf id = some info.bundleIndex := by
      rw [reached, indexOf, seat?_marked, if_pos rfl, seat]
      rfl
    intro indexes
    exact differs (indexes.distinct (carries_iff.mpr otherKeeps) (carries_iff.mpr gets))

inductive Rebundled (graph : Graph) (allowed : Plane → Rebundling → Prop) (start : Plane) : Plane → Prop
  | start : Rebundled graph allowed start start
  | step {plane after : Plane} {operation : Rebundling} (ran : Rebundled graph allowed start plane)
      (fine : allowed plane operation) (left : ConcludesIn (operation.perform graph) plane after) :
      Rebundled graph allowed start after

theorem Rebundled.moves {allowed : Plane → Rebundling → Prop} (seated : start.Seated)
    (careful : ∀ {plane operation}, allowed plane operation → strict → ¬ operation.Overwrites plane)
    (ran : Rebundled graph allowed start plane) : Moves strict start plane := by
  induction ran with
  | start => exact .refl
  | step _ fine left moves => exact (moves.perform seated (careful fine)).leaves left

theorem catalogued_ofGraph (made : ofGraph graph = .ok plane) : plane.Catalogued strict := by
  have empty : Catalogued strict {} := ⟨by rintro _ _ ⟨⟩, by rintro _ _ _ ⟨⟩⟩
  exact empty.moves (.empty _) (moves_ofGraph made)

theorem indexes_bundles_unless_overwritten (consistent : graph.Consistent) :
    ∃ start, ofGraph graph = .ok start ∧
      (∀ plane, Rebundled graph (fun _ _ => True) start plane →
        ∀ index id, plane.bundleOf.get? index = some id → plane.Carries id index) ∧
      ∀ plane, Rebundled graph (fun plane operation => ¬ operation.Overwrites plane) start plane →
        plane.IndexesBundles ∧
        ∀ (operation : Rebundling) (after : Plane), ConcludesIn (operation.perform graph) plane after →
          (after.IndexesBundles ↔ ¬ operation.Overwrites plane) := by
  obtain ⟨start, made, -⟩ := ofGraph_ok consistent
  have seated := seated_ofGraph made
  refine ⟨start, made, fun plane ran index id led => ?_, fun plane ran => ?_⟩
  next =>
    have moves : Moves False start plane := ran.moves seated fun _ => False.elim
    exact carries_iff.mpr (((catalogued_ofGraph made).moves seated moves).names led)
  next =>
    have catalogued {plane : Plane}
        (ran : Rebundled graph (fun plane operation => ¬ operation.Overwrites plane) start plane) :
        plane.Catalogued True :=
      (catalogued_ofGraph made).moves seated (ran.moves seated fun careful _ => careful)
    refine ⟨(catalogued ran).indexesBundles, fun operation after left => ?_⟩
    refine ⟨fun indexes overwrites => ?_, fun careful => ?_⟩
    next => exact (catalogued ran).not_indexesBundles overwrites left indexes
    next => exact (catalogued (ran.step careful left)).indexesBundles

def handover : GraphDescription :=
  { tensors := [{ name := "loaded" }]
    nodes := [{ name := "load", outputs := ["loaded"] }, { name := "store", inputs := ["loaded"] }] }

def handoverPlane : Plane := (ofGraph handover.graph).toOption.getD {}

theorem handover_overwritten : ∃ plane after,
    ConcludesIn ((Rebundling.mark ⟨0⟩ { bundleIndex := 7 }).perform handover.graph) handoverPlane plane ∧
      ConcludesIn ((Rebundling.mark ⟨1⟩ { bundleIndex := 7 }).perform handover.graph) plane after ∧
      plane.IndexesBundles ∧ ¬ after.IndexesBundles ∧ after.bundleOf.get? 7 = some ⟨1⟩ ∧ after.Carries ⟨1⟩ 7 ∧
      after.Carries ⟨0⟩ 7 := by
  have made : ofGraph handover.graph = .ok handoverPlane := rfl
  obtain ⟨start, made', leads, indexes⟩ :=
    indexes_bundles_unless_overwritten handover.consistent_graph
  cases made.symm.trans made'
  let plane := handoverPlane.marked ⟨0⟩ { bundleIndex := 7 }
  let after := plane.marked ⟨1⟩ { bundleIndex := 7 }
  have first : ConcludesIn ((Rebundling.mark ⟨0⟩ { bundleIndex := 7 }).perform handover.graph) handoverPlane plane :=
    Or.inl ⟨(), rfl⟩
  have second : ConcludesIn ((Rebundling.mark ⟨1⟩ { bundleIndex := 7 }).perform handover.graph) plane after :=
    Or.inl ⟨(), rfl⟩
  have free : ¬ (Rebundling.mark ⟨0⟩ { bundleIndex := 7 }).Overwrites handoverPlane := by
    rintro ⟨-, id, led⟩
    cases led
  have taken : (Rebundling.mark ⟨1⟩ { bundleIndex := 7 }).Overwrites plane :=
    ⟨⟨⟨1⟩, _, rfl, rfl, rfl⟩, ⟨0⟩, rfl⟩
  obtain ⟨holds, next⟩ := indexes plane (.step .start free first)
  exact ⟨plane, after, first, second, holds, fun kept => (next _ _ second).mp kept taken, rfl,
    leads after (.step (.step .start trivial first) trivial second) 7 ⟨1⟩ rfl, ⟨_, rfl, rfl⟩⟩

end Dataflow.Plane
