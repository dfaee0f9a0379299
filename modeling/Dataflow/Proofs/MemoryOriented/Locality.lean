import Dataflow.Proofs.Schedule.Locality

set_option autoImplicit false

namespace Dataflow

structure IsLatest (order nodes : List NodeId) (last : NodeId) : Prop where
  listed : last ∈ nodes
  inside : last ∈ order
  greatest : ∀ other ∈ nodes, other ∈ order → order.idxOf other ≤ order.idxOf last

theorem isLatest_latest? {order nodes : List NodeId} {last : NodeId} (found : latest? order nodes = some last) :
    IsLatest order nodes last := by
  obtain ⟨listed, inside, greatest⟩ := latest?_eq_some found
  exact ⟨listed, inside, greatest⟩

theorem exists_latest? {order nodes : List NodeId} {node : NodeId} (listed : node ∈ nodes) (inside : node ∈ order) :
    ∃ last, latest? order nodes = some last :=
  exists_pick_placed (fun index => -(index : Int)) (by simp) listed inside

namespace SameBut

variable {node : NodeId} {order moved : List NodeId}

theorem moveAfter {anchor : NodeId} (nodup : order.Nodup) (move : moveAfter? order node anchor = some moved) :
    SameBut node order moved := by
  obtain ⟨before, mid, after, rfl, rfl, -⟩ := moveAfter?_eq_some move
  have differs : anchor ≠ node := by
    rintro rfl
    simp [List.nodup_append] at nodup
  simp [SameBut, differs]

theorem isLatest {nodes : List NodeId} {last : NodeId} (same : SameBut node order moved) (unlisted : node ∉ nodes)
    (latest : IsLatest order nodes last) : IsLatest moved nodes last := by
  have differs : ∀ other ∈ nodes, other ≠ node := fun other listed equal => unlisted (equal ▸ listed)
  have differ := differs last latest.listed
  refine ⟨latest.listed, (same.mem_iff differ).mpr latest.inside, fun other listed inside => ?_⟩
  rw [same.idxOf_le_iff (differs other listed) differ]
  exact latest.greatest other listed ((same.mem_iff (differs other listed)).mp inside)

end SameBut

theorem idxOf_le_anchor {order : List NodeId} {node anchor : NodeId} (nodup : order.Nodup) (inside : node ∈ order)
    (inside' : anchor ∈ order) :
    ((moveAfter? order node anchor).getD order).idxOf node ≤
      ((moveAfter? order node anchor).getD order).idxOf anchor + 1 := by
  cases move : moveAfter? order node anchor with
  | none =>
    simp only [moveAfter?, Option.bind_eq_bind, position?_eq_some.mpr ⟨inside, rfl⟩,
      position?_eq_some.mpr ⟨inside', rfl⟩, Option.bind_some] at move
    split at move
    next => cases move
    next close => exact Nat.not_lt.mp close
  | some moved =>
    obtain ⟨before, mid, after, rfl, rfl, fresh⟩ := moveAfter?_eq_some move
    have first : node ∉ before ++ [anchor] := by
      simp only [List.nodup_append, List.nodup_cons, List.mem_append, List.mem_cons] at nodup ⊢
      grind
    have place := List.idxOf_split first (mid ++ after)
    have place' := List.idxOf_split fresh (node :: mid ++ after)
    simp only [List.append_assoc, List.cons_append, List.nil_append] at place place'
    rw [Option.getD_some]
    simp [place, place']

def AtFirstUse (deps : Dependencies) (kind : NodeId → Prop) (node : NodeId) (order : List NodeId) : Prop :=
  (∃ waiting ∈ deps.dependents node, waiting ∈ order) →
    ∃ first, IsEarliest order (deps.dependents node) first ∧ OnlyBetween kind order node first

def AtLastBlocker (deps : Dependencies) (kind : NodeId → Prop) (node : NodeId) (order : List NodeId) : Prop :=
  (∃ blocking ∈ deps.blockers node, blocking ∈ order) →
    ∃ last, IsLatest order (deps.blockers node) last ∧ OnlyBetween kind order last node

structure Brings (deps : Dependencies) (kind : NodeId → Prop) (near : NodeId → List NodeId → Prop)
    (order final : List NodeId) : Prop where
  perm : final.Perm order
  inOrder : deps.InOrder final
  close : ∀ node ∈ order, kind node → near node final

section Moves

variable {deps : Dependencies} {kind : NodeId → Prop} {order moved : List NodeId} {node done : NodeId}

theorem sameBut_getD {move : Option (List NodeId)} (same : ∀ {moved}, move = some moved → SameBut node order moved) :
    SameBut node order (move.getD order) := by
  cases result : move with
  | none => rfl
  | some moved => exact same result

theorem moveToFirstUse_sameBut (move : Graph.moveToFirstUse deps order node = some moved) :
    SameBut node order moved := by
  simp only [Graph.moveToFirstUse, Option.bind_eq_bind, Option.bind_eq_some_iff] at move
  obtain ⟨first, -, move⟩ := move
  exact .moveBefore move

theorem moveToLastBlocker_sameBut (nodup : order.Nodup) (move : Graph.moveToLastBlocker deps order node = some moved) :
    SameBut node order moved := by
  simp only [Graph.moveToLastBlocker, Option.bind_eq_bind, Option.bind_eq_some_iff] at move
  obtain ⟨last, -, move⟩ := move
  exact .moveAfter nodup move

theorem atFirstUse_move (nodup : order.Nodup) (inside : node ∈ order) (loopless : node ∉ deps.dependents node) :
    AtFirstUse deps kind node ((Graph.moveToFirstUse deps order node).getD order) := by
  rintro ⟨waiting, listed, present⟩
  have same : SameBut node order ((Graph.moveToFirstUse deps order node).getD order) :=
    sameBut_getD fun move => moveToFirstUse_sameBut move
  have differs : waiting ≠ node := fun equal => loopless (equal ▸ listed)
  obtain ⟨first, found⟩ := exists_earliest? listed ((same.mem_iff differs).mp present)
  have earliest := isEarliest_earliest? found
  have moves : Graph.moveToFirstUse deps order node = moveBefore? order node first := by
    simp [Graph.moveToFirstUse, found]
  have close := idxOf_anchor_le nodup inside earliest.inside
  rw [← moves] at close
  refine ⟨first, same.isEarliest loopless earliest, fun other _ behind ahead => ?_⟩
  omega

theorem atLastBlocker_move (nodup : order.Nodup) (inside : node ∈ order) (loopless : node ∉ deps.blockers node) :
    AtLastBlocker deps kind node ((Graph.moveToLastBlocker deps order node).getD order) := by
  rintro ⟨blocking, listed, present⟩
  have same : SameBut node order ((Graph.moveToLastBlocker deps order node).getD order) :=
    sameBut_getD fun move => moveToLastBlocker_sameBut nodup move
  have differs : blocking ≠ node := fun equal => loopless (equal ▸ listed)
  obtain ⟨last, found⟩ := exists_latest? listed ((same.mem_iff differs).mp present)
  have latest := isLatest_latest? found
  have moves : Graph.moveToLastBlocker deps order node = moveAfter? order node last := by
    simp [Graph.moveToLastBlocker, found]
  have close := idxOf_le_anchor nodup inside latest.inside
  rw [← moves] at close
  refine ⟨last, same.isLatest loopless latest, fun other _ behind ahead => ?_⟩
  omega

-- A node that is done stays near to the same node, as long as what is moved is of the kind and does not
-- come into question for that node's place.

theorem AtFirstUse.sameBut (near : AtFirstUse deps kind done order) (same : SameBut node order moved)
    (holds : kind node) (unserved : node ∉ deps.dependents done) (differs : done ≠ node) :
    AtFirstUse deps kind done moved := by
  rintro ⟨waiting, listed, present⟩
  have apart : ∀ other ∈ deps.dependents done, other ≠ node := fun other waits equal => unserved (equal ▸ waits)
  obtain ⟨first, earliest, only⟩ := near ⟨waiting, listed, (same.mem_iff (apart waiting listed)).mp present⟩
  have differs' := apart first earliest.listed
  exact ⟨first, same.isEarliest unserved earliest, same.onlyBetween holds differs differs' only⟩

theorem AtLastBlocker.sameBut (near : AtLastBlocker deps kind done order) (same : SameBut node order moved)
    (holds : kind node) (unneeded : node ∉ deps.blockers done) (differs : done ≠ node) :
    AtLastBlocker deps kind done moved := by
  rintro ⟨blocking, listed, present⟩
  have apart : ∀ other ∈ deps.blockers done, other ≠ node := fun other blocks equal => unneeded (equal ▸ blocks)
  obtain ⟨last, latest, only⟩ := near ⟨blocking, listed, (same.mem_iff (apart blocking listed)).mp present⟩
  have differs' := apart last latest.listed
  exact ⟨last, same.isLatest unneeded latest, same.onlyBetween holds differs' differs only⟩

end Moves

namespace Graph

def OfKind (graph : Graph) (property : Node → Bool) (id : NodeId) : Prop :=
  ∃ node, graph.nodes.get? id = some node ∧ property node = true

theorem mem_having {graph : Graph} {property : Node → Bool} {order : List NodeId} {id : NodeId} :
    id ∈ graph.having property order ↔ id ∈ order ∧ graph.OfKind property id := by
  simp only [having, OfKind, List.mem_filter, Option.any_eq_true]

section Passes

variable {graph : Graph} {filter : EdgeFilter} {order : List NodeId} (property : Node → Bool) (nodup : order.Nodup)
  (inOrder : (graph.dependencies filter).InOrder order)
include nodup inOrder

theorem having_apart : (graph.having property order).Pairwise fun earlier later =>
    earlier ≠ later ∧ later ∉ (graph.dependencies filter).blockers earlier := by
  obtain ⟨pairwise, -⟩ := (Dependencies.inOrder_iff nodup).mp inOrder
  exact (List.pairwise_and_iff.mpr ⟨nodup, pairwise⟩).sublist List.filter_sublist

theorem moveEach_toFirstUse (known : ∀ node ∈ order, node ∈ graph.nodeIds) :
    Brings (graph.dependencies filter) (graph.OfKind property)
      (AtFirstUse (graph.dependencies filter) (graph.OfKind property)) order
      (moveEach (moveToFirstUse (graph.dependencies filter)) order (graph.having property order).reverse).2 := by
  have complete := dependents_complete filter known
  have moves : Rearranged (graph.dependencies filter).blockers order
      (moveEach (moveToFirstUse (graph.dependencies filter)) order (graph.having property order).reverse).2 :=
    .moveEach (fun perm move => moveToFirstUse_rearranged (complete_of_perm complete perm) move) _
  -- The pass goes from behind, so what is yet to be moved stands earlier than what has been moved and
  -- cannot wait for it.
  have apart : (graph.having property order).reverse.Pairwise fun done node =>
      done ≠ node ∧ node ∉ (graph.dependencies filter).dependents done := by
    rw [List.pairwise_reverse]
    refine (having_apart property nodup inOrder).imp ?_
    rintro earlier later ⟨differ, unblocked⟩
    exact ⟨differ.symm, fun waits => unblocked (mem_dependents.mp waits).2⟩
  refine ⟨moves.perm, moves.inOrder nodup inOrder, fun node inside holds => ?_⟩
  refine moveEach_settles (P := fun between => between.Perm order) apart (.refl _) ?_ ?_ ?_ node
    (List.mem_reverse.mpr (mem_having.mpr ⟨inside, holds⟩))
  next =>
    intro between node moved _ perm move
    exact (moveToFirstUse_rearranged (complete_of_perm complete perm) move).perm.trans perm
  next =>
    intro between node listed perm
    obtain ⟨inside, -⟩ := mem_having.mp (List.mem_reverse.mp listed)
    have loopless : node ∉ (graph.dependencies filter).dependents node := fun waits =>
      Nat.lt_irrefl _ (inOrder node inside node inside (mem_dependents.mp waits).2)
    exact atFirstUse_move (perm.nodup_iff.mpr nodup) (perm.mem_iff.mpr inside) loopless
  next =>
    rintro between node done moved listed ⟨differs, unserved⟩ - near move
    obtain ⟨-, holds⟩ := mem_having.mp (List.mem_reverse.mp listed)
    exact near.sameBut (moveToFirstUse_sameBut move) holds unserved differs

theorem moveEach_toLastBlocker :
    Brings (graph.dependencies filter) (graph.OfKind property)
      (AtLastBlocker (graph.dependencies filter) (graph.OfKind property)) order
      (moveEach (moveToLastBlocker (graph.dependencies filter)) order (graph.having property order)).2 := by
  have moves : Rearranged (graph.dependencies filter).blockers order
      (moveEach (moveToLastBlocker (graph.dependencies filter)) order (graph.having property order)).2 :=
    .moveEach (fun perm move => moveToLastBlocker_rearranged (perm.nodup_iff.mpr nodup) move) _
  refine ⟨moves.perm, moves.inOrder nodup inOrder, fun node inside holds => ?_⟩
  refine moveEach_settles (P := fun between => between.Perm order) (having_apart property nodup inOrder) (.refl _)
    ?_ ?_ ?_ node (mem_having.mpr ⟨inside, holds⟩)
  next =>
    intro between node moved _ perm move
    exact (moveToLastBlocker_rearranged (perm.nodup_iff.mpr nodup) move).perm.trans perm
  next =>
    intro between node listed perm
    obtain ⟨inside, -⟩ := mem_having.mp listed
    have loopless : node ∉ (graph.dependencies filter).blockers node := fun blocks =>
      Nat.lt_irrefl _ (inOrder node inside node inside blocks)
    exact atLastBlocker_move (perm.nodup_iff.mpr nodup) (perm.mem_iff.mpr inside) loopless
  next =>
    rintro between node done moved listed ⟨differs, unneeded⟩ perm near move
    obtain ⟨-, holds⟩ := mem_having.mp listed
    exact near.sameBut (moveToLastBlocker_sameBut (perm.nodup_iff.mpr nodup) move) holds unneeded differs

end Passes

theorem memoryMoves_locality (graph : Graph) (filter : EdgeFilter) {order : List NodeId} (nodup : order.Nodup)
    (known : ∀ node ∈ order, node ∈ graph.nodeIds) (inOrder : (graph.dependencies filter).InOrder order) :
    Brings (graph.dependencies filter) (graph.OfKind Node.isDramFill)
      (AtFirstUse (graph.dependencies filter) (graph.OfKind Node.isDramFill)) order
      (graph.moveFills (graph.dependencies filter) order).2 ∧
    Brings (graph.dependencies filter) (graph.OfKind Node.isDramSpill)
      (AtLastBlocker (graph.dependencies filter) (graph.OfKind Node.isDramSpill)) order
      (graph.moveSpills (graph.dependencies filter) order).2 ∧
    Brings (graph.dependencies filter) (graph.OfKind Node.isLogicalNonDebug)
      (AtFirstUse (graph.dependencies filter) (graph.OfKind Node.isLogicalNonDebug)) order
      (graph.gatherLogical (graph.dependencies filter) order).2 :=
  ⟨moveEach_toFirstUse _ nodup inOrder known, moveEach_toLastBlocker _ nodup inOrder,
    moveEach_toFirstUse _ nodup inOrder known⟩

-- A fill of a fill, a view of a view and a spill of a spill, each far from what it serves.
def relayed : GraphDescription :=
  { tensors := [{ name := "weights" }, { name := "tile" }, { name := "rows" }, { name := "columns" },
      { name := "input" }, { name := "saved" }]
    nodes := [{ name := "fetch", kind := .dramFill, outputs := ["weights"] },
      { name := "refetch", kind := .dramFill, inputs := ["weights"], outputs := ["tile"] },
      { name := "view", kind := .logical, outputs := ["rows"] },
      { name := "transpose", kind := .logical, inputs := ["rows"], outputs := ["columns"] },
      { name := "load", outputs := ["input"] },
      { name := "add", inputs := ["input", "tile", "columns"] },
      { name := "store", kind := .dramSpill, inputs := ["input"], outputs := ["saved"] },
      { name := "archive", kind := .dramSpill, inputs := ["saved"] }] }

theorem memoryMoves_relayed :
    (relayed.graph.moveFills (relayed.graph.dependencies .both) relayed.graph.nodeIds).2 =
      [⟨2⟩, ⟨3⟩, ⟨4⟩, ⟨0⟩, ⟨1⟩, ⟨5⟩, ⟨6⟩, ⟨7⟩] ∧
    (relayed.graph.moveSpills (relayed.graph.dependencies .both) relayed.graph.nodeIds).2 =
      [⟨0⟩, ⟨1⟩, ⟨2⟩, ⟨3⟩, ⟨4⟩, ⟨6⟩, ⟨7⟩, ⟨5⟩] ∧
    (relayed.graph.gatherLogical (relayed.graph.dependencies .both) relayed.graph.nodeIds).2 =
      [⟨0⟩, ⟨1⟩, ⟨4⟩, ⟨2⟩, ⟨3⟩, ⟨5⟩, ⟨6⟩, ⟨7⟩] ∧
    AtFirstUse (relayed.graph.dependencies .both) (relayed.graph.OfKind Node.isDramFill) ⟨0⟩
      [⟨2⟩, ⟨3⟩, ⟨4⟩, ⟨0⟩, ⟨1⟩, ⟨5⟩, ⟨6⟩, ⟨7⟩] ∧
    AtLastBlocker (relayed.graph.dependencies .both) (relayed.graph.OfKind Node.isDramSpill) ⟨7⟩
      [⟨0⟩, ⟨1⟩, ⟨2⟩, ⟨3⟩, ⟨4⟩, ⟨6⟩, ⟨7⟩, ⟨5⟩] ∧
    AtFirstUse (relayed.graph.dependencies .both) (relayed.graph.OfKind Node.isLogicalNonDebug) ⟨2⟩
      [⟨0⟩, ⟨1⟩, ⟨4⟩, ⟨2⟩, ⟨3⟩, ⟨5⟩, ⟨6⟩, ⟨7⟩] := by
  have inOrder : (relayed.graph.dependencies .both).InOrder relayed.graph.nodeIds := by
    unfold Dependencies.InOrder
    decide +kernel
  obtain ⟨fills, spills, logical⟩ := memoryMoves_locality relayed.graph .both nodup_nodeIds (fun _ inside => inside) inOrder
  refine ⟨by decide +kernel, by decide +kernel, by decide +kernel, ?_, ?_, ?_⟩
  next => exact fills.close ⟨0⟩ (by decide +kernel) ⟨_, rfl, rfl⟩
  next => exact spills.close ⟨7⟩ (by decide +kernel) ⟨_, rfl, rfl⟩
  next => exact logical.close ⟨2⟩ (by decide +kernel) ⟨_, rfl, rfl⟩

end Graph

end Dataflow
