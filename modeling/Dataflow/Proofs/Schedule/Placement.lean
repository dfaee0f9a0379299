import Dataflow.Proofs.Network
import Dataflow.Schedule.Placement

set_option autoImplicit false

namespace Dataflow

theorem position?_eq_some {order : List NodeId} {node : NodeId} {index : Nat} :
    position? order node = some index ↔ node ∈ order ∧ order.idxOf node = index := by
  induction order generalizing index with
  | nil => simp [position?]
  | cons head rest ih =>
    rw [position?] at ih ⊢
    rw [List.findIdx?_cons]
    by_cases same : head = node
    next => simp [same]
    next =>
      have differs : node ≠ head := fun equal => same equal.symm
      simp [same, differs, List.idxOf_cons_ne, ih]

theorem moveBefore?_eq_some {order moved : List NodeId} {node anchor : NodeId}
    (move : moveBefore? order node anchor = some moved) :
    ∃ before mid after, order = before ++ node :: mid ++ anchor :: after ∧
      moved = before ++ mid ++ node :: anchor :: after ∧ anchor ∉ before ++ node :: mid := by
  simp only [moveBefore?, Option.bind_eq_bind, Option.bind_eq_some_iff, position?_eq_some] at move
  obtain ⟨source, ⟨inside, rfl⟩, target, ⟨inside', rfl⟩, move⟩ := move
  split at move
  next apart =>
    obtain ⟨before, mid, after, rfl, fresh, fresh'⟩ := List.split_between inside inside' (by omega)
    refine ⟨before, mid, after, rfl, ?_, fresh'⟩
    have target : (before ++ node :: mid).length - 1 = (before ++ mid).length := by simp
    rw [List.idxOf_split fresh', target, List.append_assoc, List.cons_append, List.idxOf_split fresh,
      List.eraseIdx_append_of_length_le (Nat.le_refl _), Nat.sub_self, List.eraseIdx_cons_zero,
      ← List.append_assoc, List.insertIdx_split] at move
    exact (Option.some.inj move).symm
  next => cases move

theorem moveAfter?_split {before mid after : List NodeId} {node anchor : NodeId} (fresh : anchor ∉ before)
    (fresh' : node ∉ before ++ anchor :: mid) (apart : mid ≠ []) :
    moveAfter? (before ++ anchor :: mid ++ node :: after) node anchor =
      some (before ++ anchor :: node :: mid ++ after) := by
  have source := List.idxOf_split fresh' after
  have target : (before ++ anchor :: mid ++ node :: after).idxOf anchor = before.length := by
    simpa using List.idxOf_split fresh (mid ++ node :: after)
  have far : before.length + 1 < (before ++ anchor :: mid).length := by
    have := List.length_pos_iff.mpr apart
    simp only [List.length_append, List.length_cons]
    omega
  have slot : before.length + 1 = (before ++ [anchor]).length := by simp
  have regroup : before ++ anchor :: mid ++ after = (before ++ [anchor]) ++ (mid ++ after) := by simp
  simp only [moveAfter?, Option.bind_eq_bind, position?_eq_some.mpr ⟨by simp, source⟩,
    position?_eq_some.mpr ⟨by simp, target⟩, Option.bind_some, if_pos far]
  rw [List.eraseIdx_append_of_length_le (Nat.le_refl _), Nat.sub_self, List.eraseIdx_cons_zero, regroup, slot,
    List.insertIdx_split]
  simp

theorem moveAfter?_eq_some {order moved : List NodeId} {node anchor : NodeId}
    (move : moveAfter? order node anchor = some moved) :
    ∃ before mid after, order = before ++ anchor :: mid ++ node :: after ∧
      moved = before ++ anchor :: node :: mid ++ after ∧ anchor ∉ before := by
  have places := move
  simp only [moveAfter?, Option.bind_eq_bind, Option.bind_eq_some_iff, position?_eq_some] at places
  obtain ⟨source, ⟨inside, rfl⟩, target, ⟨inside', rfl⟩, places⟩ := places
  split at places
  next far =>
    obtain ⟨before, mid, after, rfl, fresh, fresh'⟩ := List.split_between inside' inside (by omega)
    have apart : mid ≠ [] := by
      rintro rfl
      have target : (before ++ anchor :: [] ++ node :: after).idxOf anchor = before.length := by
        simpa using List.idxOf_split fresh (node :: after)
      rw [target, List.idxOf_split fresh'] at far
      simp at far
    rw [moveAfter?_split fresh fresh' apart] at move
    exact ⟨before, mid, after, rfl, (Option.some.inj move).symm, fresh⟩
  next => cases places

theorem moveEach_invariant {move : List NodeId → NodeId → Option (List NodeId)} {P : List NodeId → Prop}
    {order nodes : List NodeId} (start : P order)
    (keeps : ∀ {order node moved}, node ∈ nodes → P order → move order node = some moved → P moved) :
    P (moveEach move order nodes).2 := by
  induction nodes generalizing order with
  | nil => exact start
  | cons node rest ih =>
    have later := fun {order' : List NodeId} (holds : P order') =>
      ih holds fun member holds moves => keeps (.tail _ member) holds moves
    rw [moveEach]
    cases moves : move order node with
    | none => exact later start
    | some moved => exact later (keeps (.head _) start moves)

structure Rearranged (blockers : NodeId → List NodeId) (order moved : List NodeId) : Prop where
  perm : moved.Perm order
  ordered : order.Pairwise (fun earlier later => later ∉ blockers earlier) →
    moved.Pairwise fun earlier later => later ∉ blockers earlier

namespace Rearranged

variable {blockers : NodeId → List NodeId} {order moved : List NodeId}

theorem refl (order : List NodeId) : Rearranged blockers order order := ⟨.refl _, id⟩

theorem trans {final : List NodeId} (first : Rearranged blockers order moved)
    (second : Rearranged blockers moved final) : Rearranged blockers order final :=
  ⟨second.perm.trans first.perm, second.ordered ∘ first.ordered⟩

theorem moveBefore {node anchor : NodeId} (move : moveBefore? order node anchor = some moved)
    (limit : ∀ waiting ∈ order, node ∈ blockers waiting → order.idxOf anchor ≤ order.idxOf waiting) :
    Rearranged blockers order moved := by
  obtain ⟨before, mid, after, rfl, rfl, fresh⟩ := moveBefore?_eq_some move
  have passed : ∀ other ∈ mid, node ∉ blockers other := by
    intro other member waits
    have front := List.idxOf_lt_of_mem_front fresh after (List.mem_append_right _ (.tail _ member))
    have := limit other (by simp [member]) waits
    omega
  constructor
  case perm =>
    have swap : (mid ++ node :: anchor :: after).Perm (node :: (mid ++ anchor :: after)) :=
      List.perm_middle
    simpa using swap.append_left before
  case ordered =>
    simp only [List.pairwise_append, List.pairwise_cons, List.mem_append, List.mem_cons]
    grind

theorem moveAfter {node anchor : NodeId} (nodup : order.Nodup)
    (move : moveAfter? order node anchor = some moved)
    (limit : ∀ blocking ∈ order, blocking ∈ blockers node →
      order.idxOf blocking ≤ order.idxOf anchor) : Rearranged blockers order moved := by
  obtain ⟨before, mid, after, rfl, rfl, fresh⟩ := moveAfter?_eq_some move
  have passed : ∀ other ∈ mid, other ∉ blockers node := by
    intro other member blocks
    obtain ⟨front, back, rfl⟩ := List.append_of_mem member
    have fresh' : other ∉ before ++ anchor :: front := by
      simp only [List.nodup_append, List.nodup_cons, List.mem_append, List.mem_cons] at nodup ⊢
      grind
    have behind := List.idxOf_lt_of_mem_front fresh' (back ++ node :: after)
      (List.mem_append_right before (List.mem_cons_self (a := anchor) (l := front)))
    have bound := limit other (by simp) blocks
    simp only [List.append_assoc, List.cons_append] at bound behind
    omega
  constructor
  case perm => exact List.perm_ahead
  case ordered =>
    simp only [List.pairwise_append, List.pairwise_cons, List.mem_append, List.mem_cons]
    grind

theorem moveEach {move : List NodeId → NodeId → Option (List NodeId)}
    (step : ∀ {between moved node}, between.Perm order → move between node = some moved →
      Rearranged blockers between moved) (nodes : List NodeId) :
    Rearranged blockers order (moveEach move order nodes).2 := by
  apply moveEach_invariant (P := Rearranged blockers order) (refl order)
  intro between node moved _ sofar moves
  exact sofar.trans (step sofar.perm moves)

end Rearranged

theorem mem_placed {order nodes : List NodeId} {index : Nat} {node : NodeId} :
    (index, node) ∈ placed order nodes ↔ node ∈ nodes ∧ node ∈ order ∧ order.idxOf node = index := by
  simp only [placed, List.mem_filterMap, Option.map_eq_some_iff, position?_eq_some, Prod.mk.injEq]
  grind

section

variable {better : Nat → Nat → Bool} (rank : Nat → Int)

theorem foldl_pickBy_some (ranks : ∀ a b, better a b = true ↔ rank a < rank b)
    (held : Nat × NodeId) (entries : List (Nat × NodeId)) :
    ∃ pick ∈ held :: entries, entries.foldl (pickBy better) (some held) = some pick ∧
      ∀ entry ∈ held :: entries, rank pick.1 ≤ rank entry.1 := by
  induction entries generalizing held with
  | nil => exact ⟨held, by simp⟩
  | cons head rest ih =>
    by_cases improves : better head.1 held.1 = true
    next =>
      have smaller := (ranks _ _).mp improves
      obtain ⟨pick, member, picked, least⟩ := ih head
      refine ⟨pick, .tail _ member, by simpa [pickBy, improves] using picked, ?_⟩
      intro entry inside
      rcases List.mem_cons.mp inside with rfl | inside
      next => exact Int.le_trans (least head (.head _)) (Int.le_of_lt smaller)
      next => exact least entry inside
    next =>
      have larger := mt (ranks _ _).mpr improves
      obtain ⟨pick, member, picked, least⟩ := ih held
      refine ⟨pick, by grind, by simpa [pickBy, improves] using picked, ?_⟩
      intro entry inside
      have bound := least held (.head _)
      rcases List.mem_cons.mp inside with rfl | inside
      next => exact bound
      next =>
        rcases List.mem_cons.mp inside with rfl | inside
        next => omega
        next => exact least entry (.tail _ inside)

theorem pick_placed (ranks : ∀ a b, better a b = true ↔ rank a < rank b)
    {order nodes : List NodeId} {node : NodeId}
    (picked : ((placed order nodes).foldl (pickBy better) none).map Prod.snd = some node) :
    node ∈ nodes ∧ node ∈ order ∧
      ∀ other ∈ nodes, other ∈ order → rank (order.idxOf node) ≤ rank (order.idxOf other) := by
  cases equal : placed order nodes with
  | nil => simp [equal] at picked
  | cons head rest =>
    obtain ⟨pick, member, folded, least⟩ := foldl_pickBy_some rank ranks head rest
    have same : pick.2 = node := by
      simpa [equal, pickBy, folded] using picked
    rw [← equal] at member least
    obtain ⟨inside, known, place⟩ := mem_placed.mp (show (pick.1, pick.2) ∈ _ from member)
    subst same
    refine ⟨inside, known, ?_⟩
    intro other listed present
    have bound := least _ (mem_placed.mpr ⟨listed, present, rfl⟩)
    rwa [← place] at bound

theorem exists_pick_placed (ranks : ∀ a b, better a b = true ↔ rank a < rank b) {order nodes : List NodeId}
    {node : NodeId} (listed : node ∈ nodes) (inside : node ∈ order) :
    ∃ pick, ((placed order nodes).foldl (pickBy better) none).map Prod.snd = some pick := by
  have entry := mem_placed.mpr ⟨listed, inside, rfl⟩
  cases equal : placed order nodes with
  | nil => simp [equal] at entry
  | cons head rest =>
    obtain ⟨pick, -, folded, -⟩ := foldl_pickBy_some rank ranks head rest
    exact ⟨pick.2, by simp [pickBy, folded]⟩

end

theorem earliest?_eq_some {order nodes : List NodeId} {first : NodeId}
    (found : earliest? order nodes = some first) :
    first ∈ nodes ∧ first ∈ order ∧
      ∀ other ∈ nodes, other ∈ order → order.idxOf first ≤ order.idxOf other := by
  have pick := pick_placed (fun n => (n : Int)) (by simp) found
  simpa using pick

theorem latest?_eq_some {order nodes : List NodeId} {last : NodeId}
    (found : latest? order nodes = some last) :
    last ∈ nodes ∧ last ∈ order ∧
      ∀ other ∈ nodes, other ∈ order → order.idxOf other ≤ order.idxOf last := by
  have pick := pick_placed (fun n => -(n : Int)) (by simp) found
  simpa using pick

section

variable {graph : Graph} {deps : Dependencies} {order moved : List NodeId} {node : NodeId}

theorem idxOf_memsetAnchor_le (graph : Graph) (order : List NodeId) (first : NodeId) :
    order.idxOf (graph.memsetAnchor order first) ≤ order.idxOf first := by
  unfold Graph.memsetAnchor
  cases bundled : graph.bundleOf first with
  | none => exact Nat.le_refl _
  | some bundle =>
    cases found : order.find? fun node => graph.bundleOf node = some bundle with
    | none => simp [found]
    | some head =>
      obtain ⟨member, before, after, rfl, others⟩ := List.find?_eq_some_iff_append.mp found
      have fresh : ∀ node, graph.bundleOf node = some bundle → node ∉ before := by
        intro node bundled inside
        simpa [bundled] using others node inside
      simp [found, List.idxOf_append, fresh first bundled, fresh head (by simpa using member)]

theorem le_idxOf_probeAnchor (graph : Graph) (order : List NodeId) (nodup : order.Nodup) (probe : NodeId)
    {target : NodeId} (inside : target ∈ order) :
    order.idxOf target ≤ order.idxOf (graph.probeAnchor order probe target) := by
  unfold Graph.probeAnchor
  cases bundled : graph.bundleOf target with
  | none => exact Nat.le_refl _
  | some bundle =>
    simp only
    split
    next => exact Nat.le_refl _
    next =>
      cases found : order.reverse.find? fun node => graph.bundleOf node = some bundle with
      | none => exact Nat.le_refl _
      | some last =>
        obtain ⟨-, later, earlier, equal, others⟩ := List.find?_eq_some_iff_append.mp found
        have split : order = earlier.reverse ++ last :: later.reverse := by
          simpa using congrArg List.reverse equal
        subst split
        have fresh : last ∉ earlier.reverse := by
          intro member
          exact (List.nodup_append.mp nodup).2.2 last member last (.head _) rfl
        have unseen : target ∉ later.reverse := by
          intro member
          simpa [bundled] using others target (by simpa using member)
        rcases List.mem_append.mp inside with front | back
        next => exact Nat.le_of_lt (List.idxOf_lt_of_mem_front fresh _ front)
        next =>
          rcases List.mem_cons.mp back with rfl | back
          next => exact Nat.le_refl _
          next => exact absurd back unseen

theorem mem_of_moveBefore? {anchor : NodeId} (move : moveBefore? order node anchor = some moved) : node ∈ order := by
  obtain ⟨before, mid, after, rfl, -, -⟩ := moveBefore?_eq_some move
  simp

-- The order may hold only some of the nodes, and a blocker may be gone from the graph: the dependents
-- of a node have to be complete only where it is listed itself.
variable (complete : ∀ node ∈ order, ∀ waiting, node ∈ deps.blockers waiting → waiting ∈ deps.dependents node)
include complete

theorem moveToFirstUse_rearranged (move : Graph.moveToFirstUse deps order node = some moved) :
    Rearranged deps.blockers order moved := by
  simp only [Graph.moveToFirstUse, Option.bind_eq_bind, Option.bind_eq_some_iff] at move
  obtain ⟨first, found, move⟩ := move
  apply Rearranged.moveBefore move
  intro waiting inside waits
  have served := complete node (mem_of_moveBefore? move) waiting waits
  exact (earliest?_eq_some found).2.2 waiting served inside

theorem moveMemset_rearranged (move : graph.moveMemset deps order node = some moved) :
    Rearranged deps.blockers order moved := by
  simp only [Graph.moveMemset, Option.bind_eq_bind, Option.bind_eq_some_iff] at move
  obtain ⟨first, found, move⟩ := move
  apply Rearranged.moveBefore move
  intro waiting inside waits
  have served := complete node (mem_of_moveBefore? move) waiting waits
  have bound := (earliest?_eq_some found).2.2 waiting served inside
  exact Nat.le_trans (idxOf_memsetAnchor_le graph order first) bound

omit complete

theorem moveToLastBlocker_rearranged (nodup : order.Nodup)
    (move : Graph.moveToLastBlocker deps order node = some moved) :
    Rearranged deps.blockers order moved := by
  simp only [Graph.moveToLastBlocker, Option.bind_eq_bind, Option.bind_eq_some_iff] at move
  obtain ⟨last, found, move⟩ := move
  apply Rearranged.moveAfter nodup move
  intro blocking inside blocks
  exact (latest?_eq_some found).2.2 blocking blocks inside

theorem moveProbe_rearranged (nodup : order.Nodup)
    (move : graph.moveProbe deps order node = some moved) : Rearranged deps.blockers order moved := by
  simp only [Graph.moveProbe, Option.bind_eq_bind, Option.bind_eq_some_iff] at move
  obtain ⟨target, -, move⟩ := move
  split at move
  next found =>
    obtain ⟨-, known, bound⟩ := latest?_eq_some found
    apply Rearranged.moveAfter nodup move
    intro blocking inside blocks
    exact Nat.le_trans (bound blocking blocks inside) (le_idxOf_probeAnchor graph order nodup node known)
  next => cases move

theorem reorderProbes_rearranged (nodup : order.Nodup) :
    Rearranged deps.blockers order (graph.reorderProbes deps order).2 :=
  .moveEach (fun perm move => moveProbe_rearranged (perm.nodup_iff.mpr nodup) move) _

theorem moveSpills_rearranged (nodup : order.Nodup) :
    Rearranged deps.blockers order (graph.moveSpills deps order).2 :=
  .moveEach (fun perm move => moveToLastBlocker_rearranged (perm.nodup_iff.mpr nodup) move) _

include complete

theorem complete_of_perm {between : List NodeId} (perm : between.Perm order) :
    ∀ node ∈ between, ∀ waiting, node ∈ deps.blockers waiting → waiting ∈ deps.dependents node :=
  fun node inside => complete node (perm.mem_iff.mp inside)

theorem optimizeMemsets_rearranged :
    Rearranged deps.blockers order (graph.optimizeMemsets deps order).2 :=
  .moveEach (fun perm move => moveMemset_rearranged (complete_of_perm complete perm) move) _

theorem gatherLogical_rearranged :
    Rearranged deps.blockers order (graph.gatherLogical deps order).2 :=
  .moveEach (fun perm move => moveToFirstUse_rearranged (complete_of_perm complete perm) move) _

theorem moveFills_rearranged :
    Rearranged deps.blockers order (graph.moveFills deps order).2 :=
  .moveEach (fun perm move => moveToFirstUse_rearranged (complete_of_perm complete perm) move) _

end

theorem Rearranged.isOrder {net : Network NodeId} {order moved : List NodeId}
    (moves : Rearranged net.blockers order moved) (valid : net.IsOrder order) : net.IsOrder moved where
  nodup := moves.perm.nodup_iff.mpr valid.nodup
  mem_iff := fun node => moves.perm.mem_iff.trans (valid.mem_iff node)
  ordered := moves.ordered valid.ordered

end Dataflow
