import Dataflow.Proofs.Tables
import Dataflow.Proofs.Network
import Dataflow.Topology

set_option autoImplicit false

namespace Dataflow.Kahn

variable {κ : Type} [Ranked κ] [DecidableEq κ]

theorem releaseAll_eq {keys : List κ} (nodup : keys.Nodup) {pending : Pending κ}
    (positive : ∀ key ∈ keys, ∃ degree, pending.degrees.get? key = some (degree + 1)) :
    ∃ released, keys.foldlM Pending.release pending = .ok released ∧
      (∀ key, released.degrees.get? key =
        if key ∈ keys then (pending.degrees.get? key).map (· - 1) else pending.degrees.get? key) ∧
      (Ranked.Ascending pending.ready → Ranked.Ascending released.ready) ∧
      ∀ key, key ∈ released.ready ↔
        key ∈ pending.ready ∨ key ∈ keys ∧ pending.degrees.get? key = some 1 := by
  induction keys generalizing pending with
  | nil => exact ⟨pending, rfl, by simp, id, by simp⟩
  | cons head rest ih =>
    obtain ⟨degree, found⟩ := positive head List.mem_cons_self
    have distinct := List.nodup_cons.mp nodup
    -- The keys are distinct, so lowering the first leaves the degrees of the others to be lowered.
    have elsewhere : ∀ key ∈ rest, (pending.degrees.insert head degree).get? key = pending.degrees.get? key := by
      intro key member
      exact pending.degrees.get?_insert_of_ne degree fun same => distinct.1 (same ▸ member)
    obtain ⟨released, run, value, ascending, ready⟩ := @ih distinct.2
      { degrees := pending.degrees.insert head degree
        ready := if degree = 0 then Ranked.insert head pending.ready else pending.ready } (by
      intro key member
      rw [elsewhere key member]
      exact positive key (List.mem_cons_of_mem _ member))
    refine ⟨released, ?_, ?_, ?_, ?_⟩
    next =>
      rw [List.foldlM_cons, Pending.release, found]
      exact run
    next =>
      intro key
      rw [value key]
      exact Network.get?_lowered_cons found distinct.1 key
    next =>
      intro ordered
      apply ascending
      split
      next => exact Ranked.ascending_insert head ordered
      next => exact ordered
    next =>
      intro key
      have later : key ∈ rest ∧ (pending.degrees.insert head degree).get? key = some 1 ↔
          key ∈ rest ∧ pending.degrees.get? key = some 1 :=
        and_congr_right fun member => by rw [elsewhere key member]
      rw [ready key, later]
      by_cases zero : degree = 0
      next =>
        simp only [zero, if_true, Ranked.mem_insert, List.mem_cons]
        have one : pending.degrees.get? head = some 1 := by rw [found, zero]
        grind
      next =>
        have more : pending.degrees.get? head ≠ some 1 := by simp [found, zero]
        simp only [zero, if_false, List.mem_cons]
        grind

variable {net : Network κ}

theorem emit_greedy (sound : net.Sound) (count : Nat) {placed : List κ} {pending : Pending κ}
    (progress : net.Progress placed) (counted : net.Degrees placed pending.degrees)
    (ordered : Ranked.Ascending pending.ready)
    (listed : ∀ key, key ∈ pending.ready ↔ net.Free placed key)
    (enough : net.nodes.length ≤ placed.length + count) :
    ∃ later, emit net.dependents count pending = .ok later ∧
      net.Greedy (fun a b => rank a < rank b) placed later := by
  induction count generalizing placed pending with
  | zero => exact ⟨[], rfl, .stuck (progress.not_free_of_full enough)⟩
  | succ count ih =>
    obtain ⟨degrees, ready⟩ := pending
    cases ready with
    | nil => exact ⟨[], rfl, .stuck (by simpa using listed)⟩
    | cons key rest =>
      have free := (listed key).mp List.mem_cons_self
      have above := List.pairwise_cons.mp ordered
      -- The ready keys ascend strictly: the rest are the free keys but for the one that is taken.
      have inRest : ∀ other, other ∈ rest ↔ net.Free placed other ∧ other ≠ key := by
        intro other
        have := listed other
        have := above.1
        grind
      have counted : net.Degrees placed degrees := counted
      obtain ⟨released, run, value, ascending, ready⟩ := @releaseAll_eq κ _ _ _ (sound.nodup_dependents key)
        { degrees, ready := rest } fun other dependent => ⟨_, counted.of_dependent sound free.2.1 dependent⟩
      have counted' : net.Degrees (placed ++ [key]) released.degrees := counted.lowered sound free.2.1 value
      have listed' : ∀ other, other ∈ released.ready ↔ net.Free (placed ++ [key]) other := by
        intro other
        rw [ready other, inRest, progress.free_snoc_iff sound free]
        exact or_congr_right (and_congr_right (counted.last_blocker_iff sound free.2.1))
      obtain ⟨later, emitted, greedy⟩ := ih (progress.snoc free) counted' (ascending above.2) listed'
        (by simp; omega)
      refine ⟨key :: later, ?_, .take free (fun other free' differs => ?_) greedy⟩
      next => simp only [emit, run, bind, Except.bind, pure, Except.pure, emitted]
      next => exact above.1 other ((inRest other).mpr ⟨free', differs⟩)

theorem size_eq_length {degrees : Table κ Nat} (sound : net.Sound) (counted : net.Degrees [] degrees) :
    degrees.size = net.nodes.length := by
  rw [← degrees.length_keys]
  refine ((List.perm_ext_iff_of_nodup degrees.nodup_keys sound.nodup_nodes).mpr fun key => ?_).length_eq
  rw [degrees.mem_keys_iff, counted key]
  by_cases known : key ∈ net.nodes <;> simp [known]

theorem order?_greedy {degrees : Table κ Nat} (sound : net.Sound) (counted : net.Degrees [] degrees) :
    ∃ order, net.Greedy (fun a b => rank a < rank b) [] order ∧
      order? degrees net.dependents = .ok (if order.length = net.nodes.length then some order else none) := by
  let ready := (degrees.entries.filter fun entry => entry.2 == 0).map Prod.fst
  have ordered : Ranked.Ascending ready := degrees.ascending_keys.sublist (List.filter_sublist.map Prod.fst)
  have listed : ∀ key, key ∈ ready ↔ net.Free [] key := by
    intro key
    have zero : key ∈ ready ↔ degrees.get? key = some 0 := by
      simp [ready, Table.mem_entries_iff]
    rw [zero, counted key]
    by_cases known : key ∈ net.nodes
    next =>
      have empty := @Network.open_eq_zero_iff κ net _ [] key
      simp only [known, if_true, Option.some.injEq, empty, Network.Free]
      simp
    next => simp [known, Network.Free]
  obtain ⟨order, emitted, greedy⟩ := @emit_greedy κ _ _ net sound degrees.size []
    { degrees, ready } Network.Progress.nil counted ordered listed (by simp [size_eq_length sound counted])
  refine ⟨order, greedy, ?_⟩
  rw [← size_eq_length sound counted]
  simp only [order?, bind, Except.bind, pure, Except.pure]
  rw [emitted]

theorem order?_eq {degrees : Table κ Nat} (sound : net.Sound) (loopless : ∀ key, ¬ net.Blocks key key)
    (counted : net.Degrees [] degrees) :
    (Acyclic net.Blocks → ∃ order, order? degrees net.dependents = .ok (some order) ∧ net.IsOrder order) ∧
      (¬ Acyclic net.Blocks → order? degrees net.dependents = .ok none) := by
  obtain ⟨order, greedy, answer⟩ := order?_greedy sound counted
  obtain ⟨progress, stuck⟩ := greedy.exhausts Network.Progress.nil
  rw [List.nil_append] at progress stuck
  constructor
  next =>
    intro acyclic
    have valid := progress.isOrder (Network.Progress.full_of_stuck sound acyclic stuck)
    exact ⟨order, by rw [answer, if_pos (valid.length_eq sound)], valid⟩
  next =>
    intro cyclic
    have short : order.length ≠ net.nodes.length := by
      intro full
      have perm := (progress.nodup.subperm progress.known).perm_of_length_le full.ge
      exact cyclic ((progress.isOrder fun key known => perm.mem_iff.mpr known).acyclic sound loopless)
    rw [answer, if_neg short]

end Dataflow.Kahn
