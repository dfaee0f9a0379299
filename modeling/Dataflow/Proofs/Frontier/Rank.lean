import Mathlib.Data.List.Perm.Basic
import Dataflow.Frontier.Basic

set_option autoImplicit false

namespace Dataflow

section

variable {K : Type} [Ord K] {key : NodeId → K}

theorem perm_placeByKey (node : NodeId) (nodes : List NodeId) :
    (placeByKey key node nodes).Perm (node :: nodes) := by
  induction nodes with
  | nil => exact List.Perm.refl _
  | cons other rest ih =>
    rw [placeByKey]
    split
    next => exact List.Perm.refl _
    next => exact (ih.cons other).trans (List.Perm.swap node other rest)

theorem perm_rankByKey (nodes : List NodeId) : (rankByKey key nodes).Perm nodes := by
  induction nodes with
  | nil => exact List.Perm.refl _
  | cons node rest ih => exact (perm_placeByKey node _).trans (ih.cons node)

namespace Frontier

variable (frontier : Frontier key)

theorem mem_insert (node other : NodeId) :
    other ∈ (frontier.insert node).nodes ↔ other = node ∨ other ∈ frontier.nodes := by
  rw [insert]
  split
  next present => grind [contains]
  next => simp [(perm_placeByKey node frontier.nodes).mem_iff]

theorem nodup_insert {frontier : Frontier key} (nodup : frontier.nodes.Nodup) (node : NodeId) :
    (frontier.insert node).nodes.Nodup := by
  rw [insert]
  split
  next => exact nodup
  next absent =>
    refine (perm_placeByKey node frontier.nodes).nodup_iff.mpr (List.nodup_cons.mpr ⟨?_, nodup⟩)
    simpa [contains] using absent

theorem mem_insertAll (nodes : List NodeId) (other : NodeId) :
    other ∈ (frontier.insertAll nodes).nodes ↔ other ∈ nodes ∨ other ∈ frontier.nodes := by
  induction nodes generalizing frontier with
  | nil => simp [insertAll]
  | cons node rest ih =>
    rw [insertAll, List.foldl_cons]
    have tail := ih (frontier.insert node)
    rw [insertAll] at tail
    rw [tail, mem_insert, List.mem_cons]
    grind

end Frontier

end

instance {entity : Entity} : Std.TransOrd (Ident entity) :=
  inferInstanceAs (Std.TransCmp (compareOn Ident.val))

instance : Std.TransOrd PathPriority :=
  inferInstanceAs (Std.TransCmp (compareLex (compareLex (compareOn PathPriority.weighs)
    fun a b => compareOn PathPriority.chain b a) fun a b => compareOn PathPriority.path b a))

instance : Std.TransOrd MaxPathKey :=
  inferInstanceAs (Std.TransCmp (compareLex (compareOn MaxPathKey.priority) (compareOn MaxPathKey.parent)))

section

variable {K : Type} [Ord K] [Std.TransOrd K] {key : NodeId → K} {a b c : NodeId}

def comparePairs : K × NodeId → K × NodeId → Ordering := compareLex (compareOn Prod.fst) (compareOn Prod.snd)

instance : Std.TransCmp (comparePairs (K := K)) :=
  inferInstanceAs (Std.TransCmp (compareLex (compareOn Prod.fst) (compareOn Prod.snd)))

omit [Std.TransOrd K] in
theorem precedes_iff : precedes key a b = true ↔ comparePairs (key a, a) (key b, b) = .lt := by
  simp [precedes, comparePairs, compareLex, compareOn]

theorem precedes_trans (first : precedes key a b = true) (second : precedes key b c = true) : precedes key a c = true := by
  rw [precedes_iff] at *
  exact Std.TransCmp.lt_trans first second

theorem precedes_asymm (first : precedes key a b = true) : ¬ precedes key b a = true := by
  rw [precedes_iff] at *
  exact Std.OrientedCmp.not_lt_of_lt first

theorem precedes_of_ne (differ : a ≠ b) (behind : ¬ precedes key b a = true) : precedes key a b = true := by
  rw [precedes_iff] at *
  cases compared : comparePairs (key a, a) (key b, b) with
  | lt => rfl
  | gt => exact absurd (Std.OrientedCmp.gt_iff_lt.mp compared) behind
  | eq =>
    -- Equal keys leave the identifiers to decide, and these are equal for the same node only.
    have same : compare a.val b.val = .eq := (Ordering.then_eq_eq.mp compared).2
    exact absurd (Ident.ext (Nat.compare_eq_eq.mp same)) differ

def RankedBy (key : NodeId → K) (nodes : List NodeId) : Prop := nodes.Pairwise fun a b => precedes key a b = true

namespace RankedBy

variable {nodes others : List NodeId}

theorem place (ranked : RankedBy key nodes) {node : NodeId} (fresh : node ∉ nodes) :
    RankedBy key (placeByKey key node nodes) := by
  induction nodes with
  | nil => exact List.pairwise_singleton _ _
  | cons other rest ih =>
    obtain ⟨above, tail⟩ := List.pairwise_cons.mp ranked
    obtain ⟨differ, fresh⟩ := not_or.mp (mt List.mem_cons.mpr fresh)
    rw [placeByKey]
    split
    next below =>
      refine List.pairwise_cons.mpr ⟨fun later member => ?_, ranked⟩
      rcases List.mem_cons.mp member with rfl | member
      next => exact below
      next => exact precedes_trans below (above later member)
    next behind =>
      refine List.pairwise_cons.mpr ⟨fun later member => ?_, ih tail fresh⟩
      rcases List.mem_cons.mp ((perm_placeByKey node rest).mem_iff.mp member) with rfl | member
      next => exact precedes_of_ne (Ne.symm differ) behind
      next => exact above later member

theorem rankByKey (nodup : nodes.Nodup) : RankedBy key (rankByKey key nodes) := by
  induction nodes with
  | nil => exact List.Pairwise.nil
  | cons node rest ih =>
    obtain ⟨fresh, nodup⟩ := List.nodup_cons.mp nodup
    exact (ih nodup).place (mt (perm_rankByKey rest).mem_iff.mp fresh)

theorem eq_of_perm (ranked : RankedBy key nodes) (ranked' : RankedBy key others) (perm : nodes.Perm others) :
    nodes = others :=
  perm.eq_of_pairwise (fun _ _ _ _ first second => absurd second (precedes_asymm first)) ranked ranked'

theorem idxOf_lt_iff (ranked : RankedBy key nodes) (inside : a ∈ nodes) (inside' : b ∈ nodes) :
    nodes.idxOf a < nodes.idxOf b ↔ precedes key a b = true := by
  have ahead {x y : NodeId} (inside : x ∈ nodes) (inside' : y ∈ nodes) (before : nodes.idxOf x < nodes.idxOf y) :
      precedes key x y = true := by
    have ahead := List.pairwise_iff_getElem.mp ranked _ _ (List.idxOf_lt_length_iff.mpr inside)
      (List.idxOf_lt_length_iff.mpr inside') before
    rwa [List.getElem_idxOf, List.getElem_idxOf] at ahead
  refine ⟨ahead inside inside', fun first => ?_⟩
  rcases Nat.lt_trichotomy (nodes.idxOf a) (nodes.idxOf b) with before | same | behind
  next => exact before
  next =>
    cases (List.idxOf_inj inside).mp same
    exact absurd first (precedes_asymm first)
  next => exact absurd (ahead inside' inside behind) (precedes_asymm first)

theorem infix_of_apart (ranked : RankedBy key nodes) (ranked' : RankedBy key others) (nonempty : others ≠ [])
    (inside : ∀ x ∈ others, x ∈ nodes) (apart : ∀ x ∈ nodes, x ∉ others →
      (∀ y ∈ others, precedes key x y = true) ∨ ∀ y ∈ others, precedes key y x = true) : others <:+: nodes := by
  have irrefl : ∀ x, ¬ precedes key x x = true := fun x ahead => precedes_asymm ahead ahead
  have distinct {list : List NodeId} (ranked : RankedBy key list) : list.Nodup := by
    refine List.Pairwise.imp ?_ ranked
    rintro x y ahead rfl
    exact irrefl x ahead
  obtain ⟨first, member⟩ := List.exists_mem_of_ne_nil others nonempty
  let front := nodes.filter fun x => decide (∀ y ∈ others, precedes key x y = true)
  let back := nodes.filter fun x => decide (∀ y ∈ others, precedes key y x = true)
  have mem_front {x : NodeId} : x ∈ front ↔ x ∈ nodes ∧ ∀ y ∈ others, precedes key x y = true := by simp [front]
  have mem_back {x : NodeId} : x ∈ back ↔ x ∈ nodes ∧ ∀ y ∈ others, precedes key y x = true := by simp [back]
  -- The list is what ranks before the part, the part, and what ranks behind it.
  have split : RankedBy key (front ++ others ++ back) := by
    refine List.pairwise_append.mpr ⟨List.pairwise_append.mpr ⟨List.Pairwise.filter _ ranked, ranked', ?_⟩,
      List.Pairwise.filter _ ranked, ?_⟩
    next => exact fun x ahead y inside => (mem_front.mp ahead).2 y inside
    next =>
      intro x ahead y behind
      have later := (mem_back.mp behind).2
      rcases List.mem_append.mp ahead with ahead | inside
      next => exact precedes_trans ((mem_front.mp ahead).2 first member) (later first member)
      next => exact later x inside
  have same : nodes = front ++ others ++ back := by
    refine eq_of_perm ranked split ((List.perm_ext_iff_of_nodup (distinct ranked) (distinct split)).mpr fun x => ?_)
    simp only [List.mem_append, mem_front, mem_back]
    have := apart x
    have := inside x
    grind
  exact ⟨front, back, same.symm⟩

theorem insertAll {frontier : Frontier key} (ranked : RankedBy key frontier.nodes) (nodes : List NodeId) :
    RankedBy key (frontier.insertAll nodes).nodes := by
  induction nodes generalizing frontier with
  | nil => exact ranked
  | cons node rest ih =>
    apply ih
    rw [Frontier.insert]
    split
    next => exact ranked
    next absent => exact ranked.place (by simpa [Frontier.contains] using absent)

end RankedBy

end

end Dataflow
