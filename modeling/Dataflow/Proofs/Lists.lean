import Mathlib.Algebra.BigOperators.Group.List.Basic
import Mathlib.Data.Set.Card

set_option autoImplicit false

namespace List

variable {α : Type}

theorem nodup_eraseDups [BEq α] [LawfulBEq α] : ∀ items : List α, items.eraseDups.Nodup
  | [] => nodup_nil
  | item :: rest => by
    rw [eraseDups_cons, nodup_cons, mem_eraseDups]
    exact ⟨by simp, nodup_eraseDups _⟩
termination_by items => items.length
decreasing_by exact Nat.lt_succ_of_le (length_filter_le ..)

theorem countP_lt_countP {p q : α → Bool} {items : List α} {item : α} (weaker : ∀ x, p x → q x)
    (member : item ∈ items) (fails : ¬ p item) (holds : q item) : items.countP p < items.countP q := by
  obtain ⟨front, back, rfl⟩ := append_of_mem member
  have left := countP_mono_left (l := front) fun x _ => weaker x
  have right := countP_mono_left (l := back) fun x _ => weaker x
  rw [countP_append, countP_append, countP_cons_of_neg fails, countP_cons_of_pos holds]
  omega

theorem sum_map_add_countP {items : List α} {first second : α → Nat} {p : α → Bool}
    (each : ∀ item ∈ items, first item = second item + if p item then 1 else 0) :
    (items.map first).sum = (items.map second).sum + items.countP p := by
  induction items with
  | nil => rfl
  | cons head rest ih =>
    have tail := ih fun item member => each item (.tail _ member)
    have own := each head (.head _)
    by_cases holds : p head = true
    next =>
      simp only [holds, if_true] at own
      simp only [map_cons, sum_cons, countP_cons_of_pos holds]
      omega
    next =>
      simp only [holds] at own
      simp only [map_cons, sum_cons, countP_cons_of_neg holds]
      grind

theorem getElem?_snoc_eq_some {items : List α} {last found : α} {index : Nat}
    (listed : (items ++ [last])[index]? = some found) :
    index < items.length ∧ items[index]? = some found ∨ index = items.length ∧ last = found := by
  obtain ⟨bound, rfl⟩ := getElem?_eq_some_iff.mp listed
  rw [length_append, length_singleton] at bound
  rcases Nat.lt_succ_iff_lt_or_eq.mp bound with old | rfl
  next => exact Or.inl ⟨old, by simp [old]⟩
  next => exact Or.inr ⟨rfl, by simp⟩

theorem getElem?_append_cons_swap {front back : List α} (old : α) {new : α} {index : Nat} :
    (front ++ new :: back)[index]? = if index = front.length then some new else (front ++ old :: back)[index]? := by
  rcases Nat.lt_trichotomy index front.length with before | rfl | behind
  next => rw [if_neg (Nat.ne_of_lt before), getElem?_append_left before, getElem?_append_left before]
  next => simp
  next =>
    obtain ⟨offset, rfl⟩ := Nat.exists_eq_add_of_lt behind
    simp [getElem?_append_right, Nat.add_assoc]

theorem insertIdx_split (before after : List α) (node : α) :
    (before ++ after).insertIdx before.length node = before ++ node :: after := by
  induction before with
  | nil => simp
  | cons head rest ih => simpa using ih

theorem perm_ahead {before mid after : List α} {anchor node : α} :
    (before ++ anchor :: node :: mid ++ after).Perm (before ++ anchor :: mid ++ node :: after) := by
  have swap : (mid ++ node :: after).Perm (node :: (mid ++ after)) := perm_middle
  simpa using ((swap.cons anchor).append_left before).symm

theorem sublist_snoc {order : List α} {node : α} (front : List α) {item : α}
    (sublist : (front ++ [item]).Sublist (order ++ [node])) :
    (front ++ [item]).Sublist order ∨ item = node ∧ front.Sublist order := by
  obtain ⟨left, right, split, inside, rest⟩ := sublist_append_iff.mp sublist
  rcases sublist_singleton.mp rest with rfl | rfl
  next => exact Or.inl (by rw [split, append_nil]; exact inside)
  next =>
    obtain ⟨rfl, same⟩ := append_inj' split rfl
    exact Or.inr ⟨singleton_inj.mp same, inside⟩

theorem sublist_pair_of_mem {items : List α} {first second : α} (firstThere : first ∈ items)
    (secondThere : second ∈ items) (differ : first ≠ second) :
    [first, second].Sublist items ∨ [second, first].Sublist items := by
  induction items with
  | nil => cases firstThere
  | cons head rest ih =>
    rcases mem_cons.mp firstThere with rfl | firstLater <;> rcases mem_cons.mp secondThere with rfl | secondLater
    · exact absurd rfl differ
    · exact Or.inl (.cons_cons _ (singleton_sublist.mpr secondLater))
    · exact Or.inr (.cons_cons _ (singleton_sublist.mpr firstLater))
    · exact (ih firstLater secondLater).imp (.cons _) (.cons _)

theorem sublist_of_sides {front back : List α} {node first last : α} (ahead : first ∈ front)
    (behind : last ∈ back) :
    [first, node, last].Sublist (front ++ node :: back) :=
  (singleton_sublist.mpr ahead).append (.cons_cons _ (singleton_sublist.mpr behind))

theorem mem_sides {before after : List α} {node first last : α} (nodup : (before ++ node :: after).Nodup)
    (sublist : [first, node, last].Sublist (before ++ node :: after)) : first ∈ before ∧ last ∈ after := by
  have unseen : node ∉ before := fun member => (nodup_append.mp nodup).2.2 node member node (.head _) rfl
  have unrepeated : node ∉ after := (nodup_cons.mp (nodup_append.mp nodup).2.1).1
  obtain ⟨left, right, split, inFront, inBack⟩ := sublist_append_iff.mp sublist
  cases left with
  | nil =>
    cases split
    cases inBack with
    | cons _ later => exact absurd (later.subset (by simp)) unrepeated
    | cons_cons _ later => exact absurd (later.subset (by simp)) unrepeated
  | cons head rest =>
    cases rest with
    | nil =>
      cases split
      refine ⟨singleton_sublist.mp inFront, ?_⟩
      cases inBack with
      | cons _ later => exact absurd (later.subset (by simp)) unrepeated
      | cons_cons _ later => exact singleton_sublist.mp later
    | cons second more =>
      simp only [cons_append, cons.injEq] at split
      exact absurd (inFront.subset (by simp [split.2.1])) unseen

theorem encard_of_listed {held : Set α} {items : List α} (distinct : items.Nodup)
    (listed : ∀ item, item ∈ held ↔ item ∈ items) : held.encard = items.length := by
  classical
  have same : held = items.toFinset := by
    ext item
    simp [listed]
  rw [same, Set.encard_coe_eq_coe_finsetCard, toFinset_card_of_nodup distinct]

variable [DecidableEq α]

theorem countP_unplaced_snoc {listed : List α} (nodup : listed.Nodup) {placed : List α} {node : α}
    (fresh : node ∉ placed) :
    listed.countP (· ∉ placed) =
      listed.countP (· ∉ placed ++ [node]) + if node ∈ listed then 1 else 0 := by
  induction listed with
  | nil => simp
  | cons head rest ih =>
    have distinct := nodup_cons.mp nodup
    have tail := ih distinct.2
    by_cases same : head = node
    next =>
      subst same
      simp only [distinct.1, if_false, Nat.add_zero] at tail
      simpa [fresh] using tail
    next =>
      by_cases old : head ∈ placed <;>
        simp_all [Ne.symm same, Nat.add_right_comm]

theorem filter_append_of {listed : List α} {t : α} (absent : t ∉ listed) (p : Prop) [Decidable p] :
    (if p then (if p then listed ++ [t] else listed).filter (· ≠ t)
      else if p then listed ++ [t] else listed) = listed := by
  have others : listed.filter (· ≠ t) = listed := by
    rw [filter_eq_self]
    exact fun other member => decide_eq_true fun same => absent (same ▸ member)
  by_cases holds : p
  next => rw [if_pos holds, if_pos holds, filter_append, others]; simp
  next => rw [if_neg holds, if_neg holds]

theorem idxOf_split {before : List α} {node : α} (fresh : node ∉ before)
    (after : List α) : (before ++ node :: after).idxOf node = before.length := by
  simp [idxOf_append, fresh]

theorem idxOf_lt_of_mem_front {before : List α} {node other : α} (fresh : node ∉ before)
    (after : List α) (member : other ∈ before) :
    (before ++ node :: after).idxOf other < (before ++ node :: after).idxOf node := by
  have bound := idxOf_lt_length_iff.mpr member
  rw [idxOf_split fresh]
  simpa [idxOf_append, member] using bound

theorem idxOf_lt_of_pairwise {blockers : α → List α} {order : List α}
    (ordered : order.Pairwise fun earlier later => later ∉ blockers earlier) {blocking blocked : α}
    (inside : blocking ∈ order) (inside' : blocked ∈ order) (blocks : blocking ∈ blockers blocked)
    (differ : blocking ≠ blocked) : order.idxOf blocking < order.idxOf blocked := by
  have bound := idxOf_lt_length_iff.mpr inside
  have bound' := idxOf_lt_length_iff.mpr inside'
  rcases Nat.lt_trichotomy (order.idxOf blocking) (order.idxOf blocked) with before | same | behind
  next => exact before
  next => exact absurd ((idxOf_inj inside).mp same) differ
  next =>
    have unblocked := pairwise_iff_getElem.mp ordered _ _ bound' bound behind
    rw [getElem_idxOf, getElem_idxOf] at unblocked
    exact absurd blocks unblocked

theorem idxOf_of_infix_pair {order : List α} (nodup : order.Nodup) {a b : α} (pair : [a, b] <:+: order) :
    a ∈ order ∧ b ∈ order ∧ order.idxOf b = order.idxOf a + 1 := by
  obtain ⟨front, back, rfl⟩ := pair
  refine ⟨by simp, by simp, ?_⟩
  have first : a ∉ front := by grind
  have second : b ∉ front := by grind
  have differ : a ≠ b := by grind
  simp [idxOf_append, first, second, differ, Nat.add_comm]

theorem idxOf_filter_lt_iff (keep : α → Bool) {a b : α} (kept : keep a = true) (kept' : keep b = true)
    (order : List α) :
    (order.filter keep).idxOf a < (order.filter keep).idxOf b ↔ order.idxOf a < order.idxOf b := by
  induction order with
  | nil => simp
  | cons head rest ih =>
    by_cases isFirst : head = a
    next =>
      subst isFirst
      by_cases isBoth : head = b <;> simp [kept, isBoth]
    next =>
      by_cases isSecond : head = b
      next =>
        subst isSecond
        simp [kept', isFirst]
      next => cases stays : keep head <;> simp [stays, isFirst, isSecond, ih]

theorem split_between {order : List α} {first last : α} (inside : first ∈ order)
    (inside' : last ∈ order) (earlier : order.idxOf first < order.idxOf last) :
    ∃ before mid after, order = before ++ first :: mid ++ last :: after ∧
      first ∉ before ∧ last ∉ before ++ first :: mid := by
  obtain ⟨before, rest, rfl, fresh⟩ := eq_append_cons_of_mem inside
  have behind : last ∉ before := by
    intro front
    have := idxOf_lt_of_mem_front fresh rest front
    omega
  have differ : last ≠ first := by rintro rfl; omega
  have inRest : last ∈ rest := by simpa [behind, differ] using inside'
  obtain ⟨mid, after, rfl, fresh'⟩ := eq_append_cons_of_mem inRest
  exact ⟨before, mid, after, by simp, fresh, by simp [behind, differ, fresh']⟩

end List
