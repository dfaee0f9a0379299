import Mathlib.Order.WellFoundedSet

set_option autoImplicit false

namespace Dataflow

open Relation

variable {α β : Type}

def Acyclic (r : α → α → Prop) : Prop := ∀ a, ¬ TransGen r a a

namespace Acyclic

variable {r s : α → α → Prop}

theorem mono (acyclic : Acyclic s) (weaker : ∀ a b, r a b → s a b) : Acyclic r :=
  fun a cycle => acyclic a (TransGen.mono weaker _ _ cycle)

theorem comap {r : α → α → Prop} {s : β → β → Prop} (acyclic : Acyclic s) (f : α → β)
    (maps : ∀ a b, r a b → s (f a) (f b)) : Acyclic r :=
  fun a cycle => acyclic (f a) (cycle.lift f maps)

theorem exists_minimal (acyclic : Acyclic r) {elements : List α} (nonempty : elements ≠ []) :
    ∃ a ∈ elements, ∀ b ∈ elements, ¬ r b a := by
  have strict : IsStrictOrder α (TransGen r) :=
    { irrefl := acyclic, trans := fun _ _ _ => TransGen.trans }
  have wellFounded : {a | a ∈ elements}.WellFoundedOn (TransGen r) :=
    (List.finite_toSet elements).wellFoundedOn
  obtain ⟨first, inside⟩ := List.exists_mem_of_ne_nil elements nonempty
  obtain ⟨least, -, minimal⟩ :=
    WellFounded.has_min wellFounded Set.univ ⟨⟨first, inside⟩, Set.mem_univ _⟩
  refine ⟨least.1, least.2, ?_⟩
  intro b member step
  exact minimal ⟨b, member⟩ (Set.mem_univ _) (TransGen.single step)

theorem of_rank (rank : α → Nat) (grows : ∀ a b, r a b → rank a < rank b) : Acyclic r := by
  have along {a b : α} (path : TransGen r a b) : rank a < rank b := by
    induction path with
    | single step => exact grows _ _ step
    | tail _ step ih => exact Nat.lt_trans ih (grows _ _ step)
  exact fun a cycle => Nat.lt_irrefl _ (along cycle)

theorem transGen_of_insert_edge {source target a b : α}
    (path : TransGen (fun a b => r a b ∨ a = source ∧ b = target) a b) :
    TransGen r a b ∨ ReflTransGen r a source ∧ ReflTransGen r target b := by
  induction path with
  | single step =>
    rcases step with old | ⟨rfl, rfl⟩
    next => exact Or.inl (TransGen.single old)
    next => exact Or.inr ⟨ReflTransGen.refl, ReflTransGen.refl⟩
  | tail _ step ih =>
    rcases step with old | ⟨rfl, rfl⟩
    next =>
      rcases ih with before | ⟨before, after⟩
      next => exact Or.inl (before.tail old)
      next => exact Or.inr ⟨before, after.tail old⟩
    next =>
      rcases ih with before | ⟨before, -⟩
      next => exact Or.inr ⟨before.to_reflTransGen, ReflTransGen.refl⟩
      next => exact Or.inr ⟨before, ReflTransGen.refl⟩

theorem returns_insert_edge_iff {source target : α} :
    ReflTransGen (fun a b => r a b ∨ a = source ∧ b = target) target source ↔
      ReflTransGen r target source := by
  constructor
  next =>
    intro path
    rcases reflTransGen_iff_eq_or_transGen.mp path with same | steps
    next => rw [same]
    next =>
      rcases transGen_of_insert_edge steps with old | ⟨before, -⟩
      next => exact old.to_reflTransGen
      next => exact before
  next => exact ReflTransGen.mono (fun _ _ => Or.inl) _ _

theorem insert_edge (acyclic : Acyclic r) {source target : α} (noReturn : ¬ ReflTransGen r target source) :
    Acyclic fun a b => r a b ∨ a = source ∧ b = target := by
  intro a cycle
  rcases transGen_of_insert_edge cycle with old | ⟨before, after⟩
  next => exact acyclic a old
  next => exact noReturn (after.trans before)

theorem insert_edge_iff (acyclic : Acyclic r) {source target : α} :
    Acyclic (fun a b => r a b ∨ a = source ∧ b = target) ↔ ¬ ReflTransGen r target source := by
  refine ⟨fun acyclic' back => acyclic' source ?_, acyclic.insert_edge⟩
  exact TransGen.head' (Or.inr ⟨rfl, rfl⟩) (ReflTransGen.mono (fun _ _ => Or.inl) _ _ back)

end Acyclic

section Classes

variable {r : α → α → Prop} {s : β → β → Prop} {f : α → β} (leads : ∀ a b, r a b → f a = f b ∨ s (f a) (f b))

include leads

theorem stays_or_leads {a b : α} (path : TransGen r a b) :
    f a = f b ∧ TransGen (fun a b => r a b ∧ f a = f b) a b ∨ TransGen s (f a) (f b) := by
  induction path with
  | single step => exact (leads _ _ step).imp (fun same => ⟨same, .single ⟨step, same⟩⟩) .single
  | tail _ step ih =>
    rcases ih with ⟨same, inside⟩ | outside <;> rcases leads _ _ step with same' | step'
    · exact Or.inl ⟨same.trans same', inside.tail ⟨step, same'⟩⟩
    · exact Or.inr (.single (same ▸ step'))
    · exact Or.inr (same' ▸ outside)
    · exact Or.inr (outside.tail step')

theorem Acyclic.of_classes (acyclic : Acyclic s) (inside : Acyclic fun a b => r a b ∧ f a = f b) : Acyclic r :=
  fun a cycle => (stays_or_leads leads cycle).elim (fun stays => inside a stays.2) (acyclic (f a))

end Classes

-- The image of `r` under `f`, without the steps inside of one class.
def Collapsed (r : α → α → Prop) (f : α → β) (a b : β) : Prop := a ≠ b ∧ ∃ x y, r x y ∧ f x = a ∧ f y = b

-- Some path leaves the members and comes back.
def Reenters (r : α → α → Prop) (members : α → Prop) : Prop :=
  ∃ first middle last, members first ∧ ¬ members middle ∧ members last ∧ TransGen r first middle ∧
    TransGen r middle last

section Collapsed

variable {r : α → α → Prop} {f : α → β} {members : α → Prop} {probe : β}

theorem collapsed_of_path {x y : α} (path : ReflTransGen r x y) : ReflTransGen (Collapsed r f) (f x) (f y) := by
  induction path with
  | refl => exact ReflTransGen.refl
  | @tail y z _ step ih =>
    by_cases same : f y = f z
    next => rw [← same]; exact ih
    next => exact ih.tail ⟨same, y, z, step, rfl, rfl⟩

variable (inside : ∀ x, f x = probe ↔ members x) (outside : ∀ {x y}, ¬ members x → f x = f y → x = y)

include inside outside

theorem reenters_or_follows {b : β} (path : TransGen (Collapsed r f) probe b) :
    Reenters r members ∨ ∃ first last, members first ∧ ¬ members last ∧ f last = b ∧ TransGen r first last := by
  induction path with
  | single step =>
    obtain ⟨differ, x, y, edge, start, rfl⟩ := step
    refine Or.inr ⟨x, y, (inside x).mp start, ?_, rfl, TransGen.single edge⟩
    exact fun member => differ ((inside y).mpr member).symm
  | tail _ step ih =>
    rcases ih with back | ⟨first, last, member, left, rfl, before⟩
    next => exact Or.inl back
    next =>
      obtain ⟨-, x, y, edge, same, rfl⟩ := step
      cases outside left same.symm
      by_cases returns : members y
      next => exact Or.inl ⟨first, last, y, member, left, returns, before, TransGen.single edge⟩
      next => exact Or.inr ⟨first, y, member, returns, rfl, before.tail edge⟩

theorem passes_or_avoids {a b : β} (path : TransGen (Collapsed r f) a b) :
    ReflTransGen (Collapsed r f) a probe ∧ ReflTransGen (Collapsed r f) probe b ∨
      ∃ x y, ¬ members x ∧ ¬ members y ∧ f x = a ∧ f y = b ∧ TransGen r x y := by
  induction path with
  | @single b step =>
    have ⟨_, x, y, edge, start, finish⟩ := step
    by_cases first : members x
    next =>
      rw [(inside x).mpr first] at start
      exact Or.inl ⟨start ▸ ReflTransGen.refl, start ▸ ReflTransGen.single step⟩
    next =>
      by_cases last : members y
      next =>
        rw [(inside y).mpr last] at finish
        exact Or.inl ⟨finish ▸ ReflTransGen.single step, finish ▸ ReflTransGen.refl⟩
      next => exact Or.inr ⟨x, y, first, last, start, finish, TransGen.single edge⟩
  | @tail b c before step ih =>
    rcases ih with ⟨entered, left⟩ | ⟨x, y, first, last, start, rfl, lifted⟩
    next => exact Or.inl ⟨entered, left.tail step⟩
    next =>
      have ⟨_, y', z, edge, same, finish⟩ := step
      cases outside last same.symm
      by_cases enters : members z
      next =>
        rw [(inside z).mpr enters] at finish
        exact Or.inl ⟨finish ▸ (before.tail step).to_reflTransGen, finish ▸ ReflTransGen.refl⟩
      next => exact Or.inr ⟨x, z, first, enters, start, finish, lifted.tail edge⟩

theorem Acyclic.collapsed_iff (acyclic : Acyclic r) : Acyclic (Collapsed r f) ↔ ¬ Reenters r members := by
  constructor
  next =>
    rintro acyclic' ⟨first, middle, last, member, left, member', leaves, returns⟩
    have differ : f first ≠ f middle := by
      intro same
      rw [(inside first).mpr member] at same
      exact left ((inside middle).mp same.symm)
    have same : f last = f first := ((inside last).mpr member').trans ((inside first).mpr member).symm
    have away : ReflTransGen (Collapsed r f) (f first) (f middle) := collapsed_of_path leaves.to_reflTransGen
    have back : ReflTransGen (Collapsed r f) (f middle) (f first) := same ▸ collapsed_of_path returns.to_reflTransGen
    rcases reflTransGen_iff_eq_or_transGen.mp away with equal | steps
    next => exact differ equal.symm
    next => exact acyclic' _ (steps.trans_left back)
  next =>
    intro closed a cycle
    rcases passes_or_avoids inside outside cycle with ⟨entered, left⟩ | ⟨x, y, first, -, start, finish, lifted⟩
    next =>
      -- The cycle passes the set, so it can be walked from there.
      have around : TransGen (Collapsed r f) probe probe := (TransGen.trans_right left cycle).trans_left entered
      rcases reenters_or_follows inside outside around with back | ⟨-, last, -, left, finish, -⟩
      next => exact closed back
      next => exact left ((inside last).mp finish)
    next =>
      cases outside first (start.trans finish.symm)
      exact acyclic x lifted

end Collapsed

section Pair

variable {α : Type} {r : α → α → Prop} {source target : α}

theorem Acyclic.reenters_pair_iff (acyclic : Acyclic r) (noReturn : ¬ ReflTransGen r target source) :
    Reenters r (· ∈ [source, target]) ↔ ∃ middle, TransGen r source middle ∧ TransGen r middle target := by
  constructor
  next =>
    rintro ⟨first, middle, last, inside, -, inside', leaves, returns⟩
    have around := leaves.trans returns
    simp only [List.mem_cons, List.not_mem_nil, or_false] at inside inside'
    rcases inside with rfl | rfl <;> rcases inside' with rfl | rfl
    · exact absurd around (acyclic _)
    · exact ⟨middle, leaves, returns⟩
    · exact absurd around.to_reflTransGen noReturn
    · exact absurd around (acyclic _)
  next =>
    rintro ⟨middle, leaves, returns⟩
    refine ⟨source, middle, target, by simp, fun inside => ?_, by simp, leaves, returns⟩
    simp only [List.mem_cons, List.not_mem_nil, or_false] at inside
    rcases inside with rfl | rfl
    next => exact acyclic _ leaves
    next => exact acyclic _ returns

theorem exists_detour (path : ReflTransGen r source target) (differ : source ≠ target) (indirect : ¬ r source target) :
    ∃ middle, TransGen r source middle ∧ TransGen r middle target := by
  rcases path.cases_head with same | ⟨middle, step, rest⟩
  next => exact absurd same differ
  next =>
    rcases reflTransGen_iff_eq_or_transGen.mp rest with rfl | steps
    next => exact absurd step indirect
    next => exact ⟨middle, .single step, steps⟩

end Pair

end Dataflow
