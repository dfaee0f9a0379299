import Dataflow.Error
import Dataflow.Proofs.Results

set_option autoImplicit false

namespace Dataflow

variable {σ α β : Type}

-- What an operation leaves when it is made and when it is refused. A fault leaves nothing that counts.
structure Concludes (made refused : σ → Prop) (operation : EStateM GraphError σ α) (state : σ) : Prop where
  ok : ∀ {value after}, operation state = .ok value after → made after
  error : ∀ {error after}, operation state = .error error after → (∃ fault, error = .fault fault) ∨ refused after

abbrev Maintains (P : σ → Prop) (operation : EStateM GraphError σ α) (state : σ) : Prop :=
  Concludes P P operation state

abbrev Completes (P : σ → Prop) (operation : EStateM GraphError σ α) (state : σ) : Prop :=
  Concludes P (fun _ => False) operation state

abbrev Atomic (P : σ → Prop) (operation : EStateM GraphError σ α) (state : σ) : Prop :=
  Concludes P (· = state) operation state

abbrev Declines (operation : EStateM GraphError σ α) (state : σ) : Prop :=
  Atomic (fun _ => True) operation state

def ConcludesIn (operation : EStateM GraphError σ α) (state after : σ) : Prop :=
  (∃ value, operation state = .ok value after) ∨
    ∃ error, operation state = .error error after ∧ ∀ fault, error ≠ .fault fault

variable {P made refused : σ → Prop} {operation other : EStateM GraphError σ α} {next : α → EStateM GraphError σ β}
  {state start after : σ} {value : α} {error : GraphError}

theorem concludes_of_ok (ended : operation state = .ok value after) (holds : made after) :
    Concludes made refused operation state where
  ok := by intro _ _ ended'; cases ended.symm.trans ended'; exact holds
  error := by intro _ _ failed; cases ended.symm.trans failed

theorem concludes_of_error (failed : operation state = .error error after)
    (holds : (∃ fault, error = .fault fault) ∨ refused after) : Concludes made refused operation state where
  ok := by intro _ _ ended; cases failed.symm.trans ended
  error := by intro _ _ failed'; cases failed.symm.trans failed'; exact holds

theorem concludes_of_refused (failed : operation state = .error error after) (holds : refused after) :
    Concludes made refused operation state :=
  concludes_of_error failed (Or.inr holds)

theorem concludes_of_fault {fault : Fault} (failed : operation state = .error (.fault fault) after) :
    Concludes made refused operation state :=
  concludes_of_error failed (Or.inl ⟨fault, rfl⟩)

theorem Concludes.of_eq (same : operation state = other start) (concludes : Concludes made refused other start) :
    Concludes made refused operation state :=
  ⟨fun ended => concludes.ok (same.symm.trans ended), fun failed => concludes.error (same.symm.trans failed)⟩

theorem Concludes.mono {made' refused' : σ → Prop} (concludes : Concludes made refused operation state)
    (weaker : ∀ {after}, made after → made' after) (weaker' : ∀ {after}, refused after → refused' after) :
    Concludes made' refused' operation state :=
  ⟨fun ended => weaker (concludes.ok ended), fun failed => (concludes.error failed).imp_right weaker'⟩

theorem Concludes.fault (completes : Completes P operation state) (failed : operation state = .error error after) :
    ∃ fault, error = .fault fault :=
  (completes.error failed).resolve_right not_false

theorem Concludes.leaves (maintains : Maintains P operation state) (left : ConcludesIn operation state after) :
    P after := by
  rcases left with ⟨_, ended⟩ | ⟨_, failed, unbroken⟩
  next => exact maintains.ok ended
  next =>
    refine (maintains.error failed).resolve_left ?_
    rintro ⟨fault, broken⟩
    exact unbroken fault broken

theorem Concludes.bind {between : σ → Prop} (first : Concludes between refused operation state)
    (rest : ∀ {value after}, operation state = .ok value after → between after →
      Concludes made refused (next value) after) :
    Concludes made refused (operation >>= next) state := by
  cases ran : operation state with
  | ok value after => exact .of_eq (stateful_bind_of_ok next ran) (rest ran (first.ok ran))
  | error error after => exact concludes_of_error (stateful_bind_of_error next ran) (first.error ran)

theorem Concludes.discard (concludes : Concludes made refused operation state) :
    Concludes made refused (Functor.discard operation) state :=
  concludes.bind fun _ holds => concludes_of_ok rfl holds

theorem concludes_get_bind {next : σ → EStateM GraphError σ α} (rest : Concludes made refused (next state) state) :
    Concludes made refused (get >>= next) state :=
  .of_eq (stateful_get_bind next state) rest

theorem concludes_mapM {step : α → EStateM GraphError σ β} {items : List α} (holds : made state)
    (steps : ∀ item ∈ items, ∀ {state}, made state → Concludes made refused (step item) state) :
    Concludes made refused (items.mapM step) state := by
  induction items generalizing state with
  | nil => exact concludes_of_ok rfl holds
  | cons item rest ih =>
    rw [List.mapM_cons]
    refine (steps item List.mem_cons_self holds).bind fun _ holds => Concludes.bind (ih holds fun other member => ?_)
      fun _ holds => concludes_of_ok rfl holds
    exact steps other (List.mem_cons_of_mem _ member)

theorem concludes_forM {step : α → EStateM GraphError σ PUnit} {items : List α} (holds : made state)
    (steps : ∀ item ∈ items, ∀ {state}, made state → Concludes made refused (step item) state) :
    Concludes made refused (items.forM step) state := by
  induction items generalizing state with
  | nil => exact concludes_of_ok rfl holds
  | cons item rest ih =>
    refine (steps item List.mem_cons_self holds).bind fun _ holds => ih holds fun other member => ?_
    exact steps other (List.mem_cons_of_mem _ member)

end Dataflow
