import Mathlib.Data.List.Induction
import Mathlib.Logic.Basic

set_option autoImplicit false

namespace Dataflow

variable {ε σ α β : Type}

theorem bind_eq_ok {computation : Except ε α} {next : α → Except ε β} {result : β} :
    (computation >>= next) = .ok result ↔ ∃ value, computation = .ok value ∧ next value = .ok result := by
  cases computation with
  | error => simp [bind, Except.bind]
  | ok value => simp [bind, Except.bind]

theorem bind_of_eq_some {step : Option α} {next : α → Option β} {value : α}
    {result : Option β} (found : step = some value) (continued : next value = result) :
    (step >>= next) = result := by
  rw [found]
  exact continued

theorem eq_none_iff {p : Prop} {q : α → Prop} {answer : Option α}
    (holds : p → ∃ value, answer = some value ∧ q value)
    (fails : ¬ p → answer = none) : answer = none ↔ ¬ p := by
  refine ⟨fun none held => ?_, fails⟩
  obtain ⟨value, some, -⟩ := holds held
  cases none.symm.trans some

theorem foldlM_cons_ok {step : σ → α → Except ε σ} {state after : σ} {item : α} (items : List α)
    (stepped : step state item = .ok after) :
    (item :: items).foldlM step state = items.foldlM step after := by
  rw [List.foldlM_cons, stepped]
  rfl

theorem foldlM_invariant {step : σ → α → Except ε σ} {P : σ → Prop} {items : List α} {state final : σ}
    (keeps : ∀ {state item after}, P state → step state item = .ok after → P after) (start : P state)
    (folded : items.foldlM step state = .ok final) : P final := by
  induction items generalizing state with
  | nil => cases folded; exact start
  | cons item rest ih =>
    rw [List.foldlM_cons] at folded
    obtain ⟨after, stepped, folded⟩ := bind_eq_ok.mp folded
    exact ih (keeps start stepped) folded

theorem foldlM_succeeds {step : σ → α → Except ε σ} (P : List α → σ → Prop) {items : List α} {state : σ}
    (steps : ∀ {done item rest state}, items = done ++ item :: rest → P done state →
      ∃ after, step state item = .ok after ∧ P (done ++ [item]) after) (start : P [] state) :
    ∃ final, items.foldlM step state = .ok final ∧ P items final := by
  suffices general : ∀ rest done state, items = done ++ rest → P done state →
      ∃ final, rest.foldlM step state = .ok final ∧ P items final from general items [] state rfl start
  intro rest
  induction rest with
  | nil =>
    intro done state split holds
    exact ⟨state, rfl, by simpa [split] using holds⟩
  | cons item rest ih =>
    intro done state split holds
    obtain ⟨after, stepped, holds⟩ := steps split holds
    obtain ⟨final, folded, holds⟩ := ih (done ++ [item]) after (by simp [split]) holds
    exact ⟨final, (foldlM_cons_ok rest stepped).trans folded, holds⟩

structure SucceedsIff (condition : Prop) (computation : Except ε α) (P : α → Prop) : Prop where
  ok : condition → ∃ value, computation = .ok value ∧ P value
  error : ¬ condition → ∃ error, computation = .error error

theorem SucceedsIff.bind {A B : Prop} {R : α → Prop} {P : β → Prop} {computation : Except ε α} {next : α → Except ε β}
    (first : SucceedsIff A computation R) (second : ∀ {value}, A → R value → SucceedsIff B (next value) P) :
    SucceedsIff (A ∧ B) (computation >>= next) P := by
  by_cases begins : A
  next =>
    obtain ⟨value, ran, holds⟩ := first.ok begins
    rw [ran]
    exact ⟨fun both => (second begins holds).ok both.2, fun fails => (second begins holds).error (not_and.mp fails begins)⟩
  next =>
    obtain ⟨error, failed⟩ := first.error begins
    rw [failed]
    exact ⟨fun both => absurd both.1 begins, fun _ => ⟨error, rfl⟩⟩

def Stepwise (Q : List α → α → Prop) (items : List α) : Prop :=
  ∀ done item rest, items = done ++ item :: rest → Q done item

theorem stepwise_nil {Q : List α → α → Prop} : Stepwise Q [] := by
  intro done item rest split
  cases done <;> cases split

theorem stepwise_snoc {Q : List α → α → Prop} {items : List α} {last : α} :
    Stepwise Q (items ++ [last]) ↔ Stepwise Q items ∧ Q items last := by
  constructor
  next =>
    intro holds
    refine ⟨fun done item rest split => ?_, holds items last [] rfl⟩
    exact holds done item (rest ++ [last]) (by simp [split])
  next =>
    rintro ⟨holds, final⟩ done item rest split
    rcases List.eq_nil_or_concat rest with rfl | ⟨front, end_, rfl⟩
    next =>
      obtain ⟨rfl, same⟩ := List.append_inj' split rfl
      cases same
      exact final
    next =>
      have longer : items ++ [last] = (done ++ item :: front) ++ [end_] := by simpa using split
      exact holds done item front (List.append_inj' longer rfl).1

theorem stepwise_and_iff {Q R : List α → α → Prop} {items : List α} :
    Stepwise (fun done item => Q done item ∧ R done item) items ↔ Stepwise Q items ∧ Stepwise R items := by
  simp only [Stepwise, ← forall_and]

theorem stepwise_forall_iff {R : α → Prop} {items : List α} :
    Stepwise (fun _ item => R item) items ↔ ∀ item ∈ items, R item := by
  constructor
  next =>
    intro holds item member
    obtain ⟨done, rest, split⟩ := List.append_of_mem member
    exact holds done item rest split
  next => exact fun holds done item rest split => holds item (by simp [split])

theorem stepwise_pairwise_iff {R : α → α → Prop} {items : List α} :
    Stepwise (fun done item => ∀ earlier ∈ done, R earlier item) items ↔ items.Pairwise R := by
  induction items using List.reverseRecOn with
  | nil => exact iff_of_true stepwise_nil List.Pairwise.nil
  | append_singleton items last ih => simp [stepwise_snoc, ih, List.pairwise_append]

theorem stepwise_nodup_iff {f : α → β} {items : List α} :
    Stepwise (fun done item => f item ∉ done.map f) items ↔ (items.map f).Nodup := by
  rw [List.Nodup, List.pairwise_map, ← stepwise_pairwise_iff]
  simp [Stepwise]

theorem stepwise_map_iff {f : α → β} {Q : List β → β → Prop} {items : List α} :
    Stepwise Q (items.map f) ↔ Stepwise (fun done item => Q (done.map f) (f item)) items := by
  induction items using List.reverseRecOn with
  | nil => exact iff_of_true stepwise_nil stepwise_nil
  | append_singleton items last ih => rw [List.map_append, List.map_singleton, stepwise_snoc, stepwise_snoc, ih]

theorem foldlM_exact {step : σ → α → Except ε σ} (P : List α → σ → Prop) {Q : List α → α → Prop} {items : List α}
    {state : σ}
    (accepts : ∀ {done item rest state}, items = done ++ item :: rest → P done state → Q done item →
      ∃ after, step state item = .ok after ∧ P (done ++ [item]) after)
    (requires : ∀ {done item state after}, P done state → step state item = .ok after → Q done item)
    (start : P [] state) : SucceedsIff (Stepwise Q items) (items.foldlM step state) (P items) := by
  refine ⟨fun holds => foldlM_succeeds P (fun split kept => accepts split kept (holds _ _ _ split)) start, ?_⟩
  -- The fold fails at the first item whose condition fails.
  suffices general : ∀ rest done state, items = done ++ rest → P done state → Stepwise Q done → ¬ Stepwise Q items →
      ∃ error, rest.foldlM step state = .error error from general items [] state rfl start stepwise_nil
  intro rest
  induction rest with
  | nil =>
    intro done state split _ holds fails
    rw [split, List.append_nil] at fails
    exact absurd holds fails
  | cons item rest ih =>
    intro done state split kept holds fails
    by_cases next : Q done item
    next =>
      obtain ⟨after, stepped, kept⟩ := accepts split kept next
      rw [foldlM_cons_ok rest stepped]
      exact ih (done ++ [item]) after (by simp [split]) kept (stepwise_snoc.mpr ⟨holds, next⟩) fails
    next =>
      rw [List.foldlM_cons]
      cases stepped : step state item with
      | error error => exact ⟨error, rfl⟩
      | ok after => exact absurd (requires kept stepped) next

theorem mapM_of_ok {f : α → Except ε β} {g : α → β} {items : List α} (each : ∀ item ∈ items, f item = .ok (g item)) :
    items.mapM f = .ok (items.map g) := by
  induction items with
  | nil => rfl
  | cons item rest ih =>
    rw [List.mapM_cons, each item (.head _), ih fun other member => each other (.tail _ member)]
    rfl

theorem mapM_ok {f : α → Except ε β} {items : List α} (each : ∀ item ∈ items, ∃ value, f item = .ok value) :
    ∃ values, items.mapM f = .ok values ∧ ∀ value, value ∈ values ↔ ∃ item ∈ items, f item = .ok value := by
  induction items with
  | nil => exact ⟨[], rfl, by simp⟩
  | cons item rest ih =>
    obtain ⟨first, own⟩ := each item (.head _)
    obtain ⟨others, mapped, mem_iff⟩ := ih fun other member => each other (.tail _ member)
    refine ⟨first :: others, by rw [List.mapM_cons, own, mapped]; rfl, fun value => ?_⟩
    simp [mem_iff, own, eq_comm]

theorem mapM_eq_ok {f : α → Except ε β} {items : List α} {values : List β} (mapped : items.mapM f = .ok values) :
    ∀ item ∈ items, ∃ value, f item = .ok value := by
  induction items generalizing values with
  | nil => simp
  | cons first rest ih =>
    rw [List.mapM_cons] at mapped
    obtain ⟨value, own, mapped⟩ := bind_eq_ok.mp mapped
    obtain ⟨others, mapped, -⟩ := bind_eq_ok.mp mapped
    exact List.forall_mem_cons.mpr ⟨⟨value, own⟩, ih mapped⟩

theorem filterM_ok {f : α → Except ε Bool} {P : α → Prop} {items : List α}
    (each : ∀ item ∈ items, ∃ keeps, f item = .ok keeps ∧ (keeps = true ↔ P item)) :
    ∃ kept, items.filterM f = .ok kept ∧ ∀ item, item ∈ kept ↔ item ∈ items ∧ P item := by
  suffices general : ∀ found, ∃ kept, items.filterAuxM f found = .ok kept ∧
      ∀ item, item ∈ kept ↔ item ∈ items ∧ P item ∨ item ∈ found by
    obtain ⟨kept, filtered, mem_iff⟩ := general []
    exact ⟨kept.reverse, by rw [List.filterM, filtered]; rfl, by simpa using mem_iff⟩
  induction items with
  | nil => exact fun found => ⟨found, rfl, by simp⟩
  | cons head rest ih =>
    intro found
    obtain ⟨keeps, answered, keeps_iff⟩ := each head (.head _)
    obtain ⟨kept, filtered, mem_iff⟩ := ih (fun item member => each item (.tail _ member))
      (bif keeps then head :: found else found)
    refine ⟨kept, by rw [List.filterAuxM, answered]; exact filtered, fun item => ?_⟩
    rw [mem_iff]
    by_cases same : item = head
    next =>
      subst same
      cases keeps with
      | true => simp [keeps_iff.mp rfl]
      | false =>
        have drops : ¬ P item := fun holds => Bool.false_ne_true (keeps_iff.mpr holds)
        simp [drops]
    next => cases keeps <;> simp [same]

def finalState (computation : EStateM ε σ α) (state : σ) : σ :=
  match computation state with
  | .ok _ after => after
  | .error _ after => after

theorem stateful_bind_eq_ok {computation : EStateM ε σ α} {next : α → EStateM ε σ β} {before after : σ}
    {result : β} : (computation >>= next) before = .ok result after ↔
      ∃ value between, computation before = .ok value between ∧ next value between = .ok result after := by
  show EStateM.bind computation next before = _ ↔ _
  unfold EStateM.bind
  cases computation before with
  | error => simp
  | ok value between =>
    constructor
    next => exact fun finished => ⟨value, between, rfl, finished⟩
    next => rintro ⟨_, _, ⟨⟩, finished⟩; exact finished

theorem stateful_bind_of_ok {computation : EStateM ε σ α} (next : α → EStateM ε σ β) {before between : σ}
    {value : α} (succeeds : computation before = .ok value between) :
    (computation >>= next) before = next value between := by
  show EStateM.bind computation next before = _
  unfold EStateM.bind
  rw [succeeds]

theorem stateful_bind_of_error {computation : EStateM ε σ α} (next : α → EStateM ε σ β) {before after : σ}
    {error : ε} (fails : computation before = .error error after) :
    (computation >>= next) before = .error error after := by
  show EStateM.bind computation next before = _
  unfold EStateM.bind
  rw [fails]

theorem stateful_get_bind (next : σ → EStateM ε σ α) (state : σ) : (get >>= next) state = next state state := rfl

theorem stateful_run'_eq_some {computation : EStateM ε σ α} {before : σ} {value : α} :
    computation.run' before = some value ↔ ∃ after, computation before = .ok value after := by
  unfold EStateM.run' EStateM.run
  cases computation before with
  | error => simp
  | ok answer after => simp

theorem stateful_discard_eq_ok {computation : EStateM ε σ α} {before after : σ} :
    (discard computation) before = .ok () after ↔ ∃ value, computation before = .ok value after := by
  show EStateM.map (fun _ => ()) computation before = _ ↔ _
  unfold EStateM.map
  cases computation before with
  | error => simp
  | ok value between => simp

theorem stateful_discard_of_error {computation : EStateM ε σ α} {before after : σ} {error : ε}
    (fails : computation before = .error error after) : (discard computation) before = .error error after := by
  show EStateM.map (fun _ => ()) computation before = _
  unfold EStateM.map
  rw [fails]

theorem stateful_forM_succeeds {step : α → EStateM ε σ PUnit} (P : List α → σ → Prop) {items : List α} {state : σ}
    (steps : ∀ {done item rest state}, items = done ++ item :: rest → P done state →
      ∃ after, step item state = .ok ⟨⟩ after ∧ P (done ++ [item]) after) (start : P [] state) :
    ∃ final, items.forM step state = .ok ⟨⟩ final ∧ P items final := by
  suffices general : ∀ rest done state, items = done ++ rest → P done state →
      ∃ final, rest.forM step state = .ok ⟨⟩ final ∧ P items final from general items [] state rfl start
  intro rest
  induction rest with
  | nil =>
    intro done state split holds
    exact ⟨state, rfl, by simpa [split] using holds⟩
  | cons item rest ih =>
    intro done state split holds
    obtain ⟨after, stepped, holds⟩ := steps split holds
    obtain ⟨final, finished, holds⟩ := ih (done ++ [item]) after (by simp [split]) holds
    exact ⟨final, (stateful_bind_of_ok _ stepped).trans finished, holds⟩

theorem stateful_foldlM_succeeds {step : β → α → EStateM ε σ β} (P : List α → β → σ → Prop) {items : List α}
    {value : β} {state : σ}
    (steps : ∀ {done item rest value state}, items = done ++ item :: rest → P done value state →
      ∃ next after, step value item state = .ok next after ∧ P (done ++ [item]) next after)
    (start : P [] value state) :
    ∃ result final, items.foldlM step value state = .ok result final ∧ P items result final := by
  suffices general : ∀ rest done value state, items = done ++ rest → P done value state →
      ∃ result final, rest.foldlM step value state = .ok result final ∧ P items result final from
    general items [] value state rfl start
  intro rest
  induction rest with
  | nil =>
    intro done value state split holds
    exact ⟨value, state, rfl, by simpa [split] using holds⟩
  | cons item rest ih =>
    intro done value state split holds
    obtain ⟨next, after, stepped, holds⟩ := steps split holds
    obtain ⟨result, final, finished, holds⟩ := ih (done ++ [item]) next after (by simp [split]) holds
    exact ⟨result, final, (stateful_bind_of_ok _ stepped).trans finished, holds⟩

end Dataflow
