import Mathlib.Data.List.Basic

/-! Steps that may fail and keep the state that was reached, and triples for them. -/

namespace Modvm.Lib

/-- A step that returns an error or succeeds, and a state either way. -/
abbrev Fallible (ε σ : Type) := σ → Except ε Unit × σ

variable {ε σ ι : Type}

namespace Fallible

/-- One step, and another unless it fails. -/
def andThen (first second : Fallible ε σ) : Fallible ε σ := fun state =>
  match first state with
  | (.error error, next) => (.error error, next)
  | (.ok _, next) => second next

def skip : Fallible ε σ := fun state => (.ok (), state)

def require (condition : Bool) (error : ε) : Fallible ε σ := fun state =>
  if condition then (.ok (), state) else (.error error, state)

/-- A step for each item, until one fails. -/
def each (step : ι → Fallible ε σ) : List ι → Fallible ε σ
  | [] => skip
  | item :: rest => (step item).andThen (each step rest)

variable {first second : Fallible ε σ} {before after : σ}

theorem andThen_eq_ok
    : first.andThen second before = (.ok (), after)
      ↔ ∃ between, first before = (.ok (), between) ∧ second between = (.ok (), after) := by
  unfold andThen
  rcases first before with ⟨error | done, between⟩
  · simp
  · simp

theorem andThen_of_ok (done : (first before).1 = .ok ())
    : first.andThen second before = second (first before).2 := by
  unfold andThen
  generalize first before = outcome at done ⊢
  obtain ⟨_, between⟩ := outcome
  subst done
  rfl

theorem andThen_of_error {error : ε} (failed : (first before).1 = .error error)
    : first.andThen second before = (.error error, (first before).2) := by
  unfold andThen
  generalize first before = outcome at failed ⊢
  obtain ⟨_, between⟩ := outcome
  subst failed
  rfl

end Fallible

/-- Success reaches the postcondition and failure the condition for failures. -/
def Triple (pre : σ → Prop) (step : Fallible ε σ) (post failed : σ → Prop) : Prop :=
  ∀ state, pre state →
    match step state with
    | (.ok _, next) => post next
    | (.error _, next) => failed next

namespace Triple

variable {pre mid post failed : σ → Prop} {first second : Fallible ε σ}

theorem andThen (before : Triple pre first mid failed) (after : Triple mid second post failed)
    : Triple pre (first.andThen second) post failed := by
  intro state holds
  have reached := before state holds
  unfold Fallible.andThen
  split at reached
  · rename_i done
    rw [done]
    exact after _ reached
  · rename_i done
    rw [done]
    exact reached

theorem skip (weaker : ∀ state, pre state → post state)
    : Triple pre (Fallible.skip : Fallible ε σ) post failed :=
  fun state holds => weaker state holds

theorem require {condition : Bool} {error : ε} (weaker : ∀ state, pre state → failed state)
    : Triple pre (Fallible.require condition error) pre failed := by
  intro state holds
  cases condition with
  | true => exact holds
  | false => exact weaker state holds

theorem weaken {pre' post' failed' : σ → Prop} (triple : Triple pre first post failed)
    (before : ∀ state, pre' state → pre state) (after : ∀ state, post state → post' state)
    (otherwise : ∀ state, failed state → failed' state)
    : Triple pre' first post' failed' := by
  intro state holds
  have reached := triple state (before state holds)
  split at reached
  · exact after _ reached
  · exact otherwise _ reached

theorem each {step : ι → Fallible ε σ} {items : List ι}
    (keeps : ∀ item ∈ items, Triple pre (step item) pre failed)
    : Triple pre (Fallible.each step items) pre failed := by
  induction items with
  | nil => exact skip fun _ holds => holds
  | cons item rest ih =>
    rw [List.forall_mem_cons] at keeps
    exact keeps.1.andThen (ih keeps.2)

theorem count {step : Nat → Fallible ε σ} {inv : Nat → σ → Prop} (start rounds : Nat)
    (keeps : ∀ index, Triple (inv index) (step index) (inv (index + 1)) failed)
    : Triple (inv start) (Fallible.each step (List.range' start rounds)) (inv (start + rounds))
        failed := by
  induction rounds generalizing start with
  | zero => exact skip fun _ holds => holds
  | succ rounds ih =>
    have rest := ih (start + 1)
    rw [Nat.add_right_comm] at rest
    exact (keeps start).andThen rest

end Triple

end Modvm.Lib
