import Modvm.Io.Retirement

/-! What the device lock protects: deliveries, closes and callbacks. -/

namespace Modvm.Io

open Function

variable {τ : Type} [DecidableEq τ]

def Frame.isLoop : Frame → Bool
  | .waiting => true
  | .ready => true
  | .locked => true
  | .unlocking => true
  | _ => false

/-- A call at this point calls nothing else. -/
def Frame.innermost : Frame → Bool
  | .waiting => true
  | .ready => true
  | .locked => true
  | .delivering _ => true
  | _ => false

/-- A call at this point has the device lock. -/
def Frame.underLock : Frame → Bool
  | .run _ => true
  | .closing _ _ => true
  | .closingPut _ _ => true
  | .locked => true
  | .unlocking => true
  | .delivering _ => true
  | .delivered _ => true
  | .retiring _ => true
  | _ => false

/-- The shape of a call stack: the loop is at the bottom, and no call is above a frame that calls
nothing.
-/
def Shape (stack : List Frame) : Prop :=
  stack.Pairwise fun above below => above.isLoop = false ∧ below.innermost = false

/-- Who delivers, closes or runs a callback has the device lock, and a taken item stays deliverable
until the test of `open`.
-/
structure Exclusive (io : IoCtx τ) : Prop where
  shape : ∀ t, Shape (io.calls t)
  holder : ∀ t, ∀ frame ∈ io.calls t, frame.underLock → io.deviceLock = some t
  eligible : ∀ t item, .delivering item ∈ io.calls t → runnable io item

theorem Shape.callers {stack : List Frame} (shape : Shape stack) (client : clientRuns stack)
    : ∀ frame ∈ stack, frame.innermost = false := by
  cases stack with
  | nil => simp
  | cons =>
    intro frame member
    rcases List.mem_cons.mp member with rfl | inside
    · cases frame <;> first | rfl | cases client
    · exact ((List.pairwise_cons.mp shape).1 frame inside).2

theorem Shape.push {frame : Frame} {stack : List Frame} (shape : Shape stack)
    (client : clientRuns stack) (entered : frame.isLoop = false)
    : Shape (frame :: stack) :=
  List.pairwise_cons.mpr ⟨fun below member => ⟨entered, shape.callers client below member⟩, shape⟩

theorem Shape.below_eq_nil {frame : Frame} {below : List Frame} (shape : Shape (frame :: below))
    (loop : frame.isLoop)
    : below = [] := by
  refine List.eq_nil_iff_forall_not_mem.mpr fun other member => ?_
  rw [((List.pairwise_cons.mp shape).1 other member).1] at loop
  cases loop

theorem Shape.replace {old new : Frame} {below : List Frame} (shape : Shape (old :: below))
    (kept : old.isLoop ∨ new.isLoop = false)
    : Shape (new :: below) := by
  rcases kept with loop | entered
  · rw [shape.below_eq_nil loop]
    exact List.pairwise_singleton _ _
  · have ⟨above, rest⟩ := List.pairwise_cons.mp shape
    exact List.pairwise_cons.mpr ⟨fun other member => ⟨entered, (above other member).2⟩, rest⟩

theorem Shape.enter {frame caller : Frame} {below : List Frame} (shape : Shape (caller :: below))
    (entered : frame.isLoop = false) (calls : caller.innermost = false)
    : Shape (frame :: caller :: below) := by
  refine List.pairwise_cons.mpr ⟨fun other member => ⟨entered, ?_⟩, shape⟩
  rcases List.mem_cons.mp member with rfl | inside
  · exact calls
  · exact ((List.pairwise_cons.mp shape).1 other inside).2

theorem Shape.put {frame : Frame} {stack : List Frame} {last : Prop} [Decidable last]
    (shape : Shape stack) (freeing : Shape (frame :: stack))
    : Shape (if last then frame :: stack else stack) := by
  split
  · exact freeing
  · exact shape

variable {io next : IoCtx τ}

theorem Effect.calls_of_ne {t u : τ} (effect : Effect io t next) (other : u ≠ t)
    : next.calls u = io.calls u := by
  rw [effect.calls_eq, update_of_ne other]

/-- Every step keeps the shape of the stack of the thread that takes it. -/
theorem Effect.shape {t : τ} (effect : Effect io t next) (shape : Shape (io.calls t))
    : Shape (next.calls t) := by
  cases effect
  all_goals
    try simp only [IoCtx.goto, IoCtx.record, ioBindingCloseLocked, dropReference,
      update_self]
  case postFailed client => exact shape.push client rfl
  case posting client => exact shape.push client rfl
  case closed client _ _ => exact shape.push client rfl
  case ownerPut client _ _ => exact shape.put (shape.push client rfl)
  case failed client => exact shape.push client rfl
  case runCalled => exact List.pairwise_singleton _ _
  case returned top _ => exact (List.pairwise_cons.mp (top ▸ shape)).2
  case refused top => exact (top ▸ shape).replace (.inr rfl)
  case posted top _ _ => exact (List.pairwise_cons.mp (top ▸ shape)).2
  case refusalReleased top => exact (top ▸ shape).replace (.inr rfl)
  case closeReturned top => exact (List.pairwise_cons.mp (top ▸ shape)).2
  case cancelReleased top => exact ((top ▸ shape).replace (.inr rfl)).enter rfl rfl
  case cancelPut b rest below top =>
    have looped : Shape (.closing b rest :: below) := Shape.replace (top ▸ shape) (.inr rfl)
    exact looped.put (looped.enter rfl rfl)
  case freed top _ => exact (List.pairwise_cons.mp (top ▸ shape)).2
  case runReturned top => exact (List.pairwise_cons.mp (top ▸ shape)).2
  case woken top => exact (top ▸ shape).replace (.inl rfl)
  case runLocked top _ => exact (top ▸ shape).replace (.inl rfl)
  case nothing top => exact (top ▸ shape).replace (.inl rfl)
  case taken top _ _ _ _ => exact ((top ▸ shape).replace (.inl rfl)).enter rfl rfl
  case started top _ => exact ((top ▸ shape).replace (.inr rfl)).enter rfl rfl
  case skipped top _ => exact (top ▸ shape).replace (.inr rfl)
  case released top => exact ((top ▸ shape).replace (.inr rfl)).enter rfl rfl
  case itemPut top =>
    obtain ⟨-, rest⟩ := List.pairwise_cons.mp (top ▸ shape)
    exact Shape.put rest (Shape.replace (top ▸ shape) (.inr rfl))
  case runUnlocked top => exact (top ▸ shape).replace (.inl rfl)
  all_goals exact shape

theorem Effect.deviceLock_of_ne {t u : τ} (effect : Effect io t next) (exclusive : Exclusive io)
    (other : u ≠ t) (holds : io.deviceLock = some u)
    : next.deviceLock = some u := by
  cases effect
  case locked available => cases available.symm.trans holds
  case unlocked holder => cases holder.symm.trans holds; exact absurd rfl other
  case runLocked available => cases available.symm.trans holds
  case runUnlocked top =>
    have holder := exclusive.holder t .unlocking (by simp [top]) rfl
    cases holder.symm.trans holds
    exact absurd rfl other
  all_goals exact holds

section

variable {t : τ} (effect : Effect io t next)
include effect

theorem Effect.scopes_of_not_holder (without : io.deviceLock ≠ some t) (b : Nat)
    : (next.scopes b).isOpen = (io.scopes b).isOpen
      ∧ (next.scopes b).enabled = (io.scopes b).enabled := by
  cases effect
  case closed holder _ => exact absurd holder without
  all_goals
    simp only [IoCtx.goto, IoCtx.record, IoCtx.setScope, dropReference, update_apply] <;>
    grind

/-- Frames under the lock belong to its holder. -/
theorem Effect.holder (exclusive : Exclusive io)
    : ∀ frame ∈ next.calls t, frame.underLock → next.deviceLock = some t := by
  have before := exclusive.holder t
  have shape := exclusive.shape t
  have innermost : ∀ frame below, io.calls t = frame :: below → frame.underLock →
      io.deviceLock = some t :=
    fun frame below top => before frame (top ▸ List.mem_cons_self)
  cases effect
  case runUnlocked below top =>
    -- the loop returns the lock, and nothing is below it
    rw [top] at shape
    have bottom := shape.below_eq_nil rfl
    simp [IoCtx.goto, bottom, Frame.underLock]
  all_goals
    try simp only [IoCtx.goto, IoCtx.record, IoCtx.setScope, ioBindingCloseLocked, dropReference]
  all_goals grind [Frame.underLock]

/-- What is being delivered can still run. -/
theorem Effect.eligible (shape : Shape (io.calls t))
    (before : ∀ item, .delivering item ∈ io.calls t → runnable io item) {item : IoWork}
    (delivering : .delivering item ∈ next.calls t)
    : runnable next item := by
  have absent : clientRuns (io.calls t) → .delivering item ∉ io.calls t := by
    intro client member
    cases shape.callers client _ member
  have below : ∀ frame below, io.calls t = frame :: below → .delivering item ∉ below := by
    intro frame below top member
    rw [top] at shape
    cases ((List.pairwise_cons.mp shape).1 _ member).2
  cases effect
  case unchanged => exact before item delivering
  all_goals
    simp only [IoCtx.goto, IoCtx.record, IoCtx.setScope, ioBindingCloseLocked,
      dropReference] at delivering
  case taken other _ _ _ _ _ _ _ eligible =>
    have same : item = other := by grind
    subst same
    exact eligible
  all_goals grind [clientRuns]

theorem Effect.exclusive (exclusive : Exclusive io)
    : Exclusive next := by
  refine ⟨fun u => ?_, fun u => ?_, fun u item delivering => ?_⟩
  · by_cases here : u = t
    · subst here
      exact effect.shape (exclusive.shape u)
    · rw [effect.calls_of_ne here]
      exact exclusive.shape u
  · by_cases here : u = t
    · subst here
      exact effect.holder exclusive
    · intro frame member under
      rw [effect.calls_of_ne here] at member
      exact effect.deviceLock_of_ne exclusive here (exclusive.holder u frame member under)
  · by_cases here : u = t
    · subst here
      exact effect.eligible (exclusive.shape u) (exclusive.eligible u) delivering
    · rw [effect.calls_of_ne here] at delivering
      have holds := exclusive.holder u _ delivering rfl
      have without : io.deviceLock ≠ some t := by
        rw [holds]
        exact fun same => here (Option.some.inj same)
      have kept := (effect.scopes_of_not_holder without item.binding).2
      have eligible := exclusive.eligible u item delivering
      unfold runnable at eligible ⊢
      rwa [kept]

end

end Modvm.Io
