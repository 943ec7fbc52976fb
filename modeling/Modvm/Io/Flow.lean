import Modvm.Io.Exclusion

/-! Where the data items of a binding are before the device has them. -/

namespace Modvm.Io

open Modvm.Lib

variable {τ : Type}

def IoWork.isData (b : Nat) (item : IoWork) : Bool :=
  decide (item.binding = b) && decide (item.kind = .data)

def Frame.submits (b : Nat) : Frame → Nat
  | .posting item => if item.isData b then 1 else 0
  | _ => 0

/-- The data items of a binding that a call took from the queue and has not passed on. -/
def Frame.delivers (b : Nat) : Frame → Nat
  | .delivering item => if item.isData b then 1 else 0
  | .run item => if item.isData b then 1 else 0
  | .closing _ items => items.countP (·.isData b)
  | .closingPut _ items => items.countP (·.isData b)
  | _ => 0

def IoCtx.waiting (io : IoCtx τ) (b : Nat) : Nat := io.work.countP (·.isData b)

variable {io next : IoCtx τ}

theorem Exclusive.delivers_eq_zero (exclusive : Exclusive io) {t : τ}
    (without : io.deviceLock ≠ some t) (b : Nat)
    : stackCost (Frame.delivers b) (io.calls t) = 0 := by
  refine stackCost_eq_zero fun frame member => ?_
  have unlocked : frame.underLock = false := by
    by_contra under
    exact without (exclusive.holder t frame member (by simpa using under))
  cases frame <;> first | rfl | cases unlocked

variable [DecidableEq τ]

def Op.posts : Op → Bool
  | .post _ _ _ => true
  | _ => false

theorem advance_kept {t : τ} (taken : advance io t = some next)
    : next.posts = io.posts ∧ next.stopped = io.stopped ∧ next.error = io.error := by
  unfold advance at taken
  split at taken
  case h_4 item below top =>
    obtain ⟨-, taken⟩ := Option.ite_none_right_eq_some.mp taken
    cases taken
    unfold enqueue
    dsimp only
    split <;> exact ⟨rfl, rfl, rfl⟩
  case h_9 b below top =>
    cases taken
    unfold freeBinding
    split <;> exact ⟨rfl, rfl, rfl⟩
  case h_10 below top =>
    unfold await at taken
    split at taken
    · cases taken
      exact ⟨rfl, rfl, rfl⟩
    · obtain ⟨-, taken⟩ := Option.ite_none_right_eq_some.mp taken
      cases taken
      exact ⟨rfl, rfl, rfl⟩
  case h_11 below top =>
    split at taken <;> cases taken
    exact ⟨rfl, rfl, rfl⟩
  case h_12 below top =>
    cases taken
    unfold take
    split
    · exact ⟨rfl, rfl, rfl⟩
    split <;> exact ⟨rfl, rfl, rfl⟩
  case h_14 item below top =>
    cases taken
    unfold deliver
    split <;> exact ⟨rfl, rfl, rfl⟩
  all_goals
    cases taken
    try exact ⟨rfl, rfl, rfl⟩

theorem Step.posts {t : τ} {op : Op} (taken : Step io (t, op) next) (other : op.posts = false)
    : next.posts = io.posts := by
  unfold Step at taken
  cases op
  case post => cases other
  case advance => exact (advance_kept taken).1
  all_goals
    simp only [step, call, Option.ite_none_right_eq_some, Option.some.injEq] at taken
  case create =>
    obtain ⟨-, -, rfl⟩ := taken
    unfold ioBindingCreateLocked
    split
    · rfl
    split <;> rfl
  case fail =>
    obtain ⟨-, rfl⟩ := taken
    unfold ioCtxFail
    dsimp only
    split <;> rfl
  case close =>
    obtain ⟨-, -, rfl⟩ := taken
    rfl
  case put =>
    obtain ⟨-, -, rfl⟩ := taken
    rfl
  case setEnabled =>
    obtain ⟨-, -, rfl⟩ := taken
    rfl
  all_goals
    obtain ⟨-, rfl⟩ := taken
    rfl

/-- How the data items of a binding move in a step of thread `t` that makes at most `new` of
them.
-/
structure Flow (io : IoCtx τ) (t : τ) (next : IoCtx τ) (b new : Nat) : Prop where
  submits : stackCost (Frame.submits b) (next.calls t)
    ≤ stackCost (Frame.submits b) (io.calls t) + new
  queues : stackCost (Frame.submits b) (next.calls t) + next.waiting b
    ≤ stackCost (Frame.submits b) (io.calls t) + io.waiting b + new
  delivers : stackCost (Frame.submits b) (next.calls t) + next.waiting b
      + stackCost (Frame.delivers b) (next.calls t)
    ≤ stackCost (Frame.submits b) (io.calls t) + io.waiting b
      + stackCost (Frame.delivers b) (io.calls t) + new

theorem Effect.flow {t : τ} (effect : Effect io t next) (same : next.posts = io.posts) (b : Nat)
    : Flow io t next b 0 := by
  cases effect
  case posting => simp [IoCtx.goto] at same
  case closed other client holder owned =>
    -- the items of a closed binding go from the queue to the list of the close
    have kept := List.countP_eq_countP_filter_add io.work (·.isData b) (·.binding = other)
    constructor <;>
      simp [ioBindingCloseLocked, IoCtx.goto, IoCtx.record, IoCtx.waiting,
        Frame.submits, Frame.delivers] <;>
      omega
  all_goals
    constructor <;>
      simp [*, IoCtx.goto, IoCtx.record, IoCtx.setScope, dropReference, IoCtx.waiting,
        Frame.submits, Frame.delivers, List.countP_cons]
  all_goals omega

/-- The data items of a binding that an operation makes. -/
def Op.makes (b : Nat) : Op → Nat
  | .post other .data _ => if other = b then 1 else 0
  | _ => 0

theorem ioBindingPost_flow (io : IoCtx τ) (t : τ) (other : Nat) (kind : WorkKind)
    (allocated : Bool) (b : Nat)
    : Flow io t (ioBindingPost io t other kind allocated) b
        (Op.makes b (.post other kind allocated)) := by
  unfold ioBindingPost
  cases kind <;> cases allocated <;> constructor <;>
    simp [IoCtx.goto, IoCtx.record, IoCtx.waiting, Frame.submits, Frame.delivers, Op.makes,
      IoWork.isData] <;>
    omega

theorem Step.flow {t : τ} {op : Op} (taken : Step io (t, op) next) (b : Nat)
    : Flow io t next b (op.makes b) := by
  by_cases posts : op.posts
  · cases op with
    | post other kind allocated =>
      obtain ⟨-, called⟩ := Option.ite_none_right_eq_some.mp taken
      cases called
      exact ioBindingPost_flow io t other kind allocated b
    | _ => cases posts
  · rw [Bool.not_eq_true] at posts
    have flow := taken.effect.flow (taken.posts posts) b
    refine ⟨flow.submits.trans ?_, flow.queues.trans ?_, flow.delivers.trans ?_⟩ <;> omega

theorem Effect.opens {t : τ} (effect : Effect io t next) {b : Nat} (exists_ : b < io.created)
    (isOpen : (next.scopes b).isOpen)
    : (io.scopes b).isOpen := by
  cases effect
  all_goals
    try simp only [IoCtx.goto, IoCtx.record, IoCtx.setScope, ioBindingCloseLocked,
      dropReference] at isOpen
  all_goals grind

theorem Effect.created_le {t : τ} (effect : Effect io t next)
    : io.created ≤ next.created := by
  cases effect
  case created => exact Nat.le_succ _
  all_goals exact Nat.le_refl _

end Modvm.Io
