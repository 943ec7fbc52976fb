import Modvm.Backend.Receive
import Modvm.Io.Flow

/-! One token per binding: all the places where a delivery, or the right to make one, can be. -/

namespace Modvm.Backend

open Function Modvm.Host Modvm.Lib
open Modvm.Io hiding Event Step

variable {ρ τ : Type}

/-- The data posts that a callback has yet to make. -/
def scripted (b : Nat) (script : List Op) : Nat := (script.map (Op.makes b)).sum

def owed (b : Nat) (phase : Phase) (stack : List Frame) : Nat :=
  stackCost (Frame.delivers b) (if phase = .finished then stack.tail else stack)

/-- The token of a binding, as thread `t` sees it. -/
def World.tokens (svc : τ) (w : World ρ τ) (b : Nat) (t : τ) : Nat :=
  (w.service.sources 0).events.read.toNat + scripted b w.service.pc.script
    + stackCost (Frame.submits b) (w.io.calls svc) + w.io.waiting b
    + owed b (w.phase t) (w.io.calls t)

theorem owed_le (b : Nat) (phase : Phase) (stack : List Frame)
    : owed b phase stack ≤ stackCost (Frame.delivers b) stack := by
  unfold owed
  split
  · cases stack with
    | nil => exact Nat.le_refl _
    | cons =>
      exact Nat.le_add_left _ _
  · exact Nat.le_refl _

theorem owed_of_ne {phase : Phase} (early : phase ≠ .finished) (b : Nat) (stack : List Frame)
    : owed b phase stack = stackCost (Frame.delivers b) stack := by
  rw [owed, if_neg early]

/-- The backend's bindings: only the current one can be open, only the service thread posts data to
it, and a delivery past its callback is innermost, with the binding open when `consumed` is called.
-/
structure Placed (svc : τ) (io : IoCtx τ) (binding : Option Nat) (bound : List Nat)
    (phase : τ → Phase) : Prop where
  exclusive : Exclusive io
  created : ∀ b ∈ bound, b < io.created
  current : ∀ b ∈ bound, (io.scopes b).isOpen → binding = some b
  member : ∀ b, binding = some b → b ∈ bound
  fresh : ∀ b, io.created ≤ b → io.waiting b = 0
    ∧ ∀ t, stackCost (Frame.submits b) (io.calls t) = 0
      ∧ stackCost (Frame.delivers b) (io.calls t) = 0
  silent : ∀ b, binding = some b → ∀ t, t ≠ svc → stackCost (Frame.submits b) (io.calls t) = 0
  innermost : ∀ t, phase t ≠ .receiving → ∃ item below, io.calls t = .run item :: below
    ∧ item.kind = .data ∧ item.binding ∈ bound
  consuming : ∀ t item below, phase t = .consuming → io.calls t = .run item :: below
    → (io.scopes item.binding).isOpen

/-- What may be posted: data to the current binding by the service thread, anything to existing
ones.
-/
def Postable (svc : τ) (io : IoCtx τ) (bound : List Nat) (t : τ) (op : Op) : Prop :=
  ∀ b kind allocated, op = .post b kind allocated →
    b < io.created ∧ (kind = .data → t ≠ svc → b ∉ bound)

theorem Postable.makes_eq_zero {svc t : τ} {io : IoCtx τ} {bound : List Nat} {op : Op} {b : Nat}
    (postable : Postable svc io bound t op) (foreign : io.created ≤ b ∨ t ≠ svc ∧ b ∈ bound)
    : op.makes b = 0 := by
  unfold Op.makes
  split
  next other allocated =>
    obtain ⟨exists_, apart⟩ := postable other .data allocated rfl
    refine if_neg ?_
    rintro rfl
    rcases foreign with beyond | ⟨different, member⟩
    · exact Nat.not_le_of_lt exists_ beyond
    · exact apart rfl different member
  · rfl

section Step
variable [DecidableEq τ] {svc t : τ} {io next : IoCtx τ} {binding : Option Nat} {bound : List Nat}
  {phase : τ → Phase} {op : Op}

section

variable (placed : Placed svc io binding bound phase) (moves : Io.Step io (t, op) next)
  (postable : Postable svc io bound t op)
include placed moves postable

theorem Placed.step
    : Placed svc next binding bound (update phase t .receiving) := by
  have effect := moves.effect
  have others : ∀ u, u ≠ t → next.calls u = io.calls u := fun u different =>
    effect.calls_of_ne different
  refine ⟨effect.exclusive placed.exclusive,
    fun b member => Nat.lt_of_lt_of_le (placed.created b member) effect.created_le,
    fun b member isOpen => placed.current b member (effect.opens (placed.created b member) isOpen),
    placed.member, ?_, ?_, ?_, ?_⟩
  · -- nothing is posted to a binding that does not exist
    intro b beyond
    have before : io.created ≤ b := Nat.le_trans effect.created_le beyond
    obtain ⟨unqueued, unheld⟩ := placed.fresh b before
    have none := postable.makes_eq_zero (.inl before)
    have flow := (moves.flow b).delivers
    rw [(unheld t).1, (unheld t).2] at flow
    refine ⟨by omega, fun u => ?_⟩
    by_cases here : u = t
    · subst here
      exact ⟨by omega, by omega⟩
    · rw [others u here]
      exact unheld u
  · intro b current u different
    by_cases here : u = t
    · subst here
      have none := postable.makes_eq_zero (.inr ⟨different, placed.member b current⟩)
      have flow := (moves.flow b).submits
      rw [none, placed.silent b current u different] at flow
      exact Nat.le_zero.mp flow
    · rw [others u here]
      exact placed.silent b current u different
  · intro u late
    by_cases here : u = t
    · subst here
      exact absurd (update_self ..) late
    · rw [update_of_ne here] at late
      rw [others u here]
      exact placed.innermost u late
  · intro u item below late top
    by_cases here : u = t
    · subst here
      rw [update_self] at late
      cases late
    · rw [update_of_ne here] at late
      rw [others u here] at top
      -- the thread that delivers has the device lock, so nobody else closes the binding
      have holds := placed.exclusive.holder u (.run item) (by simp [top]) rfl
      have without : io.deviceLock ≠ some t := by
        rw [holds]
        exact fun same => here (Option.some.inj same)
      rw [(effect.scopes_of_not_holder without item.binding).1]
      exact placed.consuming u item below late top

theorem Placed.flow {b : Nat} (current : binding = some b) (client : phase t = .receiving) (u : τ)
    : stackCost (Frame.submits b) (next.calls svc) + next.waiting b
        + owed b (phase u) (next.calls u)
      ≤ stackCost (Frame.submits b) (io.calls svc) + io.waiting b
        + owed b (phase u) (io.calls u) + op.makes b := by
  have others : ∀ u, u ≠ t → next.calls u = io.calls u := fun u different =>
    moves.effect.calls_of_ne different
  obtain ⟨submits, queues, delivers⟩ := moves.flow b
  have early : phase t ≠ .finished := by rw [client]; nofun
  by_cases mine : t = svc
  · subst mine
    by_cases here : u = t
    · subst here
      rw [owed_of_ne early, owed_of_ne early]
      omega
    · rw [others u here]
      omega
  · have unposted := placed.silent b current t mine
    rw [others svc (Ne.symm mine)]
    by_cases here : u = t
    · subst here
      rw [owed_of_ne early, owed_of_ne early]
      omega
    · rw [others u here]
      omega

end

end Step

end Modvm.Backend
