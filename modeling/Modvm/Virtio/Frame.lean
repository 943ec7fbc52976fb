import Modvm.Virtio.Session

/-! What handlers leave alone: the setup of every queue, the negotiated state of the device, and
all of the transport but its interrupts.
-/

namespace Modvm.Virtio

open Modvm.Core Modvm.Lib

variable {D F T : Type}

/-- Two queues with the same configuration. -/
structure Virtqueue.SameSetup (before after : Virtqueue) : Prop where
  queueSize : after.queueSize = before.queueSize
  maxSize : after.maxSize = before.maxSize
  enabled : after.enabled = before.enabled
  descTable : after.descTable = before.descTable
  availRing : after.availRing = before.availRing
  usedRing : after.usedRing = before.usedRing

theorem Virtqueue.SameSetup.refl (vq : Virtqueue)
    : vq.SameSetup vq :=
  ⟨rfl, rfl, rfl, rfl, rfl, rfl⟩

theorem Virtqueue.SameSetup.trans {first second third : Virtqueue}
    (before : first.SameSetup second) (after : second.SameSetup third)
    : first.SameSetup third :=
  ⟨after.queueSize.trans before.queueSize, after.maxSize.trans before.maxSize,
    after.enabled.trans before.enabled, after.descTable.trans before.descTable,
    after.availRing.trans before.availRing, after.usedRing.trans before.usedRing⟩

abbrev Notified [VirtioTransport T] : T → T → Prop :=
  Relation.ReflTransGen fun before after =>
    after = VirtioTransport.notifyQueue before ∨ after = VirtioTransport.notifyConfig before

/-- The world changed at most in ways that handlers may change it. -/
structure Undisturbed [VirtioTransport T] (w next : World D F T) : Prop where
  setup : ∀ q, (w.queue q).SameSetup (next.queue q)
  count : next.vdev.nrVqs = w.vdev.nrVqs
  state : next.vdev.state = w.vdev.state
  features : next.vdev.driverFeatures = w.vdev.driverFeatures
  deviceId : next.vdev.deviceId = w.vdev.deviceId
  transport : Notified w.transport next.transport

section
variable [VirtioTransport T]

theorem Undisturbed.refl (w : World D F T)
    : Undisturbed w w :=
  ⟨fun q => .refl (w.queue q), rfl, rfl, rfl, rfl, .refl⟩

theorem Undisturbed.trans {first second third : World D F T}
    (before : Undisturbed first second) (after : Undisturbed second third)
    : Undisturbed first third :=
  ⟨fun q => (before.setup q).trans (after.setup q), after.count.trans before.count,
    after.state.trans before.state, after.features.trans before.features,
    after.deviceId.trans before.deviceId, before.transport.trans after.transport⟩

variable {w next : World D F T} {keeps : F → F → Prop}

theorem Undisturbed.setQueue {q : Nat} {vq : Virtqueue} (same : (w.queue q).SameSetup vq)
    : Undisturbed w (w.setQueue q vq) := by
  refine ⟨?_, rfl, rfl, rfl, rfl, .refl⟩
  intro p
  by_cases here : p = q
  · subst here
    rwa [World.queue_setQueue_self]
  · rw [World.queue_setQueue_other w vq here]
    exact .refl _

theorem Fetches.undisturbed {env : Env D} {q : Nat} (fetched : Fetches env q w next)
    : Undisturbed w next := by
  obtain ⟨same, -, transport⟩ := fetched.frame
  obtain ⟨state, -, features, deviceId, count⟩ := same.rest
  refine ⟨?_, count, state, features, deviceId, transport ▸ .refl⟩
  intro p
  obtain ⟨bufs, queue⟩ := same.queue p
  unfold World.queue
  rw [queue]
  exact ⟨rfl, rfl, rfl, rfl, rfl, rfl⟩

theorem Transfers.undisturbed {env : Env D} {q : Nat} {allowed : Activity → Prop}
    (steps : Transfers env q allowed keeps w next)
    : Undisturbed w next := by
  obtain ⟨vdev, transport⟩ := steps.frame
  refine ⟨?_, by rw [vdev], by rw [vdev], by rw [vdev], by rw [vdev], transport ▸ .refl⟩
  intro p
  simp only [World.queue, vdev]
  exact .refl _

theorem virtqueuePop_undisturbed (ram : RamMap) (env : Env D) (q : Nat) (w : World D F T)
    : Undisturbed w (virtqueuePop ram env q w).2 := by
  have outcome := virtqueuePop_outcome ram env q w
  generalize virtqueuePop ram env q w = result at outcome
  cases outcome with
  | disabled => exact .refl w
  | stuck => exact .refl w
  | empty live fetched => exact fetched.undisturbed
  | fails error live fetched =>
    exact fetched.undisturbed.trans (.setQueue ⟨rfl, rfl, rfl, rfl, rfl, rfl⟩)
  | chain live fetched =>
    exact fetched.undisturbed.trans (.setQueue ⟨rfl, rfl, rfl, rfl, rfl, rfl⟩)

theorem virtqueuePush_undisturbed (env : Env D) (q descIdx len : Nat) (w : World D F T)
    : Undisturbed w (virtqueuePush env q descIdx len w) := by
  unfold virtqueuePush
  dsimp only
  split
  · exact .refl w
  · -- Stores and the log do not concern the setup, so only the index is left to compare.
    have advanced : Undisturbed w (w.advanceUsed q) :=
      .setQueue ⟨rfl, rfl, rfl, rfl, rfl, rfl⟩
    exact ⟨advanced.setup, rfl, rfl, rfl, rfl, .refl⟩

theorem virtioDeviceFail_undisturbed (w : World D F T)
    : Undisturbed w (virtioDeviceFail w) := by
  unfold virtioDeviceFail
  dsimp only
  split
  · exact ⟨fun q => .refl (w.queue q), rfl, rfl, rfl, rfl, .single (.inr rfl)⟩
  · exact ⟨fun q => .refl (w.queue q), rfl, rfl, rfl, rfl, .refl⟩

variable {ram : RamMap} {q : Nat} {env : Env D}

theorem SessionStep.undisturbed (step : SessionStep ram env q keeps w next)
    : Undisturbed w next := by
  have pop := virtqueuePop_undisturbed ram env q w
  cases step with
  | quiet ready popped => rwa [popped] at pop
  | breaks ready popped =>
    rw [popped] at pop
    exact pop.trans (virtioDeviceFail_undisturbed _)
  | serves len ready popped transfers =>
    rw [popped] at pop
    exact (pop.trans transfers.undisturbed).trans (virtqueuePush_undisturbed ..)
  | drops ready popped unanswerable transfers =>
    rw [popped] at pop
    exact (pop.trans transfers.undisturbed).trans (virtioDeviceFail_undisturbed _)
  | notify =>
    exact ⟨fun q => .refl (w.queue q), rfl, rfl, rfl, rfl, .single (.inl rfl)⟩

/-- Service of a queue leaves the setup of every queue as it was. -/
theorem Session.undisturbed (session : Session ram env q keeps w next) : Undisturbed w next := by
  induction session with
  | refl => exact .refl w
  | tail _ step ih => exact ih.trans step.undisturbed

/-- The front end changes only as its steps allow. -/
theorem Session.frontend (refl : ∀ frontend, keeps frontend frontend)
    (trans : ∀ first second third, keeps first second → keeps second third → keeps first third)
    (session : Session ram env q keeps w next)
    : keeps w.frontend next.frontend := by
  induction session with
  | refl => exact refl _
  | @tail middle _ _ step ih =>
    refine trans _ _ _ ih ?_
    have pop := (virtqueuePop_protocol ram env q middle).2.2.1
    cases step with
    | quiet ready popped =>
      rw [popped] at pop
      exact pop ▸ refl _
    | breaks ready popped =>
      rw [popped] at pop
      rw [(virtioDeviceFail_rest _).2.1, pop]
      exact refl _
    | serves len ready popped transfers =>
      rw [popped] at pop
      rw [(virtqueuePush_protocol ..).2.2.1, ← pop]
      exact transfers.frontend refl trans
    | drops ready popped unanswerable transfers =>
      rw [popped] at pop
      rw [(virtioDeviceFail_rest _).2.1, ← pop]
      exact transfers.frontend refl trans
    | notify => exact refl _

end

end Modvm.Virtio
