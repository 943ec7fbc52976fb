import Modvm.Virtio.Confinement
import Modvm.Virtio.Frame
import Modvm.Virtio.Mmio

/-! Agreement between the MMIO transport and the device core about which queues are ready. -/

namespace Modvm.Virtio

open Modvm.Core Modvm.Lib

variable {D F : Type}

/-- Ready means enabled, and then size and ring addresses are those of the registers. -/
structure VirtioMmioQueue.Agrees (regs : VirtioMmioQueue) (vq : Virtqueue) : Prop where
  enabled : regs.ready = true ↔ vq.enabled = true
  setup : regs.ready = true
    → vq.queueSize = regs.num.toNat
      ∧ vq.RingsAt (assembleGpa regs.descHi regs.descLo)
        (assembleGpa regs.availHi regs.availLo) (assembleGpa regs.usedHi regs.usedLo)

def MmioAgrees (w : World D F VirtioMmioCtx) : Prop :=
  ∀ q < w.vdev.nrVqs, (w.transport.queues q).Agrees (w.queue q)

/-- One 32-bit write by the guest; `fuel` bounds how long a doorbell is served. -/
structure MmioWrite where
  offset : Nat
  val : BitVec 32
  fuel : Nat

def MmioStep (ops : VirtioDeviceOps D F VirtioMmioCtx) (ram : RamMap) (env : Env D)
    : World D F VirtioMmioCtx → MmioWrite → World D F VirtioMmioCtx → Prop :=
  Performs fun w write =>
    virtioMmioWrite ops ram env write.fuel write.offset write.val.toNat 4 w

/-- No status write is zero for the core only while a queue is ready. -/
def ResetsBothSides (w : World D F VirtioMmioCtx) (write : MmioWrite) : Prop :=
  write.offset = 0x070 → write.val ≠ 0 → write.val.toNat % 2 ^ 8 = 0
    → ∀ q < w.vdev.nrVqs, (w.transport.queues q).ready = false

theorem VirtioMmioQueue.Agrees.off {regs : VirtioMmioQueue} {vq : Virtqueue}
    (notReady : regs.ready = false) (disabled : vq.enabled = false)
    : regs.Agrees vq :=
  ⟨by simp [notReady, disabled], by simp [notReady]⟩

theorem VirtioMmioQueue.Agrees.congr {regs : VirtioMmioQueue} {before after : Virtqueue}
    (same : before.SameSetup after) (agrees : regs.Agrees before)
    : regs.Agrees after := by
  refine ⟨same.enabled ▸ agrees.enabled, ?_⟩
  intro ready
  obtain ⟨size, rings⟩ := agrees.setup ready
  refine ⟨same.queueSize.trans size, ?_⟩
  unfold Virtqueue.RingsAt at *
  rwa [same.descTable, same.availRing, same.usedRing]

theorem Notified.mmioQueues {before after : VirtioMmioCtx} (notified : Notified before after)
    : after.queues = before.queues := by
  induction notified with
  | refl => rfl
  | tail _ step ih =>
    rcases step with rfl | rfl
    · exact ih
    · exact ih

variable {w : World D F VirtioMmioCtx}

theorem MmioAgrees.undisturbed {next : World D F VirtioMmioCtx} (frame : Undisturbed w next)
    (agrees : MmioAgrees w)
    : MmioAgrees next := by
  intro q inside
  rw [frame.transport.mmioQueues]
  exact (agrees q (frame.count ▸ inside)).congr (frame.setup q)

theorem MmioAgrees.setQueueReg {update : VirtioMmioQueue → VirtioMmioQueue}
    (keepsReady : ∀ regs, (update regs).ready = regs.ready) (agrees : MmioAgrees w)
    : MmioAgrees (mmioSetQueueReg update w) := by
  unfold mmioSetQueueReg
  dsimp only
  split
  · rename_i guard
    obtain ⟨-, notReady⟩ := guard
    intro p inside
    by_cases here : p = w.transport.queueSel.toNat
    · subst here
      have off : (w.queue w.transport.queueSel.toNat).enabled = false := by
        have same := (agrees _ inside).enabled
        simpa [notReady] using same
      simp only [World.setTransport, Function.update_self]
      exact .off (by rw [keepsReady, notReady]) off
    · simp only [World.setTransport, Function.update_of_ne here]
      exact agrees p inside
  · exact agrees

theorem MmioAgrees.setBoth {q : Nat} {vq : Virtqueue} {ready : Bool}
    (here : { w.transport.queues q with ready := ready }.Agrees vq) (agrees : MmioAgrees w)
    : MmioAgrees (mmioSetReady q ready (w.setQueue q vq)) := by
  intro p inside
  by_cases same : p = q
  · subst same
    simpa [mmioSetReady, World.setTransport, World.setQueue, World.queue] using here
  · have other := agrees p inside
    simpa [mmioSetReady, World.setTransport, World.setQueue, World.queue, same] using other

theorem MmioAgrees.setDisabled {q : Nat} {vq : Virtqueue} (before : (w.queue q).enabled = false)
    (after : vq.enabled = false) (agrees : MmioAgrees w)
    : MmioAgrees (w.setQueue q vq) := by
  intro p inside
  by_cases same : p = q
  · subst same
    rw [World.queue_setQueue_self]
    have still := (agrees p inside).enabled
    exact .off (by simpa [before] using still) after
  · rw [World.queue_setQueue_other w vq same]
    exact agrees p inside

theorem MmioAgrees.enableQueue {ram : RamMap} {q : Nat} (agrees : MmioAgrees w)
    : MmioAgrees (mmioEnableQueue ram q w) := by
  unfold mmioEnableQueue
  dsimp only
  split
  · exact agrees
  · split
    · exact agrees
    · rename_i sized setSize
      obtain ⟨off, rfl, -⟩ := virtqueueSetSize_ok setSize
      have between : MmioAgrees
          (w.setQueue q { w.queue q with queueSize := (w.transport.queues q).num.toNat }) :=
        agrees.setDisabled off off
      split
      · exact between
      · rename_i enabled setAddrs
        obtain ⟨on, size, -, -, rings⟩ := virtqueueSetAddrs_ok setAddrs
        refine between.setBoth ⟨?_, ?_⟩
        · simp [on]
        · intro _
          exact ⟨size, rings⟩

theorem MmioAgrees.queueReady {ram : RamMap} {val : Nat} (agrees : MmioAgrees w)
    : MmioAgrees (mmioQueueReady ram val w) := by
  unfold mmioQueueReady
  dsimp only
  split
  · exact agrees.setBoth (.off rfl rfl)
  · split
    · exact agrees.enableQueue
    · exact agrees

theorem mmioStatus_agrees_iff (ops : VirtioDeviceOps D F VirtioMmioCtx) (ram : RamMap) (env : Env D)
    (fuel : Nat) (val : BitVec 32) (agrees : MmioAgrees w)
    : MmioAgrees (virtioMmioWriteReg ops ram env fuel .status val.toNat w)
      ↔ (val ≠ 0 → val.toNat % 2 ^ 8 = 0
        → ∀ q < w.vdev.nrVqs, (w.transport.queues q).ready = false) := by
  simp only [virtioMmioWriteReg]
  by_cases zero : val = 0
  · -- Both sides start over.
    subst zero
    refine ⟨fun _ nonzero => absurd rfl nonzero, fun _ => ?_⟩
    have core := virtioDeviceSetStatus_zero ops w
    have both : MmioAgrees ((virtioDeviceSetStatus ops 0 w).setTransport .zero) := by
      intro q inside
      simp only [World.setTransport, core] at inside ⊢
      exact .off rfl (resetDevice_disabled w.vdev inside)
    exact both
  · have kept : val.toNat ≠ 0 := by
      intro nothing
      exact zero (BitVec.eq_of_toNat_eq nothing)
    rw [if_neg kept]
    by_cases low : val.toNat % 2 ^ 8 = 0
    · -- Only the core starts over, so no register may claim a ready queue.
      have narrowed : BitVec.ofNat 8 val.toNat = 0 := BitVec.eq_of_toNat_eq (by simpa using low)
      have core := virtioDeviceSetStatus_zero ops w
      have transport := virtioDeviceSetStatus_transport ops 0 w
      have count : (resetDevice w.vdev).nrVqs = w.vdev.nrVqs := rfl
      rw [narrowed]
      simp only [MmioAgrees, World.queue, core, transport]
      constructor
      · intro after _ _ q inside
        have same := (after q inside).enabled
        simpa [resetDevice_disabled w.vdev inside] using same
      · intro notReady q inside
        exact .off (notReady zero low q inside) (resetDevice_disabled w.vdev inside)
    · have nonzero : BitVec.ofNat 8 val.toNat ≠ 0 := by
        intro narrowed
        have value := congrArg BitVec.toNat narrowed
        exact low (by simpa using value)
      obtain ⟨queues, count, transport⟩ := virtioDeviceSetStatus_queues ops nonzero w
      refine ⟨fun _ _ zeroLow => absurd zeroLow low, fun _ => ?_⟩
      intro q inside
      simp only [World.queue, queues, transport]
      exact agrees q (count ▸ inside)

section

variable {ops : VirtioDeviceOps D F VirtioMmioCtx} {keeps : F → F → Prop}
  (served : Served ops keeps) (ram : RamMap) (env : Env D)
include served

theorem MmioAgrees.writeReg (fuel : Nat) {reg : MmioReg} (other : reg ≠ .status) (val : Nat)
    (agrees : MmioAgrees w)
    : MmioAgrees (virtioMmioWriteReg ops ram env fuel reg val w) := by
  cases reg with
  | status => exact absurd rfl other
  | driverFeatures =>
    have same : (virtioMmioWriteReg ops ram env fuel .driverFeatures val w).vdev.vqs
          = w.vdev.vqs
        ∧ (virtioMmioWriteReg ops ram env fuel .driverFeatures val w).vdev.nrVqs
          = w.vdev.nrVqs
        ∧ (virtioMmioWriteReg ops ram env fuel .driverFeatures val w).transport
          = w.transport := by
      simp only [virtioMmioWriteReg, virtioDeviceSetFeatures]
      split <;> exact ⟨rfl, rfl, rfl⟩
    intro q inside
    simp only [World.queue, same.1, same.2.2]
    exact agrees q (same.2.1 ▸ inside)
  | queueNotify =>
    simp only [virtioMmioWriteReg]
    split
    · exact agrees.undisturbed (served.notify ram env fuel val w).undisturbed
    · exact agrees
  | queueReady => exact agrees.queueReady
  | queueNum => exact agrees.setQueueReg fun _ => rfl
  | queueDescLow => exact agrees.setQueueReg fun _ => rfl
  | queueDescHigh => exact agrees.setQueueReg fun _ => rfl
  | queueAvailLow => exact agrees.setQueueReg fun _ => rfl
  | queueAvailHigh => exact agrees.setQueueReg fun _ => rfl
  | queueUsedLow => exact agrees.setQueueReg fun _ => rfl
  | queueUsedHigh => exact agrees.setQueueReg fun _ => rfl
  | _ => exact agrees

theorem mmioWrite_agrees_iff (write : MmioWrite) (agrees : MmioAgrees w)
    : MmioAgrees (virtioMmioWrite ops ram env write.fuel write.offset write.val.toNat 4 w)
      ↔ ResetsBothSides w write := by
  have elsewhere : write.offset ≠ 0x070 → ResetsBothSides w write :=
    fun other status => absurd status other
  unfold virtioMmioWrite
  by_cases config : write.offset ≥ virtioMmioConfig
  · have other : write.offset ≠ 0x070 := by
      unfold virtioMmioConfig at config
      omega
    rw [if_pos config, served.noWriteConfig]
    exact ⟨fun _ => elsewhere other, fun _ => agrees⟩
  · rw [if_neg config]
    by_cases aligned : write.offset % 4 = 0
    · rw [if_neg (by simp [aligned])]
      by_cases status : write.offset = 0x070
      · rw [show MmioReg.ofOffset write.offset = some .status by rw [status]; rfl]
        refine (mmioStatus_agrees_iff ops ram env write.fuel write.val agrees).trans ?_
        exact ⟨fun both _ => both, fun both => both status⟩
      · refine ⟨fun _ => elsewhere status, fun _ => ?_⟩
        split
        · rename_i reg decoded
          refine agrees.writeReg served ram env write.fuel ?_ _
          rintro rfl
          exact status (MmioReg.ofOffset_status decoded)
        · exact agrees
    · have other : write.offset ≠ 0x070 := by
        rintro same
        exact aligned (by rw [same])
      rw [if_pos (by simp [aligned])]
      exact ⟨fun _ => elsewhere other, fun _ => agrees⟩

end

/-- Over any sequence of 32-bit writes, under any guest, transport and core agree in every state
exactly if no status write is zero in its low byte only while a queue is ready.
-/
theorem mmio_agrees_iff (ops : VirtioDeviceOps D F VirtioMmioCtx) (vdev : VirtioDevice)
    (frontend : F) (realized : Realized ops vdev frontend) (ram : RamMap) (env : Env D)
    (guest : Guest D) (writes : List MmioWrite)
    : StatesHave (MmioStep ops ram env) MmioAgrees (virtioMmioRealize guest vdev frontend) writes
      ↔ StepsMeet (MmioStep ops ram env) ResetsBothSides
          (virtioMmioRealize guest vdev frontend) writes := by
  obtain ⟨keeps, served⟩ := realized.served
  have initial : MmioAgrees (virtioMmioRealize guest vdev frontend) := by
    intro q inside
    obtain ⟨size, -, created⟩ := realized.fresh.created q inside
    exact .off rfl (virtqueueCreate_off created).1
  refine @statesHave_iff_stepsMeet _ _ _ (fun _ => True) _ _ _ trivial initial ?_ ?_ writes
  · intros
    trivial
  · rintro w write _ - agrees rfl
    exact mmioWrite_agrees_iff served ram env write agrees

def mmioSetup : List MmioWrite :=
  [⟨0x038, 4, 0⟩, ⟨0x080, 0x1000, 0⟩, ⟨0x090, 0x2000, 0⟩, ⟨0x0a0, 0x3000, 0⟩, ⟨0x044, 1, 0⟩]

def mmioDemo (writes : List MmioWrite) : World Unit (VirtioBlkCtx Unit) VirtioMmioCtx :=
  writes.foldl
    (fun w write => virtioMmioWrite (virtioBlkOps nullDisk) demoRam stillGuest write.fuel
      write.offset write.val.toNat 4 w)
    (virtioMmioRealize ⟨fun _ => 0, ()⟩ nullDiskDevice nullDiskCtx)

theorem mmioDemo_run (writes : List MmioWrite)
    : Run (MmioStep (virtioBlkOps nullDisk) demoRam stillGuest)
        (virtioMmioRealize ⟨fun _ => 0, ()⟩ nullDiskDevice nullDiskCtx) writes
        (mmioDemo writes) :=
  Run.foldl _ _ writes

/-- A status write of 0x100 resets the core only: queue 0 still reads as ready. -/
theorem mmio_disagrees_after_wide_reset
    : ¬ StatesHave (MmioStep (virtioBlkOps nullDisk) demoRam stillGuest) MmioAgrees
        (virtioMmioRealize ⟨fun _ => 0, ()⟩ nullDiskDevice nullDiskCtx)
        (mmioSetup ++ [⟨0x070, 0x100, 0⟩]) := by
  intro states
  have agrees := states _ _ (List.prefix_refl _) (mmioDemo_run _) 0 (by decide +kernel)
  have ready : ((mmioDemo (mmioSetup ++ [⟨0x070, 0x100, 0⟩])).transport.queues 0).ready = true := by
    decide +kernel
  have disabled : ((mmioDemo (mmioSetup ++ [⟨0x070, 0x100, 0⟩])).queue 0).enabled = false := by
    decide +kernel
  rw [agrees.enabled.mp ready] at disabled
  cases disabled

/-- Without the wide write, the condition holds throughout the setup and so does the
agreement.
-/
theorem mmio_agrees_through_setup
    : StatesHave (MmioStep (virtioBlkOps nullDisk) demoRam stillGuest) MmioAgrees
        (virtioMmioRealize ⟨fun _ => 0, ()⟩ nullDiskDevice nullDiskCtx) mmioSetup := by
  refine (mmio_agrees_iff _ _ _ nullDisk_realized demoRam stillGuest _ mmioSetup).mpr ?_
  intro done write w next within run step status
  have listed : write ∈ mmioSetup :=
    within.subset (List.mem_append_right done List.mem_cons_self)
  have never : ∀ write ∈ mmioSetup, write.offset ≠ 0x070 := by decide
  exact absurd status (never write listed)

end Modvm.Virtio
