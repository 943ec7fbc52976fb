import Modvm.Virtio.Models

/-! What both transports share: assembling registers, and what configuring a queue or writing
the status through the core does.
-/

namespace Modvm.Virtio

open Modvm.Core Modvm.Lib

variable {D F : Type}

inductive AccessSize where
  | byte
  | word
  | dword
  | qword
deriving DecidableEq, Repr

def AccessSize.bytes : AccessSize → Nat
  | .byte => 1
  | .word => 2
  | .dword => 4
  | .qword => 8

/-- One write by the guest; `fuel` bounds how long a doorbell is served. -/
structure GuestWrite where
  offset : Nat
  size : AccessSize
  val : BitVec (8 * size.bytes)
  fuel : Nat

def assembleGpa (hi lo : BitVec 32) : Nat :=
  ((hi.setWidth 64 <<< 32) ||| lo.setWidth 64).toNat

def World.setTransport {T : Type} (w : World D F T) (transport : T) : World D F T :=
  { w with transport := transport }

def configRead {T : Type} (ops : VirtioDeviceOps D F T) (frontend : F) (offset size : Nat)
    : Nat :=
  match ops.readConfig with
  | some read => read frontend offset size
  | none => 0

def featureWord (features : BitVec 64) (selector : Nat) : Nat :=
  if selector = 0 then features.toNat % 2 ^ 32
  else if selector = 1 then features.toNat / 2 ^ 32
  else 0

/-- The rings of a queue are mapped at the given guest addresses. -/
def Virtqueue.RingsAt (vq : Virtqueue) (descGpa availGpa usedGpa : Nat) : Prop :=
  vq.descTable.map Hva.gpa = some descGpa
  ∧ vq.availRing.map Hva.gpa = some availGpa
  ∧ vq.usedRing.map Hva.gpa = some usedGpa

theorem virtqueueSetSize_ok {vq after : Virtqueue} {size : Nat}
    (set : virtqueueSetSize vq size = .ok after)
    : vq.enabled = false
      ∧ after = { vq with queueSize := size }
      ∧ 0 < size
      ∧ notPowerOfTwo size = false
      ∧ size ≤ vq.maxSize := by
  unfold virtqueueSetSize at set
  split at set
  · cases set
  · rename_i valid
    simp only [Bool.or_eq_true, not_or, beq_iff_eq, decide_eq_true_eq, Bool.not_eq_true]
      at valid
    obtain ⟨⟨⟨off, nonzero⟩, power⟩, bound⟩ := valid
    exact ⟨off, (Except.ok.inj set).symm, Nat.pos_of_ne_zero nonzero, power, by omega⟩

section

variable {ram : RamMap} {vq after : Virtqueue} {descGpa availGpa usedGpa : Nat}
  (set : virtqueueSetAddrs ram vq descGpa availGpa usedGpa = .ok after)
include set

theorem virtqueueSetAddrs_ok
    : after.enabled = true
      ∧ after.queueSize = vq.queueSize
      ∧ after.maxSize = vq.maxSize
      ∧ after.broken = vq.broken
      ∧ after.RingsAt descGpa availGpa usedGpa := by
  unfold virtqueueSetAddrs at set
  split at set
  · cases set
  · dsimp only at set
    split at set
    · rename_i desc avail used descMapped availMapped usedMapped
      obtain rfl := Except.ok.inj set
      have at_gpa : ∀ {gpa len : Nat} {write : Bool} {hva : Hva},
          memMapRange ram.space gpa len write = some hva → hva.gpa = gpa :=
        fun mapped => (memMapChunk_sound (memMapRange_sound mapped)).2.1
      simp only [Virtqueue.RingsAt, Option.map_some, at_gpa descMapped, at_gpa availMapped,
        at_gpa usedMapped, and_self]
    · cases set

theorem virtqueueSetAddrs_indices
    : after.lastAvailIdx = vq.lastAvailIdx ∧ after.lastUsedIdx = vq.lastUsedIdx := by
  unfold virtqueueSetAddrs at set
  split at set
  · cases set
  · dsimp only at set
    split at set
    · obtain rfl := Except.ok.inj set
      exact ⟨rfl, rfl⟩
    · cases set

end

theorem virtioDeviceSetStatus_queues {T : Type} (ops : VirtioDeviceOps D F T)
    {status : BitVec 8} (nonzero : status ≠ 0) (w : World D F T)
    : (virtioDeviceSetStatus ops status w).vdev.vqs = w.vdev.vqs
      ∧ (virtioDeviceSetStatus ops status w).vdev.nrVqs = w.vdev.nrVqs
      ∧ (virtioDeviceSetStatus ops status w).transport = w.transport := by
  rw [virtioDeviceSetStatus_nonzero ops nonzero]
  exact ⟨rfl, rfl, rfl⟩

theorem resetDevice_disabled (vdev : VirtioDevice) {q : Nat} (inside : q < vdev.nrVqs)
    : ((resetDevice vdev).vqs q).enabled = false := by
  simp [resetDevice, inside, virtqueueReset]

theorem virtioDeviceSetStatus_transport {T : Type} (ops : VirtioDeviceOps D F T)
    (status : BitVec 8) (w : World D F T)
    : (virtioDeviceSetStatus ops status w).transport = w.transport := by
  unfold virtioDeviceSetStatus
  split
  · split <;> rfl
  · rfl

theorem virtioDeviceSetFeatures_transport {T : Type} (selector : Nat) (value : BitVec 32)
    (w : World D F T)
    : (virtioDeviceSetFeatures selector value w).transport = w.transport := by
  unfold virtioDeviceSetFeatures
  split <;> rfl

end Modvm.Virtio
