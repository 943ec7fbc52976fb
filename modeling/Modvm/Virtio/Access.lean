import Modvm.Virtio.Frame
import Modvm.Virtio.Mmio
import Modvm.Virtio.Pci

/-! What a guest access through either transport, or a received frame, can do to the device core. -/

namespace Modvm.Virtio

open Modvm.Core Modvm.Lib Modvm.Hw Relation

variable {D F T : Type}

/-- The backend delivers a frame; a device without a receive callback is never bound. -/
def receiveFrame (ops : VirtioDeviceOps D F T) (ram : RamMap) (env : Env D) (buf : List Byte)
    (w : World D F T)
    : World D F T :=
  match ops.rxCb with
  | some rxCb => rxCb ram env buf w
  | none => w

/-- One step of the core that is not a reset, within what `keeps` and `wires` permit. -/
inductive CoreStep [VirtioTransport T] (ops : VirtioDeviceOps D F T) (ram : RamMap)
    (env : Env D) (keeps : F → F → Prop) (wires : T → T → Prop) (w : World D F T)
    : World D F T → Prop
  | session {q : Nat} {next : World D F T} (session : Session ram env q keeps w next)
    : CoreStep ops ram env keeps wires w next
  | status {byte : BitVec 8} (nonzero : byte ≠ 0)
    : CoreStep ops ram env keeps wires w (virtioDeviceSetStatus ops byte w)
  | features (selector : Nat) (value : BitVec 32)
    : CoreStep ops ram env keeps wires w (virtioDeviceSetFeatures selector value w)
  | resize {q size : Nat} {vq : Virtqueue} (set : virtqueueSetSize (w.queue q) size = .ok vq)
    : CoreStep ops ram env keeps wires w (w.setQueue q vq)
  | enable {q descGpa availGpa usedGpa : Nat} {vq : Virtqueue}
    (set : virtqueueSetAddrs ram (w.queue q) descGpa availGpa usedGpa = .ok vq)
    : CoreStep ops ram env keeps wires w (w.setQueue q vq)
  | disable (q : Nat)
    : CoreStep ops ram env keeps wires w (w.setQueue q (virtqueueDisable (w.queue q)))
  | registers {transport : T} (wired : wires w.transport transport)
    : CoreStep ops ram env keeps wires w (w.setTransport transport)

abbrev CoreSteps [VirtioTransport T] (ops : VirtioDeviceOps D F T) (ram : RamMap)
    (env : Env D) (keeps : F → F → Prop) (wires : T → T → Prop)
    : World D F T → World D F T → Prop :=
  ReflTransGen (CoreStep ops ram env keeps wires)

theorem receiveFrame_core [VirtioTransport T] {ops : VirtioDeviceOps D F T}
    {keeps : F → F → Prop} (served : Served ops keeps) (wires : T → T → Prop) (ram : RamMap)
    (env : Env D) (buf : List Byte) (w : World D F T)
    : CoreSteps ops ram env keeps wires w (receiveFrame ops ram env buf w) := by
  unfold receiveFrame
  split
  · rename_i rxCb bound
    exact .single (.session (served.receive rxCb bound ram env buf w))
  · exact .refl

section Mmio

variable {ops : VirtioDeviceOps D F VirtioMmioCtx} {ram : RamMap} {env : Env D}
  {keeps : F → F → Prop}

/-- A write to `VIRTIO_MMIO_STATUS` whose low byte the core takes for a reset. -/
def GuestWrite.IsMmioReset (write : GuestWrite) : Prop :=
  write.offset = 0x070 ∧ write.size = .dword ∧ write.val.toNat % 2 ^ 8 = 0

theorem mmioEnableQueue_core (q : Nat) (w : World D F VirtioMmioCtx)
    : CoreSteps ops ram env keeps (fun _ _ => True) w (mmioEnableQueue ram q w) := by
  unfold mmioEnableQueue
  dsimp only
  split
  · exact .refl
  · split
    · exact .refl
    · rename_i vq sized
      have resized : CoreSteps ops ram env keeps (fun _ _ => True) w (w.setQueue q vq) :=
        .single (.resize sized)
      split
      · exact resized
      · rename_i enabled mapped
        rw [← World.queue_setQueue_self w q vq] at mapped
        exact (resized.tail (.enable mapped)).tail (.registers trivial)

theorem mmioSetQueueReg_core (update : VirtioMmioQueue → VirtioMmioQueue)
    (w : World D F VirtioMmioCtx)
    : CoreSteps ops ram env keeps (fun _ _ => True) w (mmioSetQueueReg update w) := by
  unfold mmioSetQueueReg
  dsimp only
  split
  · exact .single (.registers trivial)
  · exact .refl

/-- Every register but a reset is a sequence of core steps. -/
theorem virtioMmioWriteReg_core (served : Served ops keeps) (fuel : Nat) {reg : MmioReg}
    {val : Nat} (noReset : reg = .status → BitVec.ofNat 8 val ≠ 0)
    (w : World D F VirtioMmioCtx)
    : CoreSteps ops ram env keeps (fun _ _ => True) w
        (virtioMmioWriteReg ops ram env fuel reg val w) := by
  cases reg with
  | deviceFeaturesSel => exact .single (.registers trivial)
  | driverFeaturesSel => exact .single (.registers trivial)
  | driverFeatures => exact .single (.features _ _)
  | queueSel => exact .single (.registers trivial)
  | queueNum =>
    exact mmioSetQueueReg_core (fun regs => { regs with num := .ofNat 32 val }) w
  | queueDescLow =>
    exact mmioSetQueueReg_core (fun regs => { regs with descLo := .ofNat 32 val }) w
  | queueDescHigh =>
    exact mmioSetQueueReg_core (fun regs => { regs with descHi := .ofNat 32 val }) w
  | queueAvailLow =>
    exact mmioSetQueueReg_core (fun regs => { regs with availLo := .ofNat 32 val }) w
  | queueAvailHigh =>
    exact mmioSetQueueReg_core (fun regs => { regs with availHi := .ofNat 32 val }) w
  | queueUsedLow =>
    exact mmioSetQueueReg_core (fun regs => { regs with usedLo := .ofNat 32 val }) w
  | queueUsedHigh =>
    exact mmioSetQueueReg_core (fun regs => { regs with usedHi := .ofNat 32 val }) w
  | queueReady =>
    simp only [virtioMmioWriteReg, mmioQueueReady]
    split
    · exact ReflTransGen.tail (.single (.disable _)) (.registers trivial)
    · split
      · exact mmioEnableQueue_core _ w
      · exact .refl
  | queueNotify =>
    simp only [virtioMmioWriteReg]
    split
    · exact .single (.session (served.notify ram env fuel val w))
    · exact .refl
  | interruptAck => exact .single (.registers trivial)
  | status =>
    have nonzero := noReset rfl
    have some : val ≠ 0 := by
      rintro rfl
      exact nonzero rfl
    simp only [virtioMmioWriteReg, if_neg some]
    exact .single (.status nonzero)
  | magicValue => exact .refl
  | version => exact .refl
  | deviceId => exact .refl
  | vendorId => exact .refl
  | deviceFeatures => exact .refl
  | queueNumMax => exact .refl
  | interruptStatus => exact .refl

theorem virtioMmioWrite_core (served : Served ops keeps) {write : GuestWrite}
    (noReset : ¬ write.IsMmioReset) (w : World D F VirtioMmioCtx)
    : CoreSteps ops ram env keeps (fun _ _ => True) w
        (virtioMmioWrite ops ram env write.fuel write.offset write.val.toNat
          write.size.bytes w) := by
  unfold virtioMmioWrite
  split
  · rw [served.noWriteConfig]
  split
  · exact .refl
  rename_i aligned
  split
  · rename_i reg decoded
    refine virtioMmioWriteReg_core served write.fuel ?_ w
    rintro rfl zero
    have value : write.val.toNat % 2 ^ 8 = 0 := by
      simpa using congrArg BitVec.toNat zero
    have wide : write.size = .dword := by
      revert aligned
      cases write.size <;> simp [AccessSize.bytes]
    exact noReset ⟨MmioReg.ofOffset_status decoded, wide, value⟩
  · exact .refl

theorem virtioMmioWrite_reset {write : GuestWrite} (reset : write.IsMmioReset)
    (w : World D F VirtioMmioCtx)
    : ∃ transport,
        virtioMmioWrite ops ram env write.fuel write.offset write.val.toNat write.size.bytes w
          = (virtioDeviceSetStatus ops 0 w).setTransport transport := by
  obtain ⟨offset, size, value⟩ := reset
  have zero : BitVec.ofNat 8 write.val.toNat = 0 := BitVec.eq_of_toNat_eq (by simpa using value)
  have width : write.size.bytes = 4 := by rw [size]; rfl
  have decoded : ∀ val, virtioMmioWrite ops ram env write.fuel write.offset val
      write.size.bytes w = virtioMmioWriteReg ops ram env write.fuel .status val w := by
    intro val
    rw [offset, width]
    rfl
  rw [decoded]
  simp only [virtioMmioWriteReg, zero]
  split
  · exact ⟨_, rfl⟩
  · exact ⟨_, rfl⟩

end Mmio

section Pci

variable {ops : VirtioDeviceOps D F VirtioPciCtx} {ram : RamMap} {env : Env D}
  {keeps : F → F → Prop}

/-- The endpoint stays on its bus. -/
def SamePlace (before after : VirtioPciCtx) : Prop := after.pciDev.bus = before.pciDev.bus

/-- A write of zero to `device_status`. -/
def GuestWrite.IsPciReset (write : GuestWrite) : Prop :=
  write.offset = 20 ∧ write.size = .byte ∧ write.val.toNat = 0

theorem pciWriteQueue_core (off val size : Nat) (w : World D F VirtioPciCtx)
    : CoreSteps ops ram env keeps SamePlace w (pciWriteQueue ram off val size w) := by
  unfold pciWriteQueue
  dsimp only
  generalize w.transport.commonCfg.queueSelect = q
  split
  · exact .refl
  split
  · exact .refl
  split
  · exact .refl
  split
  · exact .refl
  split
  · exact .refl
  split
  · split
    · exact .refl
    · unfold pciEnableQueue
      dsimp only
      split
      · exact .refl
      · rename_i vq sized
        have resized : CoreSteps ops ram env keeps SamePlace w (w.setQueue q vq) :=
          .single (.resize sized)
        split
        · exact resized
        · rename_i enabled mapped
          rw [← World.queue_setQueue_self w q vq] at mapped
          exact (resized.tail (.enable mapped)).tail (.registers rfl)
  · exact .single (.registers rfl)

theorem virtioPciBar0Write_core (served : Served ops keeps) {write : GuestWrite}
    (noReset : ¬ write.IsPciReset) (w : World D F VirtioPciCtx)
    : CoreSteps ops ram env keeps SamePlace w
        (virtioPciBar0Write ops ram env write.fuel write.offset write.val.toNat
          write.size.bytes w) := by
  unfold virtioPciBar0Write
  split
  · split
    · exact pciWriteQueue_core _ _ _ w
    · unfold pciWriteCommon
      split
      · exact .refl
      rename_i allowed
      split
      · exact .single (.features _ _)
      split
      · rename_i narrow
        have byte : write.size = .byte := by
          revert narrow
          cases write.size <;> decide
        have status : write.offset = 20 := by
          simpa [commonAccessAllowed, narrow] using allowed
        have some : write.val.toNat ≠ 0 := fun zero => noReset ⟨status, byte, zero⟩
        rw [if_neg some]
        refine .single (.status ?_)
        intro zero
        have value := congrArg BitVec.toNat zero
        have fits : write.val.toNat < 2 ^ 8 :=
          Nat.lt_of_lt_of_eq write.val.isLt (by rw [narrow])
        rw [BitVec.toNat_ofNat, Nat.mod_eq_of_lt fits] at value
        exact some value
      · exact .single (.registers rfl)
  split
  · dsimp only
    split
    · exact .single (.session (served.notify ram env write.fuel _ w))
    · exact .refl
  split
  · rw [served.noWriteConfig]
  · exact .refl

theorem virtioPciBar0Write_reset {write : GuestWrite} (reset : write.IsPciReset)
    (w : World D F VirtioPciCtx)
    : virtioPciBar0Write ops ram env write.fuel write.offset write.val.toNat write.size.bytes w
      = (virtioDeviceSetStatus ops 0 w).setTransport
        (w.transport.reset (resetDevice w.vdev)) := by
  obtain ⟨offset, size, zero⟩ := reset
  rw [offset, zero, size, ← virtioDeviceSetStatus_zero ops w,
    ← virtioDeviceSetStatus_transport ops 0 w]
  rfl

theorem virtioPciBar0Read_core (offset size : Nat) (w : World D F VirtioPciCtx)
    : CoreSteps ops ram env keeps SamePlace w (virtioPciBar0Read ops offset size w).2 := by
  unfold virtioPciBar0Read
  split
  · exact .refl
  split
  · exact .single (.registers (pciDeviceSetIrq_bus ..))
  split
  · exact .refl
  · exact .refl

end Pci

/-- What can happen to a device behind the MMIO transport. Reads change nothing. -/
inductive MmioOp where
  | write (access : GuestWrite)
  | receive (buf : List Byte)

def mmioOpStep (ops : VirtioDeviceOps D F VirtioMmioCtx) (ram : RamMap) (env : Env D)
    (w : World D F VirtioMmioCtx)
    : MmioOp → World D F VirtioMmioCtx
  | .write access =>
      virtioMmioWrite ops ram env access.fuel access.offset access.val.toNat access.size.bytes w
  | .receive buf => receiveFrame ops ram env buf w

def MmioOp.Resets : MmioOp → Prop
  | .write access => access.IsMmioReset
  | .receive _ => False

/-- Accesses to BAR 0, guest writes to the header, and received frames. -/
inductive PciOp where
  | write (access : GuestWrite)
  | read (offset : Nat) (size : AccessSize)
  | header (offset : Nat) (val : BitVec 32) (size : Nat)
  | receive (buf : List Byte)

def pciOpStep (ops : VirtioDeviceOps D F VirtioPciCtx) (ram : RamMap) (env : Env D)
    (w : World D F VirtioPciCtx)
    : PciOp → World D F VirtioPciCtx
  | .write access =>
      virtioPciBar0Write ops ram env access.fuel access.offset access.val.toNat
        access.size.bytes w
  | .read offset size => (virtioPciBar0Read ops offset size.bytes w).2
  | .header offset val size =>
      w.setTransport
        { w.transport with pciDev := w.transport.pciDev.writeHeader offset val size }
  | .receive buf => receiveFrame ops ram env buf w

def PciOp.Resets : PciOp → Prop
  | .write access => access.IsPciReset
  | .read _ _ => False
  | .header _ _ _ => False
  | .receive _ => False

/-- An MMIO operation is a reset or core steps. -/
theorem mmioOpStep_core {ops : VirtioDeviceOps D F VirtioMmioCtx} {keeps : F → F → Prop}
    (served : Served ops keeps) (ram : RamMap) (env : Env D) (op : MmioOp)
    (w : World D F VirtioMmioCtx)
    : (¬ op.Resets ∧ CoreSteps ops ram env keeps (fun _ _ => True) w (mmioOpStep ops ram env w op))
      ∨ (op.Resets ∧ ∃ transport, mmioOpStep ops ram env w op
          = (virtioDeviceSetStatus ops 0 w).setTransport transport) := by
  cases op with
  | write access =>
    by_cases reset : access.IsMmioReset
    · exact .inr ⟨reset, virtioMmioWrite_reset reset w⟩
    · exact .inl ⟨reset, virtioMmioWrite_core served reset w⟩
  | receive buf => exact .inl ⟨id, receiveFrame_core served _ ram env buf w⟩

/-- The same over PCI. -/
theorem pciOpStep_core {ops : VirtioDeviceOps D F VirtioPciCtx} {keeps : F → F → Prop}
    (served : Served ops keeps) (ram : RamMap) (env : Env D) (op : PciOp)
    (w : World D F VirtioPciCtx)
    : (¬ op.Resets ∧ CoreSteps ops ram env keeps SamePlace w (pciOpStep ops ram env w op))
      ∨ (op.Resets ∧ ∃ transport, pciOpStep ops ram env w op
          = (virtioDeviceSetStatus ops 0 w).setTransport transport) := by
  cases op with
  | write access =>
    by_cases reset : access.IsPciReset
    · exact .inr ⟨reset, _, virtioPciBar0Write_reset reset w⟩
    · exact .inl ⟨reset, virtioPciBar0Write_core served reset w⟩
  | read offset size => exact .inl ⟨id, virtioPciBar0Read_core offset size.bytes w⟩
  | header =>
    exact .inl ⟨id, .single (.registers (PciDevice.writeHeader_bus ..))⟩
  | receive buf => exact .inl ⟨id, receiveFrame_core served _ ram env buf w⟩

end Modvm.Virtio
