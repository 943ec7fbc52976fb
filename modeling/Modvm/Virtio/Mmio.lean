import Modvm.Virtio.Transport

/-! The VirtIO-MMIO transport: its registers, and reads and writes by the guest. -/

namespace Modvm.Virtio

open Modvm.Core Modvm.Lib

variable {D F : Type}

inductive MmioReg where
  | magicValue
  | version
  | deviceId
  | vendorId
  | deviceFeatures
  | deviceFeaturesSel
  | driverFeatures
  | driverFeaturesSel
  | queueSel
  | queueNumMax
  | queueNum
  | queueReady
  | queueNotify
  | interruptStatus
  | interruptAck
  | status
  | queueDescLow
  | queueDescHigh
  | queueAvailLow
  | queueAvailHigh
  | queueUsedLow
  | queueUsedHigh
deriving DecidableEq, Repr

/-- The register map. -/
def MmioReg.ofOffset : Nat → Option MmioReg
  | 0x000 => some .magicValue
  | 0x004 => some .version
  | 0x008 => some .deviceId
  | 0x00c => some .vendorId
  | 0x010 => some .deviceFeatures
  | 0x014 => some .deviceFeaturesSel
  | 0x020 => some .driverFeatures
  | 0x024 => some .driverFeaturesSel
  | 0x030 => some .queueSel
  | 0x034 => some .queueNumMax
  | 0x038 => some .queueNum
  | 0x044 => some .queueReady
  | 0x050 => some .queueNotify
  | 0x060 => some .interruptStatus
  | 0x064 => some .interruptAck
  | 0x070 => some .status
  | 0x080 => some .queueDescLow
  | 0x084 => some .queueDescHigh
  | 0x090 => some .queueAvailLow
  | 0x094 => some .queueAvailHigh
  | 0x0a0 => some .queueUsedLow
  | 0x0a4 => some .queueUsedHigh
  | _ => none

theorem MmioReg.ofOffset_status {offset : Nat}
    (decoded : MmioReg.ofOffset offset = some .status)
    : offset = 0x070 := by
  unfold MmioReg.ofOffset at decoded
  split at decoded <;> first | rfl | cases decoded

def virtioMmioConfig : Nat := 0x100

structure VirtioMmioQueue where
  descLo : BitVec 32
  descHi : BitVec 32
  availLo : BitVec 32
  availHi : BitVec 32
  usedLo : BitVec 32
  usedHi : BitVec 32
  num : BitVec 32
  ready : Bool
deriving DecidableEq, Repr

structure VirtioMmioCtx where
  deviceFeaturesSel : BitVec 32
  driverFeaturesSel : BitVec 32
  queueSel : BitVec 32
  interruptStatus : BitVec 32
  queues : Nat → VirtioMmioQueue
  irqLevel : Bool

def VirtioMmioCtx.zero : VirtioMmioCtx where
  deviceFeaturesSel := 0
  driverFeaturesSel := 0
  queueSel := 0
  interruptStatus := 0
  queues := fun _ => ⟨0, 0, 0, 0, 0, 0, 0, false⟩
  irqLevel := false

/-- `virtio_mmio_transport`. -/
instance : VirtioTransport VirtioMmioCtx where
  notifyQueue ctx := { ctx with
    interruptStatus := ctx.interruptStatus ||| 1, irqLevel := true }
  notifyConfig ctx := { ctx with
    interruptStatus := ctx.interruptStatus ||| 2, irqLevel := true }

def mmioSetQueueReg (update : VirtioMmioQueue → VirtioMmioQueue) (w : World D F VirtioMmioCtx)
    : World D F VirtioMmioCtx :=
  let ctx := w.transport
  let q := ctx.queueSel.toNat
  if q < w.vdev.nrVqs ∧ (ctx.queues q).ready = false then
    w.setTransport { ctx with queues := Function.update ctx.queues q (update (ctx.queues q)) }
  else w

def mmioSetReady (q : Nat) (ready : Bool) (w : World D F VirtioMmioCtx)
    : World D F VirtioMmioCtx :=
  let ctx := w.transport
  w.setTransport
    { ctx with queues := Function.update ctx.queues q { ctx.queues q with ready := ready } }

/-- Enable the core queue. A size that is accepted stays even if the addresses are not. -/
def mmioEnableQueue (ram : RamMap) (q : Nat) (w : World D F VirtioMmioCtx)
    : World D F VirtioMmioCtx :=
  let regs := w.transport.queues q
  if regs.num.toNat > 2 ^ 16 - 1 then w
  else
    match virtqueueSetSize (w.queue q) regs.num.toNat with
    | .error _ => w
    | .ok vq =>
        let w := w.setQueue q vq
        match virtqueueSetAddrs ram vq (assembleGpa regs.descHi regs.descLo)
            (assembleGpa regs.availHi regs.availLo)
            (assembleGpa regs.usedHi regs.usedLo) with
        | .error _ => w
        | .ok vq => mmioSetReady q true (w.setQueue q vq)

def mmioQueueReady (ram : RamMap) (val : Nat) (w : World D F VirtioMmioCtx)
    : World D F VirtioMmioCtx :=
  let q := w.transport.queueSel.toNat
  if q < w.vdev.nrVqs ∧ val = 0 then
    mmioSetReady q false (w.setQueue q (virtqueueDisable (w.queue q)))
  else if q < w.vdev.nrVqs ∧ (w.transport.queues q).ready = false ∧ val = 1 then
    mmioEnableQueue ram q w
  else w

def virtioMmioWriteReg (ops : VirtioDeviceOps D F VirtioMmioCtx) (ram : RamMap) (env : Env D)
    (fuel : Nat) (reg : MmioReg) (val : Nat) (w : World D F VirtioMmioCtx)
    : World D F VirtioMmioCtx :=
  let ctx := w.transport
  let val32 := BitVec.ofNat 32 val
  match reg with
  | .deviceFeaturesSel => w.setTransport { ctx with deviceFeaturesSel := val32 }
  | .driverFeaturesSel => w.setTransport { ctx with driverFeaturesSel := val32 }
  | .driverFeatures => virtioDeviceSetFeatures ctx.driverFeaturesSel.toNat val32 w
  | .queueSel => w.setTransport { ctx with queueSel := val32 }
  | .queueNum => mmioSetQueueReg (fun regs => { regs with num := val32 }) w
  | .queueDescLow => mmioSetQueueReg (fun regs => { regs with descLo := val32 }) w
  | .queueDescHigh => mmioSetQueueReg (fun regs => { regs with descHi := val32 }) w
  | .queueAvailLow => mmioSetQueueReg (fun regs => { regs with availLo := val32 }) w
  | .queueAvailHigh => mmioSetQueueReg (fun regs => { regs with availHi := val32 }) w
  | .queueUsedLow => mmioSetQueueReg (fun regs => { regs with usedLo := val32 }) w
  | .queueUsedHigh => mmioSetQueueReg (fun regs => { regs with usedHi := val32 }) w
  | .queueReady => mmioQueueReady ram val w
  | .queueNotify =>
      if val < w.vdev.nrVqs ∧ (ctx.queues val).ready = true
          ∧ virtioDeviceReady w.vdev = true then
        ops.notifyQueue ram env fuel val w
      else w
  | .interruptAck =>
      let pending := ctx.interruptStatus &&& ~~~val32
      w.setTransport
        { ctx with
          interruptStatus := pending, irqLevel := if pending = 0 then false else ctx.irqLevel }
  | .status =>
      -- The core takes the low byte of the value, the transport all of it.
      let w := virtioDeviceSetStatus ops (BitVec.ofNat 8 val) w
      if val = 0 then w.setTransport .zero else w
  | .magicValue | .version | .deviceId | .vendorId | .deviceFeatures | .queueNumMax
  | .interruptStatus => w

def virtioMmioWrite (ops : VirtioDeviceOps D F VirtioMmioCtx) (ram : RamMap) (env : Env D)
    (fuel offset val size : Nat) (w : World D F VirtioMmioCtx)
    : World D F VirtioMmioCtx :=
  if offset ≥ virtioMmioConfig then
    match ops.writeConfig with
    | some write =>
        { w with frontend := write w.frontend (offset - virtioMmioConfig) (val % 2 ^ 32) size }
    | none => w
  else if size ≠ 4 ∨ offset % 4 ≠ 0 then w
  else
    match MmioReg.ofOffset offset with
    | some reg => virtioMmioWriteReg ops ram env fuel reg val w
    | none => w

def virtioMmioReadReg (ops : VirtioDeviceOps D F VirtioMmioCtx) (reg : MmioReg)
    (w : World D F VirtioMmioCtx)
    : Nat :=
  let ctx := w.transport
  let q := ctx.queueSel.toNat
  match reg with
  | .magicValue => 0x74726976
  | .version => 2
  | .deviceId => w.vdev.deviceId
  | .vendorId => 0x554D4551
  | .deviceFeatures =>
      featureWord (ops.getFeatures w.frontend ||| virtioFVersion1) ctx.deviceFeaturesSel.toNat
  | .queueNumMax => if q < w.vdev.nrVqs then (w.queue q).maxSize else 0
  | .queueReady => if q < w.vdev.nrVqs ∧ (ctx.queues q).ready = true then 1 else 0
  | .interruptStatus => ctx.interruptStatus.toNat
  | .status => w.vdev.status.toNat
  | .deviceFeaturesSel | .driverFeatures | .driverFeaturesSel | .queueSel | .queueNum
  | .queueNotify | .interruptAck | .queueDescLow | .queueDescHigh | .queueAvailLow
  | .queueAvailHigh | .queueUsedLow | .queueUsedHigh => 0

/-- `virtio_mmio_read`, which changes nothing. -/
def virtioMmioRead (ops : VirtioDeviceOps D F VirtioMmioCtx) (offset size : Nat)
    (w : World D F VirtioMmioCtx)
    : Nat :=
  if offset ≥ virtioMmioConfig then configRead ops w.frontend (offset - virtioMmioConfig) size
  else if size ≠ 4 ∨ offset % 4 ≠ 0 then 0
  else
    match MmioReg.ofOffset offset with
    | some reg => virtioMmioReadReg ops reg w
    | none => 0

def virtioMmioRealize (guest : Guest D) (vdev : VirtioDevice) (frontend : F)
    : World D F VirtioMmioCtx :=
  ⟨guest, 0, vdev, frontend, .zero, []⟩

end Modvm.Virtio
