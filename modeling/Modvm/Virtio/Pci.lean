import Modvm.Hw.Pci
import Modvm.Virtio.Transport

/-! The VirtIO-PCI transport behind BAR 0. Its structures are byte arrays, as the guest accesses
them at several widths.
-/

namespace Modvm.Virtio

open Modvm.Core Modvm.Lib Modvm.Hw

variable {D F : Type}

def le16 (bytes : Nat → Byte) (offset : Nat) : Nat := leNat (readBytes bytes offset 2)

def le32 (bytes : Nat → Byte) (offset : Nat) : Nat := leNat (readBytes bytes offset 4)

/-- `struct virtio_pci_queue_cfg`: 32 bytes. -/
structure VirtioPciQueueCfg where
  bytes : Nat → Byte

namespace VirtioPciQueueCfg

def size (q : VirtioPciQueueCfg) : Nat := le16 q.bytes 0
def msixVector (q : VirtioPciQueueCfg) : Nat := le16 q.bytes 2
def enable (q : VirtioPciQueueCfg) : Nat := le16 q.bytes 4
def notifyOff (q : VirtioPciQueueCfg) : Nat := le16 q.bytes 6

def address (q : VirtioPciQueueCfg) (offset : Nat) : Nat :=
  assembleGpa (.ofNat 32 (le32 q.bytes (offset + 4))) (.ofNat 32 (le32 q.bytes offset))

def desc (q : VirtioPciQueueCfg) : Nat := q.address 8
def avail (q : VirtioPciQueueCfg) : Nat := q.address 16
def used (q : VirtioPciQueueCfg) : Nat := q.address 24

def store (q : VirtioPciQueueCfg) (offset size val : Nat) : VirtioPciQueueCfg :=
  ⟨writeBytes q.bytes offset (toLe size val)⟩

/-- The registers of a queue after `memset` and the assignments to `size` and `msix_vector`. -/
def initial (maxSize : Nat) : VirtioPciQueueCfg :=
  ((⟨fun _ => 0⟩ : VirtioPciQueueCfg).store 0 2 maxSize).store 2 2 0xffff

end VirtioPciQueueCfg

/-- `struct virtio_pci_global_cfg`: 24 bytes. -/
structure VirtioPciGlobalCfg where
  bytes : Nat → Byte

namespace VirtioPciGlobalCfg

def deviceFeatureSelect (cfg : VirtioPciGlobalCfg) : Nat := le32 cfg.bytes 0
def guestFeatureSelect (cfg : VirtioPciGlobalCfg) : Nat := le32 cfg.bytes 8
def queueSelect (cfg : VirtioPciGlobalCfg) : Nat := le16 cfg.bytes 22

def store (cfg : VirtioPciGlobalCfg) (offset size val : Nat) : VirtioPciGlobalCfg :=
  ⟨writeBytes cfg.bytes offset (toLe size val)⟩

/-- The structure after `memset` and the assignments to `num_queues` and `msix_config`. -/
def initial (nrVqs : Nat) : VirtioPciGlobalCfg :=
  ((⟨fun _ => 0⟩ : VirtioPciGlobalCfg).store 18 2 nrVqs).store 16 2 0xffff

end VirtioPciGlobalCfg

structure VirtioPciCtx where
  pciDev : PciDevice
  commonCfg : VirtioPciGlobalCfg
  queues : Nat → VirtioPciQueueCfg
  isrStatus : BitVec 8

/-- `virtio_pci_transport`. -/
instance : VirtioTransport VirtioPciCtx where
  notifyQueue ctx := { ctx with
    isrStatus := ctx.isrStatus ||| 1, pciDev := pciDeviceSetIrq true ctx.pciDev }
  notifyConfig ctx := { ctx with
    isrStatus := ctx.isrStatus ||| 2, pciDev := pciDeviceSetIrq true ctx.pciDev }

/-- Queue control fields take 16-bit writes, addresses 32-bit and 64-bit ones. -/
def queueAccessAllowed (off size : Nat) : Bool :=
  !((decide (off < 8) && (size != 2 || off % 2 != 0))
    || (decide (off ≥ 8) && !((size == 4 && off % 4 == 0) || (size == 8 && off % 8 == 0))))

def pciStoreQueue (q off size val : Nat) (w : World D F VirtioPciCtx)
    : World D F VirtioPciCtx :=
  let ctx := w.transport
  w.setTransport
    { ctx with queues := Function.update ctx.queues q ((ctx.queues q).store off size val) }

/-- A write of 1 to `enable`. A size that is accepted stays even if the addresses are not. -/
def pciEnableQueue (ram : RamMap) (q off size val : Nat) (w : World D F VirtioPciCtx)
    : World D F VirtioPciCtx :=
  let regs := w.transport.queues q
  match virtqueueSetSize (w.queue q) regs.size with
  | .error _ => w
  | .ok vq =>
      let w := w.setQueue q vq
      match virtqueueSetAddrs ram vq regs.desc regs.avail regs.used with
      | .error _ => w
      | .ok vq => pciStoreQueue q off size val (w.setQueue q vq)

def pciWriteQueue (ram : RamMap) (off val size : Nat) (w : World D F VirtioPciCtx)
    : World D F VirtioPciCtx :=
  let q := w.transport.commonCfg.queueSelect
  if q ≥ w.vdev.nrVqs ∨ off + size > 32 then w
  else if !queueAccessAllowed off size then w
  -- An enabled queue is locked; the notify offset and the vector are read-only.
  else if (w.transport.queues q).enable ≠ 0 then w
  else if off = 6 ∨ off = 2 then w
  else if off = 0 ∧ (val = 0 ∨ notPowerOfTwo val = true ∨ val > (w.queue q).maxSize) then w
  else if off = 4 then
    if val ≠ 1 then w else pciEnableQueue ram q off size val w
  else pciStoreQueue q off size val w

def VirtioPciCtx.reset (ctx : VirtioPciCtx) (vdev : VirtioDevice) : VirtioPciCtx where
  pciDev := pciDeviceSetIrq false ctx.pciDev
  commonCfg := .initial vdev.nrVqs
  queues := fun i =>
    if i < vdev.nrVqs then .initial (vdev.vqs i).maxSize else ctx.queues i
  isrStatus := 0

def commonAccessAllowed (offset size : Nat) : Bool :=
  (size == 4 && (offset == 0 || offset == 8 || offset == 12))
    || (size == 1 && offset == 20) || (size == 2 && offset == 22)

def pciWriteCommon (ops : VirtioDeviceOps D F VirtioPciCtx) (offset val size : Nat)
    (w : World D F VirtioPciCtx)
    : World D F VirtioPciCtx :=
  let ctx := w.transport
  if !commonAccessAllowed offset size then w
  else if offset = 12 then
    virtioDeviceSetFeatures ctx.commonCfg.guestFeatureSelect (.ofNat 32 val) w
  else if size = 1 then
    let w := virtioDeviceSetStatus ops (.ofNat 8 val) w
    if val = 0 then w.setTransport (w.transport.reset w.vdev) else w
  else w.setTransport { ctx with commonCfg := ctx.commonCfg.store offset size val }

def virtioPciBar0Write (ops : VirtioDeviceOps D F VirtioPciCtx) (ram : RamMap) (env : Env D)
    (fuel offset val size : Nat) (w : World D F VirtioPciCtx)
    : World D F VirtioPciCtx :=
  if offset < 56 then
    if offset ≥ 24 then pciWriteQueue ram (offset - 24) val size w
    else pciWriteCommon ops offset val size w
  else if offset = 0x100 then
    -- The doorbell takes the index of the queue, and is ignored until the queue is enabled.
    let q := val % 2 ^ 16
    if q < w.vdev.nrVqs ∧ (w.transport.queues q).enable ≠ 0
        ∧ virtioDeviceReady w.vdev = true then
      ops.notifyQueue ram env fuel q w
    else w
  else if offset ≥ 0x300 then
    match ops.writeConfig with
    | some write =>
        { w with frontend := write w.frontend (offset - 0x300) (val % 2 ^ 32) size }
    | none => w
  else w

def pciReadCommon (ops : VirtioDeviceOps D F VirtioPciCtx) (offset size : Nat)
    (w : World D F VirtioPciCtx)
    : Nat :=
  let ctx := w.transport
  if offset = 20 ∧ size = 1 then w.vdev.status.toNat
  else if offset = 4 then
    featureWord (ops.getFeatures w.frontend ||| virtioFVersion1)
      ctx.commonCfg.deviceFeatureSelect
  else if offset = 12 then
    featureWord w.vdev.driverFeatures ctx.commonCfg.guestFeatureSelect
  else if offset ≥ 24 then
    let q := ctx.commonCfg.queueSelect
    if q ≥ w.vdev.nrVqs ∨ offset - 24 + size > 32 then 0
    else leNat (readBytes (ctx.queues q).bytes (offset - 24) size)
  else if offset + size > 24 then 0
  else if size = 1 ∨ size = 2 ∨ size = 4 then
    leNat (readBytes ctx.commonCfg.bytes offset size)
  else 0

/-- `virtio_pci_bar0_read`: reading the interrupt status acknowledges it. -/
def virtioPciBar0Read (ops : VirtioDeviceOps D F VirtioPciCtx) (offset size : Nat)
    (w : World D F VirtioPciCtx)
    : Nat × World D F VirtioPciCtx :=
  if offset < 56 then (pciReadCommon ops offset size w, w)
  else if offset = 0x200 then
    let ctx := w.transport
    (ctx.isrStatus.toNat,
      w.setTransport
        { ctx with isrStatus := 0, pciDev := pciDeviceSetIrq false ctx.pciDev })
  else if offset ≥ 0x300 then (configRead ops w.frontend (offset - 0x300) size, w)
  else (0, w)

/-- The configuration space, of which only the command register is filled, with memory decoding on:
no modelled function reads the identifiers, the capabilities or the other bytes that
`virtio_pci_realize` writes, so they are left at zero here.
-/
def virtioPciConfigSpace : Nat → Byte := writeBytes (fun _ => 0) 4 (toLe 2 0x0002)

/-- Where an endpoint was registered: bus, owner, function, pin, and the region of BAR 0. -/
structure VirtioPciPlace where
  bus : Nat
  owner : Nat
  devfn : BitVec 8
  interruptPin : BitVec 8
  bar0 : Nat

/-- The endpoint right after `virtio_pci_realize` registered it with its BAR. Its configuration
space has the command register only.
-/
def VirtioPciPlace.endpoint (place : VirtioPciPlace) : PciDevice where
  bus := some place.bus
  owner := some place.owner
  devfn := place.devfn
  interruptPin := place.interruptPin
  irqLevel := false
  forwarded := false
  bars := Function.update (fun _ => ⟨none, false⟩) 0 ⟨some place.bar0, false⟩
  configSpace := virtioPciConfigSpace

def virtioPciRealize (place : VirtioPciPlace) (guest : Guest D) (vdev : VirtioDevice)
    (frontend : F)
    : World D F VirtioPciCtx where
  guest := guest
  clock := 0
  vdev := vdev
  frontend := frontend
  transport :=
    { pciDev := place.endpoint
      commonCfg := .initial vdev.nrVqs
      queues := fun i =>
        if i < vdev.nrVqs then .initial (vdev.vqs i).maxSize else ⟨fun _ => 0⟩
      isrStatus := 0 }
  log := []

end Modvm.Virtio
