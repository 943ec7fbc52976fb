import Modvm.Virtio.Virtqueue

/-! The VirtIO device core: operations of device models and transports, readiness, and the
status and feature protocol.
-/

namespace Modvm.Virtio

open Modvm.Core Modvm.Lib

variable {D F T : Type}

/-- `struct virtio_transport_ops`: how a transport reports used buffers and configuration
changes.
-/
class VirtioTransport (T : Type) where
  notifyQueue : T → T
  notifyConfig : T → T

instance silentTransport : VirtioTransport Unit where
  notifyQueue := id
  notifyConfig := id

/-- `struct virtio_device_ops` and the receive callback. `reset` and configuration accessors are
optional; fuel bounds the chains served, since guests can keep a handler busy forever.
-/
structure VirtioDeviceOps (D F T : Type) where
  getFeatures : F → BitVec 64
  reset : Option (F → F)
  readConfig : Option (F → (offset size : Nat) → Nat)
  writeConfig : Option (F → (offset val size : Nat) → F)
  notifyQueue : RamMap → Env D → (fuel q : Nat) → World D F T → World D F T
  rxCb : Option (RamMap → Env D → (buf : List Byte) → World D F T → World D F T)

def virtioStatusAcknowledge : BitVec 8 := .twoPow 8 0

def virtioStatusDriver : BitVec 8 := .twoPow 8 1

def virtioStatusDriverOk : BitVec 8 := .twoPow 8 2

def virtioStatusFeaturesOk : BitVec 8 := .twoPow 8 3

def virtioStatusNeedsReset : BitVec 8 := .twoPow 8 6

def virtioStatusFailed : BitVec 8 := .twoPow 8 7

def virtioFVersion1 : BitVec 64 := .twoPow 64 32

def virtioMaxVqs : Nat := 8

def hasBit {width : Nat} (word mask : BitVec width) : Bool := word &&& mask != 0

def virtioDeviceReady (vdev : VirtioDevice) : Bool :=
  vdev.state == .active
    && vdev.status &&& (virtioStatusDriverOk ||| virtioStatusNeedsReset ||| virtioStatusFailed)
      == virtioStatusDriverOk

def World.setStatus (w : World D F T) (status : BitVec 8) : World D F T :=
  { w with vdev := { w.vdev with status := status } }

def virtioDeviceFail [VirtioTransport T] (w : World D F T) : World D F T :=
  let w := w.setStatus (w.vdev.status ||| virtioStatusNeedsReset)
  -- Only a driver that is running gets a configuration interrupt.
  if hasBit w.vdev.status virtioStatusDriverOk then
    { w with transport := VirtioTransport.notifyConfig w.transport }
  else w

/-- The driver's choice is acceptable: it has `VERSION_1` and nothing that is not offered. -/
def featuresAccepted (offered features : BitVec 64) : Bool :=
  hasBit features virtioFVersion1 && !hasBit features (~~~(offered ||| virtioFVersion1))

/-- `if (!keep) status &= ~mask`. -/
def dropUnless (keep : Bool) (mask status : BitVec 8) : BitVec 8 :=
  if !keep then status &&& ~~~mask else status

/-- The status after a non-zero request: bits accumulate, and one without its predecessor is
dropped.
-/
def acceptStatus (offered features : BitVec 64) (old request : BitVec 8) : BitVec 8 :=
  let settable := virtioStatusAcknowledge ||| virtioStatusDriver ||| virtioStatusFeaturesOk
    ||| virtioStatusDriverOk ||| virtioStatusFailed
  let status := (request &&& settable) ||| old
  let status := dropUnless (hasBit status virtioStatusAcknowledge)
    (virtioStatusDriver ||| virtioStatusFeaturesOk ||| virtioStatusDriverOk) status
  let status := dropUnless (hasBit status virtioStatusDriver)
    (virtioStatusFeaturesOk ||| virtioStatusDriverOk) status
  -- Features are checked once, when FEATURES_OK is newly requested.
  let status := dropUnless
    (!(hasBit status virtioStatusFeaturesOk && !hasBit old virtioStatusFeaturesOk)
      || featuresAccepted offered features)
    virtioStatusFeaturesOk status
  dropUnless (hasBit status virtioStatusFeaturesOk) virtioStatusDriverOk status

def resetDevice (vdev : VirtioDevice) : VirtioDevice :=
  { vdev with
    status := 0, driverFeatures := 0,
    vqs := fun i => if i < vdev.nrVqs then virtqueueReset (vdev.vqs i) else vdev.vqs i }

def virtioDeviceSetStatus (ops : VirtioDeviceOps D F T) (status : BitVec 8)
    (w : World D F T)
    : World D F T :=
  if status = 0 then
    let w := { w with vdev := resetDevice w.vdev }
    match ops.reset with
    | some reset => { w with frontend := reset w.frontend }
    | none => w
  else
    w.setStatus
      (acceptStatus (ops.getFeatures w.frontend) w.vdev.driverFeatures w.vdev.status status)

def virtioDeviceSetFeatures (selector : Nat) (value : BitVec 32) (w : World D F T)
    : World D F T :=
  if w.vdev.state != .active || hasBit w.vdev.status virtioStatusFeaturesOk || selector > 1 then w
  else
    let shift := selector * 32
    let features :=
      (w.vdev.driverFeatures &&& ~~~((0xffffffff#64) <<< shift))
        ||| ((value.setWidth 64) <<< shift)
    { w with vdev := { w.vdev with driverFeatures := features } }

theorem hasBit_twoPow {width : Nat} (word : BitVec width) {bit : Nat} (within : bit < width)
    : hasBit word (.twoPow width bit) = word.getLsbD bit :=
  and_twoPow_bne_zero word within

variable (status : BitVec 8)

@[simp]
theorem hasBit_acknowledge : hasBit status virtioStatusAcknowledge = status.getLsbD 0 :=
  hasBit_twoPow status (by decide)

@[simp]
theorem hasBit_driver : hasBit status virtioStatusDriver = status.getLsbD 1 :=
  hasBit_twoPow status (by decide)

@[simp]
theorem hasBit_driverOk : hasBit status virtioStatusDriverOk = status.getLsbD 2 :=
  hasBit_twoPow status (by decide)

@[simp]
theorem hasBit_featuresOk : hasBit status virtioStatusFeaturesOk = status.getLsbD 3 :=
  hasBit_twoPow status (by decide)

@[simp]
theorem hasBit_needsReset : hasBit status virtioStatusNeedsReset = status.getLsbD 6 :=
  hasBit_twoPow status (by decide)

@[simp]
theorem hasBit_failed : hasBit status virtioStatusFailed = status.getLsbD 7 :=
  hasBit_twoPow status (by decide)

theorem virtioDeviceReady_iff (vdev : VirtioDevice)
    : virtioDeviceReady vdev = true
      ↔ vdev.state = .active
        ∧ hasBit vdev.status virtioStatusDriverOk = true
        ∧ hasBit vdev.status virtioStatusNeedsReset = false
        ∧ hasBit vdev.status virtioStatusFailed = false := by
  have bits : ∀ status : BitVec 8,
      (status &&& (virtioStatusDriverOk ||| virtioStatusNeedsReset ||| virtioStatusFailed)
        == virtioStatusDriverOk)
      = (hasBit status virtioStatusDriverOk && !hasBit status virtioStatusNeedsReset
        && !hasBit status virtioStatusFailed) := by decide
  simp only [virtioDeviceReady, bits, Bool.and_eq_true, beq_iff_eq, Bool.not_eq_true', and_assoc]

end Modvm.Virtio
