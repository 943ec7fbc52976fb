import Modvm.Core.Memory
import Modvm.Lib.ByteMemory
import Mathlib.Logic.Function.Basic

/-! The state that a VirtIO device model works on. The guest may act before every access of the
device, which is recorded with the device state at the time.
-/

namespace Modvm.Virtio

open Modvm.Core Modvm.Lib

/-- One descriptor snapshot, independent of host mapping boundaries. -/
structure VirtqueueBuf where
  gpa : Nat
  len : Nat
  isWrite : Bool
deriving DecidableEq, Repr, Inhabited

def VirtqueueBuf.span (buf : VirtqueueBuf) : Span := ⟨buf.gpa, buf.len⟩

/-- A virtio ring; `bufs` is the snapshot storage that the current chain borrows. -/
structure Virtqueue where
  queueSize : Nat
  maxSize : Nat
  broken : Bool
  enabled : Bool
  lastAvailIdx : Nat
  lastUsedIdx : Nat
  descTable : Option Hva
  availRing : Option Hva
  usedRing : Option Hva
  bufs : Nat → VirtqueueBuf
deriving Inhabited

/-- `enum virtio_device_state`: the host object lifecycle. -/
inductive VirtioDeviceState where
  | new
  | initializing
  | active
  | stopped
deriving DecidableEq, Repr

/-- The part of `struct virtio_device` that the protocol reads and writes. -/
structure VirtioDevice where
  state : VirtioDeviceState
  deviceId : Nat
  status : BitVec 8
  driverFeatures : BitVec 64
  vqs : Nat → Virtqueue
  nrVqs : Nat

/-- Guest memory, and whatever else the guest remembers about its use of it. -/
structure Guest (D : Type) where
  ram : Nat → Byte
  driver : D

/-- What the guest does before each access of the device; accesses are numbered. -/
abbrev Env (D : Type) := Nat → Guest D → Guest D

/-- What a device does on behalf of a queue. -/
inductive Activity where
  | load (span : Span)
  | store (span : Span)
  | push (id len : Nat)
  | backendRead
  | backendWrite
  | backendFlush
deriving DecidableEq, Repr

/-- One activity, with its queue and the device state in which it happened. -/
structure Event where
  queue : Nat
  activity : Activity
  during : VirtioDevice

/-- The world of one device: the guest, the device core, its frontend `F`, and its
transport `T`.
-/
structure World (D F T : Type) where
  guest : Guest D
  clock : Nat
  vdev : VirtioDevice
  frontend : F
  transport : T
  log : List Event

variable {D F T : Type}

namespace World

def queue (w : World D F T) (q : Nat) : Virtqueue := w.vdev.vqs q

def setQueue (w : World D F T) (q : Nat) (vq : Virtqueue) : World D F T :=
  { w with vdev := { w.vdev with vqs := Function.update w.vdev.vqs q vq } }

/-- The guest acts before the next access. -/
def sync (env : Env D) (w : World D F T) : World D F T :=
  { w with guest := env w.clock w.guest, clock := w.clock + 1 }

/-- Append an activity to the log, under the current device state. -/
def record (w : World D F T) (q : Nat) (activity : Activity) : World D F T :=
  { w with log := w.log ++ [⟨q, activity, w.vdev⟩] }

def load (env : Env D) (q gpa n : Nat) (w : World D F T) : List Byte × World D F T :=
  let w := w.sync env
  (readBytes w.guest.ram gpa n, w.record q (.load ⟨gpa, n⟩))

/-- Read a little-endian number of `n` bytes. -/
def loadLe (env : Env D) (q gpa n : Nat) (w : World D F T) : Nat × World D F T :=
  let (bytes, w) := w.load env q gpa n
  (leNat bytes, w)

def store (env : Env D) (q gpa : Nat) (bytes : List Byte) (w : World D F T) : World D F T :=
  let w := (w.sync env).record q (.store ⟨gpa, bytes.length⟩)
  { w with guest := { w.guest with ram := writeBytes w.guest.ram gpa bytes } }

variable (w : World D F T) (q : Nat) (vq : Virtqueue)

@[simp]
theorem queue_setQueue_self : (w.setQueue q vq).queue q = vq := by
  simp [queue, setQueue]

theorem queue_setQueue_other {q other : Nat} (different : other ≠ q)
    : (w.setQueue q vq).queue other = w.queue other := by
  simp [queue, setQueue, different]

@[simp]
theorem setQueue_log
    : (w.setQueue q vq).log = w.log := rfl

@[simp]
theorem setQueue_transport
    : (w.setQueue q vq).transport = w.transport := rfl

variable (env : Env D)

@[simp]
theorem load_vdev (q gpa n : Nat) (w : World D F T)
    : (w.load env q gpa n).2.vdev = w.vdev := rfl

@[simp]
theorem load_log (q gpa n : Nat) (w : World D F T)
    : (w.load env q gpa n).2.log = w.log ++ [⟨q, .load ⟨gpa, n⟩, w.vdev⟩] := rfl

@[simp]
theorem load_length (q gpa n : Nat) (w : World D F T) : (w.load env q gpa n).1.length = n :=
  readBytes_length ..

@[simp]
theorem store_vdev (q gpa : Nat) (bytes : List Byte) (w : World D F T)
    : (w.store env q gpa bytes).vdev = w.vdev := rfl

@[simp]
theorem store_log (q gpa : Nat) (bytes : List Byte) (w : World D F T)
    : (w.store env q gpa bytes).log
      = w.log ++ [⟨q, .store ⟨gpa, bytes.length⟩, w.vdev⟩] := rfl

end World

end Modvm.Virtio
