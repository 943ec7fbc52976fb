import Modvm.Virtio.Erasure
import Modvm.Virtio.Frame
import Modvm.Virtio.Transport

/-! What a driver does to the device core, apart from how its transport encodes it. -/

namespace Modvm.Virtio

open Modvm.Core Modvm.Lib

variable {D F T : Type}

/-- One operation of a driver; `wide` asks for 64-bit accesses, `fuel` bounds a doorbell. -/
inductive DriverOp where
  | features (selector word : BitVec 32)
  | status (byte : BitVec 8)
  | setup (q size : Nat) (desc avail used : BitVec 64) (wide : Bool)
  | doorbell (q fuel : Nat)

/-- The operation names a queue of the device, and a size that the queue can have. -/
def DriverOp.Valid (vdev : VirtioDevice) : DriverOp → Prop
  | .features _ _ => True
  | .status _ => True
  | .setup q size _ _ _ _ =>
      q < vdev.nrVqs ∧ size.isPowerOfTwo ∧ size ≤ (vdev.vqs q).maxSize
  | .doorbell q _ => q < vdev.nrVqs

/-- A device as a driver sees it: the core, and which queues it has enabled. -/
structure DriverView (D F : Type) where
  world : World D F Unit
  ready : Nat → Bool

/-- Configure a queue of the core. A size that is accepted stays even if the addresses are not. -/
def coreEnableQueue (ram : RamMap) (q size descGpa availGpa usedGpa : Nat) (w : World D F T)
    : Bool × World D F T :=
  match virtqueueSetSize (w.queue q) size with
  | .error _ => (false, w)
  | .ok vq =>
      match virtqueueSetAddrs ram vq descGpa availGpa usedGpa with
      | .error _ => (false, w.setQueue q vq)
      | .ok enabled => (true, (w.setQueue q vq).setQueue q enabled)

/-- What an operation means to the core; doorbells of queues that are not set up are ignored. -/
def driverStep (core : VirtioDeviceOps D F Unit) (ram : RamMap) (env : Env D)
    (view : DriverView D F)
    : DriverOp → DriverView D F
  | .features selector word =>
      { view with world := virtioDeviceSetFeatures selector.toNat word view.world }
  | .status byte =>
      { world := virtioDeviceSetStatus core byte view.world
        ready := fun q => if byte = 0 then false else view.ready q }
  | .setup q size desc avail used _ =>
      if view.ready q then view
      else
        let (enabled, world) :=
          coreEnableQueue ram q size desc.toNat avail.toNat used.toNat view.world
        { world := world, ready := Function.update view.ready q enabled }
  | .doorbell q fuel =>
      if view.ready q && virtioDeviceReady view.world.vdev then
        { view with world := core.notifyQueue ram env fuel q view.world }
      else view

def DriverView.initial (guest : Guest D) (vdev : VirtioDevice) (frontend : F) : DriverView D F :=
  ⟨⟨guest, 0, vdev, frontend, (), []⟩, fun _ => false⟩

def driverRun (core : VirtioDeviceOps D F Unit) (ram : RamMap) (env : Env D) (guest : Guest D)
    (vdev : VirtioDevice) (frontend : F) (script : List DriverOp)
    : DriverView D F :=
  script.foldl (driverStep core ram env) (.initial guest vdev frontend)

def World.withFrontend {G : Type} (w : World D F T) (frontend : G) : World D G T :=
  ⟨w.guest, w.clock, w.vdev, frontend, w.transport, w.log⟩

/-- The device model that also remembers the calls of its `notify_queue`. -/
def VirtioDeviceOps.traced (ops : VirtioDeviceOps D F T)
    : VirtioDeviceOps D (F × List Nat) T where
  getFeatures ctx := ops.getFeatures ctx.1
  reset := ops.reset.map fun reset ctx => (reset ctx.1, ctx.2)
  readConfig := ops.readConfig.map fun read ctx offset size => read ctx.1 offset size
  writeConfig := ops.writeConfig.map fun write ctx offset val size =>
    (write ctx.1 offset val size, ctx.2)
  notifyQueue ram env fuel q w :=
    let served := ops.notifyQueue ram env fuel q (w.withFrontend w.frontend.1)
    served.withFrontend (served.frontend, w.frontend.2 ++ [q])
  rxCb := ops.rxCb.map fun rxCb ram env buf w =>
    let served := rxCb ram env buf (w.withFrontend w.frontend.1)
    served.withFrontend (served.frontend, w.frontend.2)

def DriverView.untraced (view : DriverView D (F × List Nat)) : DriverView D F :=
  ⟨view.world.withFrontend view.world.frontend.1, view.ready⟩

section
variable {G : Type} (w : World D F T) (frontend : G)

theorem virtioDeviceSetFeatures_withFrontend (selector : Nat) (value : BitVec 32)
    : virtioDeviceSetFeatures selector value (w.withFrontend frontend)
      = (virtioDeviceSetFeatures selector value w).withFrontend frontend := by
  have vdev : (w.withFrontend frontend).vdev = w.vdev := rfl
  unfold virtioDeviceSetFeatures
  rw [vdev]
  split_ifs <;> rfl

theorem coreEnableQueue_withFrontend (ram : RamMap) (q size descGpa availGpa usedGpa : Nat)
    : coreEnableQueue ram q size descGpa availGpa usedGpa (w.withFrontend frontend)
      = ((coreEnableQueue ram q size descGpa availGpa usedGpa w).1,
        (coreEnableQueue ram q size descGpa availGpa usedGpa w).2.withFrontend frontend) := by
  have queue : (w.withFrontend frontend).queue q = w.queue q := rfl
  unfold coreEnableQueue
  rw [queue]
  cases virtqueueSetSize (w.queue q) size with
  | error => rfl
  | ok vq =>
    dsimp only
    cases virtqueueSetAddrs ram vq descGpa availGpa usedGpa with
    | error => rfl
    | ok => rfl

theorem coreEnableQueue_frontend (ram : RamMap) (q size descGpa availGpa usedGpa : Nat)
    : (coreEnableQueue ram q size descGpa availGpa usedGpa w).2.frontend = w.frontend := by
  unfold coreEnableQueue
  split
  · rfl
  split
  · rfl
  · rfl

end

theorem virtioDeviceSetStatus_untraced (ops : VirtioDeviceOps D F T) (status : BitVec 8)
    (w : World D (F × List Nat) T)
    : virtioDeviceSetStatus ops status (w.withFrontend w.frontend.1)
      = (virtioDeviceSetStatus ops.traced status w).withFrontend
        (virtioDeviceSetStatus ops.traced status w).frontend.1 := by
  have resets : ops.traced.reset = ops.reset.map fun reset ctx => (reset ctx.1, ctx.2) := rfl
  unfold virtioDeviceSetStatus
  rw [resets]
  split_ifs
  · cases ops.reset with
    | none => rfl
    | some => rfl
  · rfl

/-- The trace of doorbells is a ghost: dropping it changes no step. -/
theorem driverStep_untraced (core : VirtioDeviceOps D F Unit) (ram : RamMap) (env : Env D)
    (view : DriverView D (F × List Nat)) (op : DriverOp)
    : driverStep core ram env view.untraced op
      = (driverStep core.traced ram env view op).untraced := by
  cases op with
  | features selector word =>
    have kept : (virtioDeviceSetFeatures selector.toNat word view.world).frontend
        = view.world.frontend := by
      unfold virtioDeviceSetFeatures
      split <;> rfl
    simp only [driverStep, DriverView.untraced]
    rw [virtioDeviceSetFeatures_withFrontend, kept]
  | status =>
    simp only [driverStep, DriverView.untraced]
    rw [virtioDeviceSetStatus_untraced]
  | setup =>
    have ready : view.untraced.ready = view.ready := rfl
    have world : view.untraced.world = view.world.withFrontend view.world.frontend.1 := rfl
    rw [driverStep, driverStep, ready, world, coreEnableQueue_withFrontend]
    split_ifs
    · rfl
    · simp only [DriverView.untraced, coreEnableQueue_frontend]
  | doorbell =>
    have ready : view.untraced.ready = view.ready := rfl
    have vdev : view.untraced.world.vdev = view.world.vdev := rfl
    rw [driverStep, driverStep, ready, vdev]
    split_ifs <;> rfl

/-- Nor does it change a run, by induction on the script. -/
theorem driverRun_untraced (core : VirtioDeviceOps D F Unit) (ram : RamMap) (env : Env D)
    (guest : Guest D) (vdev : VirtioDevice) (frontend : F) (script : List DriverOp)
    : driverRun core ram env guest vdev frontend script
      = (driverRun core.traced ram env guest vdev (frontend, []) script).untraced := by
  have start : DriverView.initial guest vdev frontend
      = (DriverView.initial guest vdev (frontend, [])).untraced := rfl
  rw [driverRun, start]
  exact List.foldl_hom DriverView.untraced (driverStep_untraced core ram env)

/-- A device model that works the same without its transport, and leaves its setup alone. -/
structure Portable [VirtioTransport T] (ops : VirtioDeviceOps D F T)
    (core : VirtioDeviceOps D F Unit) : Prop extends Erases ops core where
  undisturbed : ∀ ram env fuel q w, Undisturbed w (ops.notifyQueue ram env fuel q w)

theorem virtioBlkOps_portable [VirtioTransport T] {S : Type} (backend : BlockBackend S)
    : Portable (virtioBlkOps backend : VirtioDeviceOps D (VirtioBlkCtx S) T)
        (virtioBlkOps backend) where
  toErases := virtioBlkOps_erases backend
  undisturbed ram env fuel q w :=
    ((virtioBlkOps_served backend).notify ram env fuel q w).undisturbed

theorem virtioNetOps_portable [VirtioTransport T] {S : Type} (backend : NetBackend S)
    : Portable (virtioNetOps backend : VirtioDeviceOps D (VirtioNetCtx S) T)
        (virtioNetOps backend) where
  toErases := virtioNetOps_erases backend
  undisturbed ram env fuel q w :=
    ((virtioNetOps_served backend).notify ram env fuel q w).undisturbed

/-- A portable model stays portable with the trace. -/
theorem Portable.traced [VirtioTransport T] {ops : VirtioDeviceOps D F T}
    {core : VirtioDeviceOps D F Unit} (portable : Portable ops core)
    : Portable ops.traced core.traced := by
  refine ⟨⟨?_, ?_, ?_⟩, ?_⟩
  · simp only [VirtioDeviceOps.traced, portable.features]
  · simp only [VirtioDeviceOps.traced, portable.reset]
  · intro ram env fuel q w
    have inner := portable.notify ram env fuel q (w.withFrontend w.frontend.1)
    simp only [VirtioDeviceOps.traced]
    rw [show w.core.withFrontend w.core.frontend.1 = (w.withFrontend w.frontend.1).core from rfl,
      inner]
    rfl
  · intro ram env fuel q w
    have inner := portable.undisturbed ram env fuel q (w.withFrontend w.frontend.1)
    exact ⟨inner.setup, inner.count, inner.state, inner.features, inner.deviceId,
      inner.transport⟩

section
variable {ops : VirtioDeviceOps D F T} {core : VirtioDeviceOps D F Unit}

theorem virtioDeviceSetStatus_core (same : Erases ops core) (status : BitVec 8)
    (w : World D F T)
    : virtioDeviceSetStatus core status w.core = (virtioDeviceSetStatus ops status w).core := by
  unfold virtioDeviceSetStatus
  rw [same.reset, same.features]
  split_ifs
  · cases ops.reset with
    | none => rfl
    | some => rfl
  · rfl

theorem virtioDeviceSetFeatures_core (selector : Nat) (value : BitVec 32) (w : World D F T)
    : virtioDeviceSetFeatures selector value w.core
      = (virtioDeviceSetFeatures selector value w).core := by
  have vdev : w.core.vdev = w.vdev := rfl
  unfold virtioDeviceSetFeatures
  rw [vdev]
  split_ifs <;> rfl

theorem coreEnableQueue_core (ram : RamMap) (q size descGpa availGpa usedGpa : Nat)
    (w : World D F T)
    : coreEnableQueue ram q size descGpa availGpa usedGpa w.core
      = eraseTransport (coreEnableQueue ram q size descGpa availGpa usedGpa w) := by
  unfold coreEnableQueue
  rw [World.core_queue]
  cases virtqueueSetSize (w.queue q) size with
  | error => rfl
  | ok vq =>
    dsimp only
    cases virtqueueSetAddrs ram vq descGpa availGpa usedGpa with
    | error => rfl
    | ok => rfl

end

theorem coreEnableQueue_transport (ram : RamMap) (q size descGpa availGpa usedGpa : Nat)
    (w : World D F T)
    : (coreEnableQueue ram q size descGpa availGpa usedGpa w).2.transport = w.transport := by
  unfold coreEnableQueue
  split
  · rfl
  split
  · rfl
  · rfl

theorem FreshDevice.fits {vdev : VirtioDevice} (fresh : FreshDevice vdev) {q size : Nat}
    (inside : q < vdev.nrVqs) (bound : size ≤ (vdev.vqs q).maxSize)
    : q < 2 ^ 16 ∧ size < 2 ^ 16 := by
  obtain ⟨maximum, small, created⟩ := fresh.created q inside
  have same := (virtqueueCreate_off created).2.2.2.1
  have few : vdev.nrVqs ≤ 8 := fresh.few
  omega

/-- The queues of the device are those of `vdev`, with the same maxima. -/
structure World.Shaped (vdev : VirtioDevice) (w : World D F T) : Prop where
  count : w.vdev.nrVqs = vdev.nrVqs
  maxSize : ∀ q, (w.queue q).maxSize = (vdev.vqs q).maxSize

section
variable {vdev : VirtioDevice} {w : World D F T}

section

variable (shaped : w.Shaped vdev)
include shaped

theorem World.Shaped.of_core {U : Type} {other : World D F U} (same : other.vdev = w.vdev)
    : other.Shaped vdev := by
  obtain ⟨count, maxSize⟩ := shaped
  refine ⟨by rw [same, count], ?_⟩
  intro q
  rw [← maxSize q, World.queue, World.queue, same]

theorem World.Shaped.setStatus (ops : VirtioDeviceOps D F T) (status : BitVec 8)
    : (virtioDeviceSetStatus ops status w).Shaped vdev := by
  unfold virtioDeviceSetStatus
  split
  · have reset : ({ w with vdev := resetDevice w.vdev } : World D F T).Shaped vdev := by
      refine ⟨shaped.count, ?_⟩
      intro q
      rw [← shaped.maxSize q]
      simp only [World.queue, resetDevice]
      split <;> rfl
    split
    · exact reset.of_core rfl
    · exact reset
  · exact ⟨shaped.count, shaped.maxSize⟩

theorem World.Shaped.setFeatures (selector : Nat) (value : BitVec 32)
    : (virtioDeviceSetFeatures selector value w).Shaped vdev := by
  unfold virtioDeviceSetFeatures
  split
  · exact shaped
  · exact ⟨shaped.count, shaped.maxSize⟩

theorem World.Shaped.setQueue {q : Nat} {vq : Virtqueue}
    (maximum : vq.maxSize = (vdev.vqs q).maxSize)
    : (w.setQueue q vq).Shaped vdev := by
  refine ⟨shaped.count, ?_⟩
  intro p
  by_cases here : p = q
  · rw [here, World.queue_setQueue_self, maximum]
  · rw [World.queue_setQueue_other w vq here, shaped.maxSize]

/-- Enabling a queue keeps the number of queues and their limits. -/
theorem World.Shaped.enableQueue (ram : RamMap) (q size descGpa availGpa usedGpa : Nat)
    : (coreEnableQueue ram q size descGpa availGpa usedGpa w).2.Shaped vdev := by
  unfold coreEnableQueue
  split
  · exact shaped
  · rename_i vq sized
    obtain ⟨-, rfl, -⟩ := virtqueueSetSize_ok sized
    have resized : (w.setQueue q { w.queue q with queueSize := size }).Shaped vdev :=
      shaped.setQueue (shaped.maxSize q)
    split
    · exact resized
    · rename_i enabled mapped
      obtain ⟨-, -, maximum, -⟩ := virtqueueSetAddrs_ok mapped
      exact resized.setQueue (maximum.trans (shaped.maxSize q))

theorem World.Shaped.undisturbed [VirtioTransport T] {next : World D F T}
    (frame : Undisturbed w next)
    : next.Shaped vdev :=
  ⟨frame.count.trans shaped.count, fun q => (frame.setup q).maxSize.trans (shaped.maxSize q)⟩

end

end

end Modvm.Virtio
