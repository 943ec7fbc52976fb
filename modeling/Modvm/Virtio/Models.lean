import Modvm.Virtio.Net

/-! Realization of the device models, and what all of their operations have in common. -/

namespace Modvm.Virtio

open Function Modvm.Core Modvm.Lib

variable {D F T S : Type}

def virtioDeviceAlloc (deviceId : Nat) : VirtioDevice where
  state := .new
  deviceId := deviceId
  status := 0
  driverFeatures := 0
  vqs := fun _ => default
  nrVqs := 0

def virtioDeviceAddQueue (allocated : Bool) (size : Nat) (vdev : VirtioDevice)
    : Except VmError VirtioDevice :=
  if vdev.state ≠ .initializing ∨ vdev.nrVqs = virtioMaxVqs then .error .einval
  else
    match virtqueueCreate allocated size with
    | none => .error .enomem
    | some vq =>
        .ok { vdev with
          vqs := update vdev.vqs vdev.nrVqs vq, nrVqs := vdev.nrVqs + 1 }

def virtioBlkRealize (allocated : Bool) (backend : BlockBackend S) (state : S)
    (vdev : VirtioDevice)
    : Except VmError (VirtioDevice × VirtioBlkCtx S) := do
  let vdev ← virtioDeviceAddQueue allocated virtioBlkQueueSize vdev
  return (vdev, ⟨state, virtioBlkConfigOf (backend.getCapacity state).toNat⟩)

/-- `virtio_net_realize`; `bound` is the result of binding the receive callback. -/
def virtioNetRealize (allocated : Nat → Bool) (bound : Except VmError Unit)
    (backend : NetBackend S) (state : S) (vdev : VirtioDevice)
    : Except VmError (VirtioDevice × VirtioNetCtx S) := do
  let vdev ← virtioDeviceAddQueue (allocated 0) virtioNetQueueSize vdev
  let vdev ← virtioDeviceAddQueue (allocated 1) virtioNetQueueSize vdev
  let vdev ← virtioDeviceAddQueue (allocated 2) virtioNetCtrlQueueSize vdev
  let mac ← backend.getMac state
  -- The link is up, every other field stays zero.
  let config := ⟨mac.toList, 1, 0, 0, 0, 0, 0, 0, 0⟩
  bound
  return (vdev, ⟨state, config⟩)

/-- `virtio_device_realize_locked` on a device that has been adopted by its transport. -/
def virtioDeviceRealize (realize : VirtioDevice → Except VmError (VirtioDevice × F))
    (vdev : VirtioDevice)
    : Except VmError (VirtioDevice × F) :=
  if vdev.state ≠ .new then .error .einval
  else do
    let (vdev, frontend) ← realize { vdev with state := .initializing }
    return ({ vdev with state := .active }, frontend)

/-- What realizing a block or network device leaves, with its hardware address, if any. -/
inductive RealizedWith [VirtioTransport T]
    : {F : Type} → VirtioDeviceOps D F T → VirtioDevice → F → (F → List Byte) → Prop
  | blk {S : Type} (backend : BlockBackend S) (state : S) (allocated : Bool)
    (vdev : VirtioDevice) (ctx : VirtioBlkCtx S)
    (realized : virtioDeviceRealize (virtioBlkRealize allocated backend state)
      (virtioDeviceAlloc virtioIdBlock) = .ok (vdev, ctx))
    : RealizedWith (virtioBlkOps backend) vdev ctx fun _ => []
  | net {S : Type} (backend : NetBackend S) (state : S) (allocated : Nat → Bool)
    (bound : Except VmError Unit) (vdev : VirtioDevice) (ctx : VirtioNetCtx S)
    (realized : virtioDeviceRealize (virtioNetRealize allocated bound backend state)
      (virtioDeviceAlloc virtioIdNet) = .ok (vdev, ctx))
    : RealizedWith (virtioNetOps backend) vdev ctx fun ctx => ctx.config.mac

/-- A realized device, of either model. -/
def Realized [VirtioTransport T] (ops : VirtioDeviceOps D F T) (vdev : VirtioDevice)
    (frontend : F)
    : Prop :=
  ∃ address, RealizedWith ops vdev frontend address

structure FreshDevice (vdev : VirtioDevice) : Prop where
  active : vdev.state = .active
  status : vdev.status = 0
  features : vdev.driverFeatures = 0
  few : vdev.nrVqs ≤ virtioMaxVqs
  created : ∀ q < vdev.nrVqs, ∃ size ≤ 2 ^ 15, virtqueueCreate true size = some (vdev.vqs q)

/-- Handlers are sessions, and there is neither a reset hook nor a configuration write. -/
structure Served [VirtioTransport T] (ops : VirtioDeviceOps D F T) (keeps : F → F → Prop)
    : Prop where
  refl : ∀ frontend, keeps frontend frontend
  trans : ∀ first second third, keeps first second → keeps second third → keeps first third
  notify : ∀ ram env fuel q w, Session ram env q keeps w (ops.notifyQueue ram env fuel q w)
  receive : ∀ rxCb, ops.rxCb = some rxCb
    → ∀ ram env buf w, Session ram env 0 keeps w (rxCb ram env buf w)
  noReset : ops.reset = none
  noWriteConfig : ops.writeConfig = none

theorem virtioBlkOps_served [VirtioTransport T] (backend : BlockBackend S)
    : Served (virtioBlkOps backend : VirtioDeviceOps D (VirtioBlkCtx S) T) SameBlkConfig where
  refl := SameBlkConfig.refl
  trans := fun _ _ _ first second => second.trans first
  notify := virtioBlkNotifyQueue_session backend
  receive := fun _ absent => nomatch absent
  noReset := rfl
  noWriteConfig := rfl

theorem virtioNetOps_served [VirtioTransport T] (backend : NetBackend S)
    : Served (virtioNetOps backend : VirtioDeviceOps D (VirtioNetCtx S) T) SameButMac where
  refl := SameButMac.refl
  trans := fun _ _ _ => SameButMac.trans
  notify := virtioNetNotifyQueue_session backend
  receive := by
    rintro rxCb bound ram env buf w
    obtain rfl := Option.some.inj bound
    exact virtioNetRxCb_session ram env buf w
  noReset := rfl
  noWriteConfig := rfl

variable {frontend : F}

/-- Every realized model keeps a relation of its own. -/
theorem Realized.served [VirtioTransport T] {ops : VirtioDeviceOps D F T}
    {vdev : VirtioDevice} {frontend : F} (realized : Realized ops vdev frontend)
    : ∃ keeps, Served ops keeps := by
  obtain ⟨address, realized⟩ := realized
  cases realized with
  | blk backend => exact ⟨_, virtioBlkOps_served backend⟩
  | net backend => exact ⟨_, virtioNetOps_served backend⟩

/-- A device under construction: queues so far come from `virtqueue_create`. -/
structure Initializing (vdev : VirtioDevice) : Prop where
  status : vdev.status = 0
  features : vdev.driverFeatures = 0
  few : vdev.nrVqs ≤ virtioMaxVqs
  created : ∀ q < vdev.nrVqs, ∃ size ≤ 2 ^ 15, virtqueueCreate true size = some (vdev.vqs q)

variable {size : Nat} {vdev : VirtioDevice} {allocated : Bool}

theorem virtqueueCreate_allocated {vq : Virtqueue}
    (created : virtqueueCreate allocated size = some vq)
    : virtqueueCreate true size = some vq := by
  cases allocated with
  | true => exact created
  | false =>
    unfold virtqueueCreate at created
    split at created
    · cases created
    · split at created
      · cases created
      · cases created

theorem virtqueueCreate_off {vq : Virtqueue} (created : virtqueueCreate allocated size = some vq)
    : vq.enabled = false
      ∧ vq.broken = false
      ∧ vq.queueSize = size
      ∧ vq.maxSize = size
      ∧ vq.lastAvailIdx = 0
      ∧ vq.lastUsedIdx = 0
      ∧ 0 < size
      ∧ notPowerOfTwo size = false := by
  unfold virtqueueCreate at created
  split at created
  · cases created
  · rename_i nonzero
    split at created
    · cases created
    · rename_i power
      split at created
      · cases created
      · obtain rfl := Option.some.inj created
        exact ⟨rfl, rfl, rfl, rfl, rfl, rfl, Nat.pos_of_ne_zero nonzero, by simpa using power⟩

theorem Initializing.addQueue {vdev after : VirtioDevice} (before : Initializing vdev)
    (small : size ≤ 2 ^ 15) (added : virtioDeviceAddQueue allocated size vdev = .ok after)
    : Initializing after := by
  unfold virtioDeviceAddQueue at added
  split at added
  · cases added
  · split at added
    · cases added
    · rename_i vq created
      obtain rfl := Except.ok.inj added
      refine ⟨before.status, before.features, ?_, ?_⟩
      · have := before.few
        dsimp only
        omega
      · intro q inside
        dsimp only at inside ⊢
        by_cases last : q = vdev.nrVqs
        · subst last
          exact ⟨size, small, by rw [update_self, virtqueueCreate_allocated created]⟩
        · rw [update_of_ne last]
          exact before.created q (by omega)

theorem FreshDevice.of_realize {realize : VirtioDevice → Except VmError (VirtioDevice × F)}
    {deviceId : Nat}
    (keeps : ∀ before after context, Initializing before
      → realize before = .ok (after, context) → Initializing after)
    (realized : virtioDeviceRealize realize (virtioDeviceAlloc deviceId) = .ok (vdev, frontend))
    : FreshDevice vdev := by
  unfold virtioDeviceRealize at realized
  split at realized
  · cases realized
  · cases built : realize { virtioDeviceAlloc deviceId with state := .initializing } with
    | error =>
      rw [built] at realized
      cases realized
    | ok result =>
      rw [built] at realized
      obtain ⟨rfl, -⟩ := Prod.mk.inj (Except.ok.inj realized)
      have formed := keeps _ result.1 result.2
        ⟨rfl, rfl, Nat.zero_le _, fun q inside => absurd inside (Nat.not_lt_zero q)⟩ built
      exact ⟨rfl, formed.status, formed.features, formed.few, formed.created⟩

theorem except_bind_ok {ε α β : Type} {first : Except ε α} {next : α → Except ε β} {result : β}
    (ok : (first >>= next) = .ok result)
    : ∃ value, first = .ok value ∧ next value = .ok result := by
  cases first with
  | error => cases ok
  | ok value => exact ⟨value, rfl, ok⟩

/-- Every realized device is fresh. -/
theorem Realized.fresh [VirtioTransport T] {ops : VirtioDeviceOps D F T}
    (realized : Realized ops vdev frontend)
    : FreshDevice vdev := by
  obtain ⟨address, realized⟩ := realized
  cases realized with
  | blk backend state allocated vdev ctx realized =>
    refine .of_realize ?_ realized
    intro before after context initializing built
    obtain ⟨queue, added, rest⟩ := except_bind_ok built
    obtain ⟨rfl, -⟩ := Prod.mk.inj (Except.ok.inj rest)
    exact initializing.addQueue (by decide) added
  | net backend state allocated bound vdev ctx realized =>
    refine .of_realize ?_ realized
    intro before after context initializing built
    obtain ⟨first, addedFirst, built⟩ := except_bind_ok built
    obtain ⟨second, addedSecond, built⟩ := except_bind_ok built
    obtain ⟨third, addedThird, built⟩ := except_bind_ok built
    obtain ⟨mac, -, built⟩ := except_bind_ok built
    obtain ⟨-, -, rest⟩ := except_bind_ok built
    obtain ⟨rfl, -⟩ := Prod.mk.inj (Except.ok.inj rest)
    exact ((initializing.addQueue (by decide) addedFirst).addQueue (by decide)
      addedSecond).addQueue (by decide) addedThird

def nullDisk : BlockBackend Unit where
  getCapacity _ := 0x100000
  read _ _ _ := (0, [], ())
  write _ _ _ := (0, ())
  flush := none
  readonly := false

def nullDiskDevice : VirtioDevice where
  state := .active
  deviceId := virtioIdBlock
  status := 0
  driverFeatures := 0
  vqs := update (fun _ => default) 0
    ⟨128, 128, false, false, 0, 0, none, none, none, fun _ => default⟩
  nrVqs := 1

def nullDiskCtx : VirtioBlkCtx Unit := ⟨(), virtioBlkConfigOf 0x100000⟩

theorem nullDisk_realized [VirtioTransport T]
    : Realized (virtioBlkOps nullDisk : VirtioDeviceOps D (VirtioBlkCtx Unit) T)
        nullDiskDevice nullDiskCtx :=
  ⟨_, .blk nullDisk () true nullDiskDevice nullDiskCtx rfl⟩

end Modvm.Virtio
