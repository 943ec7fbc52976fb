import Modvm.Util.ResPool
import Modvm.Virtio.Device

/-! The life of VirtIO frontends on the host. A frontend is owned by the pool that will run its
cleanup, first that of its machine and later that of the transport device.
-/

namespace Modvm.Virtio.Frontend

open Modvm.Util

/-- The pools that can own a frontend: those of machines and of devices. -/
inductive PoolId where
  | vm (ctx : Nat)
  | device (dev : Nat)
deriving DecidableEq, Repr

/-- `struct virtio_device` as to its lifetime; `freed` is a history variable. -/
structure Vdev where
  state : VirtioDeviceState
  owner : PoolId
  parentDev : Option Nat
  stopHook : Bool
  nrVqs : Nat
  freed : Bool
deriving DecidableEq, Repr

inductive Life where
  | allocated
  | adopted
  | realizeCalled
  | queueCreated (index : Nat)
  | realizeReturned
  | stopped
  | queueDestroyed (index : Nat)
  | privateReleased
  | freed
deriving DecidableEq, Repr

/-- All frontends, the pools, and the history; actions other than `virtio_cleanup` are `none`. -/
structure World where
  vdevs : Nat → Vdev
  next : Nat
  pools : PoolId → ResPool Nat
  log : List (Nat × Life)

namespace World

def init (vdevs : Nat → Vdev) : World := ⟨vdevs, 0, fun _ => resPoolInit, []⟩

/-- Assign a frontend, and add to its history. -/
def act (w : World) (v : Nat) (vdev : Vdev) (events : List Life) : World :=
  { w with
    vdevs := Function.update w.vdevs v vdev
    log := w.log ++ events.map fun event => (v, event) }

def setPool (w : World) (p : PoolId) (pool : ResPool Nat) : World :=
  { w with pools := Function.update w.pools p pool }

def setResources (w : World) (p : PoolId) (resources : List (Option Nat)) : World :=
  w.setPool p { w.pools p with resources := resources }

end World

def virtioDeviceStop (v : Nat) (w : World) : World :=
  let vdev := w.vdevs v
  if vdev.state ≠ .active ∧ vdev.state ≠ .initializing then w
  else w.act v { vdev with state := .stopped } (if vdev.stopHook then [.stopped] else [])

def virtioCleanup (v : Nat) (w : World) : World :=
  let w := virtioDeviceStop v w
  w.act v { w.vdevs v with freed := true }
    ((List.range (w.vdevs v).nrVqs).map .queueDestroyed ++ [.privateReleased, .freed])

/-- The arguments of `virtio_device_alloc` and its allocations; `ctx` is `none` if refused. -/
structure AllocCall where
  ctx : Option Nat
  stopHook : Bool
  vdev : Bool
  priv : Bool
  node : Bool
deriving Repr

def virtioDeviceAlloc (call : AllocCall) (w : World) : Option Nat × World :=
  match call.ctx with
  | none => (none, w)
  | some ctx =>
      if !call.vdev || !call.priv then (none, w)
      else
        let v := w.next
        let created := { w.act v ⟨.new, .vm ctx, none, call.stopHook, 0, false⟩ [.allocated] with
          next := w.next + 1 }
        match resAddAction call.node v (w.pools (.vm ctx)) with
        | .ok pool => (some v, created.setPool (.vm ctx) pool)
        | .error .eexist => (none, created)
        | .error _ => (none, virtioCleanup v created)

/-- `virtio_device_add_queue_locked`; `created` is the outcome of `virtqueue_create`. -/
def virtioDeviceAddQueue (v : Nat) (created : Bool) (w : World) : Except VmError Unit × World :=
  let vdev := w.vdevs v
  if vdev.state ≠ .initializing ∨ vdev.nrVqs = virtioMaxVqs then (.error .einval, w)
  else if !created then (.error .enomem, w)
  else (.ok (), w.act v { vdev with nrVqs := vdev.nrVqs + 1 } [.queueCreated vdev.nrVqs])

/-- A realize hook asks for queues, each of which may be refused, and returns. -/
structure RealizeHook where
  queues : List Bool
  result : Except VmError Unit

/-- The queues that a realize hook asks for. -/
def addQueues (v : Nat) (queues : List Bool) (w : World) : World :=
  queues.foldl (fun w created => (virtioDeviceAddQueue v created w).2) w

/-- `virtio_device_realize_locked`. -/
def virtioDeviceRealize (hook : RealizeHook) (v : Nat) (w : World)
    : Except VmError Unit × World :=
  let vdev := w.vdevs v
  if vdev.state ≠ .new ∨ vdev.parentDev = none then (.error .einval, w)
  else
    let w := w.act v { vdev with state := .initializing } [.realizeCalled]
    let w := addQueues v hook.queues w
    let w := w.act v (w.vdevs v) [.realizeReturned]
    match hook.result with
    | .error error => (.error error, virtioDeviceStop v w)
    | .ok _ => (.ok (), w.act v { w.vdevs v with state := .active } [])

/-- `res_transfer_action` of the cleanup of a frontend. -/
def resTransferAction (src dst : PoolId) (v : Nat) (w : World) : Except VmError World :=
  if (w.pools src).releasing || (w.pools dst).releasing then .error .eshutdown
  else if some v ∉ (w.pools src).resources then .error .enoent
  else if src = dst then .ok w
  else if some v ∈ (w.pools dst).resources then .error .eexist
  else
    .ok ((w.setResources src ((w.pools src).resources.erase (some v))).setResources dst
      ((w.pools dst).resources ++ [some v]))

/-- `virtio_device_adopt_locked`; `valid`: the transport operations are complete. -/
def virtioDeviceAdopt (dev : Nat) (ctx : Option Nat) (valid : Bool) (v : Nat) (w : World)
    : Except VmError Unit × World :=
  let vdev := w.vdevs v
  if !valid || vdev.parentDev.isSome || vdev.state != .new
      || ctx.all fun ctx => vdev.owner != .vm ctx then (.error .einval, w)
  else
    match resTransferAction vdev.owner (.device dev) v w with
    | .error error => (.error error, w)
    | .ok w =>
        (.ok (), w.act v { vdev with owner := .device dev, parentDev := some dev } [.adopted])

def virtioDeviceDestroy (v : Nat) (w : World) : Except VmError Unit × World :=
  let vdev := w.vdevs v
  if vdev.parentDev.isSome then (.error .ebusy, w)
  else if some v ∉ (w.pools vdev.owner).resources then (.error .enoent, w)
  else
    let w := w.setResources vdev.owner ((w.pools vdev.owner).resources.erase (some v))
    (.ok (), virtioCleanup v w)

def beginRelease (p : PoolId) (w : World) : World :=
  w.setPool p { w.pools p with releasing := true }

def releaseRound (p : PoolId) (w : World) : World :=
  match (w.pools p).resources.getLast? with
  | none => w
  | some resource =>
      let w := w.setResources p (w.pools p).resources.dropLast
      match resource with
      | none => w
      | some v => virtioCleanup v w

def endRelease (p : PoolId) (w : World) : World :=
  w.setPool p { w.pools p with releasing := false }

/-- A call, or a step of a release. The last two are other uses of a pool. -/
inductive Op where
  | alloc (call : AllocCall)
  | adopt (dev : Nat) (ctx : Option Nat) (valid : Bool) (v : Nat)
  | realize (hook : RealizeHook) (v : Nat)
  | addQueue (v : Nat) (created : Bool)
  | stop (v : Nat)
  | destroy (v : Nat)
  | beginRelease (p : PoolId)
  | releaseRound (p : PoolId)
  | endRelease (p : PoolId)
  | addOther (p : PoolId) (allocated : Bool)
  | cancelOther (p : PoolId)

def Op.perform (op : Op) (w : World) : World :=
  match op with
  | .alloc call => (virtioDeviceAlloc call w).2
  | .adopt dev ctx valid v => (virtioDeviceAdopt dev ctx valid v w).2
  | .realize hook v => (virtioDeviceRealize hook v w).2
  | .addQueue v created => (virtioDeviceAddQueue v created w).2
  | .stop v => virtioDeviceStop v w
  | .destroy v => (virtioDeviceDestroy v w).2
  | .beginRelease p => Frontend.beginRelease p w
  | .releaseRound p => Frontend.releaseRound p w
  | .endRelease p => Frontend.endRelease p w
  | .addOther p allocated => (resZalloc allocated (w.pools p)).elim w (w.setPool p)
  | .cancelOther p => w.setResources p ((w.pools p).resources.erase none)

def World.Live (w : World) (v : Nat) : Prop := v < w.next ∧ (w.vdevs v).freed = false

/-- A call is made on live frontends only, and a release begins, goes on and ends as its loop
does.
-/
def Op.Allowed (op : Op) (w : World) : Prop :=
  match op with
  | .adopt _ _ _ v | .realize _ v | .addQueue v _ | .stop v | .destroy v => w.Live v
  | .beginRelease p => (w.pools p).releasing = false
  | .releaseRound p => (w.pools p).releasing = true
  | .endRelease p => (w.pools p).releasing = true ∧ (w.pools p).resources = []
  | .alloc _ | .addOther _ _ | .cancelOther _ => True

def Step (w : World) (op : Op) (next : World) : Prop := op.Allowed w ∧ next = op.perform w

def World.history (w : World) (v : Nat) : List Life :=
  w.log.filterMap fun entry => if entry.1 = v then some entry.2 else none

end Modvm.Virtio.Frontend
