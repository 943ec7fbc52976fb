import Modvm.Core.DeviceTeardown
import Modvm.Core.Vm
import Modvm.Lib.Fallible

/-! Assembling and destroying a virtual machine: steps that may fail, and the hooks of any board. -/

namespace Modvm.Core.Lifecycle

open Modvm.Util Modvm.Lib Modvm.Core.Tree

/-- The cleanup functions that `vm_init` itself schedules. -/
inductive CoreCleanup where
  | io
  | mutex
  | memory
  | accel
  | vcpu (index : Nat)
deriving DecidableEq, Repr

/-- The cleanup functions in the pool of a machine; `board` are those of boards, frontends and
loaders.
-/
inductive VmCleanup (β : Type) where
  | core (cleanup : CoreCleanup)
  | board (action : β)
deriving DecidableEq, Repr

inductive VmEvent (α β : Type) where
  | device (event : Tree.Event α)
  | ioDestroyed
  | lockDestroyed
  | ramFreed (region : MemRegion)
  | accelDestroyed
  | vcpuDestroyed (index : Nat)
  | boardRan (action : β)
deriving DecidableEq, Repr

/-- `struct vm_ctx`: `machine` has the devices' list and lifetime, `ctx` what the address map needs.
-/
structure Vm (α β σ : Type) where
  ctx : VmCtx
  machine : Tree.Machine α σ
  resources : ResPool (VmCleanup β)
  log : List (VmEvent α β)

def Vm.cleared {α β σ : Type} (device : Nat → Tree.Device α) (env : σ) : Vm α β σ where
  ctx :=
    { state := .building, stopRequested := false, accel := none, memSpace := ⟨[], 0, 0⟩
      ioMap := ⟨fun _ => [], 0⟩, devices := fun _ => ⟨false, false, ⟨[], false⟩⟩ }
  machine := ⟨[], device, env, []⟩
  resources := resPoolInit
  log := []

/-! ### Configuration, and the answers of the host -/

/-- `struct board_desc`: whether `ops` and `ops->init` are there, and `ops->late_init`. -/
structure BoardDesc where
  init : Bool
  lateInit : Bool
deriving Repr

/-- `struct vm_config`. Of backend pointers only their validity matters: neither null nor an
error.
-/
structure VmConfig where
  accelName : Option String
  nrVcpus : BitVec 32
  loaderName : Option String
  loaderOpts : Option String
  board : Option BoardDesc
  consoleIsErr : Bool
  drives : Option (Nat → Bool)
  nrDrives : BitVec 64
  nets : Option (Nat → Bool)
  nrNets : BitVec 64

structure DeviceForest (α σ : Type) extends Tree.Machine α σ where
  forest : Forest toMachine.parent toMachine.devices
  idle : toMachine.Idle

/-- What board code does: it leaves devices and I/O regions, adds RAM, uses the pool, or has the
machine stop.
-/
inductive BoardOp (α β σ : Type) where
  | build (devices : DeviceForest α σ) (ioMap : IoMap)
  | addRam (host : AddRamHost) (gpa size : BitVec 64) (flags : BitVec 32)
  | zalloc (allocated : Bool)
  | addAction (action : β) (allocated : Bool)
  | cancelAction (action : β)
  | requestStop

structure BoardRun (α β σ : Type) where
  ops : List (BoardOp α β σ)
  result : Except VmError Unit

/-- What everything that `vm_init` calls answers. `mac n j` is the address of backend `j` in round
`n`.
-/
structure InitHost (α β σ : Type) where
  strings : Nat → Bool
  driveArray : Bool
  netArray : Bool
  mac : Nat → Nat → Except VmError (List Byte)
  ioCtx : Except VmError Unit
  ioAction : Bool
  threadLock : Except VmError Unit
  lockAction : Bool
  memoryAction : Bool
  pageSize : Nat
  accelAction : Bool
  accelDesc : Option AccelDesc
  accelInit : Except VmError Unit
  boardInit : BoardRun α β σ
  vcpuArray : Bool
  threadArray : Bool
  vcpuNode : Nat → Bool
  vcpuAction : Nat → Bool
  vcpuInit : Nat → Except VmError Unit
  lateInit : BoardRun α β σ
  runError : Option VmError

/-! ### Cleanup -/

variable {α β σ : Type}

namespace Vm

def record (vm : Vm α β σ) (events : List (VmEvent α β)) : Vm α β σ :=
  { vm with log := vm.log ++ events }

def memSpaceDestroy (vm : Vm α β σ) : Vm α β σ :=
  let freed := vm.record (vm.ctx.memSpace.regions.map .ramFreed)
  { freed with
    ctx := { vm.ctx with memSpace := { vm.ctx.memSpace with regions := [], totalRam := 0 } } }

def runCore (cleanup : CoreCleanup) (vm : Vm α β σ) : Vm α β σ :=
  match cleanup with
  | .io => vm.record [.ioDestroyed]
  | .mutex => vm.record [.lockDestroyed]
  | .memory => vm.memSpaceDestroy
  | .accel => vm.record [.accelDestroyed]
  | .vcpu index => vm.record [.vcpuDestroyed index]

/-- Run an action of the pool; `board` is the effect of the cleanup functions of others. -/
def runCleanup (board : β → σ → σ) (cleanup : VmCleanup β) (vm : Vm α β σ) : Vm α β σ :=
  match cleanup with
  | .core cleanup => vm.runCore cleanup
  | .board action =>
      { vm with machine := { vm.machine with env := board action vm.machine.env } }
        |>.record [.boardRan action]

end Vm

variable [DecidableEq β]

/-! ### Construction -/

def vmZalloc (allocated : Bool) : Fallible VmError (Vm α β σ) := fun vm =>
  match resZalloc allocated vm.resources with
  | none => (.error .enomem, vm)
  | some pool => (.ok (), { vm with resources := pool })

def vmAddAction (allocated : Bool) (cleanup : VmCleanup β) : Fallible VmError (Vm α β σ) :=
  fun vm =>
    match resAddAction allocated cleanup vm.resources with
    | .error error => (.error error, vm)
    | .ok pool => (.ok (), { vm with resources := pool })

/-- `res_add_action_or_reset`: what cannot be scheduled is undone at once, unless it is scheduled
already.
-/
def vmAddActionOrReset (allocated : Bool) (cleanup : CoreCleanup)
    : Fallible VmError (Vm α β σ) :=
  fun vm =>
    match resAddAction allocated (.core cleanup) vm.resources with
    | .error .eexist => (.error .eexist, vm)
    | .error error => (.error error, vm.runCore cleanup)
    | .ok pool => (.ok (), { vm with resources := pool })

/-- A call outside that returns an error or succeeds. -/
def call (result : Except VmError Unit) : Fallible VmError (Vm α β σ) := fun vm => (result, vm)

def BoardOp.apply (op : BoardOp α β σ) (vm : Vm α β σ) : Vm α β σ :=
  match op with
  | .build devices ioMap =>
      { vm with machine := devices.toMachine, ctx := { vm.ctx with ioMap := ioMap } }
  | .addRam host gpa size flags => { vm with ctx := (vmAddRam host gpa size flags vm.ctx).2 }
  | .zalloc allocated => (vmZalloc allocated vm).2
  | .addAction action allocated => (vmAddAction allocated (.board action) vm).2
  | .cancelAction action =>
      { vm with resources := { vm.resources with
          resources := vm.resources.resources.erase (some (.board action)) } }
  | .requestStop => { vm with ctx := { vm.ctx with stopRequested := true } }

def BoardRun.run (hook : BoardRun α β σ) : Fallible VmError (Vm α β σ) := fun vm =>
  (hook.result, hook.ops.foldl (fun vm op => op.apply vm) vm)

def checkConfig (config : VmConfig) : Fallible VmError (Vm α β σ) :=
  (Fallible.require (config.accelName.isSome && config.nrVcpus != 0
      && decide (config.nrNets.toNat ≤ (2 ^ 64 - 1) / 8)
      && decide (config.nrDrives.toNat ≤ (2 ^ 64 - 1) / 8)
      && (config.nrNets == 0 || config.nets.isSome)
      && (config.nrDrives == 0 || config.drives.isSome)) .einval).andThen <|
  (Fallible.require (config.board.all BoardDesc.init) .einval).andThen <|
  Fallible.require (decide (config.nrVcpus.toNat * 16 < 2 ^ 64)) .eoverflow

def copyConfig (config : VmConfig) (host : InitHost α β σ) : Fallible VmError (Vm α β σ) :=
  let strings := [config.accelName, config.loaderName, config.loaderOpts]
  (Fallible.each (fun (entry : Option String × Nat) =>
      if entry.1.isSome then vmZalloc (host.strings entry.2) else .skip) strings.zipIdx).andThen <|
  (if config.nrDrives == 0 then .skip else vmZalloc host.driveArray).andThen <|
  if config.nrNets == 0 then .skip else vmZalloc host.netArray

def checkNet (config : VmConfig) (host : InitHost α β σ) (n : Nat)
    : Fallible VmError (Vm α β σ) :=
  (Fallible.require (config.nets.any fun nets => nets n) .einval).andThen <|
  match host.mac n n with
  | .error error => call (.error error)
  | .ok mac =>
      Fallible.each (fun j =>
        match host.mac n j with
        | .error error => call (.error error)
        | .ok other => Fallible.require (decide (mac.take 6 ≠ other.take 6)) .eexist)
        (List.range n)

def checkBackends (config : VmConfig) (host : InitHost α β σ) : Fallible VmError (Vm α β σ) :=
  (Fallible.require (!config.consoleIsErr) .einval).andThen <|
  (Fallible.each (fun n => Fallible.require (config.drives.any fun drives => drives n) .einval)
    (List.range config.nrDrives.toNat)).andThen <|
  Fallible.each (checkNet config host) (List.range config.nrNets.toNat)

def memSpaceInit (pageSize : Nat) : Fallible VmError (Vm α β σ) := fun vm =>
  let vm := { vm with ctx := { vm.ctx with memSpace := ⟨[], 0, pageSize⟩ } }
  if pageSize = 0 then (.error .eio, vm) else (.ok (), vm)

def accelInit (desc : Option AccelDesc) (result : Except VmError Unit)
    : Fallible VmError (Vm α β σ) :=
  fun vm =>
    let vm := { vm with ctx := { vm.ctx with accel := desc } }
    match desc with
    | none => (.error .enoent, vm)
    | some _ => (result, vm)

/-- Both arrays are asked for before either is checked. -/
def allocVcpuArrays (vcpus threads : Bool) : Fallible VmError (Vm α β σ) := fun vm =>
  let first := vmZalloc vcpus vm
  let second := vmZalloc threads first.2
  match first.1, second.1 with
  | .ok _, .ok _ => (.ok (), second.2)
  | _, _ => (.error .enomem, second.2)

def createVcpu (host : InitHost α β σ) (index : Nat) : Fallible VmError (Vm α β σ) :=
  (vmZalloc (host.vcpuNode index)).andThen <|
  (vmAddAction (host.vcpuAction index) (.core (.vcpu index))).andThen <|
  call (host.vcpuInit index)

def becomeReady (runError : Option VmError) : Fallible VmError (Vm α β σ) := fun vm =>
  match runError with
  | some error => (.error error, vm)
  | none => (.ok (), { vm with ctx := { vm.ctx with state := .ready } })

def vmInit (config : Option VmConfig) (host : InitHost α β σ) : Fallible VmError (Vm α β σ) :=
  match config with
  | none => call (.error .einval)
  | some config =>
      (checkConfig config).andThen <|
      (copyConfig config host).andThen <|
      (checkBackends config host).andThen <|
      (call host.ioCtx).andThen <|
      (vmAddActionOrReset host.ioAction .io).andThen <|
      (call host.threadLock).andThen <|
      (vmAddActionOrReset host.lockAction .mutex).andThen <|
      (vmAddAction host.memoryAction (.core .memory)).andThen <|
      (memSpaceInit host.pageSize).andThen <|
      (vmAddAction host.accelAction (.core .accel)).andThen <|
      (accelInit host.accelDesc host.accelInit).andThen <|
      (if config.board.isSome then host.boardInit.run else .skip).andThen <|
      (allocVcpuArrays host.vcpuArray host.threadArray).andThen <|
      (Fallible.each (createVcpu host) (List.range' 0 config.nrVcpus.toNat)).andThen <|
      (if config.board.any BoardDesc.lateInit then host.lateInit.run else .skip).andThen <|
      becomeReady host.runError

/-! ### Destruction -/

def Vm.observe (vm : Vm α β σ) (machine : Tree.Machine α σ) : Vm α β σ :=
  { vm with machine := machine }.record
    ((machine.log.drop vm.machine.log.length).map .device)

/-- `res_release_all` of the pool of the machine, whose actions leave that pool alone. -/
def releaseVmPool (board : β → σ → σ) (vm : Vm α β σ) : Vm α β σ :=
  if vm.resources.releasing then vm
  else
    { resRelease (Vm.runCleanup board) vm.resources.resources.reverse vm with
      resources := ⟨[], false⟩ }

variable [DecidableEq α] (hooks : Hooks α σ) (board : β → σ → σ)

/-- The device loop of `vm_destroy`; `none` is more rounds or calls than allowed. -/
def destroyDevices (fuel : Nat) : Nat → Vm α β σ → Option (Vm α β σ)
  | 0, _ => none
  | rounds + 1, vm =>
      match vm.machine.devices.getLast? with
      | none => some vm
      | some dev =>
          (deviceDestroy hooks fuel dev vm.machine).bind fun machine =>
            destroyDevices fuel rounds (vm.observe machine)

def vmDestroy (fuel : Nat) (vm : Vm α β σ) : Option (Vm α β σ) :=
  (destroyDevices hooks fuel fuel vm).map fun vm =>
    let vm := releaseVmPool board vm
    { vm with ctx := { vm.ctx with state := .stopped } }

end Modvm.Core.Lifecycle
