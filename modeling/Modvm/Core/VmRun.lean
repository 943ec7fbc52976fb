import Modvm.Core.Vm
import Modvm.Lib.Runs

/-! Running a virtual machine: threads with stacks of calls in progress, innermost first. An access
to an atomic is one step, and so is a section under the queue lock; any thread may run in between.
-/

namespace Modvm.Core.Execution

open Modvm.Lib

abbrev Errno := { error : Int // error < 0 }

def enomem : Errno := ⟨-12, by decide⟩

def einval : Errno := ⟨-22, by decide⟩

/-- The caller of `vm_init` and `vm_run`, the processors' threads by order of creation, and any
others.
-/
inductive Thread where
  | main
  | vcpu (handle : Nat)
  | producer (id : Nat)
deriving DecidableEq, Repr

/-- The fields of `struct io_ctx` that stops and failures concern. -/
structure IoLatch where
  stopped : Bool
  error : Int
deriving DecidableEq, Repr

namespace IoLatch

abbrev Reports (io : IoLatch) (error : Int) : Prop := error < 0 ∧ io.error = 0

def fail (io : IoLatch) (error : Int) : IoLatch :=
  ⟨true, if io.Reports error then error else io.error⟩

def stop (io : IoLatch) : IoLatch := { io with stopped := true }

end IoLatch

/-- What the threads share without the thread lock. History, oldest first: `recorded` errors offered
to `run_error`, `given` to `io_ctx_fail`, `fatals` to the callback; `observed` is the I/O context's
error when its loop saw the stop.
-/
structure Shared where
  runError : Int
  stopRequested : Bool
  io : IoLatch
  result : Option Int
  recorded : List Int
  given : List Int
  fatals : List Int
  observed : Option Int
deriving DecidableEq, Repr

namespace Shared

/-- `atomic_compare_exchange_strong` of `run_error`, which is zero until an error is recorded. -/
def record (error : Errno) (shared : Shared) : Shared :=
  { shared with
    runError := if shared.runError = 0 then error else shared.runError
    recorded := shared.recorded ++ [error.1] }

def requestStop (shared : Shared) : Shared := { shared with stopRequested := true }

def stopIo (shared : Shared) : Shared := { shared with io := shared.io.stop }

def failIo (error : Int) (shared : Shared) : Shared :=
  { shared with io := shared.io.fail error, given := shared.given ++ [error] }

def callFatal (error : Errno) (shared : Shared) : Shared :=
  { shared with fatals := shared.fatals ++ [error.1] }

/-- The loop of `io_ctx_run` sees the stop. -/
def observe (shared : Shared) : Shared := { shared with observed := some shared.io.error }

def finish (shared : Shared) : Shared := { shared with result := some shared.runError }

end Shared

/-- A call in progress.

* `failing`: `io_ctx_fail` after its locked section, if it has to call the fatal callback.
* `reporting`: `vm_report_error`, which is also the fatal callback.
* `requesting`, `locking`, `kicking`, `kickFailed`, `stopping`: `vm_request_shutdown` before its
  store, before it takes the thread lock, at a processor, after a kick that failed, and after the
  lock.
* `callback`: device code that the loop of `io_ctx_run` runs.
* `vcpuEntry`, `vcpuCheck`, `vcpuRun`: `vcpu_thread_fn` before it passes the thread lock, before
  it tests for a stop, and in `vcpu_run`.
* `assemble`: `vm_init` after it created the I/O context.
* `start`, `allocate`, `schedule`, `powerOn`, `boot`: `vm_run` before its checks, before
  `res_zalloc` and `res_add_action`, before the second test for a stop, and in the boot hook.
* `spawnLock`, `spawn`, `create`, `spawned`: `vm_run` before it takes the thread lock, at the loop
  test, before it creates a thread, and before it returns the lock.
* `dispatch`, `out`, `cleanup`: `vm_run` in `io_ctx_run`, at its exit and before `run_cleanup`.
* `join`, `joining`: the loop of `run_cleanup` before it takes a handle, and with it.
* `abort`, `finish`: the ends of `vm_run` without a run and with its result.
-/
inductive Frame where
  | failing (error : Errno)
  | reporting (error : Errno)
  | requesting
  | locking
  | kicking (index : Nat)
  | kickFailed (index : Nat) (error : Errno)
  | stopping
  | callback
  | vcpuEntry
  | vcpuCheck
  | vcpuRun
  | assemble
  | start
  | allocate
  | schedule
  | powerOn
  | boot
  | spawnLock
  | spawn (index : Nat)
  | create (index : Nat)
  | spawned (ret : Int)
  | dispatch
  | out (ret : Int)
  | cleanup
  | join (index : Nat)
  | joining (index : Nat) (thread : Option Nat)
  | abort
  | finish
deriving DecidableEq, Repr

/-- The number of processors, and whether there are `kick` and `boot` operations. -/
structure RunConfig where
  nrVcpus : Nat
  hasKick : Nat → Bool
  hasBoot : Bool

/-- A machine and its threads, with the number of threads that were created. -/
structure VmRun where
  shared : Shared
  state : VmState
  threadLock : Option Thread
  vcpuThreads : Nat → Option Nat
  created : Nat
  calls : Thread → List Frame

namespace VmRun

def update (s : VmRun) (change : Shared → Shared) : VmRun := { s with shared := change s.shared }

def goto (s : VmRun) (t : Thread) (stack : List Frame) : VmRun :=
  { s with calls := Function.update s.calls t stack }

def spawnVcpu (s : VmRun) (index : Nat) : VmRun :=
  { s with
    vcpuThreads := Function.update s.vcpuThreads index (some s.created)
    created := s.created + 1 }.goto (.vcpu s.created) [.vcpuEntry]

def initial : VmRun where
  shared := ⟨0, false, ⟨false, 0⟩, none, [], [], [], none⟩
  state := .building
  threadLock := none
  vcpuThreads := fun _ => none
  created := 0
  calls := fun t => if t = .main then [.assemble] else []

end VmRun

/-- One step of the innermost call of thread `t`: the state after it, and what replaces the frame.
`answer` is what is returned by host, board or accelerator, negative on failure. There is no step
while a lock is taken or a thread to be joined runs.
-/
def frameStep (config : RunConfig) (s : VmRun) (t : Thread) (answer : Int)
    : Frame → Option (VmRun × List Frame)
  | .failing error => some (s.update (.callFatal error), [.reporting error])
  | .reporting error => some (s.update (.record error), [.requesting])
  | .requesting => some (s.update .requestStop, [.locking])
  | .locking =>
      if s.threadLock = none then some ({ s with threadLock := some t }, [.kicking 0]) else none
  | .kicking index =>
      if index < config.nrVcpus then
        if (s.vcpuThreads index).isSome && config.hasKick index then
          if failed : answer < 0 then some (s, [.kickFailed index ⟨answer, failed⟩])
          else some (s, [.kicking (index + 1)])
        else some (s, [.kicking (index + 1)])
      else some ({ s with threadLock := none }, [.stopping])
  | .kickFailed index error => some (s.update (.record error), [.kicking (index + 1)])
  | .stopping => some (s.update .stopIo, [])
  | .callback => some (s, [])
  | .vcpuEntry => if s.threadLock = none then some (s, [.vcpuCheck]) else none
  | .vcpuCheck => some (s, if s.shared.stopRequested then [] else [.vcpuRun])
  | .vcpuRun =>
      if failed : answer < 0 then some (s, [.reporting ⟨answer, failed⟩]) else some (s, [])
  | .assemble =>
      -- A machine with an error is never ready, and neither is one that could not be assembled.
      if answer < 0 ∨ s.shared.runError < 0 then some (s, [])
      else some ({ s with state := .ready }, [.start])
  | .start =>
      if s.state ≠ .ready then
        some (s.update fun shared => { shared with result := some einval }, [])
      else if s.shared.stopRequested then some ({ s with state := .stopped }, [.finish])
      else some (s, [.allocate])
  | .allocate => some (s, if answer < 0 then [.reporting enomem, .abort] else [.schedule])
  | .schedule =>
      if failed : answer < 0 then some (s, [.reporting ⟨answer, failed⟩, .abort])
      else some ({ s with state := .running }, [.powerOn])
  | .powerOn =>
      some (s, if s.shared.stopRequested then [.out 0]
        else if config.hasBoot then [.boot] else [.spawnLock])
  | .boot => some (s, if answer < 0 then [.out answer] else [.spawnLock])
  | .spawnLock =>
      if s.threadLock = none then some ({ s with threadLock := some t }, [.spawn 0]) else none
  | .spawn index =>
      some (s, if index < config.nrVcpus ∧ s.shared.stopRequested = false then [.create index]
        else [.spawned 0])
  | .create index =>
      if answer < 0 then some (s, [.spawned answer])
      else some (s.spawnVcpu index, [.spawn (index + 1)])
  | .spawned ret =>
      some ({ s with threadLock := none }, if ret = 0 then [.dispatch] else [.out ret])
  | .dispatch =>
      if s.shared.io.stopped then some (s.update .observe, [.out s.shared.io.error])
      else some (s, [.callback, .dispatch])
  | .out ret =>
      if failed : ret < 0 then some (s, [.reporting ⟨ret, failed⟩, .cleanup])
      else some (s, [.cleanup])
  | .cleanup => some (s, [.requesting, .join 0])
  | .join index =>
      if index < config.nrVcpus then
        if s.threadLock = none then
          some ({ s with vcpuThreads := Function.update s.vcpuThreads index none },
            [.joining index (s.vcpuThreads index)])
        else none
      else some ({ s with state := .stopped }, [.finish])
  | .joining index thread =>
      if thread.all fun handle => (s.calls (.vcpu handle)).isEmpty then
        some (s, [.join (index + 1)])
      else none
  | .abort => some ({ s with state := .stopped }, [.finish])
  | .finish => some (s.update .finish, [])

def advance (config : RunConfig) (s : VmRun) (t : Thread) (answer : Int) : Option VmRun :=
  match s.calls t with
  | [] => none
  | frame :: below =>
      (frameStep config s t answer frame).map fun (next, frames) => next.goto t (frames ++ below)

/-- What code outside of these functions may call. -/
inductive Call where
  | fail (error : Int)
  | report (error : Int)
  | shutdown
deriving DecidableEq, Repr

/-- The first step of the call: the locked section of `io_ctx_fail`. -/
def Call.effect : Call → Shared → Shared
  | .fail error => .failIo error
  | .report _ => id
  | .shutdown => id

/-- What is left of the call: only the first negative error is reported to the callback. -/
def Call.frames (io : IoLatch) : Call → List Frame
  | .fail error =>
      if first : io.Reports error then [.failing ⟨error, first.1⟩] else []
  | .report error =>
      if negative : error < 0 then [.reporting ⟨error, negative⟩] else []
  | .shutdown => [.requesting]

def call (s : VmRun) (t : Thread) (request : Call) : VmRun :=
  (s.update request.effect).goto t (request.frames s.shared.io ++ s.calls t)

/-- Code of the board, of a device or of a producer runs in thread `t`. -/
def clientRuns : Thread → List Frame → Bool
  | _, .assemble :: _ => true
  | _, .boot :: _ => true
  | _, .callback :: _ => true
  | _, .vcpuRun :: _ => true
  | .producer _, [] => true
  | _, _ => false

inductive Act where
  | go (answer : Int)
  | call (call : Call)
deriving DecidableEq, Repr

def step (config : RunConfig) (s : VmRun) : Thread × Act → Option VmRun
  | (t, .go answer) => advance config s t answer
  | (t, .call request) => if clientRuns t (s.calls t) then some (call s t request) else none

def Step (config : RunConfig) (s : VmRun) (act : Thread × Act) (next : VmRun) : Prop :=
  step config s act = some next

end Modvm.Core.Execution
