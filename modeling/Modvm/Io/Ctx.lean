import Mathlib.Logic.Function.Basic
import Modvm.Core.Errno

/-! The I/O context: bindings, the queue of work posted to them, and the loop that runs the work.
A section under the queue lock is one step, and so is every access to an atomic. Callbacks may call
the operations again, so every thread has a stack of calls in progress, innermost first.
-/

namespace Modvm.Io

inductive WorkKind where
  | data
  | control
deriving DecidableEq, Repr

/-- `struct io_work`; `call` numbers the `io_binding_post` that made it, whose data it carries. -/
structure IoWork where
  call : Nat
  binding : Nat
  kind : WorkKind
deriving DecidableEq, Repr

/-- `struct io_binding`. History: `owned` until the owner's put, `live` while allocated. -/
structure IoBinding where
  refs : Nat
  isOpen : Bool
  enabled : Bool
  owned : Bool
  live : Bool
deriving DecidableEq, Repr

/-- A call in progress.

* `run`, `release`, `fatal`: a callback, which may call the operations.
* `posting`, `refused`: `io_binding_post` before its locked section, and after a refusal.
* `closing`, `closingPut`: the loop of `io_binding_close_locked` before and after the release of
  an item.
* `freeing`: `io_binding_put` after it dropped the last reference.
* `waiting`, `ready`, `locked`, `unlocking`: `io_ctx_run` in its inner loop, before and after
  taking the device lock, and at the end of an iteration.
* `delivering`, `delivered`, `retiring`: `io_ctx_run` with an item, before the test of `open`,
  before the release and before the put.
-/
inductive Frame where
  | run (item : IoWork)
  | release (call : Nat)
  | fatal
  | posting (item : IoWork)
  | refused (call : Nat)
  | closing (binding : Nat) (cancelled : List IoWork)
  | closingPut (binding : Nat) (cancelled : List IoWork)
  | freeing (binding : Nat)
  | waiting
  | ready
  | locked
  | unlocking
  | delivering (item : IoWork)
  | delivered (item : IoWork)
  | retiring (item : IoWork)
deriving DecidableEq, Repr

inductive Event where
  | posted (item : IoWork)
  | taken (item : IoWork)
  | started (item : IoWork)
  | released (call : Nat)
  | closed (binding : Nat)
  | freed (binding : Nat)
deriving DecidableEq, Repr

variable {τ : Type}

/-- `struct io_ctx` with its bindings, the calls of all threads, and the history, oldest first;
`bug` tells whether `BUG_ON` fired in `io_binding_put`.
-/
structure IoCtx (τ : Type) where
  deviceLock : Option τ
  work : List IoWork
  stopped : Bool
  error : Int
  bindings : Nat
  hasFatal : Bool
  scopes : Nat → IoBinding
  created : Nat
  posts : Nat
  calls : τ → List Frame
  bug : Bool
  log : List Event

def noBinding : IoBinding := ⟨0, false, false, false, false⟩

def ioCtxCreate (hasFatal : Bool) : IoCtx τ where
  deviceLock := none
  work := []
  stopped := false
  error := 0
  bindings := 0
  hasFatal := hasFatal
  scopes := fun _ => noBinding
  created := 0
  posts := 0
  calls := fun _ => []
  bug := false
  log := []

def clientRuns : List Frame → Bool
  | [] => true
  | .run _ :: _ => true
  | .release _ :: _ => true
  | .fatal :: _ => true
  | _ => false

namespace IoCtx

variable [DecidableEq τ]

def goto (io : IoCtx τ) (t : τ) (stack : List Frame) : IoCtx τ :=
  { io with calls := Function.update io.calls t stack }

def setScope (io : IoCtx τ) (b : Nat) (scope : IoBinding) : IoCtx τ :=
  { io with scopes := Function.update io.scopes b scope }

def record (io : IoCtx τ) (event : Event) : IoCtx τ := { io with log := io.log ++ [event] }

end IoCtx

/-- An item that the loop may take: data of an enabled binding, or control. -/
def runnable (io : IoCtx τ) (item : IoWork) : Bool :=
  (io.scopes item.binding).enabled || decide (item.kind = .control)

variable [DecidableEq τ]

/-- `io_binding_create_locked`; `allocated` is the outcome of `calloc`. A failure changes
nothing.
-/
def ioBindingCreateLocked (io : IoCtx τ) (allocated : Bool) : IoCtx τ :=
  if !allocated then io
  else if io.stopped then io
  else
    { io.setScope io.created ⟨1, true, true, true, true⟩ with
      bindings := io.bindings + 1
      created := io.created + 1 }

/-- `atomic_fetch_sub` of `io_binding_put`: the last reference leads on to the freeing. -/
def dropReference (io : IoCtx τ) (t : τ) (b : Nat) (scope : IoBinding) (below : List Frame)
    : IoCtx τ :=
  (io.setScope b { scope with refs := scope.refs - 1 }).goto t
    (if scope.refs = 1 then .freeing b :: below else below)

def freeBinding (io : IoCtx τ) (t : τ) (b : Nat) (below : List Frame) : IoCtx τ :=
  if (io.scopes b).isOpen then { io with bug := true }
  else
    ({ io.setScope b { io.scopes b with live := false } with
        bindings := io.bindings - 1 }.goto t below).record (.freed b)

/-- The locked section of `io_binding_close_locked`: items of the binding move to the local
list.
-/
def ioBindingCloseLocked (io : IoCtx τ) (t : τ) (b : Nat) : IoCtx τ :=
  ({ io.setScope b { io.scopes b with isOpen := false } with
      work := io.work.filter (·.binding ≠ b) }.goto t
        (.closing b (io.work.filter (·.binding = b)) :: io.calls t)).record (.closed b)

/-- `io_binding_post` up to its locked section; `allocated` is the outcome of `malloc`. -/
def ioBindingPost (io : IoCtx τ) (t : τ) (b : Nat) (kind : WorkKind) (allocated : Bool)
    : IoCtx τ :=
  if !allocated then
    ({ io with posts := io.posts + 1 }.goto t (.release io.posts :: io.calls t)).record
      (.released io.posts)
  else
    { io with posts := io.posts + 1 }.goto t (.posting ⟨io.posts, b, kind⟩ :: io.calls t)

def enqueue (io : IoCtx τ) (t : τ) (item : IoWork) (below : List Frame) : IoCtx τ :=
  let scope := io.scopes item.binding
  if io.stopped || !scope.isOpen then io.goto t (.refused item.call :: below)
  else
    ({ io.setScope item.binding { scope with refs := scope.refs + 1 } with
        work := io.work ++ [item] }.goto t below).record (.posted item)

def ioCtxStop (io : IoCtx τ) : IoCtx τ := { io with stopped := true }

/-- `io_ctx_fail`; the first error is reported through the fatal callback. -/
def ioCtxFail (io : IoCtx τ) (t : τ) (error : Int) : IoCtx τ :=
  let report := decide (error < 0) && decide (io.error = 0)
  let failed := { io with error := if report then error else io.error, stopped := true }
  if report && io.hasFatal then failed.goto t (.fatal :: io.calls t) else failed

def ioBindingSetEnabledLocked (io : IoCtx τ) (b : Nat) (enabled : Bool) : IoCtx τ :=
  io.setScope b { io.scopes b with enabled := enabled }

/-- The inner loop of `io_ctx_run`: wait until an item is runnable or the context is stopped. -/
def await (io : IoCtx τ) (t : τ) (below : List Frame) : Option (IoCtx τ) :=
  if io.stopped then some (io.goto t below)
  else if io.work.any (runnable io) then some (io.goto t (.ready :: below))
  else none

/-- The second section of `io_ctx_run` under both locks: take the first runnable item. -/
def take (io : IoCtx τ) (t : τ) (below : List Frame) : IoCtx τ :=
  if io.stopped then io.goto t (.unlocking :: below)
  else
    match io.work.find? (runnable io) with
    | none => io.goto t (.unlocking :: below)
    | some item =>
        ({ io with work := io.work.eraseP (runnable io) }.goto t
          (.delivering item :: .unlocking :: below)).record (.taken item)

/-- The test of `open` in `io_ctx_run`: the callback runs only if the binding is open. -/
def deliver (io : IoCtx τ) (t : τ) (item : IoWork) (below : List Frame) : IoCtx τ :=
  if (io.scopes item.binding).isOpen then
    (io.goto t (.run item :: .delivered item :: below)).record (.started item)
  else
    io.goto t (.delivered item :: below)

/-- The innermost call goes on, unless it waits for the device lock or for work. A post reads its
binding, so it goes on only while the binding is allocated: that guard is the contract of
`binding.h`, by which the owner stops all producers before the put. What a producer outside the
contract would do is not modelled.
-/
def advance (io : IoCtx τ) (t : τ) : Option (IoCtx τ) :=
  match io.calls t with
  | .run _ :: below => some (io.goto t below)
  | .release _ :: below => some (io.goto t below)
  | .fatal :: below => some (io.goto t below)
  | .posting item :: below =>
      if (io.scopes item.binding).live then some (enqueue io t item below) else none
  | .refused call :: below =>
      some ((io.goto t (.release call :: below)).record (.released call))
  | .closing _ [] :: below => some (io.goto t below)
  | .closing b (item :: rest) :: below =>
      some ((io.goto t (.release item.call :: .closingPut b rest :: below)).record
        (.released item.call))
  | .closingPut b rest :: below =>
      some (dropReference io t b (io.scopes b) (.closing b rest :: below))
  | .freeing b :: below => some (freeBinding io t b below)
  | .waiting :: below => await io t below
  | .ready :: below =>
      match io.deviceLock with
      | none => some ({ io with deviceLock := some t }.goto t (.locked :: below))
      | some _ => none
  | .locked :: below => some (take io t below)
  | .unlocking :: below => some ({ io with deviceLock := none }.goto t (.waiting :: below))
  | .delivering item :: below => some (deliver io t item below)
  | .delivered item :: below =>
      some ((io.goto t (.release item.call :: .retiring item :: below)).record
        (.released item.call))
  | .retiring item :: below =>
      some (dropReference io t item.binding (io.scopes item.binding) below)
  | [] => none

inductive Op where
  | lockDevice
  | unlockDevice
  | create (allocated : Bool)
  | post (binding : Nat) (kind : WorkKind) (allocated : Bool)
  | close (binding : Nat)
  | put (binding : Nat)
  | setEnabled (binding : Nat) (enabled : Bool)
  | stop
  | fail (error : Int)
  | run
  | advance
deriving DecidableEq, Repr

/-- Thread `t` calls an operation. Locked ones need the device lock, an owner closes and then puts
once, and a paused binding is allocated.
-/
def call (io : IoCtx τ) (t : τ) : Op → Option (IoCtx τ)
  | .create allocated =>
      if io.deviceLock = some t then some (ioBindingCreateLocked io allocated) else none
  | .post b kind allocated => some (ioBindingPost io t b kind allocated)
  | .close b =>
      if io.deviceLock = some t ∧ (io.scopes b).owned then some (ioBindingCloseLocked io t b)
      else none
  | .put b =>
      if (io.scopes b).owned ∧ (io.scopes b).isOpen = false then
        some (dropReference io t b { io.scopes b with owned := false } (io.calls t))
      else none
  | .setEnabled b enabled =>
      if io.deviceLock = some t ∧ (io.scopes b).live then
        some (ioBindingSetEnabledLocked io b enabled)
      else none
  | .stop => some (ioCtxStop io)
  | .fail error => some (ioCtxFail io t error)
  | _ => none

def step (io : IoCtx τ) : τ × Op → Option (IoCtx τ)
  | (t, .advance) => advance io t
  | (t, .lockDevice) =>
      if io.calls t = [] ∧ io.deviceLock = none then some { io with deviceLock := some t }
      else none
  | (t, .unlockDevice) =>
      if io.calls t = [] ∧ io.deviceLock = some t then some { io with deviceLock := none }
      else none
  | (t, .run) => if io.calls t = [] then some (io.goto t [.waiting]) else none
  | (t, op) => if clientRuns (io.calls t) then call io t op else none

def Step (io : IoCtx τ) (act : τ × Op) (next : IoCtx τ) : Prop := step io act = some next

/-- `io_ctx_destroy` passes its check. -/
def ioCtxDestroyOk (io : IoCtx τ) : Bool := decide (io.bindings = 0) && io.work.isEmpty

end Modvm.Io
