import Modvm.Backend.Native

/-! A native backend at work: its host service, the I/O context of its deliveries, and the threads
of both. Sections under a lock are single steps; a callback keeps the service's lock as it posts.
-/

namespace Modvm.Backend

open Modvm.Host
open Modvm.Io hiding Event Step

/-- The outcomes of the allocations of a delivery and of its work item. -/
structure Memory where
  delivery : Bool
  work : Bool
deriving DecidableEq, Repr

def ioReceiverSubmit (b limit : Nat) (bytes : List Byte) (memory : Memory) : List Op :=
  if bytes = [] ∨ bytes.length > limit then []
  else if !memory.delivery then [.fail enomemResult]
  else if !memory.work then [.post b .data false, .fail enomemResult]
  else [.post b .data true]

def ioReceiverNotify (b : Nat) (error : Int) (memory : Memory) : List Op :=
  let report := if error < 0 then error else enomemResult
  if !memory.delivery then [.fail report]
  else if !memory.work then [.post b .control false, .fail report]
  else [.post b .control true]

def Post.script (b limit : Nat) (memory : Memory) : Post → List Op
  | .submit bytes => ioReceiverSubmit b limit bytes memory
  | .notify error => ioReceiverNotify b error memory

/-- How far `deliver` is: in the callback, before the test of `open`, before `consumed`, or at its
end.
-/
inductive Phase where
  | receiving
  | received
  | consuming
  | finished
deriving DecidableEq, Repr

/-- What happened: snapshots with whether they poll source 0, callbacks with their binding and
source.
-/
inductive Event where
  | snapshot (enabled : Bool)
  | updated (source : Nat)
  | called (binding : Option Nat) (source : Nat) (armed : Bool)
  | destroyed (binding : Nat)
deriving DecidableEq, Repr

/-- A backend with its context, current binding and receiver limit; `bound` lists all its bindings,
`phase` is that of the delivery in hand.
-/
structure World (ρ τ : Type) where
  io : IoCtx τ
  binding : Option Nat
  bound : List Nat
  limit : Nat
  ctx : ρ
  service : Service Op
  phase : τ → Phase
  log : List Event

variable {ρ τ : Type}

namespace World

def init (hasFatal : Bool) (ctx : ρ) : World ρ τ where
  io := ioCtxCreate hasFatal
  binding := none
  bound := []
  limit := 0
  ctx := ctx
  service := { (hostPosixServiceCreate [] : Service Op) with pc := .ended }
  phase := fun _ => .receiving
  log := []

def armed (w : World ρ τ) (source : Nat) : Bool :=
  (w.service.sources source).events.read || (w.service.sources source).events.write

def goto (w : World ρ τ) (pc : ServicePc Op) : World ρ τ :=
  { w with service := { w.service with pc := pc } }

def updates (w : World ρ τ) (masks : List (Nat × Mask)) : World ρ τ :=
  { w with
    service := masks.foldl (fun s (source, mask) => hostPosixServiceUpdateLocked s source mask)
      w.service
    log := w.log ++ masks.map fun (source, _) => .updated source }

/-- The delivery that a thread has in hand goes on. -/
def setPhase [DecidableEq τ] (w : World ρ τ) (t : τ) (phase : Phase) : World ρ τ :=
  { w with phase := Function.update w.phase t phase }

def script (w : World ρ τ) (memory : Memory) (post : Option Post) : List Op :=
  match w.binding, post with
  | some b, some post => post.script b w.limit memory
  | _, _ => []

/-- A successful `char_bind_locked` or `net_bind_locked`; one that fails is a creation, a close and
a put outside.
-/
def bind [DecidableEq τ] (native : Native ρ) (w : World ρ τ) (limit : Nat) : World ρ τ :=
  { w with
    io := ioBindingCreateLocked w.io true
    binding := some w.io.created
    bound := w.io.created :: w.bound
    limit := limit
    ctx := native.bind limit w.ctx
    service := hostPosixServiceCreate native.masks }

/-- The first section of `service_run`. -/
def snapshot (w : World ρ τ) : World ρ τ :=
  { w with
    service := w.service.snapshot
    log := if w.service.stopped then w.log else w.log ++ [.snapshot (w.armed 0)] }

def call (native : Native ρ) (w : World ρ τ) (report : Report) (rest : List Report)
    (host : HostIo) (memory : Memory) : World ρ τ :=
  let reaction :=
    if report.source = 0 then native.rx w.ctx report.revents.ready host else native.tx w.ctx host
  let started : World ρ τ :=
    { w with
      ctx := reaction.ctx
      log := w.log ++ [.called w.binding report.source (w.armed report.source)] }
  (started.updates reaction.updates).goto (.calling (w.script memory reaction.post) rest)

/-- The section of `service_run` after a failed `poll`. -/
def pollFailed (w : World ρ τ) (error : Int) (memory : Memory) : World ρ τ :=
  w.goto (if w.service.stopped then .ended
    else .failing (w.script memory (some (.notify error))))

/-- A data item that the backend posted, to its binding or to an earlier one. -/
def Receives (w : World ρ τ) (item : IoWork) : Prop :=
  item.kind = .data ∧ item.binding ∈ w.bound

def Client (w : World ρ τ) (t : τ) : Prop :=
  clientRuns (w.io.calls t) ∧ w.phase t = .receiving

/-- What code outside does with the I/O context: it posts to existing bindings, but no data to the
backend's, and leaves these alone while bound.
-/
structure Outside (svc : τ) (w : World ρ τ) (t : τ) (op : Op) : Prop where
  thread : t = svc → w.io.calls t ≠ []
  posts : ∀ b kind allocated, op = .post b kind allocated →
    b < w.io.created ∧ (kind = .data → b ∉ w.bound)
  puts : ∀ b, op = .put b → w.binding ≠ some b
  client : w.phase t = .receiving
  stays : ∀ item below, w.io.calls t = .run item :: below → w.Receives item → op ≠ .advance

end World

variable [DecidableEq τ]

/-- One step of one thread; `svc` is the thread of the service.

* `io`: the code outside of the backend, pausing, resuming and closing of its binding included.
* `bound`, `stopped`, `destroyed`: a bind; and in an unbind, after the close,
  `host_posix_service_destroy` before and after it joined the thread.
* `received`, `tested`, `consumed`, `delivered`: `deliver`.
* `wrote`: `char_posix_write`.
* The others: `service_run`, with `posted` and `reported` for the posts of its callbacks.
-/
inductive Step (native : Native ρ) (svc : τ) (w : World ρ τ) : World ρ τ → Prop
  | io {t : τ} {op : Op} {next : IoCtx τ} (outside : w.Outside svc t op)
    (moves : Io.Step w.io (t, op) next)
    : Step native svc w { w with io := next }
  | bound {t : τ} (limit : Nat) (client : w.Client t) (holder : w.io.deviceLock = some t)
    (other : t ≠ svc) (unbound : w.binding = none) (running : w.io.stopped = false)
    : Step native svc w (w.bind native limit)
  | received {t : τ} {item : IoWork} {below : List Frame}
    (top : w.io.calls t = .run item :: below) (receives : w.Receives item)
    (phase : w.phase t = .receiving)
    : Step native svc w (w.setPhase t .received)
  | tested {t : τ} {item : IoWork} {below : List Frame}
    (top : w.io.calls t = .run item :: below) (receives : w.Receives item)
    (phase : w.phase t = .received)
    : Step native svc w
        (w.setPhase t (if (w.io.scopes item.binding).isOpen then .consuming else .finished))
  | consumed {t : τ} {item : IoWork} {below : List Frame}
    (top : w.io.calls t = .run item :: below) (receives : w.Receives item)
    (phase : w.phase t = .consuming) (unlocked : w.service.unlocked)
    : Step native svc w ((w.updates (native.consumed w.ctx)).setPhase t .finished)
  | delivered {t : τ} {item : IoWork} {below : List Frame} {next : IoCtx τ}
    (top : w.io.calls t = .run item :: below) (receives : w.Receives item)
    (phase : w.phase t = .finished) (moves : Io.Step w.io (t, .advance) next)
    : Step native svc w ({ w with io := next }.setPhase t .receiving)
  | wrote (len : Nat) (host : HostIo) (connected : w.binding ≠ none)
    (unlocked : w.service.unlocked)
    : Step native svc w
        ({ w with ctx := (native.write w.ctx len host).1 }.updates
          (native.write w.ctx len host).2)
  | snapshot (at_ : w.service.pc = .top) : Step native svc w w.snapshot
  | interrupted {fds : List PollFd} (at_ : w.service.pc = .polling fds)
    : Step native svc w (w.goto .top)
  | pollFailed {fds : List PollFd} (error : Int) (memory : Memory)
    (at_ : w.service.pc = .polling fds)
    : Step native svc w (w.pollFailed error memory)
  | polled {fds : List PollFd} (revents : Nat → Revents) (at_ : w.service.pc = .polling fds)
    : Step native svc w (w.goto (.scanning (poll fds revents)))
  | passed {report : Report} {rest : List Report}
    (at_ : w.service.pc = .scanning (report :: rest))
    (nothing : report.revents = .zero ∨ w.service.current report = false)
    : Step native svc w (w.goto (.scanning rest))
  | called {report : Report} {rest : List Report} (host : HostIo) (memory : Memory)
    (at_ : w.service.pc = .scanning (report :: rest)) (reported : report.revents ≠ .zero)
    (current : w.service.current report)
    : Step native svc w (w.call native report rest host memory)
  | scanned (at_ : w.service.pc = .scanning []) : Step native svc w (w.goto .top)
  | posted {op : Op} {script : List Op} {rest : List Report} {next : IoCtx τ}
    (at_ : w.service.pc = .calling (op :: script) rest) (idle : w.io.calls svc = [])
    (moves : Io.Step w.io (svc, op) next)
    : Step native svc w ({ w with io := next }.goto (.calling script rest))
  | returned {rest : List Report} (at_ : w.service.pc = .calling [] rest)
    (idle : w.io.calls svc = [])
    : Step native svc w (w.goto (.scanning rest))
  | reported {op : Op} {script : List Op} {next : IoCtx τ}
    (at_ : w.service.pc = .failing (op :: script)) (idle : w.io.calls svc = [])
    (moves : Io.Step w.io (svc, op) next)
    : Step native svc w ({ w with io := next }.goto (.failing script))
  | failed (at_ : w.service.pc = .failing []) (idle : w.io.calls svc = [])
    : Step native svc w (w.goto .ended)
  | stopped {t : τ} {b : Nat} (client : w.Client t) (holder : w.io.deviceLock = some t)
    (bound : w.binding = some b) (closed : (w.io.scopes b).isOpen = false)
    (unlocked : w.service.unlocked)
    : Step native svc w { w with service := { w.service with stopped := true } }
  | destroyed {t : τ} {b : Nat} (client : w.Client t) (holder : w.io.deviceLock = some t)
    (bound : w.binding = some b) (closed : (w.io.scopes b).isOpen = false)
    (joined : w.service.pc = .ended) (stopped : w.service.stopped)
    : Step native svc w
        { w with
          binding := none
          ctx := native.unbind w.ctx
          log := w.log ++ [.destroyed b] }

end Modvm.Backend
