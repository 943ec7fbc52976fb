import Mathlib.Logic.Function.Basic

/-! The host service: a thread that polls descriptors and calls back for those that are ready and
unchanged since the snapshot. The pipe that wakes it has no other effect and is left out.
-/

namespace Modvm.Host

/-- An event mask, of `HOST_POSIX_READ` and `HOST_POSIX_WRITE`. -/
structure Mask where
  read : Bool
  write : Bool
deriving DecidableEq, Repr

namespace Mask

def none : Mask := ⟨false, false⟩

def readOnly : Mask := ⟨true, false⟩

def writeOnly : Mask := ⟨false, true⟩

end Mask

/-- `struct service_source`, without the descriptor and the callback, which never change. -/
structure Source where
  events : Mask
  revision : BitVec 64
deriving DecidableEq, Repr

/-- An entry of `fds` with its version. Without events it is polled as -1, so not `enabled`. -/
structure PollFd where
  source : Nat
  enabled : Bool
  version : BitVec 64
deriving DecidableEq, Repr

/-- The bits of `revents` that the loop reads. -/
structure Revents where
  pollin : Bool
  pollout : Bool
  pollhup : Bool
  pollerr : Bool
  pollnval : Bool
deriving DecidableEq, Repr

def Revents.zero : Revents := ⟨false, false, false, false, false⟩

structure Report where
  source : Nat
  version : BitVec 64
  revents : Revents
deriving DecidableEq, Repr

/-- The events that a callback is called with. -/
structure Ready where
  read : Bool
  write : Bool
  error : Bool
deriving DecidableEq, Repr

def Revents.ready (revents : Revents) : Ready where
  read := revents.pollin || revents.pollhup
  write := revents.pollout
  error := revents.pollerr || revents.pollnval

/-- Where the thread is in `service_run`.

* `top`: before the snapshot.
* `polling`: in `poll`.
* `scanning`: before the next reports of the loop over `fds`.
* `calling`: in a callback, under the lock, with the calls that it has yet to make.
* `failing`: in the `fatal` callback, under the lock, in the same way.
* `ended`: the thread has returned.
-/
inductive ServicePc (ω : Type) where
  | top
  | polling (fds : List PollFd)
  | scanning (reports : List Report)
  | calling (script : List ω) (reports : List Report)
  | failing (script : List ω)
  | ended
deriving DecidableEq, Repr

def ServicePc.script {ω : Type} : ServicePc ω → List ω
  | .calling script _ => script
  | .failing script => script
  | _ => []

/-- `struct host_posix_service`, with its thread. -/
structure Service (ω : Type) where
  sources : Nat → Source
  count : Nat
  stopped : Bool
  pc : ServicePc ω

variable {ω : Type}

namespace Service

def unlocked (s : Service ω) : Bool :=
  match s.pc with
  | .calling _ _ => false
  | .failing _ => false
  | _ => true

def fds (s : Service ω) : List PollFd :=
  (List.range s.count).map fun i =>
    ⟨i, (s.sources i).events.read || (s.sources i).events.write, (s.sources i).revision⟩

/-- The first locked section of the loop of `service_run`. -/
def snapshot (s : Service ω) : Service ω :=
  if s.stopped then { s with pc := .ended } else { s with pc := .polling s.fds }

def current (s : Service ω) (report : Report) : Bool :=
  !s.stopped && decide (report.version = (s.sources report.source).revision)

end Service

def hostPosixServiceUpdateLocked (s : Service ω) (source : Nat) (events : Mask) : Service ω :=
  { s with
    sources := Function.update s.sources source ⟨events, (s.sources source).revision + 1⟩ }

def poll (fds : List PollFd) (revents : Nat → Revents) : List Report :=
  fds.map fun fd => ⟨fd.source, fd.version, if fd.enabled then revents fd.source else .zero⟩

def hostPosixServiceCreate (masks : List Mask) : Service ω where
  sources := fun i => ⟨(masks[i]?).getD .none, 0⟩
  count := masks.length
  stopped := false
  pc := .top

@[simp]
theorem update_source_self (s : Service ω) (source : Nat) (events : Mask)
    : (hostPosixServiceUpdateLocked s source events).sources source
      = ⟨events, (s.sources source).revision + 1⟩ :=
  Function.update_self ..

theorem update_source_of_ne (s : Service ω) {source other : Nat} (different : other ≠ source)
    (events : Mask)
    : (hostPosixServiceUpdateLocked s source events).sources other = s.sources other :=
  Function.update_of_ne different ..

end Modvm.Host
