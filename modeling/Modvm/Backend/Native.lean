import Modvm.Host.Service
import Modvm.Io.Ctx
import Modvm.Virtio.Net

/-! The console and TAP backends. A callback is modelled by the masks it updates and what it posts.
-/

namespace Modvm.Backend

open Modvm.Host Modvm.Io

def eioResult : Int := -5

def eagainResult : Int := -11

def enomemResult : Int := -12

/-- What `read` returns: bytes (none at the end of the file), `EAGAIN`, or a host error. -/
inductive ReadResult where
  | bytes (available : List Byte)
  | again
  | failed (error : Int)
deriving DecidableEq, Repr

/-- What the host returns to one callback: the read, and each write with its count or error. -/
structure HostIo where
  input : ReadResult
  writes : List (Except Int Nat)

/-- A call of `io_receiver_submit` or `io_receiver_notify`. -/
inductive Post where
  | submit (bytes : List Byte)
  | notify (error : Int)
deriving DecidableEq, Repr

/-- What a callback does: the context it leaves, the masks it updates, and what it posts. -/
structure Reaction (ρ : Type) where
  ctx : ρ
  updates : List (Nat × Mask)
  post : Option Post

def stdioTxBufSize : Nat := 1024 * 1024

def escapeChar : Byte := 0x01

/-- The part of `struct char_posix_ctx` that input depends on, and the fill of the output
buffer.
-/
structure CharPosixCtx where
  rxLimit : Nat
  txLen : Nat
  escapePending : Bool
  rxClosed : Bool
deriving DecidableEq, Repr

/-- `stdio_flush`, over what its writes return; no further write is possible at the end of the
list.
-/
def stdioFlush (txLen : Nat) : List (Except Int Nat) → Nat × Option Int
  | [] => (txLen, none)
  | result :: rest =>
      if txLen = 0 then (0, none)
      else
        match result with
        | .error error => (txLen, if error = eagainResult then none else some error)
        | .ok 0 => (txLen, some eioResult)
        | .ok n => stdioFlush (txLen - n) rest

def stdioTxReady (ctx : CharPosixCtx) (host : HostIo) : Reaction CharPosixCtx :=
  let (txLen, error) := stdioFlush ctx.txLen host.writes
  ⟨{ ctx with txLen := txLen },
    if txLen = 0 ∨ error.isSome then [(1, .none)] else [],
    error.map .notify⟩

/-- `char_posix_write` of `len` bytes. -/
def charPosixWrite (ctx : CharPosixCtx) (len : Nat) (host : HostIo)
    : CharPosixCtx × List (Nat × Mask) :=
  if len > stdioTxBufSize - ctx.txLen then (ctx, [])
  else
    let (txLen, error) := stdioFlush (ctx.txLen + len) host.writes
    ({ ctx with txLen := txLen },
      [(1, if error.isNone ∧ txLen ≠ 0 then .writeOnly else .none)])

/-- `stdio_consumed`: the source is armed again unless input has ended. -/
def stdioConsumed (ctx : CharPosixCtx) : List (Nat × Mask) :=
  if ctx.rxClosed then [] else [(0, .readOnly)]

/-- The loop of `char_posix_rx_cb` over the bytes it read; `none` when the user asked to exit. -/
def filterInput (pending : Bool) (filtered : List Byte) : List Byte → Option (Bool × List Byte)
  | [] => some (pending, filtered)
  | byte :: rest =>
      if pending then
        if byte = 0x78 ∨ byte = 0x58 then none
        else if byte = escapeChar then filterInput false (filtered ++ [escapeChar]) rest
        else filterInput false filtered rest
      else if byte = escapeChar then filterInput true filtered rest
      else filterInput false (filtered ++ [byte]) rest

def charPosixRxCb (ctx : CharPosixCtx) (events : Ready) (host : HostIo)
    : Reaction CharPosixCtx :=
  if events.error then ⟨{ ctx with rxClosed := true }, [(0, .none)], some (.notify eioResult)⟩
  else if !events.read then ⟨ctx, [], none⟩
  else
    match host.input with
    | .again => ⟨ctx, [], none⟩
    | .failed error =>
        ⟨{ ctx with rxClosed := true }, [(0, .none)],
          if error = 0 then none else some (.notify error)⟩
    | .bytes available =>
        match available.take (min ctx.rxLimit 64) with
        | [] => ⟨{ ctx with rxClosed := true }, [(0, .none)], none⟩
        | byte :: rest =>
            match filterInput ctx.escapePending [] (byte :: rest) with
            | none => ⟨{ ctx with escapePending := false }, [(0, .none)], some (.notify 0)⟩
            | some (pending, []) => ⟨{ ctx with escapePending := pending }, [], none⟩
            | some (pending, filtered) =>
                ⟨{ ctx with escapePending := pending }, [(0, .none)], some (.submit filtered)⟩

def tapConsumed : List (Nat × Mask) := [(0, .readOnly)]

def netLinuxRxCb (events : Ready) (host : HostIo) : Reaction Unit :=
  if events.error then ⟨(), [(0, .none)], some (.notify eioResult)⟩
  else
    match host.input with
    | .again => ⟨(), [], none⟩
    | .failed error => ⟨(), [(0, .none)], some (.notify error)⟩
    | .bytes available =>
        match available.take Virtio.netMaxFrameSize with
        | [] => ⟨(), [(0, .none)], some (.notify eioResult)⟩
        | byte :: rest => ⟨(), [(0, .none)], some (.submit (byte :: rest))⟩

/-- A native backend and what its code keeps to: source 0 is the one it reads, only the read
callback submits, disarming the source first, and only the end of a delivery touches it otherwise.
-/
structure Native (ρ : Type) where
  masks : List Mask
  bind : Nat → ρ → ρ
  unbind : ρ → ρ
  rx : ρ → Ready → HostIo → Reaction ρ
  tx : ρ → HostIo → Reaction ρ
  write : ρ → Nat → HostIo → ρ × List (Nat × Mask)
  consumed : ρ → List (Nat × Mask)
  reads : ∃ others, masks = .readOnly :: others
  rxDisarms : ∀ ctx events host, ∀ update ∈ (rx ctx events host).updates, update = (0, .none)
  rxSubmits : ∀ ctx events host bytes, (rx ctx events host).post = some (.submit bytes)
    → (rx ctx events host).updates = [(0, .none)]
  txApart : ∀ ctx host, ∀ update ∈ (tx ctx host).updates, update.1 ≠ 0
  txSilent : ∀ ctx host bytes, (tx ctx host).post ≠ some (.submit bytes)
  writeApart : ∀ ctx len host, ∀ update ∈ (write ctx len host).2, update.1 ≠ 0
  consumedArms : ∀ ctx, consumed ctx = [] ∨ consumed ctx = [(0, .readOnly)]

theorem charPosixRxCb_disarms (ctx : CharPosixCtx) (events : Ready) (host : HostIo)
    : ((charPosixRxCb ctx events host).updates = []
        ∧ (charPosixRxCb ctx events host).post = none)
      ∨ (charPosixRxCb ctx events host).updates = [(0, .none)] := by
  unfold charPosixRxCb
  split
  · exact .inr rfl
  split
  · exact .inl ⟨rfl, rfl⟩
  split
  · exact .inl ⟨rfl, rfl⟩
  · exact .inr rfl
  split
  · exact .inr rfl
  split
  · exact .inr rfl
  · exact .inl ⟨rfl, rfl⟩
  · exact .inr rfl

theorem netLinuxRxCb_disarms (events : Ready) (host : HostIo)
    : ((netLinuxRxCb events host).updates = [] ∧ (netLinuxRxCb events host).post = none)
      ∨ (netLinuxRxCb events host).updates = [(0, .none)] := by
  unfold netLinuxRxCb
  split
  · exact .inr rfl
  split
  · exact .inl ⟨rfl, rfl⟩
  · exact .inr rfl
  split <;> exact .inr rfl

theorem disarms_of_cases {ρ : Type} {reaction : Reaction ρ}
    (cases : (reaction.updates = [] ∧ reaction.post = none) ∨ reaction.updates = [(0, .none)])
    : (∀ update ∈ reaction.updates, update = (0, .none))
      ∧ ∀ bytes, reaction.post = some (.submit bytes) → reaction.updates = [(0, .none)] := by
  rcases cases with ⟨silent, nothing⟩ | disarmed
  · refine ⟨by simp [silent], fun bytes submits => ?_⟩
    rw [nothing] at submits
    cases submits
  · exact ⟨by simp [disarmed], fun _ _ => disarmed⟩

def charPosix : Native CharPosixCtx where
  masks := [.readOnly, .none]
  bind := fun limit ctx =>
    { ctx with rxLimit := limit, escapePending := false, rxClosed := false }
  unbind := fun ctx => { ctx with txLen := 0 }
  rx := charPosixRxCb
  tx := stdioTxReady
  write := charPosixWrite
  consumed := stdioConsumed
  reads := ⟨_, rfl⟩
  rxDisarms := fun ctx events host =>
    (disarms_of_cases (charPosixRxCb_disarms ctx events host)).1
  rxSubmits := fun ctx events host =>
    (disarms_of_cases (charPosixRxCb_disarms ctx events host)).2
  txApart := by
    intro ctx host update member
    unfold stdioTxReady at member
    dsimp only at member
    split at member
    · obtain rfl := List.mem_singleton.mp member
      decide
    · cases member
  txSilent := by
    intro ctx host bytes posted
    obtain ⟨error, -, notified⟩ := Option.map_eq_some_iff.mp posted
    cases notified
  writeApart := by
    intro ctx len host update member
    unfold charPosixWrite at member
    split at member
    · cases member
    · obtain rfl := List.mem_singleton.mp member
      exact Nat.one_ne_zero
  consumedArms := by
    intro ctx
    unfold stdioConsumed
    split
    · exact .inl rfl
    · exact .inr rfl

/-- The TAP backend, which writes without the service. -/
def netLinux : Native Unit where
  masks := [.readOnly]
  bind := fun _ ctx => ctx
  unbind := fun ctx => ctx
  rx := fun _ => netLinuxRxCb
  tx := fun ctx _ => ⟨ctx, [], none⟩
  write := fun ctx _ _ => (ctx, [])
  consumed := fun _ => tapConsumed
  reads := ⟨_, rfl⟩
  rxDisarms := fun _ events host => (disarms_of_cases (netLinuxRxCb_disarms events host)).1
  rxSubmits := fun _ events host => (disarms_of_cases (netLinuxRxCb_disarms events host)).2
  txApart := nofun
  txSilent := nofun
  writeApart := nofun
  consumedArms := fun _ => .inr rfl

end Modvm.Backend
