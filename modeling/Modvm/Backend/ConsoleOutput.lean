import Modvm.Backend.Native

/-! Console output as a queue of bytes, of which nothing is lost or reordered while it is bound. The
model of the backend keeps only the fill of the buffer; here the buffer has its bytes.
-/

namespace Modvm.Backend

open Modvm.Host Modvm.Io Modvm.Lib

def enobufsResult : Int := -105

/-! ### Model -/

/-- `stdio_flush`: the bytes that the host takes, those that stay, and the error. -/
def flushBytes (buffer : List Byte) : List (Except Int Nat) → List Byte × List Byte × Option Int
  | [] => ([], buffer, none)
  | result :: rest =>
      if buffer = [] then ([], [], none)
      else
        match result with
        | .error error => ([], buffer, if error = eagainResult then none else some error)
        | .ok 0 => ([], buffer, some eioResult)
        | .ok n =>
            let later := flushBytes (buffer.drop n) rest
            (buffer.take n ++ later.1, later.2)

/-- The outcome of `char_posix_write`: no room for the payload, or the result of the flush. -/
inductive WriteOutcome where
  | refused
  | flushed (error : Option Int)
deriving DecidableEq, Repr

def WriteOutcome.code : WriteOutcome → Int
  | .refused => enobufsResult
  | .flushed error => error.getD 0

/-- The output of a bound console: the bytes of `tx_buf` and the mask of source 1, with what the
host has taken and the outcomes of flushes and writes.
-/
structure Output where
  buffer : List Byte
  interest : Mask
  sent : List Byte
  failure : Option Int
  log : List (List Byte × WriteOutcome)
deriving DecidableEq

namespace Output

def bound : Output := ⟨[], .none, [], none, []⟩

def write (out : Output) (payload : List Byte) (host : List (Except Int Nat)) : Output :=
  if payload.length > stdioTxBufSize - out.buffer.length then
    { out with log := out.log ++ [(payload, .refused)] }
  else
    let (taken, left, error) := flushBytes (out.buffer ++ payload) host
    ⟨left, if error.isNone ∧ left ≠ [] then .writeOnly else .none, out.sent ++ taken, error,
      out.log ++ [(payload, .flushed error)]⟩

def ready (out : Output) (host : List (Except Int Nat)) : Output :=
  let (taken, left, error) := flushBytes out.buffer host
  ⟨left, if left = [] ∨ error.isSome then .none else out.interest, out.sent ++ taken, error,
    out.log⟩

/-- The payloads of the writes that were not refused, in order. -/
def accepted (out : Output) : List Byte :=
  ((out.log.filter (·.2 ≠ .refused)).map (·.1)).flatten

/-- The payloads of the writes that did not return `-VM_ENOBUFS`, in order. -/
def acceptedByCode (out : Output) : List Byte :=
  ((out.log.filter (·.2.code ≠ enobufsResult)).map (·.1)).flatten

end Output

inductive OutputOp where
  | write (payload : List Byte) (host : List (Except Int Nat))
  | ready (host : List (Except Int Nat))

def OutputOp.host : OutputOp → List (Except Int Nat)
  | .write _ host => host
  | .ready host => host

/-- One call. The service calls back only for a source that has events. -/
inductive OutputStep (out : Output) : OutputOp → Output → Prop
  | write (payload : List Byte) (host : List (Except Int Nat))
    : OutputStep out (.write payload host) (out.write payload host)
  | ready (host : List (Except Int Nat)) (armed : out.interest.write = true)
    : OutputStep out (.ready host) (out.ready host)

/-! ### The backend's model -/

theorem stdioFlush_eq (buffer : List Byte) (host : List (Except Int Nat))
    : stdioFlush buffer.length host
      = ((flushBytes buffer host).2.1.length, (flushBytes buffer host).2.2) := by
  induction host generalizing buffer with
  | nil => rfl
  | cons result rest ih =>
    by_cases empty : buffer = []
    · simp [stdioFlush, flushBytes, empty]
    · match result with
      | .error error => simp [stdioFlush, flushBytes, empty]
      | .ok 0 => simp [stdioFlush, flushBytes, empty]
      | .ok (n + 1) =>
        have later := ih (buffer.drop (n + 1))
        rw [List.length_drop] at later
        simp [stdioFlush, flushBytes, empty, later]

theorem charPosixWrite_eq (ctx : CharPosixCtx) (out : Output) (payload : List Byte)
    (host : HostIo) (fill : ctx.txLen = out.buffer.length)
    : (charPosixWrite ctx payload.length host).1
        = { ctx with txLen := (out.write payload host.writes).buffer.length }
      ∧ ((charPosixWrite ctx payload.length host).2 = []
          ∧ (out.write payload host.writes).interest = out.interest
        ∨ (charPosixWrite ctx payload.length host).2
          = [(1, (out.write payload host.writes).interest)]) := by
  have flush := stdioFlush_eq (out.buffer ++ payload) host.writes
  rw [List.length_append] at flush
  unfold charPosixWrite Output.write
  rw [fill, flush]
  by_cases full : payload.length > stdioTxBufSize - out.buffer.length
  · rw [if_pos full, if_pos full]
    exact ⟨by rw [← fill], .inl ⟨rfl, rfl⟩⟩
  · rw [if_neg full, if_neg full]
    simp [List.length_eq_zero_iff]

theorem stdioTxReady_eq (ctx : CharPosixCtx) (out : Output) (host : HostIo)
    (fill : ctx.txLen = out.buffer.length)
    : (stdioTxReady ctx host).ctx
        = { ctx with txLen := (out.ready host.writes).buffer.length }
      ∧ ((stdioTxReady ctx host).updates = []
          ∧ (out.ready host.writes).interest = out.interest
        ∨ (stdioTxReady ctx host).updates = [(1, (out.ready host.writes).interest)]) := by
  have flush := stdioFlush_eq out.buffer host.writes
  unfold stdioTxReady Output.ready
  rw [fill, flush]
  refine ⟨rfl, ?_⟩
  by_cases done : (flushBytes out.buffer host.writes).2.1 = []
      ∨ (flushBytes out.buffer host.writes).2.2.isSome
  · simp [done, List.length_eq_zero_iff]
  · simp [done, List.length_eq_zero_iff]

/-! ### The service -/

section Service
variable {ω : Type}

def updateAll (s : Service ω) (masks : List (Nat × Mask)) : Service ω :=
  masks.foldl (fun s (source, mask) => hostPosixServiceUpdateLocked s source mask) s

theorem updateAll_source (s : Service ω) (masks : List (Nat × Mask)) (source : Nat)
    : ((updateAll s masks).sources source).revision
        = (s.sources source).revision + BitVec.ofNat 64 (masks.countP (·.1 = source))
      ∧ (masks.countP (·.1 = source) = 0 →
        (updateAll s masks).sources source = s.sources source) := by
  induction masks generalizing s with
  | nil => simp [updateAll]
  | cons update rest ih =>
    obtain ⟨other, mask⟩ := update
    obtain ⟨revision, same⟩ := ih (hostPosixServiceUpdateLocked s other mask)
    change ((updateAll _ rest).sources source).revision = _
      ∧ (_ → (updateAll _ rest).sources source = _)
    rw [revision]
    by_cases here : other = source
    · subst here
      refine ⟨?_, by simp⟩
      rw [update_source_self, List.countP_cons_of_pos (by simp), BitVec.ofNat_add,
        BitVec.add_assoc]
      exact congrArg _ (BitVec.add_comm ..)
    · rw [update_source_of_ne _ (Ne.symm here)] at same ⊢
      simpa [here] using same

theorem updateAll_armed {s : Service ω} {masks : List (Nat × Mask)} (few : masks.length < 2 ^ 64)
    {revents : Nat → Revents} {report : Report} (reported : report ∈ poll s.fds revents)
    (something : report.revents ≠ .zero) (current : (updateAll s masks).current report)
    : let source := (updateAll s masks).sources report.source
      source.events.read = true ∨ source.events.write = true := by
  obtain ⟨fd, member, rfl⟩ := List.mem_map.mp reported
  obtain ⟨i, -, rfl⟩ := List.mem_map.mp member
  obtain ⟨revision, same⟩ := updateAll_source s masks i
  have bounded : masks.countP (·.1 = i) < 2 ^ 64 :=
    Nat.lt_of_le_of_lt List.countP_le_length few
  -- the revision is that of the snapshot, so no update came between
  have version : (s.sources i).revision = ((updateAll s masks).sources i).revision := by
    simpa [Service.current] using And.right (by simpa [Service.current] using current)
  have none : masks.countP (·.1 = i) = 0 := by
    have zero : BitVec.ofNat 64 (masks.countP (·.1 = i)) = 0#64 := by
      rw [revision] at version
      exact (BitVec.add_right_eq_self).mp version.symm
    have value := congrArg BitVec.toNat zero
    rwa [BitVec.toNat_ofNat, Nat.mod_eq_of_lt bounded] at value
  rw [same none]
  by_contra off
  have disabled : ((s.sources i).events.read || (s.sources i).events.write) = false := by
    simpa using off
  exact something (by simp [disabled])

end Service

/-! ### The queue -/

theorem flushBytes_append (buffer : List Byte) (host : List (Except Int Nat))
    : (flushBytes buffer host).1 ++ (flushBytes buffer host).2.1 = buffer := by
  induction host generalizing buffer with
  | nil => rfl
  | cons result rest ih =>
    by_cases empty : buffer = []
    · simp [flushBytes, empty]
    · match result with
      | .error error => simp [flushBytes, empty]
      | .ok 0 => simp [flushBytes, empty]
      | .ok (n + 1) => simp [flushBytes, empty, ih]

theorem flushBytes_length_le (buffer : List Byte) (host : List (Except Int Nat))
    : (flushBytes buffer host).2.1.length ≤ buffer.length := by
  have parts := congrArg List.length (flushBytes_append buffer host)
  rw [List.length_append] at parts
  omega

theorem flushBytes_error {buffer : List Byte} {host : List (Except Int Nat)} {error : Int}
    (failed : (flushBytes buffer host).2.2 = some error)
    : .error error ∈ host ∨ error = eioResult := by
  induction host generalizing buffer with
  | nil => cases failed
  | cons result rest ih =>
    by_cases empty : buffer = []
    · simp [flushBytes, empty] at failed
    · match result with
      | .error other =>
        simp only [flushBytes, empty] at failed
        obtain ⟨-, same⟩ := Option.ite_none_left_eq_some.mp failed
        obtain rfl := Option.some.inj same
        exact .inl List.mem_cons_self
      | .ok 0 =>
        simp only [flushBytes, empty] at failed
        exact .inr (Option.some.inj failed).symm
      | .ok (n + 1) =>
        simp only [flushBytes, empty] at failed
        exact (ih failed).imp_left (List.mem_cons_of_mem _)

structure Output.Ok (out : Output) : Prop where
  /-- What the host took and what is buffered are the accepted payloads. -/
  fifo : out.sent ++ out.buffer = out.accepted
  /-- The buffer does not overflow. -/
  bounded : out.buffer.length ≤ stdioTxBufSize
  /-- The service is asked for write readiness exactly if there is output and no failure. -/
  armed : out.interest.write = true ↔ out.buffer ≠ [] ∧ out.failure = none

theorem Output.Ok.write {out : Output} (ok : out.Ok) (payload : List Byte)
    (host : List (Except Int Nat))
    : (out.write payload host).Ok := by
  unfold Output.write
  by_cases full : payload.length > stdioTxBufSize - out.buffer.length
  · rw [if_pos full]
    refine ⟨?_, ok.bounded, ok.armed⟩
    simpa [Output.accepted] using ok.fifo
  · rw [if_neg full]
    have room := ok.bounded
    have parts := flushBytes_append (out.buffer ++ payload) host
    have length := flushBytes_length_le (out.buffer ++ payload) host
    rw [List.length_append] at length
    refine ⟨?_, ?_, ?_⟩
    · have queue := ok.fifo
      simp only [Output.accepted] at queue ⊢
      rw [List.append_assoc, parts, ← List.append_assoc, queue]
      simp
    · exact Nat.le_trans length (by omega)
    · dsimp only
      split_ifs with asks
      · exact iff_of_true rfl ⟨asks.2, Option.isNone_iff_eq_none.mp asks.1⟩
      · refine iff_of_false nofun fun both => asks ?_
        exact ⟨Option.isNone_iff_eq_none.mpr both.2, both.1⟩

theorem Output.Ok.ready {out : Output} (ok : out.Ok) (armed : out.interest.write = true)
    (host : List (Except Int Nat))
    : (out.ready host).Ok := by
  unfold Output.ready
  have parts := flushBytes_append out.buffer host
  refine ⟨?_, (flushBytes_length_le out.buffer host).trans ok.bounded, ?_⟩
  · have queue := ok.fifo
    simp only [Output.accepted] at queue ⊢
    rw [List.append_assoc, parts, queue]
  · dsimp only
    split_ifs with done
    · refine iff_of_false nofun fun both => ?_
      rcases done with empty | failed
      · exact both.1 empty
      · rw [both.2] at failed
        cases failed
    · obtain ⟨some, fine⟩ := not_or.mp done
      exact iff_of_true armed ⟨some, Option.not_isSome_iff_eq_none.mp fine⟩

theorem OutputStep.ok {out next : Output} {op : OutputOp} (step : OutputStep out op next)
    (ok : out.Ok)
    : next.Ok := by
  cases step with
  | write payload host => exact ok.write payload host
  | ready host armed => exact ok.ready armed host

/-- Unless a host write fails with it, only a refused write returns `-VM_ENOBUFS`. -/
def Output.Coded (out : Output) : Prop :=
  ∀ entry ∈ out.log, entry.2 ≠ .refused → entry.2.code ≠ enobufsResult

theorem Output.Coded.accepted_eq {out : Output} (coded : out.Coded)
    : out.accepted = out.acceptedByCode := by
  unfold Output.accepted Output.acceptedByCode
  congr 2
  refine List.filter_congr fun entry member => decide_eq_decide.mpr ?_
  refine ⟨coded entry member, fun other refused => other ?_⟩
  rw [refused]
  rfl

theorem OutputStep.coded {out next : Output} {op : OutputOp} (step : OutputStep out op next)
    (other : .error enobufsResult ∉ op.host) (coded : out.Coded)
    : next.Coded := by
  cases step with
  | ready => exact coded
  | write payload host =>
    unfold Output.write
    by_cases full : payload.length > stdioTxBufSize - out.buffer.length
    · rw [if_pos full]
      intro entry member
      rcases List.mem_append.mp member with old | new
      · exact coded entry old
      · obtain rfl := List.mem_singleton.mp new
        exact fun accepted => absurd rfl accepted
    · rw [if_neg full]
      intro entry member
      rcases List.mem_append.mp member with old | new
      · exact coded entry old
      · obtain rfl := List.mem_singleton.mp new
        intro _ same
        cases failed : (flushBytes (out.buffer ++ payload) host).2.2 with
        | none =>
          rw [failed] at same
          cases same
        | some error =>
          rw [failed] at same
          have code : error = enobufsResult := same
          rcases flushBytes_error failed with host | eio
          · exact other (code ▸ host)
          · rw [code] at eio
            cases eio

/-- Console output is a lossless queue over every sequence of calls, whatever the host does: what
the host took and what is buffered are the payloads of the writes that were not refused, in order;
the buffer has its bound; and write readiness is asked for exactly while bytes are buffered and the
last flush did not fail. A write is refused for lack of room only, with `-VM_ENOBUFS` and no effect.
-/
theorem console_output_fifo {ops : List OutputOp} {out : Output}
    (run : Run OutputStep .bound ops out)
    : out.sent ++ out.buffer = out.accepted
      ∧ out.buffer.length ≤ stdioTxBufSize
      ∧ (out.interest.write = true ↔ out.buffer ≠ [] ∧ out.failure = none)
      ∧ (∀ payload host, payload.length > stdioTxBufSize - out.buffer.length →
        out.write payload host = { out with log := out.log ++ [(payload, .refused)] })
      ∧ ((∀ op ∈ ops, .error enobufsResult ∉ op.host) →
        out.sent ++ out.buffer = out.acceptedByCode) := by
  have ok : out.Ok :=
    run.invariant Output.Ok (fun _ _ _ ok step => step.ok ok) ⟨rfl, Nat.zero_le _, by decide⟩
  refine ⟨ok.fifo, ok.bounded, ok.armed, fun payload host full => if_pos full, fun other => ?_⟩
  have coded : out.Coded :=
    run.invariant_of Output.Coded (fun _ _ _ other coded step => step.coded other coded) other nofun
  exact ok.fifo.trans coded.accepted_eq

/-- Two writes, of which the host takes one byte before it blocks, and the callback after them. -/
theorem console_output_fifo_partial
    : let first := Output.bound.write [0x61, 0x62] [.ok 1, .error eagainResult]
      let second := first.write [0x63] [.error eioResult]
      let third := second.write [0x64] [.error eagainResult]
      let out := third.ready [.ok 2]
      out.sent ++ out.buffer = [0x61, 0x62, 0x63, 0x64] ∧ out.buffer = [0x64]
      ∧ out.interest = .writeOnly :=
  have one := (Run.single (OutputStep.write [0x61, 0x62] [.ok 1, .error eagainResult])).snoc
    (OutputStep.write [0x63] [.error eioResult])
  have two := one.snoc (OutputStep.write [0x64] [.error eagainResult])
  ⟨(console_output_fifo (two.snoc (.ready [.ok 2] rfl))).1, rfl, rfl⟩

end Modvm.Backend
