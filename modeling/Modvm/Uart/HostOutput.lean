import Modvm.Backend.ConsoleOutput
import Modvm.Uart.Model
import Mathlib.Data.List.Flatten

/-! Serial output from the guest to the host: through the UART and the console's output buffer. -/

namespace Modvm.Uart

open Modvm.Backend Modvm.Lib

variable {ctx next later : Uart16550aCtx}

/-! ### What leaves the UART -/

/-- The transmit FIFO is empty, with both of its indices at the same slot. -/
def TxIdle (ctx : Uart16550aCtx) : Prop := ctx.tx.head = ctx.tx.tail ∧ ctx.tx.cnt = 0

/-- Nothing is handed to the console, and no error is taken back. -/
structure Silent (ctx next : Uart16550aCtx) : Prop where
  idle : TxIdle ctx → TxIdle next
  output : next.console.map CharBackend.output = ctx.console.map CharBackend.output
  errors : next.errors = [] → ctx.errors = []

namespace Silent

theorem of_eq (tx : next.tx = ctx.tx) (console : next.console = ctx.console)
    (errors : next.errors = ctx.errors)
    : Silent ctx next :=
  ⟨by rw [TxIdle, TxIdle, tx]; exact id, by rw [console], fun none => errors ▸ none⟩

theorem trans (first : Silent ctx next) (second : Silent next later) : Silent ctx later where
  idle start := second.idle (first.idle start)
  output := second.output.trans first.output
  errors none := first.errors (second.errors none)

variable (ctx : Uart16550aCtx)

theorem irqUpdate : Silent ctx (uart16550aIrqUpdate ctx) :=
  of_eq rfl rfl rfl

theorem rxFifoPush (c : Byte) : Silent ctx (uart16550aRxFifoPush ctx c) := by
  unfold uart16550aRxFifoPush
  split <;> exact of_eq rfl rfl rfl

theorem refillLoop (rounds : Nat) (ctx : Uart16550aCtx) (pushed : Bool)
    : Silent ctx (Uart.refillLoop rounds ctx pushed).1 := by
  induction rounds generalizing ctx pushed with
  | zero => exact of_eq rfl rfl rfl
  | succ rounds ih =>
    rw [Uart.refillLoop]
    split
    · refine .trans ?_ (ih _ true)
      exact (rxFifoPush ctx ctx.backlog.front).trans (of_eq rfl rfl rfl)
    · exact of_eq rfl rfl rfl

theorem resumeIfDrained : Silent ctx (Uart.resumeIfDrained ctx) := by
  obtain ⟨console⟩ := ctx
  rcases console with _ | ⟨_ | enabled, output⟩ <;> simp only [Uart.resumeIfDrained] <;>
    (try split) <;>
    exact ⟨id, rfl, by simp [charResumeRxLocked, Uart16550aCtx.vmReportError]⟩

theorem pauseIfFull : Silent ctx (Uart.pauseIfFull ctx) := by
  obtain ⟨console⟩ := ctx
  rcases console with _ | ⟨_ | enabled, output⟩ <;> simp only [Uart.pauseIfFull] <;>
    (try split) <;>
    exact ⟨id, rfl, by simp [charPauseRxLocked, Uart16550aCtx.vmReportError]⟩

theorem rxFifoRefill : Silent ctx (uart16550aRxFifoRefill ctx) := by
  have moved := (refillLoop uartFifoSize ctx false).trans (resumeIfDrained _)
  unfold uart16550aRxFifoRefill timeoutAfterRefill
  dsimp only
  split
  · exact moved.trans (of_eq rfl rfl rfl)
  · exact moved

theorem backlogFill (buf : List Byte) (ctx : Uart16550aCtx)
    : Silent ctx (Uart.backlogFill buf ctx) := by
  induction buf generalizing ctx with
  | nil => exact of_eq rfl rfl rfl
  | cons c rest ih =>
    rw [Uart.backlogFill]
    split
    · exact of_eq rfl rfl rfl
    · refine .trans ?_ (ih _)
      exact of_eq rfl rfl rfl

theorem regRead (reg : Nat) : Silent ctx (uart16550aRegRead ctx reg).2 := by
  unfold uart16550aRegRead uart16550aRxFifoPop
  repeat' split
  all_goals first | exact of_eq rfl rfl rfl | (dsimp only; split <;> exact of_eq rfl rfl rfl)

theorem writeFcr (val : Byte) : Silent ctx (Uart.writeFcr ctx val) := by
  unfold Uart.writeFcr
  dsimp only
  split
  · exact ⟨fun _ => ⟨rfl, rfl⟩, rfl, id⟩
  · split <;> split <;>
      first | exact of_eq rfl rfl rfl | exact ⟨fun _ => ⟨rfl, rfl⟩, rfl, id⟩

end Silent

/-- The byte that a guest access hands to the console: what is written to the transmit register
with the divisor latch closed and loopback off.
-/
def transmits (ctx : Uart16550aCtx) : UartOp → Option Byte
  | .write offset val _ =>
      if regIdx ctx offset = 0 ∧ !uart16550aDlabIsSet ctx ∧ !uart16550aLoopbackIsEnabled ctx then
        some (BitVec.ofNat 8 val)
      else none
  | _ => none

theorem uartStep_silent {op : UartOp} (none : transmits ctx op = none)
    : Silent ctx (uartStep ctx op) := by
  cases op with
  | read offset =>
    have entered : Silent ctx (if regIdx ctx offset = 0 then ctx.irqSetLevel false else ctx) := by
      split <;> exact .of_eq rfl rfl rfl
    have updated := (entered.trans (.regRead _ (regIdx ctx offset))).trans (.irqUpdate _)
    exact (updated.trans (.rxFifoRefill _)).trans (.irqUpdate _)
  | rx buf =>
    simp only [uartStep, uartRxCb]
    split
    · exact .of_eq rfl rfl rfl
    · have filled := (Silent.backlogFill buf ctx).trans (.pauseIfFull _)
      exact (filled.trans (.rxFifoRefill _)).trans (.irqUpdate _)
  | write =>
    refine .trans ?_ (.irqUpdate _)
    unfold uart16550aRegWrite
    split
    case h_1 reg =>
      split
      case isTrue => exact .of_eq rfl rfl rfl
      case isFalse closed =>
        unfold transmit
        split
        -- In loopback the byte goes to the receive FIFO.
        case isTrue => exact .rxFifoPush _ _
        case isFalse off => exact absurd none (by simp [transmits, reg, closed, off])
    case h_2 =>
      unfold writeIer
      dsimp only
      repeat' split
      all_goals exact .of_eq rfl rfl rfl
    case h_3 => exact .writeFcr _ _
    case h_4 =>
      unfold writeLcr
      dsimp only
      repeat' split
      all_goals exact .of_eq rfl rfl rfl
    all_goals exact .of_eq rfl rfl rfl

/-- A byte that is transmitted is handed to the console at once, and a failure is reported. -/
theorem uartStep_transmits {offset val : Nat} {ret : Option VmError} {c : Byte} {dev : CharBackend}
    (some : transmits ctx (.write offset val ret) = some c) (idle : TxIdle ctx)
    (bound : ctx.console = .some dev)
    : TxIdle (uartStep ctx (.write offset val ret))
      ∧ (uartStep ctx (.write offset val ret)).console
        = .some { dev with output := dev.output ++ [c] }
      ∧ (uartStep ctx (.write offset val ret)).errors = ctx.errors ++ ret.toList := by
  obtain ⟨⟨reg, closed, off⟩, same⟩ := Option.ite_none_right_eq_some.mp some
  cases same
  simp only [Bool.not_eq_true'] at closed off
  obtain ⟨level, empty⟩ := idle
  simp only [uartStep, uartIoWrite, reg, uart16550aRegWrite, closed, transmit, off,
    uart16550aTxFlush, Ring.put_cnt, empty, bound]
  cases ret <;>
    simp [TxIdle, uart16550aIrqUpdate, Uart16550aCtx.irqSetLevel, Uart16550aCtx.vmReportError,
      txDrain, Ring.put, Ring.front, level]

/-! ### What reaches the host -/

/-- The UART and its console, with the bytes that the guest transmitted. -/
structure Serial where
  ctx : Uart16550aCtx
  out : Output
  written : List Byte

inductive SerialOp where
  | uart (op : UartOp)
  | transmit (offset val : Nat) (ret : Option VmError) (host : List (Except Int Nat))
  | ready (host : List (Except Int Nat))

def outcome (out : Output) (payload : List Byte) (host : List (Except Int Nat)) : WriteOutcome :=
  if payload.length > stdioTxBufSize - out.buffer.length then .refused
  else .flushed (flushBytes (out.buffer ++ payload) host).2.2

theorem write_log (out : Output) (payload : List Byte) (host : List (Except Int Nat))
    : (out.write payload host).log = out.log ++ [(payload, outcome out payload host)] := by
  unfold Output.write outcome
  split <;> rfl

/-- One operation. The UART reports an error if the write of the console returns one. -/
inductive SerialStep (s : Serial) : SerialOp → Serial → Prop
  | uart (op : UartOp) (none : transmits s.ctx op = none)
    : SerialStep s (.uart op) { s with ctx := uartStep s.ctx op }
  | transmit {offset val : Nat} {ret : Option VmError} {host : List (Except Int Nat)} {c : Byte}
    (some : transmits s.ctx (.write offset val ret) = some c)
    (code : ret.isSome = true ↔ (outcome s.out [c] host).code < 0)
    : SerialStep s (.transmit offset val ret host)
      ⟨uartStep s.ctx (.write offset val ret), s.out.write [c] host, s.written ++ [c]⟩
  | ready (host : List (Except Int Nat)) (armed : s.out.interest.write = true)
    : SerialStep s (.ready host) { s with out := s.out.ready host }

/-- What holds between two operations. -/
structure Serial.Ok (s : Serial) : Prop where
  idle : TxIdle s.ctx
  handed : s.ctx.console.map CharBackend.output = some s.written
  out : s.out.Ok
  log : (s.out.log.map Prod.fst).flatten = s.written
  told : s.ctx.errors = [] → ∀ entry ∈ s.out.log, entry.2 ≠ .refused

theorem SerialStep.ok {s next : Serial} {op : SerialOp} (step : SerialStep s op next) (ok : s.Ok)
    : next.Ok := by
  cases step with
  | uart op none =>
    obtain ⟨idle, output, errors⟩ := uartStep_silent none
    exact ⟨idle ok.idle, output.trans ok.handed, ok.out, ok.log, fun none => ok.told (errors none)⟩
  | ready host armed => exact ⟨ok.idle, ok.handed, ok.out.ready armed host, ok.log, ok.told⟩
  | @transmit offset val ret host c some code =>
    -- The FIFO was empty, so the console is handed this byte alone.
    obtain ⟨dev, bound, output⟩ := Option.map_eq_some_iff.mp ok.handed
    obtain ⟨idle, console, errors⟩ := uartStep_transmits some ok.idle bound
    refine ⟨idle, ?_, ok.out.write [c] host, ?_, fun none entry member => ?_⟩
    · rw [console, Option.map_some, ← output]
    · rw [write_log, List.map_append, List.flatten_append, ok.log]
      rfl
    · rw [errors, List.append_eq_nil_iff] at none
      rw [write_log, List.mem_append, List.mem_singleton] at member
      rcases member with old | rfl
      · exact ok.told none.1 entry old
      · -- A refused write returns an error, which the UART reports.
        intro refused
        change outcome s.out [c] host = .refused at refused
        rw [refused] at code
        obtain ⟨error, failed⟩ := Option.isSome_iff_exists.mp (code.mpr (by decide))
        rw [failed] at none
        cases none.2

/-- Serial output reaches the host. Over any run of guest accesses, deliveries and callbacks, for
any host: the console was handed exactly the bytes that the guest transmitted, in order; what the
host took and what is buffered are some of them, in order; and unless an error was reported they are
all of them, so nothing was lost, repeated or reordered on the way.
-/
theorem serial_output_reaches_host {dev : CharBackend} {regShift : Nat} {ops : List SerialOp}
    {s : Serial} (fresh : dev.output = [])
    (run : Run SerialStep ⟨uartRealize (some dev) regShift, .bound, []⟩ ops s)
    : s.ctx.console.map CharBackend.output = some s.written
      ∧ (s.out.sent ++ s.out.buffer).Sublist s.written
      ∧ (s.ctx.errors = [] → s.out.sent ++ s.out.buffer = s.written) := by
  have ok : s.Ok := by
    refine run.invariant Serial.Ok (fun _ _ _ ok step => step.ok ok) ?_
    have empty : Output.bound.Ok := ⟨rfl, Nat.zero_le _, by decide⟩
    exact ⟨⟨rfl, rfl⟩, congrArg some fresh, empty, rfl, fun _ _ wrong => by cases wrong⟩
  rw [ok.out.fifo, ← ok.log]
  refine ⟨ok.log ▸ ok.handed, ?_, fun none => ?_⟩
  · exact (List.filter_sublist.map Prod.fst).flatten
  · have all : s.out.log.filter (·.2 ≠ .refused) = s.out.log :=
      List.filter_eq_self.mpr fun entry member => decide_eq_true (ok.told none entry member)
    rw [Output.accepted, all]

/-- The host blocks at first, and takes the byte at the callback. -/
theorem serial_output_reaches_host_later
    : ∃ s, Run SerialStep ⟨uartRealize (some ⟨none, []⟩) 0, .bound, []⟩
        [.transmit 0 0x41 none [.error eagainResult], .ready [.ok 1]] s
      ∧ s.out.sent = [0x41] ∧ s.out.sent ++ s.out.buffer = s.written := by
  have first : SerialStep ⟨uartRealize (some ⟨none, []⟩) 0, .bound, []⟩
      (.transmit 0 0x41 none [.error eagainResult]) _ := .transmit rfl (by decide)
  have run := (Run.single first).snoc (.ready [.ok 1] rfl)
  exact ⟨_, run, rfl, (serial_output_reaches_host rfl run).2.2 rfl⟩

end Modvm.Uart
