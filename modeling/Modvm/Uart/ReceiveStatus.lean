import Modvm.Lib.Runs
import Modvm.Uart.ReceivePath

/-! The part of the UART that decides about its receive interrupts, and its four small updates. -/

namespace Modvm.Uart

open Modvm.Lib
open Uart16550aCtx (has)

structure ReceiveStatus where
  fifoEnabled : Bool
  trigger : Nat
  timeout : Bool
  count : Nat
deriving DecidableEq, Repr

def Uart16550aCtx.receiveStatus (ctx : Uart16550aCtx) : ReceiveStatus :=
  ⟨has ctx.fcr fcrEnableFifo, ctx.rxTriggerLevel, ctx.rxTimeout, ctx.rx.cnt⟩

variable (ctx : Uart16550aCtx)

@[simp]
theorem receiveStatus_count : ctx.receiveStatus.count = ctx.rx.cnt :=
  rfl

namespace ReceiveStatus

/-- A byte is read. Reading clears the timeout, but an empty FIFO is not touched at all. -/
def popped (status : ReceiveStatus) : ReceiveStatus :=
  if status.count = 0 then
    status
  else
    { status with count := status.count - 1, timeout := false }

/-- A byte is looped back; the latch is not re-evaluated. -/
def pushed (status : ReceiveStatus) : ReceiveStatus :=
  if uartFifoSize ≤ status.count then
    status
  else
    { status with count := status.count + 1 }

/-- The FIFO is filled from a backlog of `waiting` bytes, and the latch re-evaluated if that
moved a byte.
-/
def refilled (status : ReceiveStatus) (waiting : Nat) : ReceiveStatus :=
  if 0 < waiting ∧ status.count < uartFifoSize then
    { status with
      count := min uartFifoSize (status.count + waiting)
      timeout :=
        status.fifoEnabled
          && decide (min uartFifoSize (status.count + waiting) < status.trigger) }
  else
    status

def programmed (status : ReceiveStatus) (val : Byte) : ReceiveStatus :=
  { status with
    fifoEnabled := has (val &&& 0xcf#8) fcrEnableFifo
    trigger :=
      if has (val &&& 0xcf#8) fcrEnableFifo then triggerLevel (val &&& 0xcf#8) else 1
    count := if clearsReceiver val then 0 else status.count }

end ReceiveStatus

/-- Filling the FIFO moves as many bytes as wait and fit. Witness: induction on rounds. -/
theorem refillLoop_status (rounds : Nat) (ctx : Uart16550aCtx) (moved : Bool)
    (enough : uartFifoSize ≤ ctx.rx.cnt + rounds) (bounded : ctx.rx.cnt ≤ uartFifoSize)
    : (refillLoop rounds ctx moved).1.receiveStatus
        = { ctx.receiveStatus with
            count := min uartFifoSize (ctx.rx.cnt + ctx.backlog.cnt) }
      ∧ (refillLoop rounds ctx moved).2
        = (moved || decide (0 < ctx.backlog.cnt ∧ ctx.rx.cnt < uartFifoSize)) := by
  induction rounds generalizing ctx moved with
  | zero =>
    have full : ctx.rx.cnt = uartFifoSize := by omega
    simp [refillLoop, Uart16550aCtx.receiveStatus, full]
  | succ rounds ih =>
    by_cases busy : 0 < ctx.backlog.cnt ∧ ctx.rx.cnt < uartFifoSize
    · rw [refillLoop_step busy]
      obtain ⟨status, flag⟩ := ih (movedByte ctx) true
        (by simp only [movedByte, Ring.put_cnt]; omega)
        (by simp only [movedByte, Ring.put_cnt]; omega)
      have total : (movedByte ctx).rx.cnt + (movedByte ctx).backlog.cnt
          = ctx.rx.cnt + ctx.backlog.cnt := by
        simp only [movedByte, Ring.put_cnt, Ring.take_cnt]
        omega
      rw [status, flag, total]
      refine ⟨rfl, ?_⟩
      simp only [busy, and_self, decide_true, Bool.true_or, Bool.or_true]
    · rw [refillLoop_stop busy]
      have settled : min uartFifoSize (ctx.rx.cnt + ctx.backlog.cnt) = ctx.rx.cnt := by
        omega
      simp only [settled, busy, decide_false, Bool.or_false, and_true]
      rfl

theorem resumeIfDrained_status : (resumeIfDrained ctx).receiveStatus = ctx.receiveStatus := by
  unfold resumeIfDrained
  cases ctx.console with
  | none => rfl
  | some dev =>
    dsimp only
    split
    · cases charResumeRxLocked dev <;> rfl
    · rfl

theorem pauseIfFull_status : (pauseIfFull ctx).receiveStatus = ctx.receiveStatus := by
  unfold pauseIfFull
  cases ctx.console with
  | none => rfl
  | some dev =>
    dsimp only
    split
    · cases charPauseRxLocked dev <;> rfl
    · rfl

theorem rxFifoRefill_status (ok : ctx.RingsOk)
    : (uart16550aRxFifoRefill ctx).receiveStatus
      = ctx.receiveStatus.refilled ctx.backlog.cnt := by
  obtain ⟨status, flag⟩ := refillLoop_status uartFifoSize ctx false (by omega) ok.rx.bounded
  have resumed := resumeIfDrained_status (refillLoop uartFifoSize ctx false).1
  rw [status] at resumed
  rw [Bool.false_or] at flag
  unfold uart16550aRxFifoRefill
  simp only [flag, timeoutAfterRefill, ReceiveStatus.refilled]
  by_cases busy : 0 < ctx.backlog.cnt ∧ ctx.rx.cnt < uartFifoSize
  · have positive : 0 < min uartFifoSize (ctx.rx.cnt + ctx.backlog.cnt) := by omega
    simp only [Uart16550aCtx.receiveStatus, ReceiveStatus.mk.injEq] at resumed
    obtain ⟨enabled, trigger, -, count⟩ := resumed
    simp only [busy, and_self, decide_true, if_true, Uart16550aCtx.receiveStatus, enabled,
      trigger, count, positive, Bool.and_true]
    rfl
  · have settled : min uartFifoSize (ctx.rx.cnt + ctx.backlog.cnt) = ctx.rx.cnt := by
      have := ok.rx.bounded
      omega
    simp only [busy, decide_false, Bool.false_eq_true, if_false, receiveStatus_count]
    rw [resumed, settled]
    rfl

theorem rxFifoPop_status
    : (uart16550aRxFifoPop ctx).2.receiveStatus = ctx.receiveStatus.popped := by
  unfold uart16550aRxFifoPop ReceiveStatus.popped
  rw [receiveStatus_count]
  by_cases empty : ctx.rx.cnt = 0
  · rw [if_pos empty, if_pos empty]
  · rw [if_neg empty, if_neg empty]
    rfl

theorem rxFifoPush_status (c : Byte)
    : (uart16550aRxFifoPush ctx c).receiveStatus = ctx.receiveStatus.pushed := by
  unfold uart16550aRxFifoPush ReceiveStatus.pushed
  rw [receiveStatus_count]
  by_cases full : ctx.rx.cnt ≥ uartFifoSize
  · rw [if_pos full, if_pos full]
    rfl
  · rw [if_neg full, if_neg full]
    rfl

theorem txFlush_status (ret : Option VmError)
    : (uart16550aTxFlush ctx ret).receiveStatus = ctx.receiveStatus := by
  unfold uart16550aTxFlush
  by_cases pending : ctx.tx.cnt > 0
  · cases found : ctx.console with
    | none => simp [pending, Uart16550aCtx.receiveStatus]
    | some =>
      cases ret <;>
        simp [pending, Uart16550aCtx.receiveStatus, Uart16550aCtx.vmReportError]
  · simp [pending, Uart16550aCtx.receiveStatus]

theorem fcr_enable_stored (val : Byte)
    : has (val &&& 0xcf#8 &&& ~~~(fcrClearRcvr ||| fcrClearXmit)) fcrEnableFifo
      = has (val &&& 0xcf#8) fcrEnableFifo := by
  revert val
  decide +kernel

theorem writeFcr_status (ctx : Uart16550aCtx) (val : Byte)
    : (writeFcr ctx val).receiveStatus = ctx.receiveStatus.programmed val := by
  have stored := fcr_enable_stored val
  unfold writeFcr ReceiveStatus.programmed clearsReceiver
  cases enabled : has (val &&& 0xcf#8) fcrEnableFifo with
  | false =>
    have off : has 0#8 fcrEnableFifo = false := by decide
    simp [Uart16550aCtx.receiveStatus, enabled, off, uart16550aTxFifoClear,
      uart16550aRxFifoClear]
  | true =>
    cases clear : has (val &&& 0xcf#8) fcrClearRcvr <;>
      cases xmit : has (val &&& 0xcf#8) fcrClearXmit <;>
      simp [Uart16550aCtx.receiveStatus, enabled, clear, xmit, stored,
        uart16550aTxFifoClear, uart16550aRxFifoClear]

/-- A guest access reaches the receive FIFO: the data register with the divisor latch closed.
-/
def readsFifo (ctx : Uart16550aCtx) (offset : Nat) : Bool :=
  decide (regIdx ctx offset = 0) && !uart16550aDlabIsSet ctx

/-- A guest write is looped back into the receive FIFO. -/
def loopsBack (ctx : Uart16550aCtx) (offset : Nat) : Bool :=
  readsFifo ctx offset && uart16550aLoopbackIsEnabled ctx

variable (reg : Nat) (val : Byte)

theorem regRead_status
    : (uart16550aRegRead ctx reg).2.receiveStatus
      = if decide (reg = 0) && !uart16550aDlabIsSet ctx then ctx.receiveStatus.popped
        else ctx.receiveStatus := by
  unfold uart16550aRegRead
  split
  case h_1 =>
    cases uart16550aDlabIsSet ctx with
    | false => simpa using rxFifoPop_status ctx
    | true => simp
  case h_3 =>
    dsimp only
    split <;> rfl
  case h_9 other _ _ _ _ _ _ _ =>
    have elsewhere : decide (reg = 0) = false := decide_eq_false other
    rw [elsewhere]
    rfl
  all_goals rfl

theorem regRead_backlog : (uart16550aRegRead ctx reg).2.backlog = ctx.backlog := by
  unfold uart16550aRegRead
  split
  · split
    · rfl
    · unfold uart16550aRxFifoPop
      split <;> rfl
  case h_3 =>
    dsimp only
    split <;> rfl
  all_goals rfl

theorem regWrite_status (ret : Option VmError)
    : (uart16550aRegWrite ctx reg val ret).receiveStatus
      = if decide (reg = 0) && !uart16550aDlabIsSet ctx && uart16550aLoopbackIsEnabled ctx then
          ctx.receiveStatus.pushed
        else if reg = 2 then ctx.receiveStatus.programmed val
        else ctx.receiveStatus := by
  unfold uart16550aRegWrite
  split
  case h_1 =>
    cases uart16550aDlabIsSet ctx with
    | true => rfl
    | false =>
      unfold transmit
      cases uart16550aLoopbackIsEnabled ctx with
      | true => simpa using rxFifoPush_status ctx val
      | false => exact txFlush_status _ ret
  case h_2 =>
    unfold writeIer
    dsimp only
    split
    · rfl
    · split <;> rfl
  case h_3 => simpa using writeFcr_status ctx val
  case h_4 =>
    unfold writeLcr
    dsimp only
    split
    · split <;> rfl
    · rfl
  case h_7 data _ fcr _ _ _ =>
    have elsewhere : decide (reg = 0) = false := decide_eq_false data
    rw [elsewhere, if_neg fcr]
    rfl
  all_goals rfl

/-- A batch fills the backlog up to its size. Witness: induction on the batch. -/
theorem backlogFill_status (buf : List Byte) (ctx : Uart16550aCtx)
    (bounded : ctx.backlog.cnt ≤ uartBacklogSize)
    : (backlogFill buf ctx).receiveStatus = ctx.receiveStatus
      ∧ (backlogFill buf ctx).backlog.cnt
        = min uartBacklogSize (ctx.backlog.cnt + buf.length) := by
  induction buf generalizing ctx with
  | nil => exact ⟨rfl, by simp only [backlogFill, List.length_nil]; omega⟩
  | cons c rest ih =>
    simp only [backlogFill, List.length_cons]
    split
    · exact ⟨rfl, by dsimp only; omega⟩
    · obtain ⟨status, count⟩ :=
        ih { ctx with backlog := ctx.backlog.put c } (by simp only [Ring.put_cnt]; omega)
      refine ⟨status, count.trans ?_⟩
      simp only [Ring.put_cnt]
      omega

theorem uartIoRead_status (ok : ctx.RingsOk) (offset : Nat)
    : (uartIoRead ctx offset).2.receiveStatus
      = (if readsFifo ctx offset then ctx.receiveStatus.popped
          else ctx.receiveStatus).refilled ctx.backlog.cnt := by
  -- lowering the line before the read concerns neither the status nor the rings
  obtain ⟨entered, same, status, shift, rings⟩ : ∃ entered : Uart16550aCtx,
      entered = (if regIdx ctx offset = 0 then ctx.irqSetLevel false else ctx)
        ∧ entered.receiveStatus = ctx.receiveStatus
        ∧ uart16550aDlabIsSet entered = uart16550aDlabIsSet ctx
        ∧ entered.RingsOk ∧ entered.backlog = ctx.backlog := by
    refine ⟨_, rfl, ?_⟩
    split
    · exact ⟨rfl, rfl, ⟨ok.rx, ok.backlog⟩, rfl⟩
    · exact ⟨rfl, rfl, ok, rfl⟩
  have popped := regRead_status entered (regIdx ctx offset)
  have readOk := regRead_ringsOk rings.1 (regIdx ctx offset)
  have refilled := rxFifoRefill_status
    (uart16550aIrqUpdate (uart16550aRegRead entered (regIdx ctx offset)).2)
    ((irqUpdate_same _).ringsOk readOk)
  have waiting : (uart16550aIrqUpdate (uart16550aRegRead entered (regIdx ctx offset)).2).backlog
      = ctx.backlog := (regRead_backlog entered (regIdx ctx offset)).trans rings.2
  rw [waiting] at refilled
  rw [status, shift] at popped
  unfold readsFifo
  rw [← popped]
  simp only [uartIoRead, ← same]
  exact refilled

theorem uartIoWrite_status (offset val : Nat) (ret : Option VmError)
    : (uartIoWrite ctx offset val ret).receiveStatus
      = if loopsBack ctx offset then ctx.receiveStatus.pushed
        else if regIdx ctx offset = 2 then ctx.receiveStatus.programmed (BitVec.ofNat 8 val)
        else ctx.receiveStatus :=
  regWrite_status ctx (regIdx ctx offset) (BitVec.ofNat 8 val) ret

theorem uartRxCb_status (ok : ctx.RingsOk) {buf : List Byte} (nonempty : buf ≠ [])
    : (uartRxCb ctx buf).receiveStatus
      = ctx.receiveStatus.refilled
          (min uartBacklogSize (ctx.backlog.cnt + buf.length)) := by
  obtain ⟨status, count⟩ := backlogFill_status buf ctx ok.backlog.bounded
  have filled := backlogFill_ringsOk buf ctx ok
  obtain ⟨rxSame, backlogSame, -⟩ := pauseIfFull_rings (backlogFill buf ctx)
  have refilled := rxFifoRefill_status (pauseIfFull (backlogFill buf ctx))
    ⟨rxSame ▸ filled.rx, backlogSame ▸ filled.backlog⟩
  rw [pauseIfFull_status, status, backlogSame, count] at refilled
  simp only [uartRxCb, nonempty]
  exact refilled

end Modvm.Uart
