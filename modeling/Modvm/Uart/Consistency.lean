import Modvm.Uart.Interrupts

/-! The redundant fields of the UART agree after every completed operation. -/

namespace Modvm.Uart

open Modvm.Lib
open Uart16550aCtx (has)

/-- The bits of the line status register that follow the FIFOs. -/
abbrev lsrFifoBits : Byte := lsrTemt ||| lsrThre ||| lsrDr

/-- What they are for a number of received bytes, while the transmitter is idle. -/
def fifoBits (count : Nat) : Byte :=
  if count = 0 then lsrTemt ||| lsrThre else lsrTemt ||| lsrThre ||| lsrDr

/-- The line status register agrees with the FIFOs, and nothing waits to be sent. -/
structure LineOk (ctx : Uart16550aCtx) : Prop where
  bits : ctx.lsr &&& lsrFifoBits = fifoBits ctx.rx.cnt
  sent : ctx.tx.cnt = 0

theorem lsr_and_kept {mask : Byte} (keeps : mask &&& lsrFifoBits = lsrFifoBits) (lsr : Byte)
    : lsr &&& mask &&& lsrFifoBits = lsr &&& lsrFifoBits := by
  rw [BitVec.and_assoc, keeps]

theorem lsr_or (lsr mask : Byte)
    : (lsr ||| mask) &&& lsrFifoBits = lsr &&& lsrFifoBits ||| mask &&& lsrFifoBits := by
  rw [BitVec.and_comm, BitVec.and_or_distrib_left, BitVec.and_comm lsrFifoBits lsr,
    BitVec.and_comm lsrFifoBits mask]

theorem lsr_and (lsr mask : Byte)
    : lsr &&& mask &&& lsrFifoBits = lsr &&& lsrFifoBits &&& mask := by
  rw [BitVec.and_assoc, BitVec.and_comm mask, BitVec.and_assoc]

theorem lsr_or_kept {mask : Byte} (other : mask &&& lsrFifoBits = 0#8) (lsr : Byte)
    : (lsr ||| mask) &&& lsrFifoBits = lsr &&& lsrFifoBits := by
  rw [lsr_or, other, BitVec.or_zero]

theorem fifoBits_idle (count : Nat)
    : fifoBits count ||| (lsrThre ||| lsrTemt) = fifoBits count := by
  unfold fifoBits
  split
  · decide
  · decide

namespace LineOk

variable {ctx next : Uart16550aCtx}

section

variable (ok : LineOk ctx)
include ok

theorem congr (lsr : next.lsr &&& lsrFifoBits = ctx.lsr &&& lsrFifoBits)
    (rx : next.rx.cnt = ctx.rx.cnt) (tx : next.tx.cnt = ctx.tx.cnt)
    : LineOk next :=
  ⟨by rw [lsr, ok.bits, rx], tx.trans ok.sent⟩

theorem rxFifoClear
    : LineOk (uart16550aRxFifoClear ctx) := by
  refine ⟨?_, ok.sent⟩
  simp only [uart16550aRxFifoClear]
  rw [lsr_and, ok.bits]
  unfold fifoBits
  split
  · rfl
  · rfl

theorem txFifoClear
    : LineOk (uart16550aTxFifoClear ctx) := by
  refine ⟨?_, rfl⟩
  simp only [uart16550aTxFifoClear]
  rw [lsr_or, ok.bits]
  exact fifoBits_idle _

theorem put (rx : next.rx.cnt = ctx.rx.cnt + 1) (lsr : next.lsr = ctx.lsr ||| lsrDr)
    (tx : next.tx = ctx.tx)
    : LineOk next := by
  refine ⟨?_, tx ▸ ok.sent⟩
  rw [lsr, lsr_or, ok.bits, rx]
  unfold fifoBits
  rw [if_neg (Nat.succ_ne_zero _)]
  split
  · decide
  · decide

theorem rxFifoPush (c : Byte)
    : LineOk (uart16550aRxFifoPush ctx c) := by
  unfold uart16550aRxFifoPush
  split
  · exact ok.congr (lsr_or_kept (by decide) _) rfl rfl
  · exact ok.put (ctx.rx.put_cnt c) rfl rfl

theorem rxFifoPop
    : LineOk (uart16550aRxFifoPop ctx).2 := by
  unfold uart16550aRxFifoPop
  split
  · exact ok
  next some =>
    refine ⟨?_, ok.sent⟩
    have bits := ok.bits
    rw [fifoBits, if_neg some] at bits
    dsimp only
    by_cases last : ctx.rx.take.cnt = 0
    · rw [if_pos last, last, lsr_and, bits]
      decide
    · rw [if_neg last, bits, fifoBits, if_neg last]

theorem refillLoop (rounds : Nat) (pushed : Bool)
    : LineOk (refillLoop rounds ctx pushed).1 := by
  induction rounds generalizing ctx pushed with
  | zero => exact ok
  | succ rounds ih =>
    by_cases busy : 0 < ctx.backlog.cnt ∧ ctx.rx.cnt < uartFifoSize
    · have moved : LineOk (movedByte ctx) := ok.put (ctx.rx.put_cnt _) rfl rfl
      rw [refillLoop_step busy]
      exact ih moved true
    · rw [refillLoop_stop busy]
      exact ok

theorem resumeIfDrained
    : LineOk (resumeIfDrained ctx) := by
  unfold Uart.resumeIfDrained
  cases ctx.console with
  | none => exact ok
  | some dev =>
    dsimp only
    split
    · cases charResumeRxLocked dev with
      | error => exact ok.congr rfl rfl rfl
      | ok => exact ok.congr rfl rfl rfl
    · exact ok

theorem pauseIfFull
    : LineOk (pauseIfFull ctx) := by
  unfold Uart.pauseIfFull
  cases ctx.console with
  | none => exact ok
  | some dev =>
    dsimp only
    split
    · cases charPauseRxLocked dev with
      | error => exact ok.congr rfl rfl rfl
      | ok => exact ok.congr rfl rfl rfl
    · exact ok

theorem rxFifoRefill
    : LineOk (uart16550aRxFifoRefill ctx) := by
  have moved := (ok.refillLoop uartFifoSize false).resumeIfDrained
  unfold uart16550aRxFifoRefill timeoutAfterRefill
  dsimp only
  split
  · exact moved.congr rfl rfl rfl
  · exact moved

end

end LineOk

theorem txFlush_line (ctx : Uart16550aCtx) (ret : Option VmError)
    : (uart16550aTxFlush ctx ret).lsr = ctx.lsr ||| (lsrThre ||| lsrTemt)
      ∧ (uart16550aTxFlush ctx ret).tx.cnt = 0 := by
  unfold uart16550aTxFlush
  by_cases pending : ctx.tx.cnt > 0
  · cases found : ctx.console with
    | none => simp [pending]
    | some => cases ret <;> simp [pending, Uart16550aCtx.vmReportError]
  · simp [pending]
    omega

namespace LineOk

variable {ctx : Uart16550aCtx}

section

variable (ok : LineOk ctx)
include ok

theorem transmit (val : Byte) (ret : Option VmError)
    : LineOk (transmit ctx val ret) := by
  unfold Uart.transmit
  split
  · exact ok.rxFifoPush val
  · obtain ⟨lsr, sent⟩ := txFlush_line { ctx with
      tx := ctx.tx.put val
      lsr := ctx.lsr &&& ~~~(lsrThre ||| lsrTemt)
      threIntPending := false } ret
    refine ⟨?_, sent⟩
    rw [lsr, (txFlush_same _ ret).rx]
    rw [lsr_or, lsr_and, ok.bits]
    unfold fifoBits
    split
    · decide
    · decide

theorem writeFcr (val : Byte)
    : LineOk (writeFcr ctx val) := by
  unfold Uart.writeFcr
  dsimp only
  split
  · refine txFifoClear (rxFifoClear ?_)
    exact ok.congr rfl rfl rfl
  · generalize stored : { ctx with fcr := _ } = programmed
    have enabled : LineOk programmed := stored ▸ ok.congr rfl rfl rfl
    generalize received : (if has (val &&& 0xcf#8) fcrClearRcvr then _ else _) = cleared
    have receiver : LineOk cleared := by
      rw [← received]
      split
      · exact enabled.rxFifoClear
      · exact enabled
    split
    · exact receiver.txFifoClear.congr rfl rfl rfl
    · exact receiver.congr rfl rfl rfl

theorem regRead (reg : Nat)
    : LineOk (uart16550aRegRead ctx reg).2 := by
  unfold uart16550aRegRead
  split
  case h_1 =>
    split
    · exact ok
    · exact ok.rxFifoPop
  case h_3 =>
    dsimp only
    split
    · exact ok.congr rfl rfl rfl
    · exact ok
  case h_6 => exact ok.congr (lsr_and_kept (by decide) _) rfl rfl
  case h_7 => exact ok.congr rfl rfl rfl
  all_goals exact ok

theorem regWrite (reg : Nat) (val : Byte) (ret : Option VmError)
    : LineOk (uart16550aRegWrite ctx reg val ret) := by
  unfold uart16550aRegWrite
  split
  case h_1 =>
    split
    · exact ok.congr rfl rfl rfl
    · exact ok.transmit val ret
  case h_2 =>
    split
    · exact ok.congr rfl rfl rfl
    · unfold writeIer
      dsimp only
      split
      · exact ok.congr rfl rfl rfl
      · exact ok.congr rfl rfl rfl
  case h_3 => exact ok.writeFcr val
  case h_4 =>
    unfold writeLcr
    dsimp only
    split
    · split
      · exact ok.congr (lsr_or_kept (by decide) _) rfl rfl
      · exact ok.congr (lsr_and_kept (by decide) _) rfl rfl
    · exact ok.congr rfl rfl rfl
  all_goals exact ok.congr rfl rfl rfl

theorem backlogFill (buf : List Byte)
    : LineOk (backlogFill buf ctx) := by
  induction buf generalizing ctx with
  | nil => exact ok
  | cons c rest ih =>
    simp only [Uart.backlogFill]
    split
    · exact ok.congr (lsr_or_kept (by decide) _) rfl rfl
    · exact ih (ok.congr rfl rfl rfl)

theorem step (op : UartOp)
    : LineOk (uartStep ctx op) := by
  cases op with
  | read offset =>
    have entered : LineOk (if regIdx ctx offset = 0 then ctx.irqSetLevel false else ctx) := by
      split
      · exact ok.congr rfl rfl rfl
      · exact ok
    have updated : LineOk (uart16550aIrqUpdate (uart16550aRegRead
        (if regIdx ctx offset = 0 then ctx.irqSetLevel false else ctx) (regIdx ctx offset)).2) :=
      (entered.regRead _).congr rfl rfl rfl
    exact updated.rxFifoRefill.congr rfl rfl rfl
  | write offset val ret => exact (ok.regWrite _ _ ret).congr rfl rfl rfl
  | rx buf =>
    simp only [uartStep, uartRxCb]
    split
    · exact ok
    · exact (ok.backlogFill buf).pauseIfFull.rxFifoRefill.congr rfl rfl rfl

end

end LineOk

theorem uartRealize_lineOk (console : Option CharBackend) (regShift : Nat)
    : LineOk (uartRealize console regShift) := by
  refine ⟨?_, rfl⟩
  change 0x60#8 &&& lsrFifoBits = fifoBits 0
  decide

/-- While the FIFO is on, the trigger level is one of the four that a guest can select. -/
def ReceiveStatus.TriggerSelected (status : ReceiveStatus) : Prop :=
  status.fifoEnabled = true → status.trigger ∈ [1, 4, 8, 14]

theorem triggerLevel_mem (val : Byte)
    : triggerLevel val ∈ [1, 4, 8, 14] := by
  unfold triggerLevel
  repeat' split
  all_goals decide

theorem uartStep_triggerSelected {ctx : Uart16550aCtx} (rings : ctx.RingsOk)
    (selected : ctx.receiveStatus.TriggerSelected) (op : UartOp)
    : (uartStep ctx op).receiveStatus.TriggerSelected := by
  -- reads, loops and refills keep both fields
  have popped : ctx.receiveStatus.popped.TriggerSelected := by
    unfold ReceiveStatus.popped
    split
    · exact selected
    · exact selected
  have refilled : ∀ {status : ReceiveStatus} (waiting : Nat), status.TriggerSelected
      → (status.refilled waiting).TriggerSelected := by
    intro status waiting selected
    unfold ReceiveStatus.refilled
    split
    · exact selected
    · exact selected
  cases op with
  | read =>
    rw [uartStep, uartIoRead_status ctx rings]
    refine refilled _ ?_
    split
    · exact popped
    · exact selected
  | write =>
    rw [uartStep, uartIoWrite_status]
    split
    · unfold ReceiveStatus.pushed
      split
      · exact selected
      · exact selected
    split
    · intro enabled
      simp only [ReceiveStatus.programmed] at enabled ⊢
      rw [if_pos enabled]
      exact triggerLevel_mem _
    · exact selected
  | rx buf =>
    by_cases empty : buf = []
    · have same : uartRxCb ctx buf = ctx := by simp only [uartRxCb, empty, if_true]
      rw [uartStep, same]
      exact selected
    · rw [uartStep, uartRxCb_status ctx rings empty]
      exact refilled _ selected

/-- The redundant fields of the UART agree. -/
structure Consistent (ctx : Uart16550aCtx) : Prop where
  rx : ctx.rx.cnt ≤ 16 ∧ ctx.rx.head = (ctx.rx.tail + ctx.rx.cnt) % 16
  backlog : ctx.backlog.cnt ≤ 256
    ∧ ctx.backlog.head = (ctx.backlog.tail + ctx.backlog.cnt) % 256
  tx : ctx.tx.cnt = 0
  dataReady : has ctx.lsr lsrDr = true ↔ 0 < ctx.rx.cnt
  idle : has ctx.lsr lsrThre = true ∧ has ctx.lsr lsrTemt = true
  trigger : has ctx.fcr fcrEnableFifo = true → ctx.rxTriggerLevel ∈ [1, 4, 8, 14]
  line : ctx.irqLevel = true ↔ has (uart16550aIirGet ctx) iirNoInt = false

theorem has_of_fifoBits {lsr : Byte} {count : Nat} (bits : lsr &&& lsrFifoBits = fifoBits count)
    : (has lsr lsrDr = true ↔ 0 < count) ∧ has lsr lsrThre = true ∧ has lsr lsrTemt = true := by
  have part : ∀ mask, mask &&& lsrFifoBits = mask
      → has lsr mask = has (fifoBits count) mask := by
    intro mask inside
    rw [← bits, has, has, BitVec.and_assoc, BitVec.and_comm lsrFifoBits, inside]
  rw [part lsrDr (by decide), part lsrThre (by decide), part lsrTemt (by decide)]
  unfold fifoBits
  split
  next none => exact ⟨iff_of_false (by decide) (by omega), by decide, by decide⟩
  next some => exact ⟨iff_of_true (by decide) (by omega), by decide, by decide⟩

theorem Settled.consistent {ctx : Uart16550aCtx} (settled : Settled ctx) (line : LineOk ctx)
    (selected : ctx.receiveStatus.TriggerSelected)
    : Consistent ctx := by
  obtain ⟨ready, thre, temt⟩ := has_of_fifoBits line.bits
  refine ⟨⟨settled.rings.rx.bounded, settled.rings.rx.headEq⟩,
    ⟨settled.rings.backlog.bounded, settled.rings.backlog.headEq⟩, line.sent, ready,
    ⟨thre, temt⟩, selected, ?_⟩
  rw [settled.driven, Bool.not_eq_true']

/-- After every operation of a run from realization, with accesses at any offset and batches of any
length, the redundant fields of the UART agree.
-/
theorem uart_consistent (console : Option CharBackend) (regShift : Nat) (ops : List UartOp)
    : StatesHave UartStep Consistent (uartRealize console regShift) ops := by
  intro done ctx within run
  have kept : Settled ctx ∧ LineOk ctx ∧ ctx.receiveStatus.TriggerSelected := by
    refine run.invariant (fun ctx => Settled ctx ∧ LineOk ctx
      ∧ ctx.receiveStatus.TriggerSelected) ?_ ?_
    · rintro s op t ⟨settled, line, selected⟩ step
      exact step ▸ ⟨settled.step op, line.step op,
        uartStep_triggerSelected settled.rings selected op⟩
    · refine ⟨uartRealize_settled console regShift, uartRealize_lineOk console regShift, ?_⟩
      intro enabled
      simp [Uart16550aCtx.receiveStatus, uartRealize, uart16550aMsrUpdate, has] at enabled
  exact kept.1.consistent kept.2.1 kept.2.2

end Modvm.Uart
