import Modvm.Uart.Model

/-! What each UART operation does to the receive path. -/

namespace Modvm.Uart

open Modvm.Lib

/-- Every byte accepted, in order: those that left the FIFO, the FIFO, the backlog. -/
def Uart16550aCtx.stream (ctx : Uart16550aCtx) : List Byte :=
  ctx.drained ++ ctx.rx.contents ++ ctx.backlog.contents

structure Uart16550aCtx.RingsOk (ctx : Uart16550aCtx) : Prop where
  rx : ctx.rx.WellFormed
  backlog : ctx.backlog.WellFormed

def Uart16550aCtx.receiving (ctx : Uart16550aCtx) : Option Bool :=
  ctx.console.bind CharBackend.binding

/-- Two states agree on the receive path, on backpressure and on the loopback control. -/
structure SameReceive (before after : Uart16550aCtx) : Prop where
  drained : after.drained = before.drained
  rx : after.rx = before.rx
  backlog : after.backlog = before.backlog
  paused : after.rxPaused = before.rxPaused
  receiving : after.receiving = before.receiving
  present : after.console.isSome = before.console.isSome
  mcr : after.mcr = before.mcr

theorem SameReceive.refl (ctx : Uart16550aCtx) : SameReceive ctx ctx :=
  ⟨rfl, rfl, rfl, rfl, rfl, rfl, rfl⟩

theorem SameReceive.trans {first second third : Uart16550aCtx}
    (left : SameReceive first second) (right : SameReceive second third)
    : SameReceive first third :=
  ⟨right.drained.trans left.drained, right.rx.trans left.rx,
    right.backlog.trans left.backlog, right.paused.trans left.paused,
    right.receiving.trans left.receiving, right.present.trans left.present,
    right.mcr.trans left.mcr⟩

theorem SameReceive.stream {before after : Uart16550aCtx} (same : SameReceive before after)
    : after.stream = before.stream := by
  simp only [Uart16550aCtx.stream, same.drained, same.rx, same.backlog]

theorem SameReceive.ringsOk {before after : Uart16550aCtx} (same : SameReceive before after)
    (ok : before.RingsOk)
    : after.RingsOk :=
  ⟨same.rx ▸ ok.rx, same.backlog ▸ ok.backlog⟩

section

variable (ctx : Uart16550aCtx)

theorem irqUpdate_same : SameReceive ctx (uart16550aIrqUpdate ctx) :=
  ⟨rfl, rfl, rfl, rfl, rfl, rfl, rfl⟩

theorem irqSetLevel_same (level : Bool)
    : SameReceive ctx (ctx.irqSetLevel level) :=
  ⟨rfl, rfl, rfl, rfl, rfl, rfl, rfl⟩

theorem msrUpdate_same : SameReceive ctx (uart16550aMsrUpdate ctx) :=
  ⟨rfl, rfl, rfl, rfl, rfl, rfl, rfl⟩

theorem txFlush_same (ret : Option VmError)
    : SameReceive ctx (uart16550aTxFlush ctx ret) := by
  unfold uart16550aTxFlush
  by_cases pending : ctx.tx.cnt > 0
  · cases found : ctx.console with
    | none => constructor <;> simp [pending, Uart16550aCtx.receiving]
    | some =>
      cases ret <;>
        constructor <;>
          simp [pending, found, Uart16550aCtx.receiving, Uart16550aCtx.vmReportError]
  · constructor <;> simp [pending, Uart16550aCtx.receiving]

theorem transmit_same (val : Byte) (ret : Option VmError)
    (open_line : uart16550aLoopbackIsEnabled ctx = false)
    : SameReceive ctx (transmit ctx val ret) := by
  simp only [transmit, open_line]
  refine SameReceive.trans ?_ (txFlush_same _ ret)
  exact ⟨rfl, rfl, rfl, rfl, rfl, rfl, rfl⟩

theorem writeIer_same (val : Byte)
    : SameReceive ctx (writeIer ctx val) := by
  unfold writeIer
  dsimp only
  split <;> exact ⟨rfl, rfl, rfl, rfl, rfl, rfl, rfl⟩

theorem writeLcr_same (val : Byte)
    : SameReceive ctx (writeLcr ctx val) := by
  unfold writeLcr
  dsimp only
  split
  · split <;> exact ⟨rfl, rfl, rfl, rfl, rfl, rfl, rfl⟩
  · exact ⟨rfl, rfl, rfl, rfl, rfl, rfl, rfl⟩

end

/-- A FIFO-control value clears the receive FIFO: the FIFO is switched off or the clear bit
is set.
-/
def clearsReceiver (val : Byte) : Bool :=
  !Uart16550aCtx.has (val &&& 0xcf#8) fcrEnableFifo
    || Uart16550aCtx.has (val &&& 0xcf#8) fcrClearRcvr

theorem writeFcr_clears (ctx : Uart16550aCtx) (val : Byte) (clears : clearsReceiver val)
    : SameReceive (uart16550aRxFifoClear ctx) (writeFcr ctx val) := by
  unfold writeFcr
  simp only [clearsReceiver, Bool.or_eq_true] at clears
  by_cases off : (!Uart16550aCtx.has (val &&& 0xcf#8) fcrEnableFifo) = true
  · simp only [off]
    exact ⟨rfl, rfl, rfl, rfl, rfl, rfl, rfl⟩
  · have clear := clears.resolve_left off
    cases xmit : Uart16550aCtx.has (val &&& 0xcf#8) fcrClearXmit <;>
      simp only [off, clear, xmit] <;>
      exact ⟨rfl, rfl, rfl, rfl, rfl, rfl, rfl⟩

theorem writeFcr_same (ctx : Uart16550aCtx) (val : Byte)
    (keeps : clearsReceiver val = false)
    : SameReceive ctx (writeFcr ctx val) := by
  unfold writeFcr
  simp only [clearsReceiver, Bool.or_eq_false_iff] at keeps
  cases xmit : Uart16550aCtx.has (val &&& 0xcf#8) fcrClearXmit <;>
    simp only [keeps.1, keeps.2, xmit, Bool.false_eq_true, if_false] <;>
    exact ⟨rfl, rfl, rfl, rfl, rfl, rfl, rfl⟩

theorem moveByte_stream {ctx : Uart16550aCtx} (ok : ctx.RingsOk)
    (waiting : 0 < ctx.backlog.cnt) (room : ctx.rx.cnt < uartFifoSize)
    : ctx.drained ++ (ctx.rx.put ctx.backlog.front).contents
        ++ ctx.backlog.take.contents
      = ctx.stream := by
  rw [Uart16550aCtx.stream, ok.rx.contents_put room, ok.backlog.contents_take waiting]
  simp

def movedByte (ctx : Uart16550aCtx) : Uart16550aCtx :=
  { ctx with
    rx := ctx.rx.put ctx.backlog.front
    lsr := ctx.lsr ||| lsrDr
    backlog := ctx.backlog.take }

theorem refillLoop_step {rounds : Nat} {ctx : Uart16550aCtx} {pushed : Bool}
    (busy : 0 < ctx.backlog.cnt ∧ ctx.rx.cnt < uartFifoSize)
    : refillLoop (rounds + 1) ctx pushed = refillLoop rounds (movedByte ctx) true := by
  have notFull : ¬ ctx.rx.cnt ≥ uartFifoSize := by omega
  simp only [refillLoop, busy, and_self, if_true, uart16550aRxFifoPush, notFull, if_false,
    movedByte]

theorem refillLoop_stop {rounds : Nat} {ctx : Uart16550aCtx} {pushed : Bool}
    (idle : ¬ (0 < ctx.backlog.cnt ∧ ctx.rx.cnt < uartFifoSize))
    : refillLoop rounds ctx pushed = (ctx, pushed) := by
  cases rounds with
  | zero => rfl
  | succ => simp only [refillLoop, idle, if_false]

/-- The refill loop keeps the stream and the rings, one byte per round. Witness: induction on
rounds.
-/
theorem refillLoop_spec (rounds : Nat) (ctx : Uart16550aCtx) (pushed : Bool)
    (ok : ctx.RingsOk)
    : ∃ rx backlog lsr,
        (refillLoop rounds ctx pushed).1
          = { ctx with rx := rx, backlog := backlog, lsr := lsr }
        ∧ (refillLoop rounds ctx pushed).1.RingsOk
        ∧ (refillLoop rounds ctx pushed).1.stream = ctx.stream
        ∧ backlog.cnt ≤ ctx.backlog.cnt
        ∧ ctx.backlog.cnt ≤ backlog.cnt + rounds := by
  induction rounds generalizing ctx pushed with
  | zero => exact ⟨ctx.rx, ctx.backlog, ctx.lsr, rfl, ok, rfl, le_refl _, le_refl _⟩
  | succ rounds ih =>
    by_cases busy : 0 < ctx.backlog.cnt ∧ ctx.rx.cnt < uartFifoSize
    · rw [refillLoop_step busy]
      have moved : (movedByte ctx).RingsOk :=
        ⟨ok.rx.put busy.2 _, ok.backlog.take busy.1⟩
      obtain ⟨rx, backlog, lsr, same, nextOk, stream, fewer, rest⟩ := ih _ true moved
      refine ⟨rx, backlog, lsr, same, nextOk, ?_, ?_, ?_⟩
      · exact stream.trans (moveByte_stream ok busy.1 busy.2)
      · simp only [movedByte, Ring.take_cnt] at fewer
        omega
      · simp only [movedByte, Ring.take_cnt] at rest
        omega
    · rw [refillLoop_stop busy]
      exact ⟨ctx.rx, ctx.backlog, ctx.lsr, rfl, ok, rfl, le_refl _, by omega⟩

/-- Enough rounds empty the backlog or fill the FIFO. Witness: induction on rounds. -/
theorem refillLoop_settles (rounds : Nat) (ctx : Uart16550aCtx) (pushed : Bool)
    (enough : uartFifoSize ≤ ctx.rx.cnt + rounds)
    : (refillLoop rounds ctx pushed).1.backlog.cnt = 0
      ∨ uartFifoSize ≤ (refillLoop rounds ctx pushed).1.rx.cnt := by
  induction rounds generalizing ctx pushed with
  | zero => exact Or.inr enough
  | succ rounds ih =>
    by_cases busy : 0 < ctx.backlog.cnt ∧ ctx.rx.cnt < uartFifoSize
    · rw [refillLoop_step busy]
      apply ih
      simp only [movedByte, Ring.put_cnt]
      omega
    · rw [refillLoop_stop busy]
      dsimp only
      omega

theorem timeoutAfterRefill_same (ctx : Uart16550aCtx) (pushed : Bool)
    : SameReceive ctx (timeoutAfterRefill ctx pushed) := by
  unfold timeoutAfterRefill
  split <;> exact ⟨rfl, rfl, rfl, rfl, rfl, rfl, rfl⟩

theorem resumeIfDrained_rings (ctx : Uart16550aCtx)
    : (resumeIfDrained ctx).rx = ctx.rx
      ∧ (resumeIfDrained ctx).backlog = ctx.backlog
      ∧ (resumeIfDrained ctx).drained = ctx.drained
      ∧ (resumeIfDrained ctx).mcr = ctx.mcr := by
  unfold resumeIfDrained
  cases ctx.console with
  | none => exact ⟨rfl, rfl, rfl, rfl⟩
  | some dev =>
    dsimp only
    split
    · cases charResumeRxLocked dev <;> exact ⟨rfl, rfl, rfl, rfl⟩
    · exact ⟨rfl, rfl, rfl, rfl⟩

theorem pauseIfFull_rings (ctx : Uart16550aCtx)
    : (pauseIfFull ctx).rx = ctx.rx
      ∧ (pauseIfFull ctx).backlog = ctx.backlog
      ∧ (pauseIfFull ctx).drained = ctx.drained
      ∧ (pauseIfFull ctx).mcr = ctx.mcr := by
  unfold pauseIfFull
  cases ctx.console with
  | none => exact ⟨rfl, rfl, rfl, rfl⟩
  | some dev =>
    dsimp only
    split
    · cases charPauseRxLocked dev <;> exact ⟨rfl, rfl, rfl, rfl⟩
    · exact ⟨rfl, rfl, rfl, rfl⟩

theorem rxFifoRefill_spec (ctx : Uart16550aCtx) (ok : ctx.RingsOk)
    : (uart16550aRxFifoRefill ctx).RingsOk
      ∧ (uart16550aRxFifoRefill ctx).stream = ctx.stream
      ∧ (uart16550aRxFifoRefill ctx).mcr = ctx.mcr
      ∧ (uart16550aRxFifoRefill ctx).backlog.cnt ≤ ctx.backlog.cnt
      ∧ ctx.backlog.cnt ≤ (uart16550aRxFifoRefill ctx).backlog.cnt + uartFifoSize := by
  obtain ⟨rx, backlog, lsr, same, nextOk, stream, fewer, rest⟩ :=
    refillLoop_spec uartFifoSize ctx false ok
  have latch := timeoutAfterRefill_same
    (resumeIfDrained (refillLoop uartFifoSize ctx false).1)
    (refillLoop uartFifoSize ctx false).2
  obtain ⟨rxSame, backlogSame, drainedSame, mcrSame⟩ :=
    resumeIfDrained_rings (refillLoop uartFifoSize ctx false).1
  have counted : (uart16550aRxFifoRefill ctx).backlog = backlog := by
    rw [uart16550aRxFifoRefill, latch.backlog, backlogSame, same]
  refine ⟨latch.ringsOk ⟨rxSame ▸ nextOk.rx, backlogSame ▸ nextOk.backlog⟩, ?_, ?_, ?_, ?_⟩
  · rw [uart16550aRxFifoRefill, latch.stream, Uart16550aCtx.stream, rxSame, backlogSame,
      drainedSame]
    exact stream
  · rw [uart16550aRxFifoRefill, latch.mcr, mcrSame, same]
  · rw [counted]
    exact fewer
  · rw [counted]
    exact rest

/-- The refill loop takes nothing out of the FIFO. Witness: induction on rounds. -/
theorem refillLoop_drained (rounds : Nat) (ctx : Uart16550aCtx) (pushed : Bool)
    : (refillLoop rounds ctx pushed).1.drained = ctx.drained := by
  induction rounds generalizing ctx pushed with
  | zero => rfl
  | succ rounds ih =>
    by_cases busy : 0 < ctx.backlog.cnt ∧ ctx.rx.cnt < uartFifoSize
    · rw [refillLoop_step busy]
      exact ih (movedByte ctx) true
    · rw [refillLoop_stop busy]

theorem rxFifoRefill_drained (ctx : Uart16550aCtx)
    : (uart16550aRxFifoRefill ctx).drained = ctx.drained := by
  have latch := timeoutAfterRefill_same
    (resumeIfDrained (refillLoop uartFifoSize ctx false).1)
    (refillLoop uartFifoSize ctx false).2
  obtain ⟨-, -, resumed, -⟩ := resumeIfDrained_rings (refillLoop uartFifoSize ctx false).1
  calc (uart16550aRxFifoRefill ctx).drained
      = (resumeIfDrained (refillLoop uartFifoSize ctx false).1).drained := latch.drained
    _ = (refillLoop uartFifoSize ctx false).1.drained := resumed
    _ = ctx.drained := refillLoop_drained uartFifoSize ctx false

theorem rxFifoRefill_settles (ctx : Uart16550aCtx) (ok : ctx.RingsOk)
    : (uart16550aRxFifoRefill ctx).backlog.cnt ≠ 0
      → (uart16550aRxFifoRefill ctx).rx.cnt = uartFifoSize := by
  intro waiting
  have latch := timeoutAfterRefill_same
    (resumeIfDrained (refillLoop uartFifoSize ctx false).1)
    (refillLoop uartFifoSize ctx false).2
  obtain ⟨rxSame, backlogSame, -⟩ :=
    resumeIfDrained_rings (refillLoop uartFifoSize ctx false).1
  have bounded := (rxFifoRefill_spec ctx ok).1.rx.bounded
  rw [uart16550aRxFifoRefill] at waiting bounded ⊢
  rw [latch.backlog, backlogSame] at waiting
  rw [latch.rx, rxSame] at bounded ⊢
  have settled := refillLoop_settles uartFifoSize ctx false (by omega)
  omega

theorem rxFifoPop_spec (ctx : Uart16550aCtx) (ok : ctx.RingsOk)
    : (uart16550aRxFifoPop ctx).2.RingsOk
      ∧ (uart16550aRxFifoPop ctx).2.stream = ctx.stream
      ∧ (uart16550aRxFifoPop ctx).2.backlog = ctx.backlog
      ∧ (uart16550aRxFifoPop ctx).2.rxPaused = ctx.rxPaused
      ∧ (uart16550aRxFifoPop ctx).2.console = ctx.console
      ∧ (uart16550aRxFifoPop ctx).2.mcr = ctx.mcr := by
  unfold uart16550aRxFifoPop
  by_cases empty : ctx.rx.cnt = 0
  · rw [if_pos empty]
    exact ⟨ok, rfl, rfl, rfl, rfl, rfl⟩
  · rw [if_neg empty]
    have some : 0 < ctx.rx.cnt := Nat.pos_of_ne_zero empty
    refine ⟨⟨ok.rx.take some, ok.backlog⟩, ?_, rfl, rfl, rfl, rfl⟩
    simp [Uart16550aCtx.stream, ok.rx.contents_take some]

theorem regRead_ringsOk {ctx : Uart16550aCtx} (ok : ctx.RingsOk) (reg : Nat)
    : (uart16550aRegRead ctx reg).2.RingsOk := by
  unfold uart16550aRegRead
  split
  · split
    · exact ok
    · exact (rxFifoPop_spec ctx ok).1
  · exact ok
  · dsimp only
    split
    · exact ⟨ok.rx, ok.backlog⟩
    · exact ok
  all_goals exact ⟨ok.rx, ok.backlog⟩

theorem rxFifoClear_spec (ctx : Uart16550aCtx) (ok : ctx.RingsOk)
    : (uart16550aRxFifoClear ctx).RingsOk
      ∧ (uart16550aRxFifoClear ctx).stream = ctx.stream := by
  refine ⟨⟨.clear (by decide) _, ok.backlog⟩, ?_⟩
  simp [Uart16550aCtx.stream, uart16550aRxFifoClear]

theorem rxFifoPush_ringsOk (ctx : Uart16550aCtx) (c : Byte) (ok : ctx.RingsOk)
    : (uart16550aRxFifoPush ctx c).RingsOk := by
  unfold uart16550aRxFifoPush
  split
  · exact ⟨ok.rx, ok.backlog⟩
  · exact ⟨ok.rx.put (by omega) c, ok.backlog⟩

variable (buf : List Byte) (rounds : Nat) (ctx : Uart16550aCtx) (pushed : Bool) (val : Byte)

/-- Filling the backlog within its room appends the bytes. Witness: induction on the batch. -/
theorem backlogFill_spec (ok : ctx.RingsOk) (fits : ctx.backlog.cnt + buf.length ≤ uartBacklogSize)
    : ∃ backlog,
        backlogFill buf ctx = { ctx with backlog := backlog }
        ∧ (backlogFill buf ctx).RingsOk
        ∧ (backlogFill buf ctx).stream = ctx.stream ++ buf
        ∧ backlog.cnt = ctx.backlog.cnt + buf.length := by
  induction buf generalizing ctx with
  | nil => exact ⟨ctx.backlog, rfl, ok, by simp [backlogFill], by simp⟩
  | cons c rest ih =>
    simp only [List.length_cons] at fits
    have room : ¬ ctx.backlog.cnt ≥ uartBacklogSize := by omega
    simp only [backlogFill, room, if_false]
    have stored : Uart16550aCtx.RingsOk { ctx with backlog := ctx.backlog.put c } :=
      ⟨ok.rx, ok.backlog.put (by omega) c⟩
    obtain ⟨backlog, same, nextOk, stream, count⟩ :=
      ih _ stored (by simp only [Ring.put_cnt]; omega)
    refine ⟨backlog, same, nextOk, ?_, ?_⟩
    · rw [stream, Uart16550aCtx.stream, ok.backlog.contents_put (by omega) c]
      simp [Uart16550aCtx.stream]
    · simp only [count, Ring.put_cnt, List.length_cons]
      omega

theorem backlogFill_drained : (backlogFill buf ctx).drained = ctx.drained := by
  induction buf generalizing ctx with
  | nil => rfl
  | cons c rest ih =>
    simp only [backlogFill]
    split
    · rfl
    · exact ih _

theorem backlogFill_ringsOk (ok : ctx.RingsOk) : (backlogFill buf ctx).RingsOk := by
  induction buf generalizing ctx with
  | nil => exact ok
  | cons c rest ih =>
    simp only [backlogFill]
    split
    · exact ⟨ok.rx, ok.backlog⟩
    · exact ih _ ⟨ok.rx, ok.backlog.put (by omega) c⟩

/-- What an operation takes out of the receive FIFO: the value that a read of the data register
returns, unless the FIFO is empty, and everything in it when a FIFO-control write clears it.
-/
def removedBy (ctx : Uart16550aCtx) : UartOp → List Byte
  | .read offset =>
      if regIdx ctx offset = 0 ∧ uart16550aDlabIsSet ctx = false ∧ ctx.rx.cnt ≠ 0 then
        [(uartIoRead ctx offset).1]
      else
        []
  | .write offset val _ =>
      if regIdx ctx offset = 2 ∧ clearsReceiver (BitVec.ofNat 8 val) then ctx.rx.contents else []
  | .rx _ => []

/-- What a run of operations takes out of the receive FIFO, oldest first. -/
def removed (ctx : Uart16550aCtx) : List UartOp → List Byte
  | [] => []
  | op :: rest => removedBy ctx op ++ removed (uartStep ctx op) rest

theorem rxFifoPop_drained
    : (uart16550aRxFifoPop ctx).2.drained
      = ctx.drained ++ if ctx.rx.cnt ≠ 0 then [(uart16550aRxFifoPop ctx).1] else [] := by
  unfold uart16550aRxFifoPop
  by_cases empty : ctx.rx.cnt = 0 <;> simp [empty]

/-- A register read takes a byte out only at the data register with the divisor latch closed, and
returns that byte.
-/
theorem regRead_drained (reg : Nat)
    : (uart16550aRegRead ctx reg).2.drained
      = ctx.drained
        ++ if reg = 0 ∧ uart16550aDlabIsSet ctx = false ∧ ctx.rx.cnt ≠ 0 then
            [(uart16550aRegRead ctx reg).1]
          else
            [] := by
  unfold uart16550aRegRead
  split
  · cases latch : uart16550aDlabIsSet ctx with
    | true => simp
    | false => simpa [latch] using rxFifoPop_drained ctx
  · simp
  · dsimp only
    split <;> simp
  all_goals simp_all

theorem regWrite_drained (reg : Nat) (val : Byte) (ret : Option VmError)
    : (uart16550aRegWrite ctx reg val ret).drained
      = ctx.drained ++ if reg = 2 ∧ clearsReceiver val then ctx.rx.contents else [] := by
  unfold uart16550aRegWrite
  split
  · split
    · simp
    · cases loopback : uart16550aLoopbackIsEnabled ctx with
      | false => simpa using (transmit_same ctx val ret loopback).drained
      | true =>
        -- loopback puts the byte into the FIFO and takes nothing out
        simp only [transmit, loopback, if_true, uart16550aRxFifoPush]
        split <;> simp
  · split
    · simp
    · simpa using (writeIer_same ctx val).drained
  · cases clears : clearsReceiver val with
    | false => simpa using (writeFcr_same ctx val clears).drained
    | true => simpa [uart16550aRxFifoClear] using (writeFcr_clears ctx val clears).drained
  · simpa using (writeLcr_same ctx val).drained
  · simpa using (msrUpdate_same { ctx with mcr := val &&& 0x1f#8 }).drained
  all_goals simp_all

/-- The history `drained` grows by what the operation takes out, in every state. Witness: the
refill that follows a read or a delivery only fills the FIFO.
-/
theorem uartStep_drained (op : UartOp)
    : (uartStep ctx op).drained = ctx.drained ++ removedBy ctx op := by
  cases op with
  | read offset =>
    let entered := if regIdx ctx offset = 0 then ctx.irqSetLevel false else ctx
    have enter : entered.drained = ctx.drained ∧ entered.rx = ctx.rx
        ∧ uart16550aDlabIsSet entered = uart16550aDlabIsSet ctx := by
      dsimp only [entered]
      split <;> exact ⟨rfl, rfl, rfl⟩
    have popped := regRead_drained entered (regIdx ctx offset)
    rw [enter.1, enter.2.1, enter.2.2] at popped
    exact (rxFifoRefill_drained _).trans popped
  | write offset val ret => exact regWrite_drained ctx (regIdx ctx offset) (BitVec.ofNat 8 val) ret
  | rx buf =>
    simp only [uartStep, removedBy, List.append_nil, uartRxCb]
    split
    · rfl
    · obtain ⟨-, -, paused, -⟩ := pauseIfFull_rings (backlogFill buf ctx)
      exact (rxFifoRefill_drained _).trans (paused.trans (backlogFill_drained buf ctx))

end Modvm.Uart
