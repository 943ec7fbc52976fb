import Modvm.Lib.Runs
import Modvm.Uart.ReceivePath

/-! When input waiting in the software backlog is announced to the guest. -/

namespace Modvm.Uart

open Modvm.Lib

/-- Bytes wait in the backlog only behind a full receive FIFO. -/
def BacklogAnnounced (ctx : Uart16550aCtx) : Prop :=
  ctx.backlog.cnt ≠ 0 → ctx.rx.cnt = uartFifoSize

/-- The step does not clear the receive FIFO while the backlog is nonempty. -/
def KeepsFifoOrEmptyBacklog (ctx : Uart16550aCtx) : UartOp → Prop
  | .write offset val _ =>
      regIdx ctx offset = 2 → clearsReceiver (BitVec.ofNat 8 val) → ctx.backlog.cnt = 0
  | .read _ => True
  | .rx _ => True

def UartStep (ctx : Uart16550aCtx) (op : UartOp) (next : Uart16550aCtx) : Prop :=
  next = uartStep ctx op

variable {ctx : Uart16550aCtx}

theorem uartIoRead_eq_refill (ok : ctx.RingsOk) (offset : Nat)
    : ∃ before : Uart16550aCtx,
        before.RingsOk
        ∧ (uartIoRead ctx offset).2 = uart16550aIrqUpdate (uart16550aRxFifoRefill before) := by
  let entered := if regIdx ctx offset = 0 then ctx.irqSetLevel false else ctx
  have enteredOk : entered.RingsOk := by
    dsimp only [entered]
    split
    · exact (irqSetLevel_same ctx false).ringsOk ok
    · exact ok
  exact ⟨_, (irqUpdate_same _).ringsOk (regRead_ringsOk enteredOk (regIdx ctx offset)), rfl⟩

theorem uartRxCb_eq_refill (ok : ctx.RingsOk) {buf : List Byte} (nonempty : buf ≠ [])
    : ∃ before : Uart16550aCtx,
        before.RingsOk
        ∧ uartRxCb ctx buf = uart16550aIrqUpdate (uart16550aRxFifoRefill before) := by
  have filled := backlogFill_ringsOk buf ctx ok
  obtain ⟨rxSame, backlogSame, -⟩ := pauseIfFull_rings (backlogFill buf ctx)
  refine ⟨pauseIfFull (backlogFill buf ctx), ⟨rxSame ▸ filled.rx, backlogSame ▸ filled.backlog⟩,
    ?_⟩
  simp only [uartRxCb, nonempty, if_false]

theorem announced_after_refill {before : Uart16550aCtx} (ok : before.RingsOk)
    : (uart16550aIrqUpdate (uart16550aRxFifoRefill before)).RingsOk
      ∧ BacklogAnnounced (uart16550aIrqUpdate (uart16550aRxFifoRefill before)) :=
  ⟨(irqUpdate_same _).ringsOk (rxFifoRefill_spec before ok).1,
    rxFifoRefill_settles before ok⟩

theorem transmit_announced (ok : ctx.RingsOk) (val : Byte) (ret : Option VmError)
    : (transmit ctx val ret).RingsOk
      ∧ (BacklogAnnounced ctx → BacklogAnnounced (transmit ctx val ret)) := by
  cases loop : uart16550aLoopbackIsEnabled ctx with
  | false =>
    have same := transmit_same ctx val ret loop
    refine ⟨same.ringsOk ok, ?_⟩
    intro announced
    simpa only [BacklogAnnounced, same.rx, same.backlog] using announced
  | true =>
    have pushed : transmit ctx val ret = uart16550aRxFifoPush ctx val := by
      simp only [transmit, loop, if_true]
    rw [pushed]
    refine ⟨rxFifoPush_ringsOk ctx val ok, ?_⟩
    intro announced waiting
    have bounded := (rxFifoPush_ringsOk ctx val ok).rx.bounded
    unfold uart16550aRxFifoPush at waiting bounded ⊢
    split at waiting
    · rw [if_pos ‹_›]
      exact announced waiting
    · have full := announced waiting
      omega

theorem writeFcr_announced (ok : ctx.RingsOk) (val : Byte)
    : (writeFcr ctx val).RingsOk
      ∧ (BacklogAnnounced ctx
        → (BacklogAnnounced (writeFcr ctx val)
          ↔ (clearsReceiver val → ctx.backlog.cnt = 0))) := by
  cases clears : clearsReceiver val with
  | false =>
    have agree := writeFcr_same ctx _ clears
    refine ⟨agree.ringsOk ok, fun announced => ⟨?_, ?_⟩⟩
    · intro _ impossible
      simp at impossible
    · intro _
      simpa only [BacklogAnnounced, agree.rx, agree.backlog] using announced
  | true =>
    have agree := writeFcr_clears ctx _ clears
    refine ⟨agree.ringsOk (rxFifoClear_spec ctx ok).1, fun _ => ⟨?_, ?_⟩⟩
    · intro announced _
      by_contra waiting
      have full := announced (by rw [agree.backlog]; exact waiting)
      rw [agree.rx] at full
      simp [uart16550aRxFifoClear] at full
    · intro empty waiting
      rw [agree.backlog] at waiting
      exact absurd (empty rfl) waiting

theorem regWrite_announced (ok : ctx.RingsOk) (reg : Nat) (val : Byte) (ret : Option VmError)
    : (uart16550aRegWrite ctx reg val ret).RingsOk
      ∧ (BacklogAnnounced ctx
        → (BacklogAnnounced (uart16550aRegWrite ctx reg val ret)
          ↔ (reg = 2 → clearsReceiver val → ctx.backlog.cnt = 0))) := by
  have same : ∀ (reg : Nat) (after : Uart16550aCtx), reg ≠ 2 → after.rx = ctx.rx
      → after.backlog = ctx.backlog
      → after.RingsOk
        ∧ (BacklogAnnounced ctx
          → (BacklogAnnounced after
            ↔ (reg = 2 → clearsReceiver val → ctx.backlog.cnt = 0))) := by
    intro reg after other rx backlog
    refine ⟨⟨rx ▸ ok.rx, backlog ▸ ok.backlog⟩,
      fun announced => ⟨fun _ two => absurd two other, fun _ => ?_⟩⟩
    simpa only [BacklogAnnounced, rx, backlog] using announced
  unfold uart16550aRegWrite
  split
  · split
    · exact same 0 _ (by decide) rfl rfl
    · obtain ⟨next, keeps⟩ := transmit_announced ok val ret
      exact ⟨next, fun announced =>
        ⟨fun _ two => absurd two (by decide), fun _ => keeps announced⟩⟩
  · split
    · exact same 1 _ (by decide) rfl rfl
    · have agree := writeIer_same ctx val
      exact same 1 _ (by decide) agree.rx agree.backlog
  · simpa using writeFcr_announced ok val
  · have agree := writeLcr_same ctx val
    exact same 3 _ (by decide) agree.rx agree.backlog
  · exact same 4 _ (by decide) rfl rfl
  · exact same 7 _ (by decide) rfl rfl
  · exact same reg _ ‹_› rfl rfl

theorem uartIoWrite_announced (ok : ctx.RingsOk) (offset val : Nat) (ret : Option VmError)
    : (uartIoWrite ctx offset val ret).RingsOk
      ∧ (BacklogAnnounced ctx
        → (BacklogAnnounced (uartIoWrite ctx offset val ret)
          ↔ KeepsFifoOrEmptyBacklog ctx (.write offset val ret))) := by
  obtain ⟨next, iff⟩ := regWrite_announced ok (regIdx ctx offset) (BitVec.ofNat 8 val) ret
  have same := irqUpdate_same
    (uart16550aRegWrite ctx (regIdx ctx offset) (BitVec.ofNat 8 val) ret)
  refine ⟨same.ringsOk next, fun announced => Iff.trans ?_ (iff announced)⟩
  simp only [BacklogAnnounced, uartIoWrite, same.rx, same.backlog]

theorem uartStep_announced (ok : ctx.RingsOk) (op : UartOp)
    : (uartStep ctx op).RingsOk
      ∧ (BacklogAnnounced ctx
        → (BacklogAnnounced (uartStep ctx op) ↔ KeepsFifoOrEmptyBacklog ctx op)) := by
  cases op with
  | read offset =>
    obtain ⟨before, beforeOk, same⟩ := uartIoRead_eq_refill ok offset
    obtain ⟨next, announced⟩ := announced_after_refill beforeOk
    simp only [uartStep, same]
    exact ⟨next, fun _ => ⟨fun _ => trivial, fun _ => announced⟩⟩
  | write offset val ret => exact uartIoWrite_announced ok offset val ret
  | rx buf =>
    by_cases empty : buf = []
    · have same : uartRxCb ctx buf = ctx := by simp only [uartRxCb, empty, if_true]
      simp only [uartStep, same]
      exact ⟨ok, fun announced => ⟨fun _ => trivial, fun _ => announced⟩⟩
    · obtain ⟨before, beforeOk, same⟩ := uartRxCb_eq_refill ok empty
      obtain ⟨next, announced⟩ := announced_after_refill beforeOk
      simp only [uartStep, same]
      exact ⟨next, fun _ => ⟨fun _ => trivial, fun _ => announced⟩⟩

/-- Over any run of accesses and deliveries, the backlog is announced in every state exactly if no
step clears the receive FIFO while bytes wait. Witness: the exact step condition.
-/
theorem backlog_announced_iff (console : Option CharBackend) (regShift : Nat)
    (ops : List UartOp)
    : StatesHave UartStep BacklogAnnounced (uartRealize console regShift) ops
      ↔ StepsMeet UartStep KeepsFifoOrEmptyBacklog (uartRealize console regShift) ops := by
  have rings : (uartRealize console regShift).RingsOk :=
    ⟨Ring.empty_wellFormed (by decide) _, Ring.empty_wellFormed (by decide) _⟩
  refine statesHave_iff_stepsMeet rings (fun waiting => absurd rfl waiting) ?_ ?_ ops
  · intro s op t ok step
    exact step ▸ (uartStep_announced ok op).1
  · intro s op t ok announced step
    exact step ▸ (uartStep_announced ok op).2 announced

/-- Seventeen bytes arrive and the guest clears the FIFO: one byte waits behind an empty FIFO. -/
theorem backlog_hidden_by_fifo_clear
    : ¬ StatesHave UartStep BacklogAnnounced (uartRealize (some ⟨none, []⟩) 0)
        [.rx (List.replicate 17 0x41#8), .write 2 0x03 none] := by
  intro announced
  have run : Run UartStep (uartRealize (some ⟨none, []⟩) 0)
      [.rx (List.replicate 17 0x41#8), .write 2 0x03 none]
      (uartStep
        (uartStep (uartRealize (some ⟨none, []⟩) 0) (.rx (List.replicate 17 0x41#8)))
        (.write 2 0x03 none)) :=
    (Run.single rfl).append (Run.single rfl)
  have full := announced _ _ (List.prefix_refl _) run (by decide)
  exact absurd full (by decide)

end Modvm.Uart
