import Modvm.Uart.BacklogVisibility
import Modvm.Uart.ReceiveStatus

/-! Receive interrupts of the UART. Below the trigger level only the character-timeout latch
announces input; it can outlive the bytes it stands for, and bytes can stay behind without it.
-/

namespace Modvm.Uart

open Modvm.Lib
open Uart16550aCtx (has)

def IdentifiesReceive (ctx : Uart16550aCtx) : Prop :=
  uart16550aIirGet ctx &&& 0x0f#8 = 0x04#8 ∨ uart16550aIirGet ctx &&& 0x0f#8 = 0x0c#8

/-- A receive interrupt is identified only while the receive FIFO holds a byte. -/
def ReceiveInterruptGenuine (ctx : Uart16550aCtx) : Prop :=
  IdentifiesReceive ctx → 0 < ctx.rx.cnt

/-- With receive interrupts enabled, a byte in the FIFO has an interrupt pending, and the line
is driven.
-/
def InputAnnounced (ctx : Uart16550aCtx) : Prop :=
  has ctx.ier ierRdi → 0 < ctx.rx.cnt
    → has (uart16550aIirGet ctx) iirNoInt = false ∧ ctx.irqLevel = true

namespace ReceiveStatus

def triggerReached (status : ReceiveStatus) : Bool :=
  if status.fifoEnabled then
    decide (status.count ≥ status.trigger)
  else
    decide (status.count > 0)

structure TriggerOk (status : ReceiveStatus) : Prop where
  positive : status.fifoEnabled → 0 < status.trigger
  bounded : status.trigger ≤ 14

/-- The timeout latch stands for a byte in the FIFO. -/
def LatchGenuine (status : ReceiveStatus) : Prop :=
  status.timeout → 0 < status.count

/-- Bytes below the trigger level have the timeout latch set. -/
def Covered (status : ReceiveStatus) : Prop :=
  status.fifoEnabled → 0 < status.count → status.count < status.trigger → status.timeout

end ReceiveStatus

/-- The identification register as a function of its causes. -/
def iirOf (fifo line receive reached latched transmitter modem : Bool) : Byte :=
  let iir := if fifo then 0xc0#8 else 0x00#8
  if line then iir ||| 0x06#8
  else if receive && reached then iir ||| 0x04#8
  else if receive && latched then iir ||| 0x0c#8
  else if transmitter then iir ||| 0x02#8
  else if modem then iir ||| 0x00#8
  else iir ||| iirNoInt

theorem iirGet_eq (ctx : Uart16550aCtx)
    : uart16550aIirGet ctx
      = iirOf (has ctx.fcr fcrEnableFifo) (has ctx.ier ierRlsi && has ctx.lsr lsrBrkErrorBits)
          (has ctx.ier ierRdi) ctx.receiveStatus.triggerReached ctx.receiveStatus.timeout
          (has ctx.ier ierThri && ctx.threIntPending)
          (has ctx.ier ierMsi && has ctx.msr msrAnyDelta) :=
  rfl

theorem iirOf_receive {fifo line receive reached latched transmitter modem : Bool}
    (named : iirOf fifo line receive reached latched transmitter modem &&& 0x0f#8 = 0x04#8
      ∨ iirOf fifo line receive reached latched transmitter modem &&& 0x0f#8 = 0x0c#8)
    : reached ∨ latched := by
  revert fifo line receive reached latched transmitter modem
  decide

theorem iirOf_pending {fifo line reached latched transmitter modem : Bool}
    (cause : reached ∨ latched)
    : has (iirOf fifo line true reached latched transmitter modem) iirNoInt = false := by
  revert fifo line reached latched transmitter modem
  decide

variable {ctx : Uart16550aCtx}

theorem genuine_of_latch (trigger : ctx.receiveStatus.TriggerOk)
    (latch : ctx.receiveStatus.LatchGenuine)
    : ReceiveInterruptGenuine ctx := by
  intro identifies
  rw [IdentifiesReceive, iirGet_eq] at identifies
  rcases iirOf_receive identifies with reached | latched
  · unfold ReceiveStatus.triggerReached at reached
    split at reached
    next on =>
      have positive := trigger.positive on
      have level := of_decide_eq_true reached
      exact Nat.lt_of_lt_of_le positive level
    next => exact of_decide_eq_true reached
  · exact latch latched

theorem announced_of_covered (covered : ctx.receiveStatus.Covered)
    (driven : ctx.irqLevel = !has (uart16550aIirGet ctx) iirNoInt)
    : InputAnnounced ctx := by
  intro enabled waiting
  have cause : ctx.receiveStatus.triggerReached ∨ ctx.receiveStatus.timeout := by
    unfold ReceiveStatus.triggerReached
    cases on : ctx.receiveStatus.fifoEnabled with
    | false => exact Or.inl (by simpa using waiting)
    | true =>
      by_cases level : ctx.receiveStatus.count < ctx.receiveStatus.trigger
      · exact Or.inr (covered on waiting level)
      · exact Or.inl (by simpa using level)
  have pending : has (uart16550aIirGet ctx) iirNoInt = false := by
    rw [iirGet_eq, enabled]
    exact iirOf_pending cause
  exact ⟨pending, by rw [driven, pending]; rfl⟩

theorem uartStep_driven (driven : ctx.irqLevel = !has (uart16550aIirGet ctx) iirNoInt) (op : UartOp)
    : (uartStep ctx op).irqLevel = !has (uart16550aIirGet (uartStep ctx op)) iirNoInt := by
  cases op with
  | read => rfl
  | write => rfl
  | rx buf =>
    by_cases empty : buf = []
    · have same : uartRxCb ctx buf = ctx := by simp only [uartRxCb, empty, if_true]
      simp only [uartStep, same]
      exact driven
    · have updated : uartRxCb ctx buf = uart16550aIrqUpdate
          (uart16550aRxFifoRefill (pauseIfFull (backlogFill buf ctx))) := by
        simp only [uartRxCb, empty, if_false]
      simp only [uartStep, updated]
      rfl

theorem triggerLevel_range (val : Byte) : 0 < triggerLevel val ∧ triggerLevel val ≤ 14 := by
  unfold triggerLevel
  repeat' split
  all_goals decide

namespace ReceiveStatus

variable {status : ReceiveStatus}

theorem TriggerOk.popped (ok : status.TriggerOk) : status.popped.TriggerOk := by
  unfold ReceiveStatus.popped
  split <;> exact ⟨ok.positive, ok.bounded⟩

theorem TriggerOk.pushed (ok : status.TriggerOk) : status.pushed.TriggerOk := by
  unfold ReceiveStatus.pushed
  split <;> exact ⟨ok.positive, ok.bounded⟩

theorem TriggerOk.refilled (ok : status.TriggerOk) (waiting : Nat)
    : (status.refilled waiting).TriggerOk := by
  unfold ReceiveStatus.refilled
  split <;> exact ⟨ok.positive, ok.bounded⟩

theorem triggerOk_programmed (val : Byte) : (status.programmed val).TriggerOk := by
  have range := triggerLevel_range (val &&& 0xcf#8)
  unfold ReceiveStatus.programmed
  cases has (val &&& 0xcf#8) fcrEnableFifo with
  | false => exact ⟨(nomatch ·), by simp⟩
  | true => exact ⟨fun _ => range.1, range.2⟩

theorem LatchGenuine.popped (latch : status.LatchGenuine) : status.popped.LatchGenuine := by
  unfold ReceiveStatus.popped
  split
  · exact latch
  · intro set
    exact nomatch set

theorem LatchGenuine.pushed (latch : status.LatchGenuine) : status.pushed.LatchGenuine := by
  unfold ReceiveStatus.pushed
  split
  · exact latch
  · exact fun _ => Nat.succ_pos _

theorem LatchGenuine.refilled (latch : status.LatchGenuine) (waiting : Nat)
    : (status.refilled waiting).LatchGenuine := by
  unfold ReceiveStatus.refilled
  split
  next busy =>
    intro _
    dsimp only
    omega
  · exact latch

theorem LatchGenuine.programmed_iff (latch : status.LatchGenuine) (val : Byte)
    : (status.programmed val).LatchGenuine ↔ (clearsReceiver val → status.timeout = false) := by
  unfold ReceiveStatus.programmed LatchGenuine
  cases clears : clearsReceiver val with
  | false => exact ⟨fun _ => (nomatch ·), fun _ => latch⟩
  | true => simp

theorem Covered.refilled (covered : status.Covered) (waiting : Nat)
    : (status.refilled waiting).Covered := by
  unfold ReceiveStatus.refilled
  split
  · intro on _ below
    have enabled : status.fifoEnabled = true := on
    simp only [enabled, Bool.true_and, decide_eq_true_eq]
    exact below
  · exact covered

theorem Covered.popped_refilled_iff (covered : status.Covered)
    (bounded : status.count ≤ uartFifoSize) (waiting : Nat)
    : (status.popped.refilled waiting).Covered
      ↔ (waiting = 0 → status.fifoEnabled → 1 < status.count
          → status.trigger < status.count) := by
  unfold ReceiveStatus.popped
  by_cases empty : status.count = 0
  · rw [if_pos empty]
    refine ⟨fun _ _ _ many => ?_, fun _ => covered.refilled waiting⟩
    omega
  rw [if_neg empty]
  by_cases moves : 0 < waiting
  · have busy : 0 < waiting ∧ status.count - 1 < uartFifoSize := ⟨moves, by omega⟩
    refine ⟨fun _ none => by omega, fun _ => ?_⟩
    unfold ReceiveStatus.refilled
    rw [if_pos busy]
    intro on _ below
    have enabled : status.fifoEnabled = true := on
    simp only [enabled, Bool.true_and, decide_eq_true_eq]
    exact below
  · have idle : ¬ (0 < waiting ∧ status.count - 1 < uartFifoSize) := fun busy => moves busy.1
    unfold ReceiveStatus.refilled
    rw [if_neg idle]
    constructor
    · intro kept _ on many
      by_contra low
      have latched := kept on (by dsimp only; omega) (by dsimp only; omega)
      exact nomatch latched
    · intro none on some below
      have high := none (by omega) on (by dsimp only at some; omega)
      dsimp only at below
      omega

theorem Covered.pushed_iff (covered : status.Covered) (trigger : status.TriggerOk)
    : status.pushed.Covered
      ↔ (status.fifoEnabled → status.count + 1 < status.trigger → status.timeout) := by
  have bounded := trigger.bounded
  unfold ReceiveStatus.pushed
  split
  next full =>
    refine ⟨fun _ _ below => ?_, fun _ => covered⟩
    simp only [uartFifoSize] at full
    omega
  · exact ⟨fun kept on below => kept on (Nat.succ_pos _) below,
      fun kept on _ below => kept on below⟩

theorem programmed_covered_iff (val : Byte)
    : (status.programmed val).Covered
      ↔ (clearsReceiver val = false → 0 < status.count
          → status.count < triggerLevel (val &&& 0xcf#8) → status.timeout) := by
  unfold ReceiveStatus.programmed Covered
  cases clears : clearsReceiver val with
  | true => simp
  | false =>
    have on : has (val &&& 0xcf#8) fcrEnableFifo = true := by
      simp only [clearsReceiver, Bool.or_eq_false_iff, Bool.not_eq_false'] at clears
      exact clears.1
    simp [on]

end ReceiveStatus

/-- The step does not clear the receive FIFO while the timeout latch is set. -/
def ClearsWithoutTimeout (ctx : Uart16550aCtx) : UartOp → Prop
  | .write offset val _ =>
      regIdx ctx offset = 2 → clearsReceiver (BitVec.ofNat 8 val) → ctx.rxTimeout = false
  | .read _ => True
  | .rx _ => True

/-- The step leaves no byte below the trigger level without the timeout latch, by a read, a loopback
or a raised level.
-/
def LeavesInputCovered (ctx : Uart16550aCtx) : UartOp → Prop
  | .read offset =>
      readsFifo ctx offset → ctx.backlog.cnt = 0 → has ctx.fcr fcrEnableFifo
        → 1 < ctx.rx.cnt → ctx.rxTriggerLevel < ctx.rx.cnt
  | .write offset val _ =>
      (loopsBack ctx offset → has ctx.fcr fcrEnableFifo
        → ctx.rx.cnt + 1 < ctx.rxTriggerLevel → ctx.rxTimeout)
      ∧ (regIdx ctx offset = 2 → clearsReceiver (BitVec.ofNat 8 val) = false → 0 < ctx.rx.cnt
        → ctx.rx.cnt < triggerLevel (BitVec.ofNat 8 val &&& 0xcf#8) → ctx.rxTimeout)
  | .rx _ => True

theorem loopsBack_reg {offset : Nat} (loops : loopsBack ctx offset)
    : regIdx ctx offset = 0 := by
  simp only [loopsBack, readsFifo, Bool.and_eq_true, decide_eq_true_eq] at loops
  exact loops.1.1

/-- Consistent rings, an admitted trigger level, and a line that follows the identification
register.
-/
structure Settled (ctx : Uart16550aCtx) : Prop where
  rings : ctx.RingsOk
  trigger : ctx.receiveStatus.TriggerOk
  driven : ctx.irqLevel = !has (uart16550aIirGet ctx) iirNoInt

theorem uartRealize_settled (console : Option CharBackend) (regShift : Nat)
    : Settled (uartRealize console regShift) := by
  refine ⟨⟨Ring.empty_wellFormed (by decide) _, Ring.empty_wellFormed (by decide) _⟩,
    ⟨fun on => ?_, Nat.zero_le _⟩, ?_⟩
  · simp [Uart16550aCtx.receiveStatus, uartRealize, uart16550aMsrUpdate, has] at on
  · simp [uart16550aIirGet, uartRealize, uart16550aMsrUpdate, has]

theorem Settled.step {ctx : Uart16550aCtx} (settled : Settled ctx) (op : UartOp)
    : Settled (uartStep ctx op) := by
  refine ⟨(uartStep_announced settled.rings op).1, ?_, uartStep_driven settled.driven op⟩
  cases op with
  | read =>
    rw [uartStep, uartIoRead_status ctx settled.rings]
    apply ReceiveStatus.TriggerOk.refilled
    split
    · exact settled.trigger.popped
    · exact settled.trigger
  | write =>
    rw [uartStep, uartIoWrite_status]
    split
    · exact settled.trigger.pushed
    split
    · exact ReceiveStatus.triggerOk_programmed _
    · exact settled.trigger
  | rx buf =>
    by_cases empty : buf = []
    · have same : uartRxCb ctx buf = ctx := by simp only [uartRxCb, empty, if_true]
      rw [uartStep, same]
      exact settled.trigger
    · rw [uartStep, uartRxCb_status ctx settled.rings empty]
      exact settled.trigger.refilled _

theorem uartStep_latch_iff (settled : Settled ctx) (latch : ctx.receiveStatus.LatchGenuine)
    (op : UartOp)
    : (uartStep ctx op).receiveStatus.LatchGenuine ↔ ClearsWithoutTimeout ctx op := by
  cases op with
  | read =>
    rw [uartStep, uartIoRead_status ctx settled.rings]
    refine ⟨fun _ => trivial, fun _ => ReceiveStatus.LatchGenuine.refilled ?_ _⟩
    split
    · exact latch.popped
    · exact latch
  | write =>
    rw [uartStep, uartIoWrite_status]
    split
    next loops =>
      refine ⟨fun _ fcr => ?_, fun _ => latch.pushed⟩
      rw [loopsBack_reg loops] at fcr
      exact absurd fcr (by decide)
    split
    next fcr =>
      refine (latch.programmed_iff _).trans ?_
      exact ⟨fun kept _ => kept, fun kept => kept fcr⟩
    next other => exact ⟨fun _ fcr => absurd fcr other, fun _ => latch⟩
  | rx buf =>
    refine ⟨fun _ => trivial, fun _ => ?_⟩
    by_cases empty : buf = []
    · have same : uartRxCb ctx buf = ctx := by simp only [uartRxCb, empty, if_true]
      rw [uartStep, same]
      exact latch
    · rw [uartStep, uartRxCb_status ctx settled.rings empty]
      exact latch.refilled _

theorem uartStep_covered_iff (settled : Settled ctx) (covered : ctx.receiveStatus.Covered)
    (op : UartOp)
    : (uartStep ctx op).receiveStatus.Covered ↔ LeavesInputCovered ctx op := by
  cases op with
  | read =>
    rw [uartStep, uartIoRead_status ctx settled.rings]
    split
    next reads =>
      refine (covered.popped_refilled_iff settled.rings.rx.bounded _).trans ?_
      exact ⟨fun kept _ => kept, fun kept => kept reads⟩
    next other => exact ⟨fun _ reads => absurd reads other, fun _ => covered.refilled _⟩
  | write offset =>
    rw [uartStep, uartIoWrite_status]
    split
    next loops =>
      have elsewhere : regIdx ctx offset ≠ 2 := by
        rw [loopsBack_reg loops]
        decide
      refine (covered.pushed_iff settled.trigger).trans ?_
      exact ⟨fun kept => ⟨fun _ => kept, fun fcr => absurd fcr elsewhere⟩,
        fun kept => kept.1 loops⟩
    next straight =>
      split
      next fcr =>
        refine (ReceiveStatus.programmed_covered_iff _).trans ?_
        exact ⟨fun kept => ⟨fun loops => absurd loops straight, fun _ => kept⟩,
          fun kept => kept.2 fcr⟩
      next other =>
        exact ⟨fun _ => ⟨fun loops => absurd loops straight, fun fcr => absurd fcr other⟩,
          fun _ => covered⟩
  | rx buf =>
    refine ⟨fun _ => trivial, fun _ => ?_⟩
    by_cases empty : buf = []
    · have same : uartRxCb ctx buf = ctx := by simp only [uartRxCb, empty, if_true]
      rw [uartStep, same]
      exact covered
    · rw [uartStep, uartRxCb_status ctx settled.rings empty]
      exact covered.refilled _

section Runs

variable (console : Option CharBackend) (regShift : Nat) (ops : List UartOp)

theorem settled_of_run {console : Option CharBackend} {regShift : Nat} {done : List UartOp}
    {ctx : Uart16550aCtx} (run : Run UartStep (uartRealize console regShift) done ctx)
    : Settled ctx := by
  refine run.invariant Settled ?_ (uartRealize_settled console regShift)
  intro s op t settled step
  exact step ▸ settled.step op

theorem latch_genuine_iff
    : StatesHave UartStep (fun ctx => ctx.receiveStatus.LatchGenuine)
        (uartRealize console regShift) ops
      ↔ StepsMeet UartStep ClearsWithoutTimeout (uartRealize console regShift) ops := by
  refine statesHave_iff_stepsMeet (uartRealize_settled console regShift)
    (fun latched => nomatch latched) ?_ ?_ ops
  · intro s op t settled step
    exact step ▸ settled.step op
  · intro s op t settled latch step
    exact step ▸ uartStep_latch_iff settled latch op

theorem input_covered_iff
    : StatesHave UartStep (fun ctx => ctx.receiveStatus.Covered)
        (uartRealize console regShift) ops
      ↔ StepsMeet UartStep LeavesInputCovered (uartRealize console regShift) ops := by
  refine statesHave_iff_stepsMeet (uartRealize_settled console regShift)
    (fun _ waiting => absurd waiting (Nat.lt_irrefl 0)) ?_ ?_ ops
  · intro s op t settled step
    exact step ▸ settled.step op
  · intro s op t settled covered step
    exact step ▸ uartStep_covered_iff settled covered op

/-- Over any run in which no step clears the receive FIFO under a set timeout latch, a receive
interrupt is identified only while the FIFO holds a byte.
-/
theorem receive_interrupt_genuine
    (steps : StepsMeet UartStep ClearsWithoutTimeout (uartRealize console regShift) ops)
    : StatesHave UartStep ReceiveInterruptGenuine (uartRealize console regShift) ops := by
  intro done ctx within run
  have latch := (latch_genuine_iff console regShift ops).mpr steps done ctx within run
  exact genuine_of_latch (settled_of_run run).trigger latch

/-- The guest clears the FIFO under the latch: the timeout interrupt stays identified. -/
theorem timeout_outlives_fifo_clear
    : ¬ StatesHave UartStep ReceiveInterruptGenuine (uartRealize (some ⟨none, []⟩) 0)
        [.write 2 0xc1 none, .write 1 0x01 none, .rx [0x41#8], .write 2 0xc3 none] := by
  intro states
  have genuine := states _ _ (List.prefix_refl _) (Run.foldl uartStep _ _)
  have holds : 0 < _ := genuine (Or.inr (by decide))
  exact absurd holds (by decide)

/-- Reading the byte before clearing the FIFO meets the condition. -/
theorem receive_interrupt_genuine_after_read
    : StatesHave UartStep ReceiveInterruptGenuine (uartRealize (some ⟨none, []⟩) 0)
        [.write 2 0xc1 none, .write 1 0x01 none, .rx [0x41#8], .read 0, .write 2 0xc3 none] := by
  refine receive_interrupt_genuine _ _ _ ?_
  refine .cons ?_ (.cons ?_ (.cons ?_ (.cons ?_ (.cons ?_ .nil))))
  · exact fun _ _ => rfl
  · exact fun fcr => absurd fcr (by decide)
  · trivial
  · trivial
  · exact fun _ _ => by decide

/-- Over any run in which every step leaves its input covered, a byte in the receive FIFO has an
interrupt pending and the line driven, while receive interrupts are enabled.
-/
theorem input_announced
    (steps : StepsMeet UartStep LeavesInputCovered (uartRealize console regShift) ops)
    : StatesHave UartStep InputAnnounced (uartRealize console regShift) ops := by
  intro done ctx within run
  have covered := (input_covered_iff console regShift ops).mpr steps done ctx within run
  exact announced_of_covered covered (settled_of_run run).driven

/-- Two bytes wait and the guest reads one: the other stays without an interrupt. -/
theorem input_stranded_by_partial_read
    : ¬ StatesHave UartStep InputAnnounced (uartRealize (some ⟨none, []⟩) 0)
        [.write 2 0xc1 none, .write 1 0x01 none, .rx [0x41#8, 0x42#8], .read 0] := by
  intro states
  have announced := states _ _ (List.prefix_refl _) (Run.foldl uartStep _ _)
  have pending := (announced (by decide) (by decide)).1
  exact absurd pending (by decide)

/-- With the lowest trigger level every byte left behind still reaches it. -/
theorem input_announced_through_reads
    : StatesHave UartStep InputAnnounced (uartRealize (some ⟨none, []⟩) 0)
        [.write 2 0x01 none, .write 1 0x01 none, .rx [0x41#8, 0x42#8], .read 0, .read 0] := by
  refine input_announced _ _ _ ?_
  refine .cons ?_ (.cons ?_ (.cons ?_ (.cons ?_ (.cons ?_ .nil))))
  · exact ⟨fun loops => absurd loops (by decide), fun _ _ some => absurd some (by decide)⟩
  · exact ⟨fun loops => absurd loops (by decide), fun fcr => absurd fcr (by decide)⟩
  · trivial
  · exact fun _ _ _ _ => by decide
  · exact fun _ _ _ many => absurd many (by decide)

end Runs

end Modvm.Uart
