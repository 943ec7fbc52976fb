import Modvm.Lib.Runs
import Modvm.Uart.ReceivePath

/-! No delivered console byte is lost or reordered while the host respects backpressure. -/

namespace Modvm.Uart

open Modvm.Lib

/-- Batches of 1 to 64 bytes while the receiver is enabled, and no loopback; else unrestricted. -/
def HostRespectsPause (ctx : Uart16550aCtx) : UartOp → Prop
  | .read _ => True
  | .write offset val _ =>
      regIdx ctx offset = 4 → Uart16550aCtx.has (BitVec.ofNat 8 val) mcrLoop = false
  | .rx buf => 1 ≤ buf.length ∧ buf.length ≤ 64 ∧ ctx.receiving = some true

def ConsoleStep (ctx : Uart16550aCtx) (op : UartOp) (next : Uart16550aCtx) : Prop :=
  HostRespectsPause ctx op ∧ next = uartStep ctx op

def delivered : List UartOp → List Byte
  | [] => []
  | .rx buf :: rest => buf ++ delivered rest
  | .read _ :: rest => delivered rest
  | .write _ _ _ :: rest => delivered rest

theorem delivered_append (first second : List UartOp)
    : delivered (first ++ second) = delivered first ++ delivered second := by
  induction first with
  | nil => rfl
  | cons op rest ih => cases op <;> simp [delivered, ih]

/-- The pause flag mirrors the receiver; unpaused is below the high watermark, paused not below the
low one.
-/
structure Backpressure (ctx : Uart16550aCtx) : Prop where
  mirrored : ctx.receiving = ctx.console.map fun _ => !ctx.rxPaused
  consoleOnly : ctx.console = none → ctx.rxPaused = false
  below : ctx.rxPaused = false → ctx.backlog.cnt < uartBacklogHighWatermark
  above : ctx.rxPaused = true → uartBacklogLowWatermark ≤ ctx.backlog.cnt

/-- Everything that holds between operations. -/
structure ConsoleInvariant (ctx : Uart16550aCtx) : Prop where
  rings : ctx.RingsOk
  noLoopback : uart16550aLoopbackIsEnabled ctx = false
  pressure : Backpressure ctx

variable {before ctx : Uart16550aCtx}

theorem Backpressure.of_same {after : Uart16550aCtx} (pressure : Backpressure before)
    (same : SameReceive before after)
    : Backpressure after := by
  have present := same.present
  refine ⟨?_, ?_, ?_, ?_⟩
  · rw [same.receiving, pressure.mirrored, same.paused]
    cases left : before.console <;> cases right : after.console <;> simp_all
  · intro absent
    rw [same.paused]
    apply pressure.consoleOnly
    simpa [absent] using present.symm
  · simpa only [same.paused, same.backlog] using pressure.below
  · simpa only [same.paused, same.backlog] using pressure.above

theorem ConsoleInvariant.of_same {after : Uart16550aCtx} (inv : ConsoleInvariant before)
    (same : SameReceive before after)
    : ConsoleInvariant after := by
  refine ⟨same.ringsOk inv.rings, ?_, inv.pressure.of_same same⟩
  simpa only [uart16550aLoopbackIsEnabled, same.mcr] using inv.noLoopback

/-- The part of backpressure that survives while data moves: what a refill starts from. -/
structure Pressing (ctx : Uart16550aCtx) : Prop where
  mirrored : ctx.receiving = ctx.console.map fun _ => !ctx.rxPaused
  consoleOnly : ctx.console = none → ctx.rxPaused = false
  below : ctx.rxPaused = false → ctx.backlog.cnt < uartBacklogHighWatermark

theorem Pressing.resume_ok (pressing : Pressing ctx) {dev : CharBackend}
    (found : ctx.console = some dev)
    : charResumeRxLocked dev = .ok { dev with binding := some true } := by
  have bound := pressing.mirrored
  simp only [Uart16550aCtx.receiving, found, Option.bind_some] at bound
  simp [charResumeRxLocked, bound]

theorem resumeIfDrained_pressure (pressing : Pressing ctx)
    : Backpressure (resumeIfDrained ctx) := by
  cases found : ctx.console with
  | none =>
    have free := pressing.consoleOnly found
    have same : resumeIfDrained ctx = ctx := by simp [resumeIfDrained, found]
    rw [same]
    refine ⟨pressing.mirrored, pressing.consoleOnly, pressing.below, ?_⟩
    intro paused
    simp [free] at paused
  | some dev =>
    by_cases release : ctx.rxPaused ∧ ctx.backlog.cnt < uartBacklogLowWatermark
    · have same : resumeIfDrained ctx
          = { ctx with
              console := some { dev with binding := some true }, rxPaused := false } := by
        simp [resumeIfDrained, found, release, pressing.resume_ok found]
      rw [same]
      refine ⟨rfl, ?_, ?_, ?_⟩
      · intro absent
        simp at absent
      · have low := release.2
        simp only [uartBacklogHighWatermark, uartBacklogLowWatermark] at low ⊢
        omega
      · intro paused
        simp at paused
    · have same : resumeIfDrained ctx = ctx := by simp [resumeIfDrained, found, release]
      rw [same]
      refine ⟨pressing.mirrored, pressing.consoleOnly, pressing.below, ?_⟩
      intro paused
      by_contra low
      exact release ⟨paused, Nat.lt_of_not_le low⟩

theorem Pressing.fewer {after : Uart16550aCtx} (pressing : Pressing before)
    (console : after.console = before.console) (paused : after.rxPaused = before.rxPaused)
    (fewer : after.backlog.cnt ≤ before.backlog.cnt)
    : Pressing after := by
  refine ⟨?_, ?_, ?_⟩
  · simpa only [Uart16550aCtx.receiving, console, paused] using pressing.mirrored
  · simpa only [console, paused] using pressing.consoleOnly
  · intro free
    exact Nat.lt_of_le_of_lt fewer (pressing.below (paused ▸ free))

theorem rxFifoRefill_pressure (ok : ctx.RingsOk) (pressing : Pressing ctx)
    : Backpressure (uart16550aRxFifoRefill ctx) := by
  obtain ⟨rx, backlog, lsr, same, -, -, fewer, -⟩ :=
    refillLoop_spec uartFifoSize ctx false ok
  have moved : Pressing (refillLoop uartFifoSize ctx false).1 := by
    rw [same]
    exact pressing.fewer rfl rfl fewer
  exact (resumeIfDrained_pressure moved).of_same (timeoutAfterRefill_same _ _)

theorem pauseIfFull_pressing (pressure : ctx.receiving = some true) (free : ctx.rxPaused = false)
    : Pressing (pauseIfFull ctx) := by
  cases found : ctx.console with
  | none => simp [Uart16550aCtx.receiving, found] at pressure
  | some dev =>
    have bound : dev.binding = some true := by
      simpa [Uart16550aCtx.receiving, found] using pressure
    by_cases full : uartBacklogHighWatermark ≤ ctx.backlog.cnt
    · have same : pauseIfFull ctx
          = { ctx with
              console := some { dev with binding := some false }, rxPaused := true } := by
        simp [pauseIfFull, found, free, full, charPauseRxLocked, bound]
      rw [same]
      refine ⟨rfl, ?_, ?_⟩
      · intro absent
        simp at absent
      · intro unpaused
        simp at unpaused
    · have same : pauseIfFull ctx = ctx := by
        simp [pauseIfFull, found, full]
      rw [same]
      refine ⟨?_, ?_, fun _ => Nat.lt_of_not_le full⟩
      · rw [pressure, found, free]
        rfl
      · intro absent
        simp [found] at absent

/-- A read keeps the invariant and the stream. Witness: only the receive register touches the FIFO.
-/
theorem uartIoRead_invariant (offset : Nat) (inv : ConsoleInvariant ctx)
    : ConsoleInvariant (uartIoRead ctx offset).2
      ∧ (uartIoRead ctx offset).2.stream = ctx.stream := by
  -- the state handed to the refill keeps everything but possibly one FIFO byte
  have readout : ∀ before : Uart16550aCtx, ConsoleInvariant before
      → ∀ reg, (uart16550aRegRead before reg).2.RingsOk
        ∧ (uart16550aRegRead before reg).2.stream = before.stream
        ∧ (uart16550aRegRead before reg).2.mcr = before.mcr
        ∧ Pressing (uart16550aRegRead before reg).2 := by
    intro before held reg
    have popped := rxFifoPop_spec before held.rings
    have pressing : Pressing before :=
      ⟨held.pressure.mirrored, held.pressure.consoleOnly, held.pressure.below⟩
    have kept : ∀ after : Uart16550aCtx, SameReceive before after
        → after.console = before.console
        → after.RingsOk ∧ after.stream = before.stream ∧ after.mcr = before.mcr
          ∧ Pressing after := by
      intro after same console
      exact ⟨same.ringsOk held.rings, same.stream, same.mcr,
        pressing.fewer console same.paused (same.backlog ▸ le_refl _)⟩
    have simple : SameReceive before before := .refl before
    unfold uart16550aRegRead
    split
    · split
      · exact kept _ simple rfl
      · obtain ⟨ok, stream, backlog, paused, console, mcr⟩ := popped
        exact ⟨ok, stream, mcr, pressing.fewer console paused (backlog ▸ le_refl _)⟩
    · exact kept _ simple rfl
    · dsimp only
      split <;> exact kept _ ⟨rfl, rfl, rfl, rfl, rfl, rfl, rfl⟩ rfl
    all_goals exact kept _ ⟨rfl, rfl, rfl, rfl, rfl, rfl, rfl⟩ rfl
  let entered := if regIdx ctx offset = 0 then ctx.irqSetLevel false else ctx
  have enter : SameReceive ctx entered := by
    dsimp only [entered]
    split
    · exact irqSetLevel_same ctx false
    · exact .refl ctx
  obtain ⟨ok, stream, mcr, pressing⟩ :=
    readout entered (inv.of_same enter) (regIdx ctx offset)
  let current := uart16550aIrqUpdate (uart16550aRegRead entered (regIdx ctx offset)).2
  have currentOk : current.RingsOk := (irqUpdate_same _).ringsOk ok
  have currentPressing : Pressing current := pressing.fewer rfl rfl (le_refl _)
  obtain ⟨nextOk, nextStream, nextMcr, -⟩ := rxFifoRefill_spec current currentOk
  have final := irqUpdate_same (uart16550aRxFifoRefill current)
  have refilled : ConsoleInvariant (uart16550aRxFifoRefill current) := by
    refine ⟨nextOk, ?_, rxFifoRefill_pressure currentOk currentPressing⟩
    have mcrSame : (uart16550aRxFifoRefill current).mcr = ctx.mcr :=
      nextMcr.trans (mcr.trans enter.mcr)
    simpa only [uart16550aLoopbackIsEnabled, mcrSame] using inv.noLoopback
  refine ⟨refilled.of_same final, ?_⟩
  calc (uartIoRead ctx offset).2.stream
      = (uart16550aRxFifoRefill current).stream := final.stream
    _ = current.stream := nextStream
    _ = entered.stream := stream
    _ = ctx.stream := enter.stream

theorem uartIoWrite_invariant (offset val : Nat) (ret : Option VmError) (inv : ConsoleInvariant ctx)
    (quiet : HostRespectsPause ctx (.write offset val ret))
    : ConsoleInvariant (uartIoWrite ctx offset val ret)
      ∧ (uartIoWrite ctx offset val ret).stream = ctx.stream := by
  have finish : ∀ after : Uart16550aCtx, ConsoleInvariant after → after.stream = ctx.stream
      → ConsoleInvariant (uart16550aIrqUpdate after)
        ∧ (uart16550aIrqUpdate after).stream = ctx.stream := by
    intro after held stream
    exact ⟨held.of_same (irqUpdate_same after), (irqUpdate_same after).stream.trans stream⟩
  have same : ∀ after, SameReceive ctx after
      → ConsoleInvariant after ∧ after.stream = ctx.stream :=
    fun after agree => ⟨inv.of_same agree, agree.stream⟩
  suffices held : ConsoleInvariant
      (uart16550aRegWrite ctx (regIdx ctx offset) (BitVec.ofNat 8 val) ret)
      ∧ (uart16550aRegWrite ctx (regIdx ctx offset) (BitVec.ofNat 8 val) ret).stream
        = ctx.stream from finish _ held.1 held.2
  have modem := quiet
  simp only [HostRespectsPause] at modem
  revert modem
  generalize regIdx ctx offset = reg
  intro modem
  unfold uart16550aRegWrite
  split
  · split
    · exact same _ ⟨rfl, rfl, rfl, rfl, rfl, rfl, rfl⟩
    · exact same _ (transmit_same ctx _ ret inv.noLoopback)
  · split
    · exact same _ ⟨rfl, rfl, rfl, rfl, rfl, rfl, rfl⟩
    · exact same _ (writeIer_same ctx _)
  · cases clears : clearsReceiver (BitVec.ofNat 8 val) with
    | false => exact same _ (writeFcr_same ctx _ clears)
    | true =>
      have agree := writeFcr_clears ctx _ clears
      obtain ⟨ok, stream⟩ := rxFifoClear_spec ctx inv.rings
      have cleared : ConsoleInvariant (uart16550aRxFifoClear ctx) :=
        ⟨ok, inv.noLoopback, ⟨inv.pressure.mirrored, inv.pressure.consoleOnly,
          inv.pressure.below, inv.pressure.above⟩⟩
      exact ⟨cleared.of_same agree, agree.stream.trans stream⟩
  · exact same _ (writeLcr_same ctx _)
  · -- the modem control register keeps loopback off by assumption
    have off := modem rfl
    have wired : SameReceive { ctx with mcr := BitVec.ofNat 8 val &&& 0x1f#8 }
        (uart16550aMsrUpdate { ctx with mcr := BitVec.ofNat 8 val &&& 0x1f#8 }) :=
      msrUpdate_same _
    have written : ConsoleInvariant { ctx with mcr := BitVec.ofNat 8 val &&& 0x1f#8 } := by
      refine ⟨⟨inv.rings.rx, inv.rings.backlog⟩, ?_, ⟨inv.pressure.mirrored,
        inv.pressure.consoleOnly, inv.pressure.below, inv.pressure.above⟩⟩
      simp only [uart16550aLoopbackIsEnabled, Uart16550aCtx.has] at off ⊢
      rwa [BitVec.and_assoc, show (0x1f#8 &&& mcrLoop) = mcrLoop from rfl]
    exact ⟨written.of_same wired, wired.stream⟩
  · exact same _ ⟨rfl, rfl, rfl, rfl, rfl, rfl, rfl⟩
  · exact same _ (.refl ctx)

/-- A delivery in bounds appends its bytes. Witness: below the high watermark 64 bytes fit. -/
theorem uartRxCb_invariant (buf : List Byte) (inv : ConsoleInvariant ctx)
    (polite : HostRespectsPause ctx (.rx buf))
    : ConsoleInvariant (uartRxCb ctx buf)
      ∧ (uartRxCb ctx buf).stream = ctx.stream ++ buf := by
  obtain ⟨nonempty, short, enabled⟩ := polite
  have notNil : buf ≠ [] := by
    intro empty
    simp [empty] at nonempty
  have free : ctx.rxPaused = false := by
    have mirrored := inv.pressure.mirrored
    rw [enabled] at mirrored
    cases found : ctx.console with
    | none => simp [found] at mirrored
    | some => simpa [found] using mirrored
  have below := inv.pressure.below free
  simp only [uartBacklogHighWatermark] at below
  obtain ⟨backlog, same, ok, stream, -⟩ := backlogFill_spec buf ctx inv.rings
    (by simp only [uartBacklogSize]; omega)
  let filled := backlogFill buf ctx
  have filledEq : filled = { ctx with backlog := backlog } := same
  have filledReceiving : filled.receiving = some true := by rw [filledEq]; exact enabled
  have filledFree : filled.rxPaused = false := by rw [filledEq]; exact free
  obtain ⟨rxSame, backlogSame, drainedSame, mcrSame⟩ := pauseIfFull_rings filled
  have pausedOk : (pauseIfFull filled).RingsOk :=
    ⟨rxSame ▸ ok.rx, backlogSame ▸ ok.backlog⟩
  have pressing := pauseIfFull_pressing filledReceiving filledFree
  obtain ⟨nextOk, nextStream, nextMcr, -⟩ := rxFifoRefill_spec _ pausedOk
  have final := irqUpdate_same (uart16550aRxFifoRefill (pauseIfFull filled))
  have refilled : ConsoleInvariant (uart16550aRxFifoRefill (pauseIfFull filled)) := by
    refine ⟨nextOk, ?_, rxFifoRefill_pressure pausedOk pressing⟩
    have mcr : (uart16550aRxFifoRefill (pauseIfFull filled)).mcr = ctx.mcr := by
      rw [nextMcr, mcrSame, filledEq]
    simpa only [uart16550aLoopbackIsEnabled, mcr] using inv.noLoopback
  have unfolded : uartRxCb ctx buf
      = uart16550aIrqUpdate (uart16550aRxFifoRefill (pauseIfFull filled)) := by
    simp only [uartRxCb, notNil, if_false, filled]
  rw [unfolded]
  refine ⟨refilled.of_same final, ?_⟩
  calc (uart16550aIrqUpdate (uart16550aRxFifoRefill (pauseIfFull filled))).stream
      = (uart16550aRxFifoRefill (pauseIfFull filled)).stream := final.stream
    _ = (pauseIfFull filled).stream := nextStream
    _ = filled.stream := by
        simp only [Uart16550aCtx.stream, rxSame, backlogSame, drainedSame]
    _ = ctx.stream ++ buf := stream

theorem uartRealize_invariant (console : Option CharBackend) (regShift : Nat)
    : ConsoleInvariant (uartRealize console regShift)
      ∧ (uartRealize console regShift).stream = [] := by
  have rings : (uartRealize console regShift).RingsOk :=
    ⟨Ring.empty_wellFormed (by decide) _, Ring.empty_wellFormed (by decide) _⟩
  have quiet : uart16550aLoopbackIsEnabled (uartRealize console regShift) = false := by
    change Uart16550aCtx.has 0#8 mcrLoop = false
    decide
  refine ⟨⟨rings, quiet, ⟨?_, fun _ => rfl, ?_, ?_⟩⟩, rfl⟩
  · cases console <;> rfl
  · intro _
    change 0 < 192
    decide
  · intro paused
    exact absurd paused (by simp [uartRealize, uart16550aMsrUpdate])

/-- Along every run the stream is what the host delivered. Witness: induction on the run. -/
theorem consoleRun_invariant {console : Option CharBackend} {regShift : Nat} {ops : List UartOp}
    (run : Run ConsoleStep (uartRealize console regShift) ops ctx)
    : ConsoleInvariant ctx ∧ ctx.stream = delivered ops := by
  induction run with
  | nil =>
    obtain ⟨inv, stream⟩ := uartRealize_invariant console regShift
    exact ⟨inv, stream⟩
  | @snoc ops op middle final earlier last ih =>
    obtain ⟨inv, stream⟩ := ih
    obtain ⟨polite, rfl⟩ := last
    rw [delivered_append]
    cases op with
    | read offset =>
      obtain ⟨next, same⟩ := uartIoRead_invariant offset inv
      exact ⟨next, by simpa [delivered, uartStep] using same.trans stream⟩
    | write offset val ret =>
      obtain ⟨next, same⟩ := uartIoWrite_invariant offset val ret inv polite
      exact ⟨next, by simpa [delivered, uartStep] using same.trans stream⟩
    | rx buf =>
      obtain ⟨next, same⟩ := uartRxCb_invariant buf inv polite
      refine ⟨next, ?_⟩
      simpa [delivered, uartStep, stream] using same

/-- The bytes removed by two runs in a row are those of the first, then those of the second from
where the first ended. Witness: induction on the first run.
-/
theorem removed_append (start : Uart16550aCtx) (first second : List UartOp)
    : removed start (first ++ second)
      = removed start first ++ removed (first.foldl uartStep start) second := by
  induction first generalizing start with
  | nil => rfl
  | cons op rest ih => simp only [List.cons_append, removed, List.foldl_cons, ih,
      List.append_assoc]

/-- Along every run the history `drained` is what the operations took out of the FIFO: the values
of the data reads and what was cleared. Witness: induction on the run.
-/
theorem consoleRun_removed {start : Uart16550aCtx} {ops : List UartOp}
    (run : Run ConsoleStep start ops ctx)
    : ctx = ops.foldl uartStep start ∧ ctx.drained = start.drained ++ removed start ops := by
  induction run with
  | nil => exact ⟨rfl, (List.append_nil _).symm⟩
  | @snoc ops op middle final earlier last ih =>
    obtain ⟨reached, history⟩ := ih
    obtain ⟨-, rfl⟩ := last
    refine ⟨by rw [List.foldl_append, ← reached]; rfl, ?_⟩
    rw [uartStep_drained, history, removed_append, ← reached]
    simp only [removed, List.append_nil, List.append_assoc]

/-- No console input is lost: in every run with a host that respects backpressure, what was
delivered is what has left the receive FIFO, then the FIFO, then the backlog, which respects both
watermarks. What has left the FIFO is, in order, the values that the guest's reads of the data
register returned and what its FIFO-control writes cleared.
-/
theorem console_input_conserved (console : Option CharBackend) (regShift : Nat)
    (ops : List UartOp) (ctx : Uart16550aCtx)
    (run : Run ConsoleStep (uartRealize console regShift) ops ctx)
    : delivered ops = ctx.drained ++ ctx.rx.contents ++ ctx.backlog.contents
      ∧ ctx.drained = removed (uartRealize console regShift) ops
      ∧ (ctx.rxPaused = false → ctx.backlog.cnt < 192)
      ∧ (ctx.rxPaused = true → 64 ≤ ctx.backlog.cnt) := by
  obtain ⟨inv, stream⟩ := consoleRun_invariant run
  obtain ⟨-, history⟩ := consoleRun_removed run
  exact ⟨stream.symm, history, inv.pressure.below, inv.pressure.above⟩

def overfullConsole : Uart16550aCtx :=
  uartStep
    (uartStep (uartRealize (some ⟨none, []⟩) 0) (.rx (List.replicate 20 0x41#8)))
    (.read 0)

/-- The overfull console keeps three bytes in the backlog and has lost none; what left it is the
byte that the read returned.
-/
theorem console_input_conserved_overfull
    : overfullConsole.backlog.cnt = 3
      ∧ delivered [.rx (List.replicate 20 0x41#8), .read 0]
        = overfullConsole.drained ++ overfullConsole.rx.contents
          ++ overfullConsole.backlog.contents
      ∧ overfullConsole.drained = [0x41#8] := by
  have first : ConsoleStep (uartRealize (some ⟨none, []⟩) 0)
      (.rx (List.replicate 20 0x41#8))
      (uartStep (uartRealize (some ⟨none, []⟩) 0) (.rx (List.replicate 20 0x41#8))) :=
    ⟨⟨by decide, by decide, rfl⟩, rfl⟩
  have second : ConsoleStep
      (uartStep (uartRealize (some ⟨none, []⟩) 0) (.rx (List.replicate 20 0x41#8)))
      (.read 0) overfullConsole :=
    ⟨trivial, rfl⟩
  obtain ⟨kept, history, -⟩ := console_input_conserved _ _ _ _
    ((Run.single first).append (Run.single second))
  refine ⟨by decide, kept, history.trans ?_⟩
  decide

end Modvm.Uart
