import Modvm.Virtio.Discipline

/-! No interrupt is lost, between a handler that publishes a used entry and the line. -/

namespace Modvm.Virtio

open Modvm.Core Modvm.Lib Modvm.Hw

variable {D F T : Type}

def VirtioMmioCtx.LineFollows (ctx : VirtioMmioCtx) : Prop :=
  ctx.irqLevel = true ↔ ctx.interruptStatus ≠ 0

def VirtioPciCtx.LineFollows (ctx : VirtioPciCtx) : Prop :=
  ctx.pciDev.irqLevel = true ↔ ctx.isrStatus ≠ 0

def VirtioMmioCtx.QueuePending (ctx : VirtioMmioCtx) : Prop :=
  ctx.interruptStatus.getLsbD 0 = true

def VirtioPciCtx.QueuePending (ctx : VirtioPciCtx) : Prop :=
  ctx.isrStatus.getLsbD 0 = true

/-- The activity publishes a used entry. -/
def Activity.isPush : Activity → Bool
  | .push _ _ => true
  | .load _ => false
  | .store _ => false
  | .backendRead => false
  | .backendWrite => false
  | .backendFlush => false

def World.usedEntries (w : World D F T) : Nat :=
  w.log.countP fun event => event.activity.isPush

inductive DeviceEvent (ι : Type) where
  | access (op : ι)
  | fail

def eventStep [VirtioTransport T] {ι : Type} (step : World D F T → ι → World D F T)
    (w : World D F T)
    : DeviceEvent ι → World D F T
  | .access op => step w op
  | .fail => virtioDeviceFail w

/-- The handler returns after at most `fuel` chains: with more fuel it does the same. -/
def HandlerReturns (ops : VirtioDeviceOps D F T) (ram : RamMap) (env : Env D) (fuel q : Nat)
    (w : World D F T)
    : Prop :=
  ∀ more, ops.notifyQueue ram env (fuel + more) q w = ops.notifyQueue ram env fuel q w

/-- A handler that returns after it published a used entry leaves an interrupt pending. -/
structure InterruptsOnReturn (ops : VirtioDeviceOps D F T) (ram : RamMap) (env : Env D)
    (pending : T → Prop) : Prop where
  notify : ∀ fuel q w, HandlerReturns ops ram env fuel q w
    → w.usedEntries < (ops.notifyQueue ram env fuel q w).usedEntries
    → pending (ops.notifyQueue ram env fuel q w).transport
  receive : ∀ rxCb, ops.rxCb = some rxCb → ∀ buf w,
    w.usedEntries < (rxCb ram env buf w).usedEntries
    → pending (rxCb ram env buf w).transport

theorem Notified.keeps [VirtioTransport T] {inv : T → Prop}
    (queue : ∀ ctx, inv ctx → inv (VirtioTransport.notifyQueue ctx))
    (config : ∀ ctx, inv ctx → inv (VirtioTransport.notifyConfig ctx)) {before after : T}
    (notified : Notified before after) (holds : inv before)
    : inv after := by
  induction notified with
  | refl => exact holds
  | tail _ step ih =>
    rcases step with rfl | rfl
    · exact queue _ ih
    · exact config _ ih

theorem or_ne_zero {width : Nat} (status : BitVec width) {mask : BitVec width}
    (some : mask ≠ 0)
    : status ||| mask ≠ 0 := by
  intro none
  exact some (BitVec.or_eq_zero_iff.mp none).2

section Mmio

variable {ops : VirtioDeviceOps D F VirtioMmioCtx} {ram : RamMap} {env : Env D}
  {keeps : F → F → Prop} {w : World D F VirtioMmioCtx}

theorem Notified.mmioLine {before after : VirtioMmioCtx} (notified : Notified before after)
    (follows : before.LineFollows)
    : after.LineFollows := by
  refine notified.keeps ?_ ?_ follows
  · intro ctx _
    exact iff_of_true rfl (or_ne_zero ctx.interruptStatus (by decide))
  · intro ctx _
    exact iff_of_true rfl (or_ne_zero ctx.interruptStatus (by decide))

theorem VirtioMmioCtx.LineFollows.acknowledge {ctx : VirtioMmioCtx} (follows : ctx.LineFollows)
    (mask : BitVec 32)
    : { ctx with
        interruptStatus := ctx.interruptStatus &&& mask
        irqLevel := if ctx.interruptStatus &&& mask = 0 then false else ctx.irqLevel
      }.LineFollows := by
  unfold VirtioMmioCtx.LineFollows
  by_cases clear : ctx.interruptStatus &&& mask = 0
  · simp [clear]
  · rw [if_neg clear]
    refine iff_of_true (follows.mpr ?_) clear
    intro none
    rw [none] at clear
    exact clear (BitVec.zero_and)

theorem mmioQueueReady_line (val : Nat) (follows : w.transport.LineFollows)
    : (mmioQueueReady ram val w).transport.LineFollows := by
  unfold mmioQueueReady
  dsimp only
  split
  · exact follows
  split
  · unfold mmioEnableQueue
    dsimp only
    split
    · exact follows
    split
    · exact follows
    split
    · exact follows
    · exact follows
  · exact follows

theorem mmioSetQueueReg_line (update : VirtioMmioQueue → VirtioMmioQueue)
    (follows : w.transport.LineFollows)
    : (mmioSetQueueReg update w).transport.LineFollows := by
  unfold mmioSetQueueReg
  dsimp only
  split
  · exact follows
  · exact follows

theorem virtioMmioWriteReg_line (served : Served ops keeps) (fuel : Nat) (reg : MmioReg)
    (val : Nat) (follows : w.transport.LineFollows)
    : (virtioMmioWriteReg ops ram env fuel reg val w).transport.LineFollows := by
  cases reg with
  | driverFeatures =>
    simp only [virtioMmioWriteReg, virtioDeviceSetFeatures_transport]
    exact follows
  | queueNum => exact mmioSetQueueReg_line _ follows
  | queueDescLow => exact mmioSetQueueReg_line _ follows
  | queueDescHigh => exact mmioSetQueueReg_line _ follows
  | queueAvailLow => exact mmioSetQueueReg_line _ follows
  | queueAvailHigh => exact mmioSetQueueReg_line _ follows
  | queueUsedLow => exact mmioSetQueueReg_line _ follows
  | queueUsedHigh => exact mmioSetQueueReg_line _ follows
  | queueReady => exact mmioQueueReady_line val follows
  | queueNotify =>
    simp only [virtioMmioWriteReg]
    split
    · exact (served.notify ram env fuel val w).undisturbed.transport.mmioLine follows
    · exact follows
  | interruptAck => exact follows.acknowledge _
  | status =>
    -- A value that only the core takes for zero leaves the status and the line alone.
    simp only [virtioMmioWriteReg]
    split
    · exact iff_of_false Bool.false_ne_true (not_not_intro rfl)
    · rwa [virtioDeviceSetStatus_transport]
  | deviceFeaturesSel => exact follows
  | driverFeaturesSel => exact follows
  | queueSel => exact follows
  | magicValue => exact follows
  | version => exact follows
  | deviceId => exact follows
  | vendorId => exact follows
  | deviceFeatures => exact follows
  | queueNumMax => exact follows
  | interruptStatus => exact follows

theorem mmioOpStep_line (served : Served ops keeps) (op : MmioOp)
    (follows : w.transport.LineFollows)
    : (mmioOpStep ops ram env w op).transport.LineFollows := by
  cases op with
  | write =>
    simp only [mmioOpStep, virtioMmioWrite]
    split
    · rw [served.noWriteConfig]
      exact follows
    split
    · exact follows
    split
    · exact virtioMmioWriteReg_line served _ _ _ follows
    · exact follows
  | receive buf =>
    simp only [mmioOpStep, receiveFrame]
    split
    · rename_i rxCb bound
      exact (served.receive rxCb bound ram env buf w).undisturbed.transport.mmioLine follows
    · exact follows

end Mmio

section Pci

variable {ops : VirtioDeviceOps D F VirtioPciCtx} {ram : RamMap} {env : Env D}
  {keeps : F → F → Prop} {w : World D F VirtioPciCtx}

/-- The endpoint is on its bus, so it forwards the transport's level. -/
structure VirtioPciCtx.Wired (ctx : VirtioPciCtx) : Prop where
  attached : ctx.pciDev.bus.isSome = true
  follows : ctx.LineFollows

theorem pciDeviceSetIrq_level {dev : PciDevice} (attached : dev.bus.isSome = true) (level : Bool)
    : (pciDeviceSetIrq level dev).irqLevel = level := by
  unfold pciDeviceSetIrq
  split
  · rename_i detached
    rw [detached] at attached
    cases attached
  · rfl

theorem VirtioPciCtx.Wired.setIrq {ctx after : VirtioPciCtx} (wired : ctx.Wired) {level : Bool}
    (dev : after.pciDev = pciDeviceSetIrq level ctx.pciDev)
    (status : level = true ↔ after.isrStatus ≠ 0)
    : after.Wired := by
  constructor
  · rw [dev, pciDeviceSetIrq_bus]
    exact wired.attached
  · unfold VirtioPciCtx.LineFollows
    rw [dev, pciDeviceSetIrq_level wired.attached]
    exact status

theorem VirtioPciCtx.Wired.congr {ctx after : VirtioPciCtx} (wired : ctx.Wired)
    (dev : after.pciDev = ctx.pciDev) (status : after.isrStatus = ctx.isrStatus)
    : after.Wired := by
  obtain ⟨attached, follows⟩ := wired
  refine ⟨dev ▸ attached, ?_⟩
  unfold VirtioPciCtx.LineFollows
  rw [dev, status]
  exact follows

theorem Notified.pciWired {before after : VirtioPciCtx} (notified : Notified before after)
    (wired : before.Wired)
    : after.Wired := by
  refine notified.keeps ?_ ?_ wired
  · intro ctx wired
    exact wired.setIrq rfl (iff_of_true rfl (or_ne_zero ctx.isrStatus (by decide)))
  · intro ctx wired
    exact wired.setIrq rfl (iff_of_true rfl (or_ne_zero ctx.isrStatus (by decide)))

theorem pciWriteQueue_wired (off val size : Nat) (wired : w.transport.Wired)
    : (pciWriteQueue ram off val size w).transport.Wired := by
  have stored : ∀ q (next : World D F VirtioPciCtx), next.transport = w.transport
      → (pciStoreQueue q off size val next).transport.Wired := by
    intro q next same
    have before : next.transport.Wired := same ▸ wired
    exact before.congr rfl rfl
  unfold pciWriteQueue
  dsimp only
  split
  · exact wired
  split
  · exact wired
  split
  · exact wired
  split
  · exact wired
  split
  · exact wired
  split
  · split
    · exact wired
    · unfold pciEnableQueue
      dsimp only
      split
      · exact wired
      split
      · exact wired
      · exact stored _ _ rfl
  · exact stored _ _ rfl

theorem pciWriteCommon_wired (ops : VirtioDeviceOps D F VirtioPciCtx) (offset val size : Nat)
    (wired : w.transport.Wired)
    : (pciWriteCommon ops offset val size w).transport.Wired := by
  unfold pciWriteCommon
  dsimp only
  split
  · exact wired
  split
  · rwa [virtioDeviceSetFeatures_transport]
  split
  · have same := virtioDeviceSetStatus_transport ops (.ofNat 8 val) w
    split
    · rw [same]
      exact wired.setIrq rfl (iff_of_false Bool.false_ne_true (not_not_intro rfl))
    · rwa [same]
  · exact wired.congr rfl rfl

theorem VirtioPciCtx.Wired.writeHeader {ctx : VirtioPciCtx} (wired : ctx.Wired) (offset : Nat)
    (val : BitVec 32) (size : Nat)
    : { ctx with pciDev := ctx.pciDev.writeHeader offset val size }.Wired := by
  unfold PciDevice.writeHeader
  split
  · have rewritten : { ctx with
        pciDev := { ctx.pciDev with
          configSpace := headerBytes ctx.pciDev.configSpace offset val size } }.Wired :=
      ⟨wired.attached, wired.follows⟩
    exact rewritten.setIrq rfl wired.follows
  · exact ⟨wired.attached, wired.follows⟩

theorem pciOpStep_wired (served : Served ops keeps) (op : PciOp) (wired : w.transport.Wired)
    : (pciOpStep ops ram env w op).transport.Wired := by
  cases op with
  | write access =>
    simp only [pciOpStep, virtioPciBar0Write]
    split
    · split
      · exact pciWriteQueue_wired _ _ _ wired
      · exact pciWriteCommon_wired ops _ _ _ wired
    split
    · split
      · exact (served.notify ram env access.fuel _ w).undisturbed.transport.pciWired wired
      · exact wired
    split
    · rw [served.noWriteConfig]
      exact wired
    · exact wired
  | read =>
    simp only [pciOpStep, virtioPciBar0Read]
    split
    · exact wired
    split
    · exact wired.setIrq rfl (iff_of_false Bool.false_ne_true (not_not_intro rfl))
    split
    · exact wired
    · exact wired
  | header offset val size => exact wired.writeHeader offset val size
  | receive buf =>
    simp only [pciOpStep, receiveFrame]
    split
    · rename_i rxCb bound
      exact (served.receive rxCb bound ram env buf w).undisturbed.transport.pciWired wired
    · exact wired

end Pci

section Handlers

variable [VirtioTransport T] {ram : RamMap} {env : Env D} {keeps : F → F → Prop}
  {body : ServeBody D F T} {q : Nat} {w after : World D F T}

omit [VirtioTransport T] in
theorem usedEntries_quiet {events : List Event} (log : after.log = w.log ++ events)
    (quiet : ∀ event ∈ events, event.activity.isPush = false)
    : after.usedEntries = w.usedEntries := by
  have none : events.countP (fun event => event.activity.isPush) = 0 := by
    refine List.countP_eq_zero.mpr ?_
    intro event member
    simp [quiet event member]
  rw [World.usedEntries, log, List.countP_append, none]
  rfl

omit [VirtioTransport T] in
theorem virtqueuePop_usedEntries (ram : RamMap) (env : Env D) (q : Nat) (w : World D F T)
    : (virtqueuePop ram env q w).2.usedEntries = w.usedEntries := by
  have fetch : ∀ next : World D F T, Fetches env q w next
      → next.usedEntries = w.usedEntries := by
    intro next fetched
    obtain ⟨events, log, loads⟩ := fetched.log
    refine usedEntries_quiet log ?_
    intro event member
    obtain ⟨-, ⟨span, load⟩, -⟩ := loads event member
    rw [load]
    rfl
  have outcome := virtqueuePop_outcome ram env q w
  generalize virtqueuePop ram env q w = result at outcome
  cases outcome with
  | disabled => rfl
  | stuck => rfl
  | empty live fetched => exact fetch _ fetched
  | @fails next _ _ fetched => exact fetch next fetched
  | @chain next _ _ fetched => exact fetch next fetched

omit [VirtioTransport T] in
theorem Transfers.usedEntries {bufs : List VirtqueueBuf}
    (transfers : Transfers env q (Serves bufs) keeps w after)
    : after.usedEntries = w.usedEntries := by
  obtain ⟨events, log, all⟩ := transfers.log
  refine usedEntries_quiet log ?_
  intro event member
  have served := (all event member).2.1
  generalize event.activity = activity at served
  cases activity with
  | push => exact served.elim
  | load => rfl
  | store => rfl
  | backendRead => rfl
  | backendWrite => rfl
  | backendFlush => rfl

theorem virtioDeviceFail_usedEntries (w : World D F T)
    : (virtioDeviceFail w).usedEntries = w.usedEntries := by
  unfold virtioDeviceFail
  dsimp only
  split <;> rfl

variable {fuel : Nat}

theorem serveLoop_due {due : Bool}
    (returned : serveLoop ram env q body fuel true w = (some due, after))
    : due = true := by
  induction fuel generalizing w with
  | zero => cases returned
  | succ fuel ih =>
    unfold serveLoop at returned
    split at returned
    · cases returned
      rfl
    · cases returned
      rfl
    · split at returned
      · cases returned
        rfl
      · exact ih returned

theorem serveLoop_silent (spec : BodyServes ram env keeps body)
    (returned : serveLoop ram env q body fuel false w = (some false, after))
    : after.usedEntries = w.usedEntries := by
  cases fuel with
  | zero => cases returned
  | succ =>
    have pop := virtqueuePop_usedEntries ram env q w
    unfold serveLoop at returned
    split at returned
    · rename_i popped
      rw [popped] at pop
      cases returned
      rw [virtioDeviceFail_usedEntries, pop]
    · rename_i popped
      rw [popped] at pop
      cases returned
      exact pop
    · rename_i chain middle popped
      rw [popped] at pop
      have transfers := spec.transfers chain middle (virtqueuePop_chain popped).1
      split at returned
      · rename_i dropped
        rw [dropped] at transfers
        cases returned
        rw [virtioDeviceFail_usedEntries, transfers.usedEntries, pop]
      · cases serveLoop_due returned

/-- A handler that returned is not affected by more fuel, by induction on the chains served. -/
theorem serveLoop_more {needIrq due : Bool} (more : Nat)
    (returned : serveLoop ram env q body fuel needIrq w = (some due, after))
    : serveLoop ram env q body (fuel + more) needIrq w = (some due, after) := by
  induction fuel generalizing needIrq w with
  | zero => cases returned
  | succ fuel ih =>
    rw [Nat.add_right_comm]
    unfold serveLoop at returned ⊢
    split
    · rename_i popped
      rw [popped] at returned
      exact returned
    · rename_i popped
      rw [popped] at returned
      exact returned
    · rename_i chain middle popped
      rw [popped] at returned
      dsimp only at returned
      split
      · rename_i dropped
        rw [dropped] at returned
        exact returned
      · rename_i answered
        rw [answered] at returned
        exact ih returned

theorem serveQueue_returns (ended : (serveLoop ram env q body fuel false w).1.isSome = true)
    (more : Nat)
    : serveQueue ram env q body (fuel + more) w = serveQueue ram env q body fuel w := by
  rcases loop : serveLoop ram env q body fuel false w with ⟨result, after⟩
  rw [loop] at ended
  obtain ⟨due, rfl⟩ := Option.isSome_iff_exists.mp ended
  rw [serveQueue, serveQueue, serveLoop_more more loop, loop]

theorem serveLoop_resume {needIrq : Bool}
    (busy : serveLoop ram env q body fuel needIrq w = (none, after))
    : serveLoop ram env q body (fuel + 1) needIrq w
      = serveLoop ram env q body 1 (needIrq || decide (0 < fuel)) after := by
  induction fuel generalizing needIrq w with
  | zero =>
    cases busy
    simp
  | succ fuel ih =>
    unfold serveLoop at busy
    rw [serveLoop]
    split at busy
    · cases busy
    · cases busy
    · split at busy
      · cases busy
      · rw [ih busy]
        simp

omit [VirtioTransport T] in
theorem virtqueuePop_moves {chain : VirtqueueChain}
    (popped : virtqueuePop ram env q w = (.ok (some chain), after))
    : (after.queue q).lastAvailIdx ≠ (w.queue q).lastAvailIdx := by
  have outcome := virtqueuePop_outcome ram env q w
  rw [popped] at outcome
  cases outcome with
  | @chain next _ live fetched =>
    obtain ⟨bufs, same⟩ := fetched.frame.1.queue q
    have index : (next.queue q).lastAvailIdx = (w.queue q).lastAvailIdx := by
      unfold World.queue
      rw [same]
    rw [World.advanceAvail, World.queue_setQueue_self]
    dsimp only
    omega

omit [VirtioTransport T] in
theorem virtqueuePush_lastAvailIdx (env : Env D) (q descIdx len : Nat) (w : World D F T)
    : ((virtqueuePush env q descIdx len w).queue q).lastAvailIdx = (w.queue q).lastAvailIdx := by
  unfold virtqueuePush
  dsimp only
  split
  · rfl
  · change ((w.advanceUsed q).queue q).lastAvailIdx = _
    rw [World.advanceUsed, World.queue_setQueue_self]

theorem serveLoop_one (spec : BodyServes ram env keeps body) (w : World D F T)
    : (∃ next, serveLoop ram env q body 1 true w = (some true, next))
      ∨ ∃ next, serveLoop ram env q body 1 true w = (none, next) ∧ next ≠ w := by
  rw [serveLoop]
  split
  · exact .inl ⟨_, rfl⟩
  · exact .inl ⟨_, rfl⟩
  · rename_i chain middle popped
    have transfers := spec.transfers chain middle (virtqueuePop_chain popped).1
    split
    · exact .inl ⟨_, rfl⟩
    · rename_i len served answered
      rw [answered] at transfers
      refine .inr ⟨_, rfl, ?_⟩
      intro same
      -- The chain that was served moved the index of the queue, and nothing moved it back.
      refine virtqueuePop_moves popped ?_
      have unmoved : (served.queue q).lastAvailIdx = (middle.queue q).lastAvailIdx := by
        unfold World.queue
        rw [show served.vdev = middle.vdev from transfers.frame.1]
      rw [← unmoved, ← virtqueuePush_lastAvailIdx env q chain.head len served, same]

theorem serveQueue_pending {pending : T → Prop}
    (notified : ∀ ctx, pending (VirtioTransport.notifyQueue ctx))
    (spec : BodyServes ram env keeps body)
    (returns : serveQueue ram env q body (fuel + 1) w = serveQueue ram env q body fuel w)
    (published : w.usedEntries < (serveQueue ram env q body fuel w).usedEntries)
    : pending (serveQueue ram env q body fuel w).transport := by
  rcases loop : serveLoop ram env q body fuel false w with ⟨result, middle⟩
  cases result with
  | some due =>
    cases due with
    | true =>
      simp only [serveQueue, loop]
      exact notified _
    | false =>
      simp only [serveQueue, loop, serveLoop_silent spec loop] at published
      exact absurd published (Nat.lt_irrefl _)
  | none =>
    have here : serveQueue ram env q body fuel w = middle := by
      simp only [serveQueue, loop]
    have served : 0 < fuel := by
      rcases Nat.eq_zero_or_pos fuel with rfl | positive
      · exact absurd published (Nat.lt_irrefl _)
      · exact positive
    have resumed := serveLoop_resume loop
    rw [decide_eq_true served, Bool.or_true] at resumed
    rw [here] at returns ⊢
    rcases serveLoop_one spec middle with ⟨next, done⟩ | ⟨next, busy, moved⟩
    · rw [serveQueue, resumed, done] at returns
      rw [← returns]
      exact notified _
    · rw [serveQueue, resumed, busy] at returns
      exact absurd returns moved

theorem virtioNetRxCb_pending {S : Type} {pending : T → Prop}
    (notified : ∀ ctx, pending (VirtioTransport.notifyQueue ctx)) (ram : RamMap) (env : Env D)
    (buf : List Byte) {w : World D (VirtioNetCtx S) T}
    (published : w.usedEntries < (virtioNetRxCb ram env buf w).usedEntries)
    : pending (virtioNetRxCb ram env buf w).transport := by
  have pop := virtqueuePop_usedEntries ram env 0 w
  unfold virtioNetRxCb at published ⊢
  split at published
  · exact absurd published (Nat.lt_irrefl _)
  · rename_i ready
    rw [if_neg ready]
    split at published
    · rename_i popped
      rw [popped] at pop
      rw [virtioDeviceFail_usedEntries, pop] at published
      exact absurd published (Nat.lt_irrefl _)
    · rename_i popped
      rw [popped] at pop
      rw [pop] at published
      exact absurd published (Nat.lt_irrefl _)
    · exact notified _

/-- Whatever its fuel, a handler ignores its queue, or serves it with one body. -/
def Serving (ram : RamMap) (env : Env D) (q : Nat) (w : World D F T)
    (handler : (fuel : Nat) → World D F T)
    : Prop :=
  (∀ fuel, handler fuel = w)
  ∨ ∃ (keeps : F → F → Prop) (body : ServeBody D F T), BodyServes ram env keeps body
    ∧ ∀ fuel, handler fuel = serveQueue ram env q body fuel w

theorem Serving.pending {handler : Nat → World D F T} (serving : Serving ram env q w handler)
    {pending : T → Prop} (notified : ∀ ctx, pending (VirtioTransport.notifyQueue ctx))
    (returns : handler (fuel + 1) = handler fuel)
    (published : w.usedEntries < (handler fuel).usedEntries)
    : pending (handler fuel).transport := by
  rcases serving with ignored | ⟨keeps, body, spec, serves⟩
  · rw [ignored] at published
    exact absurd published (Nat.lt_irrefl _)
  · rw [serves] at published ⊢
    rw [serves, serves] at returns
    exact serveQueue_pending notified spec returns published

theorem virtioBlkNotifyQueue_serving {S : Type} (backend : BlockBackend S) (ram : RamMap)
    (env : Env D) (q : Nat) (w : World D (VirtioBlkCtx S) T)
    : Serving ram env q w fun fuel => virtioBlkNotifyQueue backend ram env fuel q w := by
  unfold virtioBlkNotifyQueue
  split
  · exact .inl fun _ => rfl
  · exact .inr ⟨_, _, blkRequest_serves backend ram env, fun _ => rfl⟩

theorem virtioNetNotifyQueue_serving {S : Type} (backend : NetBackend S) (ram : RamMap)
    (env : Env D) (q : Nat) (w : World D (VirtioNetCtx S) T)
    : Serving ram env q w fun fuel => virtioNetNotifyQueue backend ram env fuel q w := by
  unfold virtioNetNotifyQueue
  split
  · exact .inl fun _ => rfl
  split
  · split
    · exact .inl fun _ => rfl
    · exact .inr ⟨_, _, netCtrl_serves ram env, fun _ => rfl⟩
  · exact .inr ⟨_, _, netTransmit_serves backend ram env, fun _ => rfl⟩

theorem Realized.interruptsOnReturn {ops : VirtioDeviceOps D F T} {vdev : VirtioDevice}
    {frontend : F} (realized : Realized ops vdev frontend) {pending : T → Prop}
    (notified : ∀ ctx, pending (VirtioTransport.notifyQueue ctx)) (ram : RamMap) (env : Env D)
    : InterruptsOnReturn ops ram env pending := by
  obtain ⟨address, realized⟩ := realized
  cases realized with
  | blk backend =>
    refine ⟨?_, fun _ absent => nomatch absent⟩
    intro fuel q w returns published
    exact (virtioBlkNotifyQueue_serving backend ram env q w).pending notified (returns 1)
      published
  | net backend =>
    constructor
    · intro fuel q w returns published
      exact (virtioNetNotifyQueue_serving backend ram env q w).pending notified (returns 1)
        published
    · intro rxCb bound buf w published
      obtain rfl := Option.some.inj bound
      exact virtioNetRxCb_pending notified ram env buf published

end Handlers

/-- No interrupt is lost, behind either transport and under any guest. In every state that a device
reaches by accesses, doorbells, frames and failures, the line is asserted exactly if the interrupt
status is not zero. And every handler that returns after it published a used entry leaves the queue
interrupt pending, also if it gave up.
-/
theorem no_lost_interrupt (ram : RamMap) (env : Env D) (guest : Guest D)
    : (∀ (F : Type) (ops : VirtioDeviceOps D F VirtioMmioCtx) (vdev : VirtioDevice)
        (frontend : F), Realized ops vdev frontend
        → (∀ done w, Run (Performs (eventStep (mmioOpStep ops ram env)))
            (virtioMmioRealize guest vdev frontend) done w → w.transport.LineFollows)
          ∧ InterruptsOnReturn ops ram env VirtioMmioCtx.QueuePending)
      ∧ (∀ (F : Type) (ops : VirtioDeviceOps D F VirtioPciCtx) (vdev : VirtioDevice)
        (frontend : F) (place : VirtioPciPlace), Realized ops vdev frontend
        → (∀ done w, Run (Performs (eventStep (pciOpStep ops ram env)))
            (virtioPciRealize place guest vdev frontend) done w → w.transport.LineFollows)
          ∧ InterruptsOnReturn ops ram env VirtioPciCtx.QueuePending) := by
  constructor
  · intro F ops vdev frontend realized
    obtain ⟨keeps, served⟩ := realized.served
    refine ⟨?_, realized.interruptsOnReturn ?_ ram env⟩
    · intro done w run
      refine run.invariant (fun w => w.transport.LineFollows) ?_ ?_
      · rintro before event _ follows rfl
        cases event with
        | access op => exact mmioOpStep_line served op follows
        | fail => exact (virtioDeviceFail_undisturbed before).transport.mmioLine follows
      · exact iff_of_false Bool.false_ne_true (not_not_intro rfl)
    · simp [VirtioMmioCtx.QueuePending, VirtioTransport.notifyQueue]
  · intro F ops vdev frontend place realized
    obtain ⟨keeps, served⟩ := realized.served
    refine ⟨?_, realized.interruptsOnReturn ?_ ram env⟩
    · intro done w run
      have wired : w.transport.Wired := by
        refine run.invariant (fun w => w.transport.Wired) ?_ ?_
        · rintro before event _ wired rfl
          cases event with
          | access op => exact pciOpStep_wired served op wired
          | fail => exact (virtioDeviceFail_undisturbed before).transport.pciWired wired
        · exact ⟨rfl, iff_of_false Bool.false_ne_true (not_not_intro rfl)⟩
      exact wired.follows
    · simp [VirtioPciCtx.QueuePending, VirtioTransport.notifyQueue]

def readyDisk : World Unit (VirtioBlkCtx Unit) VirtioMmioCtx :=
  driverSession.dropLast.foldl (mmioOpStep (virtioBlkOps nullDisk) demoRam stillGuest)
    (virtioMmioRealize ⟨requestMemory, ()⟩ nullDiskDevice nullDiskCtx)

theorem readyDisk_returns
    : HandlerReturns (virtioBlkOps nullDisk) demoRam stillGuest 4 0 readyDisk := by
  intro more
  exact serveQueue_returns (by decide +kernel) more

/-- The session leaves the line asserted, and its request the queue interrupt pending. -/
theorem no_lost_interrupt_served
    : servedDisk.transport.irqLevel = true
      ∧ servedDisk.transport.interruptStatus ≠ 0
      ∧ readyDisk.usedEntries = 0
      ∧ ((virtioBlkOps nullDisk).notifyQueue demoRam stillGuest 4 0 readyDisk
        ).transport.QueuePending := by
  have run : Run (Performs (eventStep (mmioOpStep (virtioBlkOps nullDisk) demoRam stillGuest)))
      (virtioMmioRealize ⟨requestMemory, ()⟩ nullDiskDevice nullDiskCtx)
      (driverSession.map .access) servedDisk := by
    have run := Run.foldl (eventStep (mmioOpStep (virtioBlkOps nullDisk) demoRam stillGuest))
      (virtioMmioRealize ⟨requestMemory, ()⟩ nullDiskDevice nullDiskCtx)
      (driverSession.map .access)
    rwa [List.foldl_map] at run
  have asserted : servedDisk.transport.irqLevel = true := by decide +kernel
  obtain ⟨line, handlers⟩ := (no_lost_interrupt demoRam stillGuest ⟨requestMemory, ()⟩).1 _ _ _ _
    nullDisk_realized
  refine ⟨asserted, (line _ _ run).mp asserted, by decide +kernel, ?_⟩
  exact handlers.notify 4 0 readyDisk readyDisk_returns (by decide +kernel)

end Modvm.Virtio
