import Modvm.Virtio.Access
import Modvm.Virtio.Confinement

/-! A device acts for a queue only while it is ready and the queue is in order, as its log tells. -/

namespace Modvm.Virtio

open Modvm.Core Modvm.Lib Modvm.Hw

variable {D F T : Type}

/-- The device is active, with `DRIVER_OK` and neither `NEEDS_RESET` nor `FAILED`, and the queue
enabled and not broken.
-/
structure Event.Permitted (event : Event) : Prop where
  active : event.during.state = .active
  driverOk : hasBit event.during.status virtioStatusDriverOk = true
  needsReset : hasBit event.during.status virtioStatusNeedsReset = false
  failed : hasBit event.during.status virtioStatusFailed = false
  enabled : (event.during.vqs event.queue).enabled = true
  whole : (event.during.vqs event.queue).broken = false

/-- The driver or the device gave up. -/
def VirtioDevice.Halted (vdev : VirtioDevice) : Prop :=
  hasBit vdev.status virtioStatusNeedsReset = true ∨ hasBit vdev.status virtioStatusFailed = true

/-- A broken queue comes with `NEEDS_RESET`. -/
def BrokenFlagged (w : World D F T) : Prop :=
  ∀ q < w.vdev.nrVqs, (w.queue q).broken = true
    → hasBit w.vdev.status virtioStatusNeedsReset = true

/-- Only permitted activities were added to the log. -/
def Acts (w next : World D F T) : Prop :=
  ∃ events, next.log = w.log ++ events ∧ ∀ event ∈ events, event.Permitted

theorem Acts.refl (w : World D F T)
    : Acts w w :=
  ⟨[], by simp, by simp⟩

variable {w : World D F T}

theorem Acts.silent {next : World D F T} (log : next.log = w.log)
    : Acts w next :=
  ⟨[], by simp [log], by simp⟩

theorem Acts.trans {first second third : World D F T} (before : Acts first second)
    (after : Acts second third)
    : Acts first third := by
  obtain ⟨early, log, earlyPermitted⟩ := before
  obtain ⟨late, rest, latePermitted⟩ := after
  refine ⟨early ++ late, by rw [rest, log, List.append_assoc], ?_⟩
  intro event member
  rcases List.mem_append.mp member with old | new
  · exact earlyPermitted event old
  · exact latePermitted event new

theorem Acts.record {q : Nat} (permitted : ∀ activity, (Event.mk q activity w.vdev).Permitted)
    (activity : Activity)
    : Acts w (w.record q activity) :=
  ⟨[⟨q, activity, w.vdev⟩], rfl, by simpa using permitted activity⟩

theorem Acts.store {q : Nat} (permitted : ∀ activity, (Event.mk q activity w.vdev).Permitted)
    (env : Env D) (gpa : Nat) (bytes : List Byte)
    : Acts w (w.store env q gpa bytes) :=
  ⟨[⟨q, _, w.vdev⟩], World.store_log .., by simpa using permitted _⟩

theorem Event.Permitted.of_ready {event : Event} (ready : virtioDeviceReady event.during = true)
    (enabled : (event.during.vqs event.queue).enabled = true)
    (whole : (event.during.vqs event.queue).broken = false)
    : event.Permitted := by
  obtain ⟨active, driverOk, needsReset, failed⟩ := (virtioDeviceReady_iff _).mp ready
  exact ⟨active, driverOk, needsReset, failed, enabled, whole⟩

theorem VirtioDevice.Halted.not_ready {vdev : VirtioDevice} (halted : vdev.Halted)
    : virtioDeviceReady vdev ≠ true := by
  intro ready
  obtain ⟨-, -, needsReset, failed⟩ := (virtioDeviceReady_iff vdev).mp ready
  rcases halted with set | set
  · rw [needsReset] at set
    cases set
  · rw [failed] at set
    cases set

theorem virtqueuePop_acts (ram : RamMap) (env : Env D) (q : Nat)
    (ready : virtioDeviceReady w.vdev = true)
    : Acts w (virtqueuePop ram env q w).2 := by
  have fetching : ∀ {next : World D F T}, w.Live q → Fetches env q w next → Acts w next := by
    rintro next ⟨enabled, whole⟩ fetched
    obtain ⟨events, log, loads⟩ := fetched.log
    refine ⟨events, log, ?_⟩
    intro event member
    obtain ⟨rfl, -, same⟩ := loads event member
    obtain ⟨bufs, queue⟩ := same.queue event.queue
    refine .of_ready ?_ (by rwa [queue]) (by rwa [queue])
    rwa [ready_congr same.rest.1 same.rest.2.1]
  have outcome := virtqueuePop_outcome ram env q w
  generalize virtqueuePop ram env q w = result at outcome
  cases outcome with
  | disabled => exact .refl w
  | stuck => exact .refl w
  | empty live fetched => exact fetching live fetched
  | fails error live fetched => exact (fetching live fetched).trans (.silent rfl)
  | chain live fetched => exact (fetching live fetched).trans (.silent rfl)

variable {env : Env D} {ram : RamMap} {q : Nat}

theorem virtqueuePop_live {after : World D F T} {chain : VirtqueueChain}
    (popped : virtqueuePop ram env q w = (.ok (some chain), after))
    : after.Live q := by
  have outcome := virtqueuePop_outcome ram env q w
  rw [popped] at outcome
  cases outcome with
  | @chain next _ live fetched =>
    obtain ⟨bufs, queue⟩ := fetched.frame.1.queue q
    unfold World.Live World.advanceAvail
    rw [World.queue_setQueue_self]
    unfold World.queue
    rw [queue]
    exact live

theorem virtqueuePop_broken {after : World D F T} {chain : Option VirtqueueChain}
    (popped : virtqueuePop ram env q w = (.ok chain, after)) (p : Nat)
    : (after.queue p).broken = (w.queue p).broken := by
  have fetching : ∀ {next : World D F T}, Fetches env q w next
      → (next.queue p).broken = (w.queue p).broken := by
    intro next fetched
    obtain ⟨bufs, queue⟩ := fetched.frame.1.queue p
    unfold World.queue
    rw [queue]
  have outcome := virtqueuePop_outcome ram env q w
  rw [popped] at outcome
  cases outcome with
  | disabled => rfl
  | empty live fetched => exact fetching fetched
  | @chain next _ live fetched =>
    rw [← fetching fetched]
    by_cases here : p = q
    · subst here
      rw [World.advanceAvail, World.queue_setQueue_self]
    · rw [World.advanceAvail, World.queue_setQueue_other _ _ here]

theorem virtqueuePush_acts (env : Env D) (q descIdx len : Nat)
    (ready : virtioDeviceReady w.vdev = true) (live : w.Live q)
    : Acts w (virtqueuePush env q descIdx len w)
      ∧ ∀ p, ((virtqueuePush env q descIdx len w).queue p).broken = (w.queue p).broken := by
  obtain ⟨enabled, whole⟩ := live
  unfold virtqueuePush
  dsimp only
  split
  · exact ⟨.refl w, fun _ => rfl⟩
  · -- The element is written before the index advances, the rest after it.
    have before : ∀ activity, (Event.mk q activity w.vdev).Permitted :=
      fun _ => .of_ready ready enabled whole
    have after : ∀ activity, (Event.mk q activity (w.advanceUsed q).vdev).Permitted := by
      intro activity
      refine .of_ready ready ?_ ?_
      · simpa [World.advanceUsed, World.setQueue] using enabled
      · simpa [World.advanceUsed, World.setQueue] using whole
    constructor
    · have element : Acts w (writeUsedElem env q descIdx len w) :=
        (Acts.store before ..).trans (Acts.store (w := w.store env q _ _) before ..)
      have advanced : Acts w ((writeUsedElem env q descIdx len w).advanceUsed q) :=
        element.trans (.silent rfl)
      have published : Acts w (publishUsed env q
          ((writeUsedElem env q descIdx len w).advanceUsed q)) :=
        advanced.trans
          (Acts.store (w := (writeUsedElem env q descIdx len w).advanceUsed q) after ..)
      exact published.trans (.record (w := publishUsed env q _) after _)
    · intro p
      change ((w.advanceUsed q).queue p).broken = _
      by_cases here : p = q
      · subst here
        rw [World.advanceUsed, World.queue_setQueue_self]
      · rw [World.advanceUsed, World.queue_setQueue_other _ _ here]

theorem Transfers.acts {allowed : Activity → Prop} {keeps : F → F → Prop} {next : World D F T}
    (ready : virtioDeviceReady w.vdev = true) (live : w.Live q)
    (steps : Transfers env q allowed keeps w next)
    : Acts w next := by
  obtain ⟨events, log, all⟩ := steps.log
  refine ⟨events, log, ?_⟩
  intro event member
  obtain ⟨rfl, -, during⟩ := all event member
  refine .of_ready (by rwa [during]) ?_ ?_
  · rw [during]
    exact live.1
  · rw [during]
    exact live.2

theorem BrokenFlagged.congr {w next : World D F T} (flagged : BrokenFlagged w)
    (count : next.vdev.nrVqs = w.vdev.nrVqs)
    (broken : ∀ q, (next.queue q).broken = (w.queue q).broken)
    (status : hasBit next.vdev.status virtioStatusNeedsReset
      = hasBit w.vdev.status virtioStatusNeedsReset)
    : BrokenFlagged next := by
  intro q inside isBroken
  rw [status]
  exact flagged q (count ▸ inside) (broken q ▸ isBroken)

theorem BrokenFlagged.setQueue (flagged : BrokenFlagged w) {vq : Virtqueue}
    (same : vq.broken = (w.queue q).broken)
    : BrokenFlagged (w.setQueue q vq) := by
  refine flagged.congr rfl ?_ rfl
  intro p
  by_cases here : p = q
  · rw [here, World.queue_setQueue_self, same]
  · rw [World.queue_setQueue_other w vq here]

theorem reset_disciplined (ops : VirtioDeviceOps D F T) (w : World D F T) (transport : T)
    : Acts w ((virtioDeviceSetStatus ops 0 w).setTransport transport)
      ∧ BrokenFlagged ((virtioDeviceSetStatus ops 0 w).setTransport transport) := by
  have core := virtioDeviceSetStatus_zero ops w
  constructor
  · refine .silent ?_
    simp only [virtioDeviceSetStatus, if_true]
    split <;> rfl
  · intro q inside broken
    simp only [World.setTransport, World.queue, core] at inside broken
    have repaired : ((resetDevice w.vdev).vqs q).broken = false := by
      have counted : q < w.vdev.nrVqs := inside
      simp [resetDevice, counted, virtqueueReset]
    rw [repaired] at broken
    cases broken

section
variable [VirtioTransport T]

theorem virtioDeviceFail_flags (w : World D F T)
    : hasBit (virtioDeviceFail w).vdev.status virtioStatusNeedsReset = true := by
  rw [virtioDeviceFail_vdev, hasBit_needsReset]
  exact (failed_bits _).2

variable {keeps : F → F → Prop}

variable {q : Nat} {env : Env D} {ram : RamMap} {w next : World D F T}

theorem SessionStep.disciplined (step : SessionStep ram env q keeps w next)
    : Acts w next ∧ (BrokenFlagged w → BrokenFlagged next) := by
  have undisturbed := step.undisturbed
  have pop := virtqueuePop_acts ram env q (w := w)
  have state := virtqueuePop_protocol ram env q w
  have failing : ∀ before : World D F T, BrokenFlagged (virtioDeviceFail before) :=
    fun before _ _ _ => virtioDeviceFail_flags before
  cases step with
  | quiet ready popped =>
    rw [popped] at pop state
    refine ⟨pop ready, ?_⟩
    -- No queue breaks, and the status is the same.
    intro flagged p inside broken
    rw [virtqueuePop_broken popped] at broken
    rw [state.2.1]
    exact flagged p (undisturbed.count ▸ inside) broken
  | breaks ready popped =>
    rw [popped] at pop
    exact ⟨(pop ready).trans (.silent (virtioDeviceFail_rest _).2.2), fun _ => failing _⟩
  | @serves after served chain len ready popped transfers =>
    rw [popped] at pop state
    -- Readiness and the queue survive the pop and the transfers, up to the push.
    have same := transfers.frame.1
    have afterReady : virtioDeviceReady after.vdev = true := by
      rwa [ready_congr state.1 state.2.1]
    have live := virtqueuePop_live popped
    have servedReady : virtioDeviceReady served.vdev = true := by rwa [same]
    have servedLive : served.Live q := by
      unfold World.Live World.queue at *
      rwa [same]
    obtain ⟨pushed, unbroken⟩ :=
      virtqueuePush_acts env q chain.head len servedReady servedLive
    refine ⟨((pop ready).trans (transfers.acts afterReady live)).trans pushed, ?_⟩
    intro flagged p inside broken
    rw [unbroken, World.queue, same] at broken
    have unbrokenPop := virtqueuePop_broken popped p
    rw [World.queue] at unbrokenPop
    rw [unbrokenPop] at broken
    rw [(virtqueuePush_protocol ..).2.1, same, state.2.1]
    exact flagged p (undisturbed.count ▸ inside) broken
  | drops ready popped unanswerable transfers =>
    rw [popped] at pop state
    have afterReady := ready_congr state.1 state.2.1
    have live := virtqueuePop_live popped
    refine ⟨?_, fun _ => failing _⟩
    refine ((pop ready).trans (transfers.acts ?_ live)).trans
      (.silent (virtioDeviceFail_rest _).2.2)
    rwa [afterReady]
  | notify => exact ⟨.silent rfl, id⟩

theorem Session.disciplined (session : Session ram env q keeps w next)
    : Acts w next ∧ (BrokenFlagged w → BrokenFlagged next) := by
  induction session with
  | refl => exact ⟨.refl w, id⟩
  | tail _ step ih =>
    obtain ⟨acts, flagged⟩ := step.disciplined
    exact ⟨ih.1.trans acts, flagged ∘ ih.2⟩

theorem Session.halted (session : Session ram env q keeps w next) (halted : w.vdev.Halted)
    : next.vdev = w.vdev ∧ next.log = w.log := by
  induction session with
  | refl => exact ⟨rfl, rfl⟩
  | tail _ step ih =>
    obtain ⟨vdev, log⟩ := ih
    have stopped := vdev ▸ halted.not_ready
    cases step with
    | quiet ready => exact absurd ready stopped
    | breaks ready => exact absurd ready stopped
    | serves len ready => exact absurd ready stopped
    | drops ready => exact absurd ready stopped
    | notify => exact ⟨vdev, log⟩

variable {ops : VirtioDeviceOps D F T} {ram : RamMap} {env : Env D} {keeps : F → F → Prop}
  {wires : T → T → Prop} {w next : World D F T}

theorem CoreStep.disciplined (step : CoreStep ops ram env keeps wires w next)
    : Acts w next ∧ (BrokenFlagged w → BrokenFlagged next) := by
  cases step with
  | session session => exact session.disciplined
  | status nonzero =>
    rw [virtioDeviceSetStatus_nonzero ops nonzero]
    refine ⟨.silent rfl, fun flagged => flagged.congr rfl (fun _ => rfl) ?_⟩
    rw [hasBit_needsReset, hasBit_needsReset]
    exact (acceptStatus_bits _ _ _ _).2.2.2.2.2.2.1
  | features =>
    unfold virtioDeviceSetFeatures
    split
    · exact ⟨.refl w, id⟩
    · exact ⟨.silent rfl, fun flagged => flagged.congr rfl (fun _ => rfl) rfl⟩
  | resize set =>
    obtain ⟨-, rfl, -⟩ := virtqueueSetSize_ok set
    exact ⟨.silent rfl, fun flagged => flagged.setQueue rfl⟩
  | enable set =>
    obtain ⟨-, -, -, broken, -⟩ := virtqueueSetAddrs_ok set
    exact ⟨.silent rfl, fun flagged => flagged.setQueue broken⟩
  | disable => exact ⟨.silent rfl, fun flagged => flagged.setQueue rfl⟩
  | registers => exact ⟨.silent rfl, id⟩

theorem CoreStep.halted (step : CoreStep ops ram env keeps wires w next) (halted : w.vdev.Halted)
    : next.vdev.Halted ∧ next.log = w.log := by
  cases step with
  | session session =>
    obtain ⟨vdev, log⟩ := session.halted halted
    exact ⟨vdev ▸ halted, log⟩
  | status nonzero =>
    rw [virtioDeviceSetStatus_nonzero ops nonzero]
    refine ⟨?_, rfl⟩
    obtain ⟨-, -, -, -, -, -, needsReset, failed⟩ := acceptStatus_bits
      (ops.getFeatures w.frontend) w.vdev.driverFeatures w.vdev.status _
    unfold VirtioDevice.Halted at *
    simp only [World.setStatus, hasBit_needsReset, hasBit_failed] at halted ⊢
    rw [needsReset, failed]
    rcases halted with set | set
    · exact .inl set
    · exact .inr (by rw [set, Bool.or_true])
  | features =>
    unfold virtioDeviceSetFeatures
    split <;> exact ⟨halted, rfl⟩
  | resize => exact ⟨halted, rfl⟩
  | enable => exact ⟨halted, rfl⟩
  | disable => exact ⟨halted, rfl⟩
  | registers => exact ⟨halted, rfl⟩

theorem CoreSteps.disciplined (steps : CoreSteps ops ram env keeps wires w next)
    : Acts w next ∧ (BrokenFlagged w → BrokenFlagged next) := by
  induction steps with
  | refl => exact ⟨.refl w, id⟩
  | tail _ step ih =>
    obtain ⟨acts, flagged⟩ := step.disciplined
    exact ⟨ih.1.trans acts, flagged ∘ ih.2⟩

theorem CoreSteps.halted (steps : CoreSteps ops ram env keeps wires w next)
    (halted : w.vdev.Halted)
    : next.vdev.Halted ∧ next.log = w.log := by
  induction steps with
  | refl => exact ⟨halted, rfl⟩
  | tail _ step ih =>
    obtain ⟨still, log⟩ := step.halted ih.1
    exact ⟨still, log.trans ih.2⟩

end

/-- In every run: activities are permitted when they happen, broken queues come with `NEEDS_RESET`,
and a device that gave up rests until reset.
-/
def Disciplined {ι : Type} (step : World D F T → ι → World D F T) (resets : ι → Prop)
    (start : World D F T)
    : Prop :=
  ∀ done w, Run (Performs step) start done w
    → (∀ event ∈ w.log, event.Permitted)
      ∧ BrokenFlagged w
      ∧ (w.vdev.Halted
        → ∀ more later, Run (Performs step) w more later → (∀ op ∈ more, ¬ resets op)
        → later.log = w.log)

theorem Disciplined.of_core [VirtioTransport T] {ι : Type} {step : World D F T → ι → World D F T}
    {resets : ι → Prop} {start : World D F T} {ops : VirtioDeviceOps D F T} {keeps : F → F → Prop}
    {wires : T → T → Prop}
    (core : ∀ op w, (¬ resets op ∧ CoreSteps ops ram env keeps wires w (step w op))
      ∨ (resets op ∧ ∃ transport,
          step w op = (virtioDeviceSetStatus ops 0 w).setTransport transport))
    (silent : start.log = []) (flagged : BrokenFlagged start)
    : Disciplined step resets start := by
  intro done w run
  have inv : (∀ event ∈ w.log, event.Permitted) ∧ BrokenFlagged w := by
    refine run.invariant (fun w => (∀ event ∈ w.log, event.Permitted) ∧ BrokenFlagged w) ?_
      ⟨by simp [silent], flagged⟩
    rintro before op _ ⟨permitted, whole⟩ rfl
    have one : Acts before (step before op) ∧ BrokenFlagged (step before op) := by
      rcases core op before with ⟨-, steps⟩ | ⟨-, transport, reset⟩
      · obtain ⟨acts, keepsFlags⟩ := steps.disciplined
        exact ⟨acts, keepsFlags whole⟩
      · rw [reset]
        exact reset_disciplined ops before transport
    obtain ⟨⟨events, log, new⟩, after⟩ := one
    refine ⟨?_, after⟩
    intro event member
    rw [log] at member
    rcases List.mem_append.mp member with old | fresh
    · exact permitted event old
    · exact new event fresh
  refine ⟨inv.1, inv.2, ?_⟩
  intro halted more later rest noReset
  -- From here on no label is a reset, so every event consists of core steps.
  have still := rest.invariant_of (fun later => later.vdev.Halted ∧ later.log = w.log) ?_ noReset
    ⟨halted, rfl⟩
  · exact still.2
  · rintro before op _ ordinary ⟨given, log⟩ rfl
    rcases core op before with ⟨-, steps⟩ | ⟨isReset, -⟩
    · obtain ⟨stillHalted, same⟩ := steps.halted given
      exact ⟨stillHalted, same.trans log⟩
    · exact absurd isReset ordinary

theorem Realized.flagged [VirtioTransport T] {ops : VirtioDeviceOps D F T}
    {vdev : VirtioDevice} {frontend : F} (realized : Realized ops vdev frontend)
    {start : World D F T} (same : start.vdev = vdev)
    : BrokenFlagged start := by
  intro q inside broken
  subst same
  obtain ⟨size, -, created⟩ := realized.fresh.created q inside
  rw [World.queue, (virtqueueCreate_off created).2.1] at broken
  cases broken

/-- Block and network devices act only while ready, behind either transport and under any guest:
every used entry, guest memory write and backend request of a queue happens while the device is
active with `DRIVER_OK` and neither `NEEDS_RESET` nor `FAILED`, and the queue enabled and not
broken.
-/
theorem virtio_acts_only_while_ready (ram : RamMap) (env : Env D) (guest : Guest D)
    : (∀ (F : Type) (ops : VirtioDeviceOps D F VirtioMmioCtx) (vdev : VirtioDevice)
        (frontend : F), Realized ops vdev frontend
        → Disciplined (mmioOpStep ops ram env) MmioOp.Resets
          (virtioMmioRealize guest vdev frontend))
      ∧ (∀ (F : Type) (ops : VirtioDeviceOps D F VirtioPciCtx) (vdev : VirtioDevice)
        (frontend : F) (place : VirtioPciPlace), Realized ops vdev frontend
        → Disciplined (pciOpStep ops ram env) PciOp.Resets
          (virtioPciRealize place guest vdev frontend)) := by
  constructor
  · intro F ops vdev frontend realized
    obtain ⟨keeps, served⟩ := realized.served
    exact .of_core (mmioOpStep_core served ram env) rfl (realized.flagged rfl)
  · intro F ops vdev frontend place realized
    obtain ⟨keeps, served⟩ := realized.served
    exact .of_core (pciOpStep_core served ram env) rfl (realized.flagged rfl)

def requestMemory : Nat → Byte :=
  writeBytes
    (writeBytes
      (writeBytes (fun _ => 0) 0x1000 (toLe 8 0x4000 ++ toLe 4 16 ++ toLe 2 1 ++ toLe 2 1))
      0x1010 (toLe 8 0x5000 ++ toLe 4 1 ++ toLe 2 2 ++ toLe 2 0))
    0x2002 (toLe 2 1)

def MmioOp.reg (offset : Nat) (val : BitVec 32) (fuel : Nat) : MmioOp :=
  .write ⟨offset, .dword, val, fuel⟩

def driverSession : List MmioOp :=
  [.reg 0x070 3 0, .reg 0x024 1 0, .reg 0x020 1 0, .reg 0x070 0xb 0, .reg 0x038 4 0,
    .reg 0x080 0x1000 0, .reg 0x090 0x2000 0, .reg 0x0a0 0x3000 0, .reg 0x044 1 0,
    .reg 0x070 0xf 0, .reg 0x050 0 4]

def servedDisk : World Unit (VirtioBlkCtx Unit) VirtioMmioCtx :=
  driverSession.foldl (mmioOpStep (virtioBlkOps nullDisk) demoRam stillGuest)
    (virtioMmioRealize ⟨requestMemory, ()⟩ nullDiskDevice nullDiskCtx)

/-- The discipline on that session, in which the request is completed. -/
theorem virtio_acts_only_while_ready_served
    : (servedDisk.log.any fun event => event.activity == .push 0 1) = true
      ∧ ∀ event ∈ servedDisk.log, event.Permitted := by
  have run : Run (Performs (mmioOpStep (virtioBlkOps nullDisk) demoRam stillGuest))
      (virtioMmioRealize ⟨requestMemory, ()⟩ nullDiskDevice nullDiskCtx) driverSession
      servedDisk :=
    Run.foldl _ _ driverSession
  refine ⟨by decide +kernel, ?_⟩
  exact ((virtio_acts_only_while_ready demoRam stillGuest _).1 _ _ _ _ nullDisk_realized _ _
    run).1

end Modvm.Virtio
