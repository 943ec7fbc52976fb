import Modvm.Virtio.Delivery
import Modvm.Virtio.Discipline

/-! The virtqueue protocol between a driver and a device that share memory. -/

namespace Modvm.Virtio

open Function Modvm.Core Modvm.Lib

variable {F T : Type}

section
variable {layout : RingLayout} {env : Env Driver} {published : Nat → List (Nat × Nat)} {q : Nat}
  {rings : Rings} {chain : PostedChain} {guest : Guest Driver} {w after : World Driver F T}

/-- Unless the device gave up, it has returned exactly what it popped, and its indices count it
modulo `2 ^ 16`.
-/
structure InOrder (layout : RingLayout) (w : World Driver F T) : Prop where
  consistent : Consistent layout (returned w.log) w.guest
  setUp : ∀ q rings, layout q = some rings → QueueAt rings (w.queue q)
  absent : ∀ q, layout q = none → (w.queue q).enabled = false
  aligned : hasBit w.vdev.status virtioStatusNeedsReset = false
    → ∀ q rings, layout q = some rings
      → (w.queue q).lastAvailIdx = (returned w.log q).length % 2 ^ 16
        ∧ (w.queue q).lastUsedIdx = (returned w.log q).length % 2 ^ 16

theorem InOrder.pop {ram : RamMap} (apart : layout.Apart) (wraps : layout.Wraps)
    (follows : Follows layout env) (inOrder : InOrder layout w)
    (ready : virtioDeviceReady w.vdev = true) {popped : VirtqueueChain}
    (ok : virtqueuePop ram env q w = (.ok (some popped), after))
    : ∃ rings chain, layout q = some rings
        ∧ Pending layout (returned w.log) q chain after.guest
        ∧ popped.head = chain.head
        ∧ popped.bufs after = chain.bufs := by
  obtain ⟨-, -, needsReset, -⟩ := (virtioDeviceReady_iff _).mp ready
  cases here : layout q with
  | none =>
    have off := inOrder.absent q here
    rw [virtqueuePop] at ok
    simp [off] at ok
  | some rings =>
    obtain ⟨chain, found⟩ := virtqueuePop_pending apart wraps follows here
      (inOrder.setUp q rings here) (inOrder.aligned needsReset q rings here).1
      inOrder.consistent ok
    exact ⟨rings, chain, rfl, found⟩

theorem Pending.head_lt (pending : Pending layout published q chain guest)
    (here : layout q = some rings)
    : chain.head < 2 ^ 16 :=
  (pending.held here).1 ▸ leNat_readBytes_lt ..

variable [VirtioTransport T]

theorem InOrder.undisturbed (inOrder : InOrder layout w) (undisturbed : Undisturbed w after)
    : (∀ q rings, layout q = some rings → QueueAt rings (after.queue q))
      ∧ ∀ q, layout q = none → (after.queue q).enabled = false :=
  ⟨fun q rings here => (inOrder.setUp q rings here).congr (undisturbed.setup q),
    fun q none => (undisturbed.setup q).enabled.trans (inOrder.absent q none)⟩

theorem InOrder.fail
    (consistent : Consistent layout (returned w.log) w.guest)
    (setUp : ∀ q rings, layout q = some rings → QueueAt rings ((virtioDeviceFail w).queue q))
    (absent : ∀ q, layout q = none → ((virtioDeviceFail w).queue q).enabled = false)
    : InOrder layout (virtioDeviceFail w) := by
  obtain ⟨guest, -, log⟩ := virtioDeviceFail_rest w
  refine ⟨by rwa [log, guest], setUp, absent, ?_⟩
  intro clear
  rw [virtioDeviceFail_flags] at clear
  cases clear

variable {keeps : F → F → Prop} {ram : RamMap}

section

variable (apart : layout.Apart) (wraps : layout.Wraps) (follows : Follows layout env)
include apart wraps follows

theorem InOrder.serves {served : World Driver F T} {popped : VirtqueueChain}
    (inOrder : InOrder layout w) (ready : virtioDeviceReady w.vdev = true)
    (ok : virtqueuePop ram env q w = (.ok (some popped), after))
    (transfers : Transfers env q (Serves (popped.bufs after)) keeps after served) (len : Nat)
    : InOrder layout (virtqueuePush env q popped.head len served) := by
  obtain ⟨-, -, needsReset, -⟩ := (virtioDeviceReady_iff _).mp ready
  have step := (SessionStep.serves len ready ok transfers).undisturbed
  obtain ⟨setUp, absent⟩ := inOrder.undisturbed step
  obtain ⟨rings, chain, here, pending, head, bufs⟩ :=
    inOrder.pop apart wraps follows ready ok
  rw [bufs] at transfers
  have same := transfers.frame.1
  have before := (virtqueuePop_undisturbed ram env q w).trans
    (by rw [ok]; exact transfers.undisturbed)
  have servedSet := (inOrder.setUp q rings here).congr (before.setup q)
  have history : returned served.log = returned w.log := by
    have popLog := (virtqueuePop_driven ram follows q w).2
    rw [ok] at popLog
    exact transfers.returned.trans popLog
  have indices : ∀ p, (served.queue p).lastAvailIdx
        = (if p = q then ((w.queue q).lastAvailIdx + 1) % 2 ^ 16 else (w.queue p).lastAvailIdx)
      ∧ (served.queue p).lastUsedIdx = (w.queue p).lastUsedIdx := by
    intro p
    have popIndices := virtqueuePop_indices ok p
    simpa [World.queue, same] using popIndices
  have aligned := inOrder.aligned needsReset
  -- The chain is pending until the push, and then one of the chains returned.
  have servedPending := transfers.pending apart wraps.positive follows here pending
  have pushed := virtqueuePush_returned env servedSet popped.head len
  rw [history] at pushed
  refine ⟨?_, setUp, absent, ?_⟩
  · rw [pushed]
    refine virtqueuePush_consistent apart wraps follows here servedSet ?_ servedPending len head
      (head ▸ servedPending.head_lt here)
    rw [(indices q).2, (aligned q rings here).2]
  · intro _ p other there
    obtain ⟨avail, used⟩ := virtqueuePush_indices env servedSet popped.head len p
    obtain ⟨wasAvail, wasUsed⟩ := aligned p other there
    rw [avail, used, (indices p).1, pushed]
    by_cases here : p = q
    · subst here
      rw [if_pos rfl, if_pos rfl, update_self, (indices p).2, List.length_append,
        List.length_singleton]
      omega
    · rw [if_neg here, if_neg here, update_of_ne here, (indices p).2]
      exact ⟨wasAvail, wasUsed⟩

theorem SessionStep.inOrder (step : SessionStep ram env q keeps w after)
    (inOrder : InOrder layout w)
    : InOrder layout after := by
  obtain ⟨setUp, absent⟩ := inOrder.undisturbed step.undisturbed
  obtain ⟨steps, history⟩ := virtqueuePop_driven ram follows q w
  have kept := (steps.keep apart wraps.positive inOrder.consistent).1
  cases step with
  | quiet ready ok =>
    rw [ok] at kept history
    have status := (virtqueuePop_protocol ram env q w).2.1
    rw [ok] at status
    refine ⟨history ▸ kept, setUp, absent, ?_⟩
    intro clear p other there
    obtain ⟨avail, used⟩ := virtqueuePop_indices ok p
    rw [avail, used, history]
    rw [status] at clear
    simpa using inOrder.aligned clear p other there
  | breaks ready failed =>
    rw [failed] at kept history
    exact .fail (history ▸ kept) setUp absent
  | serves len ready ok transfers =>
    exact inOrder.serves apart wraps follows ready ok transfers len
  | drops ready ok unanswerable transfers =>
    -- The indices now differ, but the device has given up.
    obtain ⟨rings, chain, here, pending, -, bufs⟩ :=
      inOrder.pop apart wraps follows ready ok
    rw [bufs] at transfers
    rw [ok] at history
    have served := transfers.pending apart wraps.positive follows here pending
    refine .fail ?_ setUp absent
    rw [transfers.returned, history]
    exact served.consistent
  | notify => exact ⟨inOrder.consistent, setUp, absent, inOrder.aligned⟩

theorem Session.inOrder (session : Session ram env q keeps w after) (inOrder : InOrder layout w)
    : InOrder layout after := by
  induction session with
  | refl => exact inOrder
  | tail _ step ih => exact step.inOrder apart wraps follows ih

end

end

/-- The driver acts, a queue is notified, or the backend delivers a frame. -/
inductive ProtocolOp where
  | driver
  | notify (q fuel : Nat)
  | receive (buf : List Byte)

/-- One such event. While a handler runs, the driver acts through `env`. -/
inductive ProtocolStep [VirtioTransport T] (ops : VirtioDeviceOps Driver F T) (ram : RamMap)
    (env : Env Driver) (layout : RingLayout) (w : World Driver F T)
    : ProtocolOp → World Driver F T → Prop
  | driver {guest : Guest Driver} (step : DriverStep layout w.guest guest)
    : ProtocolStep ops ram env layout w .driver { w with guest := guest }
  | notify (q fuel : Nat)
    : ProtocolStep ops ram env layout w (.notify q fuel) (ops.notifyQueue ram env fuel q w)
  | receive (buf : List Byte)
    : ProtocolStep ops ram env layout w (.receive buf) (receiveFrame ops ram env buf w)

/-- The queues of the layout, and no others, were just enabled over empty rings. -/
structure JustEnabled (ram : RamMap) (layout : RingLayout) (vdev : VirtioDevice)
    (start : World Driver F T) : Prop where
  enabled : ∀ q rings, layout q = some rings → q < vdev.nrVqs
    ∧ ∃ sized, virtqueueSetSize (vdev.vqs q) rings.size = .ok sized
      ∧ virtqueueSetAddrs ram sized rings.desc rings.avail rings.used = .ok (start.queue q)
  others : ∀ q, layout q = none → (start.queue q).enabled = false
  idle : ∀ q rings, layout q = some rings
    → start.guest.driver q = ⟨[], []⟩
      ∧ readLe start.guest.ram rings.availIdx = 0
      ∧ readLe start.guest.ram rings.usedIdx = 0
  silent : start.log = []

theorem QueueConsistent.empty {layout : RingLayout} {rings : Rings} {ram : Nat → Byte}
    (availIdx : readLe ram rings.availIdx = 0) (usedIdx : readLe ram rings.usedIdx = 0)
    : QueueConsistent layout rings [] ram ⟨[], []⟩ :=
  ⟨List.prefix_refl _, List.prefix_refl _, Nat.zero_le _, by simp, availIdx, usedIdx, by simp,
    by simp⟩

section
variable [VirtioTransport T] {ops : VirtioDeviceOps Driver F T} {ram : RamMap}
  {env : Env Driver} {layout : RingLayout} {vdev : VirtioDevice} {frontend : F}
  {start w : World Driver F T}

theorem JustEnabled.wraps (realized : Realized ops vdev frontend)
    (just : JustEnabled ram layout vdev start)
    : layout.Wraps := by
  intro q rings here
  obtain ⟨inside, sized, accepted, -⟩ := just.enabled q rings here
  obtain ⟨maximum, small, created⟩ := realized.fresh.created q inside
  obtain ⟨-, -, positive, power, bound⟩ := virtqueueSetSize_ok accepted
  rw [(virtqueueCreate_off created).2.2.2.1] at bound
  obtain ⟨k, exponent⟩ := (notPowerOfTwo_eq_false_iff positive).mp power
  rw [exponent] at bound ⊢
  exact Nat.pow_dvd_pow 2 (Nat.le_of_lt (Nat.lt_succ_of_le
    ((Nat.pow_le_pow_iff_right (by decide)).mp (bound.trans small))))

theorem JustEnabled.inOrder (realized : Realized ops vdev frontend)
    (just : JustEnabled ram layout vdev start)
    : InOrder layout start := by
  have history : returned start.log = fun _ => [] := by
    rw [just.silent]
    rfl
  refine ⟨?_, ?_, just.others, ?_⟩
  · intro q rings here
    obtain ⟨driver, availIdx, usedIdx⟩ := just.idle q rings here
    rw [history, driver]
    exact .empty availIdx usedIdx
  · intro q rings here
    obtain ⟨-, sized, accepted, mapped⟩ := just.enabled q rings here
    obtain ⟨-, rfl, -⟩ := virtqueueSetSize_ok accepted
    obtain ⟨enabled, size, -, -, ringsAt⟩ := virtqueueSetAddrs_ok mapped
    exact ⟨enabled, size, ringsAt⟩
  · intro _ q rings here
    obtain ⟨inside, sized, accepted, mapped⟩ := just.enabled q rings here
    obtain ⟨_, _, created⟩ := realized.fresh.created q inside
    obtain ⟨-, -, -, -, avail, used, -⟩ := virtqueueCreate_off created
    obtain ⟨-, rfl, -⟩ := virtqueueSetSize_ok accepted
    obtain ⟨sameAvail, sameUsed⟩ := virtqueueSetAddrs_indices mapped
    rw [history, sameAvail, sameUsed]
    exact ⟨avail, used⟩

theorem ProtocolStep.inOrder {keeps : F → F → Prop} (served : Served ops keeps)
    (apart : layout.Apart) (wraps : layout.Wraps) (follows : Follows layout env)
    {op : ProtocolOp} {next : World Driver F T}
    (step : ProtocolStep ops ram env layout w op next) (inOrder : InOrder layout w)
    : InOrder layout next := by
  cases step with
  | driver step =>
    exact ⟨step.consistent apart wraps.positive inOrder.consistent, inOrder.setUp,
      inOrder.absent, inOrder.aligned⟩
  | notify q fuel =>
    exact (served.notify ram env fuel q w).inOrder apart wraps follows inOrder
  | receive buf =>
    unfold receiveFrame
    split
    · rename_i rxCb bound
      exact (served.receive rxCb bound ram env buf w).inOrder apart wraps follows inOrder
    · exact inOrder

end

/-- The virtqueue protocol, for block and network devices and any driver that follows it, also while
handlers run: the used elements that the driver has read are the first ones published, the
identifiers are the first heads posted, unread elements are intact in their slots, and between
handlers the indices agree unless the device has set `NEEDS_RESET`.
-/
theorem virtqueue_in_order [VirtioTransport T] (ops : VirtioDeviceOps Driver F T)
    (vdev : VirtioDevice) (frontend : F) (realized : Realized ops vdev frontend) (ram : RamMap)
    (env : Env Driver) (layout : RingLayout) (apart : layout.Apart)
    (follows : Follows layout env) (start : World Driver F T)
    (just : JustEnabled ram layout vdev start) (done : List ProtocolOp) (w : World Driver F T)
    (run : Run (ProtocolStep ops ram env layout) start done w) (q : Nat) (rings : Rings)
    (here : layout q = some rings)
    : (w.guest.driver q).seen <+: returned w.log q
      ∧ (returned w.log q).map Prod.fst <+: (w.guest.driver q).posted.map PostedChain.head
      ∧ (w.guest.driver q).seen.map Prod.fst <+: (w.guest.driver q).posted.map PostedChain.head
      ∧ (∀ i elem, (w.guest.driver q).seen.length ≤ i → (returned w.log q)[i]? = some elem
          → rings.usedElem w.guest.ram i = elem)
      ∧ ((w.queue q).lastUsedIdx = (w.queue q).lastAvailIdx
        ∨ hasBit w.vdev.status virtioStatusNeedsReset = true) := by
  obtain ⟨keeps, served⟩ := realized.served
  have wraps := just.wraps realized
  have inOrder : InOrder layout w :=
    run.invariant (InOrder layout)
      (fun _ _ _ before step => step.inOrder served apart wraps follows before)
      (just.inOrder realized)
  have queue := inOrder.consistent q rings here
  refine ⟨queue.read, queue.heads, (queue.read.map Prod.fst).trans queue.heads, queue.unread, ?_⟩
  cases flag : hasBit w.vdev.status virtioStatusNeedsReset with
  | true => exact .inr rfl
  | false =>
    obtain ⟨avail, used⟩ := inOrder.aligned flag q rings here
    exact .inl (used.trans avail.symm)

def diskRings : Rings := ⟨4, 0x1000, 0x2000, 0x3000⟩

def diskLayout : RingLayout := fun q => if q = 0 then some diskRings else none

def diskChain : PostedChain := ⟨0, [⟨0, ⟨0x4000, 16, 1, 1⟩⟩, ⟨1, ⟨0x5000, 1, 2, 0⟩⟩]⟩

def diskQueue : Virtqueue :=
  (virtqueueSetAddrs demoRam { nullDiskDevice.vqs 0 with queueSize := 4 } 0x1000 0x2000
    0x3000).toOption.getD default

def idleDisk : World Driver (VirtioBlkCtx Unit) VirtioMmioCtx where
  guest := ⟨writeBytes requestMemory 0x2002 (toLe 2 0), fun _ => ⟨[], []⟩⟩
  clock := 0
  vdev :=
    { nullDiskDevice with
      status := 0x0f, vqs := update nullDiskDevice.vqs 0 diskQueue }
  frontend := nullDiskCtx
  transport := .zero
  log := []

/-- The driver of the example acts only between handlers. -/
def quietDriver : Env Driver := fun _ guest => guest

def postedDisk : World Driver (VirtioBlkCtx Unit) VirtioMmioCtx :=
  { idleDisk with
    guest := ⟨writeBytes idleDisk.guest.ram (diskRings.avail + 2)
        (toLe 2 ((idleDisk.guest.driver 0).posted.length + 1)),
      update idleDisk.guest.driver 0
        { idleDisk.guest.driver 0 with
          posted := (idleDisk.guest.driver 0).posted ++ [diskChain] }⟩ }

def answeredDisk : World Driver (VirtioBlkCtx Unit) VirtioMmioCtx :=
  (virtioBlkOps nullDisk).notifyQueue demoRam quietDriver 4 0 postedDisk

def polledDisk : World Driver (VirtioBlkCtx Unit) VirtioMmioCtx :=
  { answeredDisk with
    guest := ⟨answeredDisk.guest.ram, update answeredDisk.guest.driver 0
      { answeredDisk.guest.driver 0 with
        seen := (answeredDisk.guest.driver 0).seen
          ++ [diskRings.usedElem answeredDisk.guest.ram
            (answeredDisk.guest.driver 0).seen.length] }⟩ }

theorem diskLayout_some {q : Nat} {rings : Rings} (here : diskLayout q = some rings)
    : q = 0 ∧ rings = diskRings := by
  unfold diskLayout at here
  split at here
  · rename_i zero
    exact ⟨zero, (Option.some.inj here).symm⟩
  · cases here

theorem diskLayout_apart
    : diskLayout.Apart := by
  intro q rings area p other otherArea here there different
  obtain ⟨rfl, rfl⟩ := diskLayout_some here
  obtain ⟨rfl, rfl⟩ := diskLayout_some there
  cases area <;> cases otherArea <;> first | decide | exact absurd rfl different

theorem idleDisk_enabled
    : JustEnabled demoRam diskLayout nullDiskDevice idleDisk := by
  refine ⟨?_, ?_, ?_, rfl⟩
  · intro q rings here
    obtain ⟨rfl, rfl⟩ := diskLayout_some here
    exact ⟨by decide, _, rfl, rfl⟩
  · intro q none
    have other : q ≠ 0 := by
      rintro rfl
      cases none
    simp only [World.queue, idleDisk, nullDiskDevice, update_of_ne other]
    rfl
  · intro q rings here
    obtain ⟨rfl, rfl⟩ := diskLayout_some here
    exact ⟨rfl, by decide +kernel, by decide +kernel⟩

theorem diskChain_formed
    : diskChain.WellFormed diskLayout 4 := by
  refine ⟨.next (by decide) rfl (.last (by decide) rfl), ?_⟩
  intro buf member writable address inside q rings area here
  obtain ⟨rfl, rfl⟩ := diskLayout_some here
  simp only [PostedChain.bufs, diskChain, List.map_cons, List.map_nil, List.mem_cons,
    List.not_mem_nil, or_false] at member
  rcases member with rfl | rfl
  · exact absurd writable (by decide)
  · simp only [VirtqueueBuf.span, VringDesc.buf, Span.Has] at inside
    cases area <;> simp only [Rings.area, diskRings, Span.Has] <;> omega

theorem polledDisk_run
    : Run (ProtocolStep (virtioBlkOps nullDisk) demoRam quietDriver diskLayout) idleDisk
        [.driver, .notify 0 4, .driver] polledDisk := by
  have placed : diskRings.Holds idleDisk.guest.ram (idleDisk.guest.driver 0).posted.length
      diskChain := by
    refine ⟨by decide +kernel, ?_⟩
    decide +kernel
  have posted : ProtocolStep (virtioBlkOps nullDisk) demoRam quietDriver diskLayout idleDisk
      .driver postedDisk :=
    .driver (.publish rfl (by decide) diskChain_formed placed)
  have polled : ProtocolStep (virtioBlkOps nullDisk) demoRam quietDriver diskLayout answeredDisk
      .driver polledDisk :=
    .driver (.poll rfl (by decide +kernel))
  exact ((Run.single posted).append (.single (.notify 0 4))).append (.single polled)

/-- The protocol on that run, in which the driver reads the answer to its request. -/
theorem virtqueue_in_order_answered
    : (polledDisk.guest.driver 0).seen = [(0, 1)]
      ∧ (polledDisk.guest.driver 0).seen.map Prod.fst
        <+: (polledDisk.guest.driver 0).posted.map PostedChain.head := by
  refine ⟨by decide +kernel, ?_⟩
  exact (virtqueue_in_order _ _ _ nullDisk_realized demoRam quietDriver diskLayout
    diskLayout_apart (fun _ _ => .refl) idleDisk idleDisk_enabled _ _ polledDisk_run 0 diskRings
    rfl).2.2.1

end Modvm.Virtio
