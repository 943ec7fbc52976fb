import Modvm.Virtio.Discipline
import Modvm.Virtio.Driver

/-! Ring accesses stay inside their mappings, although size and addresses of a queue are set by
calls that fail independently and leave pointers of earlier attempts behind.
-/

namespace Modvm.Virtio

open Modvm.Core Modvm.Lib Relation

variable {D F T ι : Type}

/-! ### Rings and their mappings -/

def Virtqueue.rings (vq : Virtqueue) : Rings :=
  ⟨vq.queueSize, ringGpa vq.descTable, ringGpa vq.availRing, ringGpa vq.usedRing⟩

def Virtqueue.pointer (vq : Virtqueue) : RingArea → Option Hva
  | .desc => vq.descTable
  | .avail => vq.availRing
  | .used => vq.usedRing

/-- The part points into one registered region that holds it, writable for the used ring. -/
def Virtqueue.Mapped (space : MemSpace) (vq : Virtqueue) (area : RingArea) : Prop :=
  ∃ hva, vq.pointer area = some hva
    ∧ hva.region ∈ space.regions
    ∧ (vq.rings.area area).Within hva.region.span
    ∧ (area = .used → hva.region.isReadonly = false)

structure Virtqueue.RingsMapped (space : MemSpace) (vq : Virtqueue) : Prop where
  positive : 1 ≤ vq.queueSize
  bounded : vq.queueSize ≤ vq.maxSize
  power : vq.queueSize.isPowerOfTwo
  mapped : ∀ area, vq.Mapped space area

/-- The fields of the three parts, each under a slot number below the size. -/
inductive Rings.Field (rings : Rings) : RingArea → Span → Prop
  | desc {index : Nat} (inside : index < rings.size)
    : rings.Field .desc ⟨rings.desc + 16 * index, 16⟩
  | availIdx : rings.Field .avail ⟨rings.avail + 2, 2⟩
  | availSlot {slot : Nat} (inside : slot < rings.size)
    : rings.Field .avail ⟨rings.avail + 4 + 2 * slot, 2⟩
  | usedIdx : rings.Field .used ⟨rings.used + 2, 2⟩
  | usedId {slot : Nat} (inside : slot < rings.size)
    : rings.Field .used ⟨rings.used + 4 + 8 * slot, 4⟩
  | usedLen {slot : Nat} (inside : slot < rings.size)
    : rings.Field .used ⟨rings.used + 4 + 8 * slot + 4, 4⟩

theorem Rings.Field.within {rings : Rings} {area : RingArea} {span : Span}
    (field : rings.Field area span)
    : span.Within (rings.area area) := by
  cases field <;> simp only [Rings.area, Span.Within] <;> omega

/-! ### What pop and push access -/

/-- One step of `virtqueue_pop` or `virtqueue_push` in bounds of the rings and sizes of `vq`. -/
inductive RingStep (env : Env D) (q : Nat) (vq : Virtqueue)
    : World D F T → World D F T → Prop
  | load (w : World D F T) {area : RingArea} {span : Span} (field : vq.rings.Field area span)
    (inside : span.Within (vq.rings.area area)) (readable : area ≠ .used)
    : RingStep env q vq w (w.load env q span.base span.size).2
  | store (w : World D F T) {span : Span} (field : vq.rings.Field .used span)
    (inside : span.Within (vq.rings.area .used)) (bytes : List Byte)
    (length : bytes.length = span.size)
    : RingStep env q vq w (w.store env q span.base bytes)
  | keep (w : World D F T) {slot : Nat} (inside : slot < vq.maxSize) (buf : VirtqueueBuf)
    : RingStep env q vq w (w.recordBuf q slot buf)
  | breakQueue (w : World D F T) : RingStep env q vq w (w.breakQueue q)
  | advanceAvail (w : World D F T) : RingStep env q vq w (w.advanceAvail q)
  | advanceUsed (w : World D F T) : RingStep env q vq w (w.advanceUsed q)
  | pushed (w : World D F T) (descIdx len : Nat)
    : RingStep env q vq w (w.record q (.push descIdx len))

abbrev RingSteps (env : Env D) (q : Nat) (vq : Virtqueue)
    : World D F T → World D F T → Prop :=
  ReflTransGen (RingStep env q vq)

section
variable {ram : RamMap} {env : Env D} {q : Nat} {vq : Virtqueue} {w : World D F T}

theorem RingStep.read {area : RingArea} {base size : Nat}
    (field : vq.rings.Field area ⟨base, size⟩) (readable : area ≠ .used)
    : RingStep env q vq w (w.load env q base size).2 :=
  .load w field field.within readable

theorem RingStep.write {base size : Nat} (field : vq.rings.Field .used ⟨base, size⟩)
    {bytes : List Byte} (length : bytes.length = size)
    : RingStep env q vq w (w.store env q base bytes) :=
  .store w field field.within bytes length

theorem popDesc_ringSteps {chain : VirtqueueChain} {writable : Bool} {index : Nat}
    (setup : vq.SameSetup (w.queue q)) (inside : index < vq.queueSize)
    (room : chain.nrBufs < vq.maxSize)
    : RingSteps env q vq w (popDesc ram env q chain writable index w).2 := by
  have fetched : RingSteps env q vq w
      (w.load env q (ringGpa (w.queue q).descTable + 16 * index) 16).2 := by
    rw [setup.descTable]
    exact .single (.read (.desc inside) (by decide))
  unfold popDesc
  dsimp only
  split
  · exact fetched
  split
  · exact fetched
  split
  · exact fetched.tail (.keep _ room _)
  · exact fetched.tail (.keep _ room _)

theorem popDesc_setup {chain after : VirtqueueChain} {writable flag : Bool} {index : Nat}
    {next : Option Nat} {between : World D F T} (setup : vq.SameSetup (w.queue q))
    (popped : popDesc ram env q chain writable index w = (.ok (after, flag, next), between))
    : vq.SameSetup (between.queue q) := by
  obtain ⟨-, -, -, rfl, -⟩ := popDesc_ok popped
  unfold afterDesc World.recordBuf
  rw [World.queue_setQueue_self]
  exact ⟨setup.queueSize, setup.maxSize, setup.enabled, setup.descTable, setup.availRing,
    setup.usedRing⟩

/-- The walk stays in bounds: an index is checked before it is used. Induction on the slots left. -/
theorem popWalk_ringSteps {room : Nat} {chain : VirtqueueChain} {writable : Bool} {index : Nat}
    (setup : vq.SameSetup (w.queue q)) (slots : chain.nrBufs + room ≤ vq.maxSize)
    : RingSteps env q vq w (popWalk ram env q room chain writable index w).2 := by
  induction room generalizing chain writable index w with
  | zero =>
    unfold popWalk
    split <;> exact .refl
  | succ room ih =>
    unfold popWalk
    rw [setup.queueSize]
    split
    · exact .refl
    have first : RingSteps env q vq w (popDesc ram env q chain writable index w).2 :=
      popDesc_ringSteps setup (by omega) (by omega)
    split
    · rename_i failed
      rwa [failed] at first
    · rename_i finished
      rwa [finished] at first
    · rename_i longer flag next between more
      have kept := popDesc_setup setup more
      obtain ⟨rfl, -⟩ := popDesc_ok more
      have count := (chain.add_fields (fetchedDesc env q index w).buf.isWrite
        (fetchedDesc env q index w).len).2.2
      rw [more] at first
      exact first.trans (ih kept (by omega))

theorem virtqueuePop_ringSteps (positive : 0 < (w.queue q).queueSize)
    (bounded : (w.queue q).queueSize ≤ (w.queue q).maxSize)
    : RingSteps env q (w.queue q) w (virtqueuePop ram env q w).2 := by
  unfold virtqueuePop
  dsimp only
  split
  · exact .refl
  split
  · exact .refl
  have index : RingSteps env q (w.queue q) w
      (w.loadLe env q (ringGpa (w.queue q).availRing + 2) 2).2 :=
    .single (.read .availIdx (by decide))
  split
  · exact index
  split
  · exact index.tail (.breakQueue _)
  have head := index.tail
    (.read (.availSlot (Nat.mod_lt (w.queue q).lastAvailIdx positive)) (by decide))
  have slots : 0 + (w.queue q).queueSize ≤ (w.queue q).maxSize := by omega
  split
  · rename_i walked
    have walk := congrArg Prod.snd walked ▸ popWalk_ringSteps (.refl _) slots
    exact (head.trans walk).tail (.breakQueue _)
  · rename_i walked
    have walk := congrArg Prod.snd walked ▸ popWalk_ringSteps (.refl _) slots
    exact (head.trans walk).tail (.advanceAvail _)

theorem virtqueuePush_ringSteps (positive : 0 < (w.queue q).queueSize) (descIdx len : Nat)
    : RingSteps env q (w.queue q) w (virtqueuePush env q descIdx len w) := by
  have slot := Nat.mod_lt (w.queue q).lastUsedIdx positive
  unfold virtqueuePush
  dsimp only
  split
  · exact .refl
  -- the used ring is where it was before the element was written and the index advanced
  have element : RingSteps env q (w.queue q) w (writeUsedElem env q descIdx len w) :=
    (ReflTransGen.single (.write (.usedId slot) (toLe_length ..))).tail
      (.write (.usedLen slot) (toLe_length ..))
  have ring : (((writeUsedElem env q descIdx len w).advanceUsed q).queue q).usedRing
      = (w.queue q).usedRing := by
    unfold World.advanceUsed
    rw [World.queue_setQueue_self]
    rfl
  have published : RingStep env q (w.queue q) ((writeUsedElem env q descIdx len w).advanceUsed q)
      (publishUsed env q ((writeUsedElem env q descIdx len w).advanceUsed q)) := by
    unfold publishUsed
    dsimp only
    rw [ring]
    exact .write .usedIdx (toLe_length ..)
  exact ((element.tail (.advanceUsed _)).tail published).tail (.pushed _ _ _)

end

/-! ### The invariant of a queue -/

/-- Sizes are powers of two, and the parts of an enabled queue are mapped for its size. -/
structure Virtqueue.Sound (space : MemSpace) (vq : Virtqueue) : Prop where
  maximum : vq.maxSize.isPowerOfTwo
  power : vq.queueSize.isPowerOfTwo
  bounded : vq.queueSize ≤ vq.maxSize
  mapped : vq.enabled = true → ∀ area, vq.Mapped space area

namespace Virtqueue.Sound

variable {space : MemSpace} {ram : RamMap} {vq after : Virtqueue}

theorem ringsMapped (sound : vq.Sound space) (enabled : vq.enabled = true)
    : vq.RingsMapped space :=
  ⟨Nat.pos_of_isPowerOfTwo sound.power, sound.bounded, sound.power, sound.mapped enabled⟩

theorem create {allocated : Bool} {size : Nat} (created : virtqueueCreate allocated size = some vq)
    : vq.Sound space := by
  obtain ⟨off, -, queueSize, maxSize, -, -, positive, power⟩ := virtqueueCreate_off created
  have valid := (notPowerOfTwo_eq_false_iff positive).mp power
  refine ⟨maxSize ▸ valid, queueSize ▸ valid, by omega, ?_⟩
  intro enabled
  rw [off] at enabled
  cases enabled

theorem congr (sound : vq.Sound space) (same : vq.SameSetup after)
    : after.Sound space := by
  refine ⟨same.maxSize ▸ sound.maximum, same.queueSize ▸ sound.power, ?_, ?_⟩
  · rw [same.queueSize, same.maxSize]
    exact sound.bounded
  · intro enabled area
    have mapped := sound.mapped (same.enabled ▸ enabled) area
    unfold Virtqueue.Mapped Virtqueue.pointer Virtqueue.rings at *
    rwa [same.queueSize, same.descTable, same.availRing, same.usedRing]

theorem setSize (sound : vq.Sound space) {size : Nat}
    (set : virtqueueSetSize vq size = .ok after)
    : after.Sound space := by
  obtain ⟨off, rfl, positive, power, bounded⟩ := virtqueueSetSize_ok set
  refine ⟨sound.maximum, (notPowerOfTwo_eq_false_iff positive).mp power, bounded, ?_⟩
  intro enabled
  rw [off] at enabled
  cases enabled

theorem setAddrs (sound : vq.Sound ram.space) {descGpa availGpa usedGpa : Nat}
    (set : virtqueueSetAddrs ram vq descGpa availGpa usedGpa = .ok after)
    : after.Sound ram.space := by
  unfold virtqueueSetAddrs at set
  split at set
  · cases set
  dsimp only at set
  split at set
  · rename_i desc avail used descMapped availMapped usedMapped
    obtain rfl := Except.ok.inj set
    refine ⟨sound.maximum, sound.power, sound.bounded, ?_⟩
    intro _ area
    have range : ∀ {gpa len : Nat} {write : Bool} {hva : Hva},
        memMapRange ram.space gpa len write = some hva
          → hva.region ∈ ram.space.regions
            ∧ (Span.mk hva.gpa len).Within hva.region.span
            ∧ (write = true → hva.region.isReadonly = false) := by
      intro gpa len write hva mapped
      obtain ⟨member, rfl, -, -, -, within, writable⟩ :=
        memMapChunk_sound (memMapRange_sound mapped)
      exact ⟨member, within, writable⟩
    cases area with
    | desc =>
      obtain ⟨member, within, -⟩ := range descMapped
      exact ⟨desc, rfl, member, within, fun other => by cases other⟩
    | avail =>
      obtain ⟨member, within, -⟩ := range availMapped
      exact ⟨avail, rfl, member, within, fun other => by cases other⟩
    | used =>
      obtain ⟨member, within, writable⟩ := range usedMapped
      exact ⟨used, rfl, member, within, fun _ => writable rfl⟩
  · cases set

theorem disable (sound : vq.Sound space)
    : (virtqueueDisable vq).Sound space :=
  ⟨sound.maximum, sound.power, sound.bounded, fun enabled => by cases enabled⟩

theorem reset (sound : vq.Sound space)
    : (virtqueueReset vq).Sound space :=
  ⟨sound.maximum, sound.maximum, Nat.le_refl _, fun enabled => by cases enabled⟩

end Virtqueue.Sound

/-! ### Every run -/

def QueuesSound (space : MemSpace) (w : World D F T) : Prop :=
  ∀ q < w.vdev.nrVqs, (w.queue q).Sound space

theorem QueuesSound.setQueue {space : MemSpace} {w : World D F T} (sound : QueuesSound space w)
    {q : Nat} {vq : Virtqueue} (kept : (w.queue q).Sound space → vq.Sound space)
    : QueuesSound space (w.setQueue q vq) := by
  intro p inside
  by_cases here : p = q
  · subst here
    rw [World.queue_setQueue_self]
    exact kept (sound p inside)
  · rw [World.queue_setQueue_other w vq here]
    exact sound p inside

/-- What a handler does to the queues: it pops, it pushes, and it leaves them alone. -/
inductive HandlerStep (ram : RamMap) (env : Env D) (w : World D F T) : World D F T → Prop
  | pop (q : Nat) : HandlerStep ram env w (virtqueuePop ram env q w).2
  | push (q descIdx len : Nat) : HandlerStep ram env w (virtqueuePush env q descIdx len w)
  | elsewhere {next : World D F T} (queues : next.vdev.vqs = w.vdev.vqs)
    (count : next.vdev.nrVqs = w.vdev.nrVqs)
    : HandlerStep ram env w next

abbrev HandlerSteps (ram : RamMap) (env : Env D) : World D F T → World D F T → Prop :=
  ReflTransGen (HandlerStep ram env)

section
variable [VirtioTransport T] {ram : RamMap} {env : Env D} {q : Nat} {keeps : F → F → Prop}
  {wires : T → T → Prop} {ops : VirtioDeviceOps D F T} {w next : World D F T}

theorem HandlerStep.fail
    : HandlerStep ram env w (virtioDeviceFail w) := by
  refine .elsewhere ?_ ?_ <;> rw [virtioDeviceFail_vdev]

theorem SessionStep.handlerSteps (step : SessionStep ram env q keeps w next)
    : HandlerSteps ram env w next := by
  have pop : HandlerSteps ram env w (virtqueuePop ram env q w).2 := .single (.pop q)
  have transferred : ∀ {allowed : Activity → Prop} {after served : World D F T},
      Transfers env q allowed keeps after served → HandlerStep ram env after served := by
    intro allowed after served transfers
    refine .elsewhere ?_ ?_ <;> rw [transfers.frame.1]
  cases step with
  | quiet ready popped => rwa [popped] at pop
  | breaks ready popped =>
    rw [popped] at pop
    exact pop.tail .fail
  | serves len ready popped transfers =>
    rw [popped] at pop
    exact (pop.tail (transferred transfers)).tail (.push q _ len)
  | drops ready popped unanswerable transfers =>
    rw [popped] at pop
    exact (pop.tail (transferred transfers)).tail .fail
  | notify => exact .single (.elsewhere rfl rfl)

theorem HandlerStep.queuesSound (step : HandlerStep ram env w next)
    (sound : QueuesSound ram.space w)
    : QueuesSound ram.space next := by
  have undisturbed : ∀ {after : World D F T}, Undisturbed w after
      → QueuesSound ram.space after := by
    intro after same q inside
    exact (sound q (same.count ▸ inside)).congr (same.setup q)
  cases step with
  | pop q => exact undisturbed (virtqueuePop_undisturbed ram env q w)
  | push q descIdx len => exact undisturbed (virtqueuePush_undisturbed env q descIdx len w)
  | elsewhere queues count =>
    intro q inside
    rw [World.queue, queues]
    exact sound q (count ▸ inside)

theorem HandlerSteps.queuesSound (steps : HandlerSteps ram env w next)
    (sound : QueuesSound ram.space w)
    : QueuesSound ram.space next := by
  induction steps with
  | refl => exact sound
  | tail _ step ih => exact step.queuesSound ih

theorem Session.queuesSound (session : Session ram env q keeps w next)
    (sound : QueuesSound ram.space w)
    : QueuesSound ram.space next := by
  induction session with
  | refl => exact sound
  | tail _ step ih => exact step.handlerSteps.queuesSound ih

theorem CoreStep.queuesSound (step : CoreStep ops ram env keeps wires w next)
    (sound : QueuesSound ram.space w)
    : QueuesSound ram.space next := by
  cases step with
  | session session => exact session.queuesSound sound
  | status nonzero =>
    rw [virtioDeviceSetStatus_nonzero ops nonzero]
    exact sound
  | features =>
    unfold virtioDeviceSetFeatures
    split <;> exact sound
  | resize set => exact sound.setQueue fun before => before.setSize set
  | enable set => exact sound.setQueue fun before => before.setAddrs set
  | disable => exact sound.setQueue fun before => before.disable
  | registers => exact sound

theorem CoreSteps.queuesSound (steps : CoreSteps ops ram env keeps wires w next)
    (sound : QueuesSound ram.space w)
    : QueuesSound ram.space next := by
  induction steps with
  | refl => exact sound
  | tail _ step ih => exact step.queuesSound ih

end

theorem QueuesSound.reset {space : MemSpace} {w : World D F T} (sound : QueuesSound space w)
    (ops : VirtioDeviceOps D F T) (transport : T)
    : QueuesSound space ((virtioDeviceSetStatus ops 0 w).setTransport transport) := by
  have core := virtioDeviceSetStatus_zero ops w
  intro q inside
  simp only [World.setTransport, World.queue, core] at inside ⊢
  have counted : q < w.vdev.nrVqs := inside
  simp only [resetDevice, if_pos counted]
  exact (sound q counted).reset

/-- An access through the transport, or a step of a handler. -/
inductive DeviceStep (access : World D F T → ι → World D F T) (ram : RamMap) (env : Env D)
    (w : World D F T)
    : World D F T → Prop
  | access (op : ι) : DeviceStep access ram env w (access w op)
  | handler {next : World D F T} (step : HandlerStep ram env w next)
    : DeviceStep access ram env w next

/-- In every reached state, an enabled queue is mapped and popping and pushing stay in bounds; a
disabled one is not accessed.
-/
def RingsConfined (access : World D F T → ι → World D F T) (ram : RamMap) (env : Env D)
    (start : World D F T)
    : Prop :=
  ∀ w, ReflTransGen (DeviceStep access ram env) start w → ∀ q < w.vdev.nrVqs,
    ((w.queue q).enabled = true
      → (w.queue q).RingsMapped ram.space
        ∧ RingSteps env q (w.queue q) w (virtqueuePop ram env q w).2
        ∧ ∀ descIdx len,
            RingSteps env q (w.queue q) w (virtqueuePush env q descIdx len w))
    ∧ ((w.queue q).enabled = false
      → virtqueuePop ram env q w = (.ok none, w)
        ∧ ∀ descIdx len, virtqueuePush env q descIdx len w = w)

theorem RingsConfined.of_core [VirtioTransport T] {access : World D F T → ι → World D F T}
    {resets : ι → Prop} {start : World D F T} {ops : VirtioDeviceOps D F T} {ram : RamMap}
    {env : Env D} {keeps : F → F → Prop} {wires : T → T → Prop}
    (core : ∀ op w, (¬ resets op ∧ CoreSteps ops ram env keeps wires w (access w op))
      ∨ (resets op ∧ ∃ transport,
          access w op = (virtioDeviceSetStatus ops 0 w).setTransport transport))
    (initial : QueuesSound ram.space start)
    : RingsConfined access ram env start := by
  intro w reached q inside
  have sound : QueuesSound ram.space w := by
    clear inside
    induction reached with
    | refl => exact initial
    | @tail before _ _ step ih =>
      cases step with
      | handler step => exact step.queuesSound ih
      | access op =>
        rcases core op before with ⟨-, steps⟩ | ⟨-, transport, reset⟩
        · exact steps.queuesSound ih
        · rw [reset]
          exact ih.reset ops transport
  constructor
  · intro enabled
    have mapped := (sound q inside).ringsMapped enabled
    exact ⟨mapped, virtqueuePop_ringSteps mapped.positive mapped.bounded,
      virtqueuePush_ringSteps mapped.positive⟩
  · intro off
    refine ⟨by simp [virtqueuePop, off], ?_⟩
    simp [virtqueuePush, off]

theorem Realized.queuesSound [VirtioTransport T] {ops : VirtioDeviceOps D F T}
    {vdev : VirtioDevice} {frontend : F} (realized : Realized ops vdev frontend)
    (space : MemSpace) {start : World D F T} (same : start.vdev = vdev)
    : QueuesSound space start := by
  intro q inside
  subst same
  obtain ⟨size, -, created⟩ := realized.fresh.created q inside
  exact .create created

/-- Ring accesses stay inside their mappings, behind either transport: whatever a guest writes, with
handlers popping and pushing in between, an enabled queue has a power of two up to its maximum as
size, and its three parts are mapped for it, each in one region of RAM, the used ring in a writable
one. So every field accessed lies in its part, under a slot number below the size, and every
snapshot goes to an allocated slot.
-/
theorem ring_accesses_confined (ram : RamMap) (env : Env D) (guest : Guest D)
    : (∀ (F : Type) (ops : VirtioDeviceOps D F VirtioMmioCtx) (vdev : VirtioDevice)
        (frontend : F), Realized ops vdev frontend
        → RingsConfined (mmioOpStep ops ram env) ram env
          (virtioMmioRealize guest vdev frontend))
      ∧ (∀ (F : Type) (ops : VirtioDeviceOps D F VirtioPciCtx) (vdev : VirtioDevice)
        (frontend : F) (place : VirtioPciPlace), Realized ops vdev frontend
        → RingsConfined (pciOpStep ops ram env) ram env
          (virtioPciRealize place guest vdev frontend)) := by
  constructor
  · intro F ops vdev frontend realized
    obtain ⟨keeps, served⟩ := realized.served
    exact .of_core (mmioOpStep_core served ram env) (realized.queuesSound ram.space rfl)
  · intro F ops vdev frontend place realized
    obtain ⟨keeps, served⟩ := realized.served
    exact .of_core (pciOpStep_core served ram env) (realized.queuesSound ram.space rfl)

theorem DeviceStep.foldl (access : World D F T → ι → World D F T) (ram : RamMap) (env : Env D)
    (start : World D F T) (ops : List ι)
    : ReflTransGen (DeviceStep access ram env) start (ops.foldl access start) := by
  induction ops generalizing start with
  | nil => exact .refl
  | cons op ops ih => exact .head (.access op) (ih (access start op))

/-- Eight slots with descriptors outside RAM; then the queue is enabled again with four. -/
def resizeSession : List MmioOp :=
  [.reg 0x038 8 0, .reg 0x080 0x20000 0, .reg 0x090 0x2000 0, .reg 0x0a0 0x3000 0,
    .reg 0x044 1 0, .reg 0x080 0x1000 0, .reg 0x044 1 0, .reg 0x044 0 0, .reg 0x038 4 0,
    .reg 0x044 1 0]

def resizedDisk : World Unit (VirtioBlkCtx Unit) VirtioMmioCtx :=
  resizeSession.foldl (mmioOpStep (virtioBlkOps nullDisk) demoRam stillGuest)
    (virtioMmioRealize ⟨fun _ => 0, ()⟩ nullDiskDevice nullDiskCtx)

/-- The rings of the disk are mapped for the size that it has now. -/
theorem ring_accesses_confined_resized
    : (resizedDisk.queue 0).queueSize = 4
      ∧ (resizedDisk.queue 0).maxSize = 128
      ∧ (resizedDisk.queue 0).RingsMapped demoRam.space := by
  have reached : ReflTransGen
      (DeviceStep (mmioOpStep (virtioBlkOps nullDisk) demoRam stillGuest) demoRam stillGuest)
      (virtioMmioRealize ⟨fun _ => 0, ()⟩ nullDiskDevice nullDiskCtx) resizedDisk :=
    DeviceStep.foldl _ _ _ _ resizeSession
  have inside : 0 < resizedDisk.vdev.nrVqs := by decide +kernel
  have enabled : (resizedDisk.queue 0).enabled = true := by decide +kernel
  refine ⟨by decide +kernel, by decide +kernel, ?_⟩
  exact (((ring_accesses_confined demoRam stillGuest _).1 _ _ _ _ nullDisk_realized _ reached
    0 inside).1 enabled).1

end Modvm.Virtio
