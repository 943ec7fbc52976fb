import Modvm.Virtio.Access
import Modvm.Virtio.Confinement

/-! The queue registers of the VirtIO-PCI transport say what the core does. -/

namespace Modvm.Virtio

open Modvm.Core Modvm.Lib Modvm.Hw

variable {D F : Type}

/-- `enable` is the core's flag, `size` is acceptable, and while enabled size and addresses are the
core's; read-only fields are initial.
-/
structure VirtioPciQueueCfg.Agrees (regs : VirtioPciQueueCfg) (vq : Virtqueue) : Prop where
  enable : regs.enable = if vq.enabled then 1 else 0
  sizePower : regs.size.isPowerOfTwo
  sizeBound : 1 ≤ regs.size ∧ regs.size ≤ vq.maxSize
  setup : vq.enabled = true
    → vq.queueSize = regs.size ∧ vq.RingsAt regs.desc regs.avail regs.used
  notifyOff : regs.notifyOff = 0
  msixVector : regs.msixVector = 0xffff

def PciAgrees (w : World D F VirtioPciCtx) : Prop :=
  ∀ q < w.vdev.nrVqs, (w.transport.queues q).Agrees (w.queue q)

/-- Every queue has a maximum that its size register can hold. -/
def MaximaFit {T : Type} (w : World D F T) : Prop :=
  ∀ q < w.vdev.nrVqs, (w.queue q).maxSize.isPowerOfTwo ∧ (w.queue q).maxSize ≤ 2 ^ 15

def PciStep (ops : VirtioDeviceOps D F VirtioPciCtx) (ram : RamMap) (env : Env D)
    : World D F VirtioPciCtx → GuestWrite → World D F VirtioPciCtx → Prop :=
  Performs fun w write =>
    virtioPciBar0Write ops ram env write.fuel write.offset write.val.toNat write.size.bytes w

variable {regs : VirtioPciQueueCfg} {size val : Nat} {vq : Virtqueue}
  {next w : World D F VirtioPciCtx} {ops : VirtioDeviceOps D F VirtioPciCtx}

theorem le16_store_apart {field off : Nat} (apart : field + 2 ≤ off ∨ off + size ≤ field)
    : le16 (regs.store off size val).bytes field = le16 regs.bytes field := by
  unfold le16 VirtioPciQueueCfg.store
  rw [readBytes_writeBytes_apart]
  simpa [Span.Apart] using apart

theorem le16_store (regs : VirtioPciQueueCfg) (off : Nat) (fits : val < 2 ^ 16)
    : le16 (regs.store off 2 val).bytes off = val := by
  unfold le16 VirtioPciQueueCfg.store
  rw [leNat_readBytes_writeBytes]
  exact Nat.mod_eq_of_lt fits

theorem le32_store_apart {field off : Nat} (apart : field + 4 ≤ off ∨ off + size ≤ field)
    : le32 (regs.store off size val).bytes field = le32 regs.bytes field := by
  unfold le32 VirtioPciQueueCfg.store
  rw [readBytes_writeBytes_apart]
  simpa [Span.Apart] using apart

theorem VirtioPciQueueCfg.initial_enable (maxSize : Nat)
    : (VirtioPciQueueCfg.initial maxSize).enable = 0 := by
  unfold VirtioPciQueueCfg.initial VirtioPciQueueCfg.enable
  rw [le16_store_apart (by omega), le16_store_apart (by omega)]
  simp [le16, readBytes, leNat]

theorem VirtioPciQueueCfg.Agrees.initial (disabled : vq.enabled = false)
    (power : vq.maxSize.isPowerOfTwo) (fits : vq.maxSize ≤ 2 ^ 15)
    : (VirtioPciQueueCfg.initial vq.maxSize).Agrees vq := by
  have zero : ∀ field, le16 (VirtioPciQueueCfg.mk fun _ => 0).bytes field = 0 := by
    simp [le16, readBytes, leNat]
  have size : (VirtioPciQueueCfg.initial vq.maxSize).size = vq.maxSize := by
    unfold VirtioPciQueueCfg.initial VirtioPciQueueCfg.size
    rw [le16_store_apart (by omega), le16_store _ _ (by omega)]
  have positive : 1 ≤ vq.maxSize := by
    obtain ⟨bits, same⟩ := power
    rw [same]
    exact Nat.two_pow_pos bits
  refine ⟨?_, by rwa [size], by rw [size]; exact ⟨positive, Nat.le_refl _⟩, ?_, ?_, ?_⟩
  · rw [disabled]
    rfl
  · intro enabled
    rw [disabled] at enabled
    cases enabled
  · unfold VirtioPciQueueCfg.initial VirtioPciQueueCfg.notifyOff
    rw [le16_store_apart (by omega), le16_store_apart (by omega), zero]
  · unfold VirtioPciQueueCfg.initial VirtioPciQueueCfg.msixVector
    rw [le16_store _ _ (by omega)]

theorem VirtioPciQueueCfg.Agrees.congr {before after : Virtqueue} (same : before.SameSetup after)
    (agrees : regs.Agrees before)
    : regs.Agrees after := by
  refine ⟨same.enabled ▸ agrees.enable, agrees.sizePower, same.maxSize ▸ agrees.sizeBound, ?_,
    agrees.notifyOff, agrees.msixVector⟩
  intro enabled
  obtain ⟨size, rings⟩ := agrees.setup (same.enabled ▸ enabled)
  refine ⟨same.queueSize.trans size, ?_⟩
  unfold Virtqueue.RingsAt at *
  rwa [same.descTable, same.availRing, same.usedRing]

theorem VirtioPciQueueCfg.Agrees.disabled (agrees : regs.Agrees vq) (off : regs.enable = 0)
    : vq.enabled = false := by
  have enable := agrees.enable
  rw [off] at enable
  cases on : vq.enabled with
  | false => rfl
  | true =>
    rw [on] at enable
    cases enable

theorem VirtioPciQueueCfg.Agrees.replace {before after : Virtqueue} (agrees : regs.Agrees before)
    (off : before.enabled = false) (stillOff : after.enabled = false)
    (maximum : after.maxSize = before.maxSize)
    : regs.Agrees after := by
  refine ⟨?_, agrees.sizePower, maximum ▸ agrees.sizeBound, ?_, agrees.notifyOff,
    agrees.msixVector⟩
  · rw [stillOff, ← off]
    exact agrees.enable
  · intro enabled
    rw [stillOff] at enabled
    cases enabled

theorem VirtioPciQueueCfg.Agrees.storeAddress (agrees : regs.Agrees vq)
    (disabled : vq.enabled = false) {off : Nat} (above : 8 ≤ off) (size val : Nat)
    : (regs.store off size val).Agrees vq := by
  have kept : ∀ {field : Nat}, field + 2 ≤ 8
      → le16 (regs.store off size val).bytes field = le16 regs.bytes field :=
    fun low => le16_store_apart (by omega)
  refine ⟨?_, ?_, ?_, ?_, ?_, ?_⟩
  · exact (kept (by omega)).trans agrees.enable
  · unfold VirtioPciQueueCfg.size
    rw [kept (by omega)]
    exact agrees.sizePower
  · unfold VirtioPciQueueCfg.size
    rw [kept (by omega)]
    exact agrees.sizeBound
  · intro enabled
    rw [disabled] at enabled
    cases enabled
  · exact (kept (by omega)).trans agrees.notifyOff
  · exact (kept (by omega)).trans agrees.msixVector

theorem VirtioPciQueueCfg.Agrees.storeSize (agrees : regs.Agrees vq) (disabled : vq.enabled = false)
    (positive : 0 < val) (power : val.isPowerOfTwo) (bound : val ≤ vq.maxSize) (fits : val < 2 ^ 16)
    : (regs.store 0 2 val).Agrees vq := by
  have size : (regs.store 0 2 val).size = val := le16_store regs 0 fits
  refine ⟨?_, by rwa [size], by rw [size]; exact ⟨positive, bound⟩, ?_, ?_, ?_⟩
  · exact (le16_store_apart (by omega)).trans agrees.enable
  · intro enabled
    rw [disabled] at enabled
    cases enabled
  · exact (le16_store_apart (by omega)).trans agrees.notifyOff
  · exact (le16_store_apart (by omega)).trans agrees.msixVector

theorem VirtioPciQueueCfg.Agrees.storeEnable {before after : Virtqueue}
    (agrees : regs.Agrees before) (enabled : after.enabled = true)
    (maximum : after.maxSize = before.maxSize) (size : after.queueSize = regs.size)
    (rings : after.RingsAt regs.desc regs.avail regs.used)
    : (regs.store 4 2 1).Agrees after := by
  have kept16 : ∀ {field : Nat}, field + 2 ≤ 4 ∨ 6 ≤ field
      → le16 (regs.store 4 2 1).bytes field = le16 regs.bytes field :=
    fun apart => le16_store_apart (by omega)
  have sameSize : (regs.store 4 2 1).size = regs.size := kept16 (by omega)
  refine ⟨?_, sameSize ▸ agrees.sizePower, ?_, ?_, ?_, ?_⟩
  · rw [enabled]
    exact le16_store regs 4 (by omega)
  · rw [maximum]
    exact agrees.sizeBound
  · intro _
    exact ⟨size, rings⟩
  · exact (kept16 (by omega)).trans agrees.notifyOff
  · exact (kept16 (by omega)).trans agrees.msixVector

structure SameMaxima {T : Type} (w next : World D F T) : Prop where
  count : next.vdev.nrVqs = w.vdev.nrVqs
  maxSize : ∀ q, (next.queue q).maxSize = (w.queue q).maxSize

theorem MaximaFit.congr {T : Type} {w next : World D F T} (same : SameMaxima w next)
    (fit : MaximaFit w)
    : MaximaFit next := by
  intro q inside
  rw [same.maxSize]
  exact fit q (same.count ▸ inside)

theorem Notified.pciQueues {before after : VirtioPciCtx} (notified : Notified before after)
    : after.queues = before.queues := by
  induction notified with
  | refl => rfl
  | tail _ step ih =>
    rcases step with rfl | rfl
    · exact ih
    · exact ih

/-- A write that does not reset keeps the agreement, the maxima, and registers of enabled queues. -/
structure PciKeeps (w next : World D F VirtioPciCtx) : Prop where
  maxima : SameMaxima w next
  agrees : PciAgrees w → PciAgrees next
  locked : ∀ q, (w.transport.queues q).enable ≠ 0
    → next.transport.queues q = w.transport.queues q

theorem PciKeeps.refl (w : World D F VirtioPciCtx)
    : PciKeeps w w :=
  ⟨⟨rfl, fun _ => rfl⟩, id, fun _ _ => rfl⟩

theorem PciKeeps.undisturbed (frame : Undisturbed w next)
    : PciKeeps w next := by
  refine ⟨⟨frame.count, fun q => (frame.setup q).maxSize⟩, ?_, ?_⟩
  · intro agrees q inside
    rw [frame.transport.pciQueues]
    exact (agrees q (frame.count ▸ inside)).congr (frame.setup q)
  · intro q _
    rw [frame.transport.pciQueues]

theorem PciKeeps.elsewhere (queues : next.vdev.vqs = w.vdev.vqs)
    (count : next.vdev.nrVqs = w.vdev.nrVqs)
    (registers : next.transport.queues = w.transport.queues)
    : PciKeeps w next := by
  have same : ∀ q, next.queue q = w.queue q := fun q => congrFun queues q
  refine ⟨⟨count, fun q => by rw [same]⟩, ?_, fun q _ => by rw [registers]⟩
  intro agrees q inside
  rw [registers, same]
  exact agrees q (count ▸ inside)

theorem PciKeeps.setBoth {q : Nat} (core : next.vdev = (w.setQueue q vq).vdev)
    (registers : next.transport.queues = Function.update w.transport.queues q regs)
    (off : (w.transport.queues q).enable = 0) (maximum : vq.maxSize = (w.queue q).maxSize)
    (here : (w.transport.queues q).Agrees (w.queue q) → regs.Agrees vq)
    : PciKeeps w next := by
  have self : next.queue q = vq := by simp [World.queue, core, World.setQueue]
  have other : ∀ p, p ≠ q → next.queue p = w.queue p := by
    intro p different
    simp [World.queue, core, World.setQueue, different]
  have count : next.vdev.nrVqs = w.vdev.nrVqs := by rw [core]; rfl
  refine ⟨⟨count, ?_⟩, ?_, ?_⟩
  · intro p
    by_cases same : p = q
    · rw [same, self, maximum]
    · rw [other p same]
  · intro agrees p inside
    rw [registers]
    by_cases same : p = q
    · rw [same, self, Function.update_self]
      exact here (agrees q (same ▸ count ▸ inside))
    · rw [other p same, Function.update_of_ne same]
      exact agrees p (count ▸ inside)
  · intro p on
    have different : p ≠ q := by
      rintro rfl
      exact on off
    rw [registers, Function.update_of_ne different]

theorem pciStoreQueue_keeps {w : World D F VirtioPciCtx} {q off size val : Nat}
    (disabled : (w.transport.queues q).enable = 0)
    (here : (w.transport.queues q).Agrees (w.queue q)
      → ((w.transport.queues q).store off size val).Agrees (w.queue q))
    : PciKeeps w (pciStoreQueue q off size val w) := by
  have same : w.vdev = (w.setQueue q (w.queue q)).vdev := by
    simp [World.setQueue, World.queue]
  exact .setBoth same rfl disabled rfl here

theorem pciEnableQueue_keeps {ram : RamMap} {q : Nat} (disabled : (w.transport.queues q).enable = 0)
    : PciKeeps w (pciEnableQueue ram q 4 2 1 w) := by
  unfold pciEnableQueue
  dsimp only
  split
  · exact .refl w
  · rename_i sized setSize
    obtain ⟨off, rfl, -⟩ := virtqueueSetSize_ok setSize
    split
    · -- The size was taken over, the registers are as before.
      refine .setBoth rfl (Function.update_eq_self q w.transport.queues).symm disabled rfl ?_
      exact fun agrees => agrees.replace off off rfl
    · rename_i enabled setAddrs
      obtain ⟨on, size, maximum, -, rings⟩ := virtqueueSetAddrs_ok setAddrs
      have core : ((w.setQueue q { w.queue q with queueSize := (w.transport.queues q).size }
          ).setQueue q enabled).vdev = (w.setQueue q enabled).vdev := by
        simp [World.setQueue]
      refine .setBoth core rfl disabled maximum ?_
      exact fun agrees => agrees.storeEnable on maximum size rings

theorem queueAccessAllowed_control {off : Nat} (allowed : queueAccessAllowed off size = true)
    : off < 8 → size = 2 ∧ off % 2 = 0 := by
  intro low
  have high : ¬ 8 ≤ off := by omega
  simpa [queueAccessAllowed, low] using allowed

theorem pciWriteQueue_keeps (ram : RamMap) (off val : Nat) (fits : val < 2 ^ (8 * size))
    (w : World D F VirtioPciCtx)
    : PciKeeps w (pciWriteQueue ram off val size w) := by
  unfold pciWriteQueue
  dsimp only
  split
  · exact .refl w
  split
  · exact .refl w
  rename_i allowed
  split
  · exact .refl w
  rename_i off0
  have disabled : (w.transport.queues w.transport.commonCfg.queueSelect).enable = 0 := by
    simpa using off0
  split
  · exact .refl w
  split
  · exact .refl w
  rename_i validSize
  -- Which field it is, and therefore how wide the access, follows from the alignment rule.
  have field : (off = 0 ∧ size = 2) ∨ (off = 4 ∧ size = 2) ∨ 8 ≤ off := by
    have control := queueAccessAllowed_control (by simpa using allowed)
    omega
  split
  · rename_i enable
    subst enable
    split
    · exact .refl w
    · rename_i one
      obtain ⟨-, rfl⟩ : 4 = 4 ∧ size = 2 := by omega
      obtain rfl : val = 1 := by simpa using one
      exact pciEnableQueue_keeps disabled
  · rename_i notEnable
    refine pciStoreQueue_keeps disabled ?_
    intro agrees
    have coreOff := agrees.disabled disabled
    rcases field with ⟨rfl, rfl⟩ | ⟨rfl, -⟩ | address
    · simp only [true_and, not_or, Nat.not_lt, Bool.not_eq_true] at validSize
      obtain ⟨nonzero, power, bound⟩ := validSize
      have positive := Nat.pos_of_ne_zero nonzero
      exact agrees.storeSize coreOff positive ((notPowerOfTwo_eq_false_iff positive).mp power)
        bound fits
    · exact absurd rfl notEnable
    · exact agrees.storeAddress coreOff address size val

theorem pciReset_agrees (ops : VirtioDeviceOps D F VirtioPciCtx) (fit : MaximaFit w)
    : let next := (virtioDeviceSetStatus ops 0 w).setTransport
        (w.transport.reset (resetDevice w.vdev))
      PciAgrees next ∧ SameMaxima w next := by
  intro next
  have core : next.vdev = resetDevice w.vdev := virtioDeviceSetStatus_zero ops w
  have maximum : ∀ q, (next.queue q).maxSize = (w.queue q).maxSize := by
    intro q
    simp only [World.queue, core, resetDevice]
    split <;> rfl
  have count : next.vdev.nrVqs = w.vdev.nrVqs := by rw [core]; rfl
  refine ⟨?_, count, maximum⟩
  intro q inside
  rw [count] at inside
  have registers : next.transport.queues q
      = .initial ((resetDevice w.vdev).vqs q).maxSize := if_pos inside
  obtain ⟨power, bound⟩ := fit q inside
  rw [← maximum] at power bound
  rw [registers, ← core]
  refine .initial ?_ power bound
  rw [core]
  exact resetDevice_disabled w.vdev inside

theorem pciWriteCommon_keeps (ops : VirtioDeviceOps D F VirtioPciCtx) (offset : Nat)
    (fits : val < 2 ^ (8 * size)) (w : World D F VirtioPciCtx)
    (noReset : ¬ (offset = 20 ∧ size = 1 ∧ val = 0))
    : PciKeeps w (pciWriteCommon ops offset val size w) := by
  unfold pciWriteCommon
  dsimp only
  split
  · exact .refl w
  rename_i allowed
  split
  · unfold virtioDeviceSetFeatures
    split
    · exact .refl w
    · exact .elsewhere rfl rfl rfl
  split
  · rename_i byte
    subst byte
    have status : offset = 20 := by simpa [commonAccessAllowed] using allowed
    have nonzero : val ≠ 0 := fun zero => noReset ⟨status, rfl, zero⟩
    rw [if_neg nonzero]
    have kept : BitVec.ofNat 8 val ≠ 0 := by
      intro zero
      have value := congrArg BitVec.toNat zero
      rw [BitVec.toNat_ofNat, Nat.mod_eq_of_lt fits] at value
      exact nonzero value
    obtain ⟨queues, count, transport⟩ := virtioDeviceSetStatus_queues ops kept w
    exact .elsewhere queues count (by rw [transport])
  · exact .elsewhere rfl rfl rfl

theorem virtioPciBar0Write_keeps {keeps : F → F → Prop} (served : Served ops keeps) (ram : RamMap)
    (env : Env D) (write : GuestWrite) (noReset : ¬ write.IsPciReset) (w : World D F VirtioPciCtx)
    : PciKeeps w (virtioPciBar0Write ops ram env write.fuel write.offset write.val.toNat
        write.size.bytes w) := by
  unfold virtioPciBar0Write
  split
  · split
    · exact pciWriteQueue_keeps ram _ _ write.val.isLt w
    · refine pciWriteCommon_keeps ops _ write.val.isLt w ?_
      rintro ⟨status, byte, zero⟩
      refine noReset ⟨status, ?_, zero⟩
      revert byte
      cases write.size <;> decide
  split
  · dsimp only
    split
    · exact .undisturbed (served.notify ram env write.fuel _ w).undisturbed
    · exact .refl w
  split
  · rw [served.noWriteConfig]
    exact .refl w
  · exact .refl w

theorem pciStep_agrees {keeps : F → F → Prop} (served : Served ops keeps) {ram : RamMap}
    {env : Env D} {write : GuestWrite} (step : PciStep ops ram env w write next)
    (inv : PciAgrees w ∧ MaximaFit w)
    : PciAgrees next ∧ MaximaFit next := by
  obtain ⟨agrees, fit⟩ := inv
  subst step
  by_cases reset : write.IsPciReset
  · obtain ⟨agreesAfter, maxima⟩ := pciReset_agrees ops fit
    dsimp only
    rw [virtioPciBar0Write_reset reset]
    exact ⟨agreesAfter, fit.congr maxima⟩
  · have harmless := virtioPciBar0Write_keeps served ram env write reset w
    exact ⟨harmless.agrees agrees, fit.congr harmless.maxima⟩

theorem virtioPciRealize_agrees {vdev : VirtioDevice} {frontend : F}
    (realized : Realized ops vdev frontend) (place : VirtioPciPlace) (guest : Guest D)
    : PciAgrees (virtioPciRealize place guest vdev frontend)
      ∧ MaximaFit (virtioPciRealize place guest vdev frontend) := by
  have fit : MaximaFit (virtioPciRealize place guest vdev frontend) := by
    intro q inside
    obtain ⟨size, small, created⟩ := realized.fresh.created q inside
    obtain ⟨-, -, -, maximum, -, -, positive, power⟩ := virtqueueCreate_off created
    have same : ((virtioPciRealize place guest vdev frontend).queue q).maxSize = size := maximum
    rw [same]
    exact ⟨(notPowerOfTwo_eq_false_iff positive).mp power, small⟩
  refine ⟨?_, fit⟩
  intro q inside
  obtain ⟨size, -, created⟩ := realized.fresh.created q inside
  obtain ⟨power, bound⟩ := fit q inside
  have registers : (virtioPciRealize place guest vdev frontend).transport.queues q
      = .initial (vdev.vqs q).maxSize := if_pos inside
  rw [registers]
  exact .initial (virtqueueCreate_off created).1 power bound

/-- In every state that BAR 0 writes reach, under any guest, the registers of every queue agree with
the core, and those of an enabled queue stay until the guest writes 0 to `device_status`.
-/
theorem pci_agrees (ops : VirtioDeviceOps D F VirtioPciCtx) (vdev : VirtioDevice)
    (frontend : F) (realized : Realized ops vdev frontend) (ram : RamMap) (env : Env D)
    (place : VirtioPciPlace) (guest : Guest D) (writes : List GuestWrite)
    (w : World D F VirtioPciCtx)
    (run : Run (PciStep ops ram env) (virtioPciRealize place guest vdev frontend) writes w)
    : PciAgrees w
      ∧ ∀ more later, Run (PciStep ops ram env) w more later
        → (∀ write ∈ more, ¬ write.IsPciReset)
        → ∀ q < w.vdev.nrVqs, (w.queue q).enabled = true
        → later.transport.queues q = w.transport.queues q := by
  obtain ⟨keeps, served⟩ := realized.served
  have inv : PciAgrees w ∧ MaximaFit w :=
    run.invariant (fun w => PciAgrees w ∧ MaximaFit w)
      (fun _ _ _ before step => pciStep_agrees served step before)
      (virtioPciRealize_agrees realized place guest)
  refine ⟨inv.1, ?_⟩
  intro more later rest noReset q inside enabled
  have on : (w.transport.queues q).enable ≠ 0 := by
    rw [(inv.1 q inside).enable, enabled]
    decide
  -- Registers that read enabled are locked, and stay so while they are unchanged.
  refine rest.invariant_of (fun later => later.transport.queues q = w.transport.queues q)
    ?_ noReset rfl
  rintro before write _ ordinary same rfl
  have harmless := virtioPciBar0Write_keeps served ram env write ordinary before
  exact (harmless.locked q (by rwa [same])).trans same

def pciSetup : List GuestWrite :=
  [⟨24, .word, 4, 0⟩, ⟨32, .dword, 0x1000, 0⟩, ⟨40, .qword, 0x2000, 0⟩, ⟨48, .dword, 0x3000, 0⟩,
    ⟨28, .word, 1, 0⟩]

def pciDemo (writes : List GuestWrite) : World Unit (VirtioBlkCtx Unit) VirtioPciCtx :=
  writes.foldl
    (fun w write => virtioPciBar0Write (virtioBlkOps nullDisk) demoRam stillGuest write.fuel
      write.offset write.val.toNat write.size.bytes w)
    (virtioPciRealize ⟨0, 0, 8, 1, 0⟩ ⟨fun _ => 0, ()⟩ nullDiskDevice nullDiskCtx)

theorem pciDemo_run (writes : List GuestWrite)
    : Run (PciStep (virtioBlkOps nullDisk) demoRam stillGuest)
        (virtioPciRealize ⟨0, 0, 8, 1, 0⟩ ⟨fun _ => 0, ()⟩ nullDiskDevice nullDiskCtx) writes
        (pciDemo writes) :=
  Run.foldl _ _ writes

/-- The agreement after the setup, where queue 0 is enabled with size 4. -/
theorem pci_agrees_after_setup
    : (pciDemo pciSetup).vdev.nrVqs = 1
      ∧ ((pciDemo pciSetup).queue 0).enabled = true
      ∧ ((pciDemo pciSetup).queue 0).queueSize = 4
      ∧ PciAgrees (pciDemo pciSetup) := by
  refine ⟨?_, ?_, ?_, ?_⟩
  · decide +kernel
  · decide +kernel
  · decide +kernel
  · exact (pci_agrees _ _ _ nullDisk_realized demoRam stillGuest _ _ pciSetup _
      (pciDemo_run pciSetup)).1

end Modvm.Virtio
