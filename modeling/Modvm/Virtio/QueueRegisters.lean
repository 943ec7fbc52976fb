import Modvm.Lib.Window
import Modvm.Virtio.TransportEquivalence

/-! The queue registers of both transports, in one window that a selector multiplexes. -/

namespace Modvm.Virtio

open Function Modvm.Core Modvm.Lib

variable {D F : Type}

structure PciRegisterWrite where
  off : Nat
  val : Nat
  size : Nat
deriving DecidableEq, Repr

def PciRegisterWrite.act (ram : RamMap) (write : PciRegisterWrite)
    (content : VirtioPciQueueCfg × Virtqueue)
    : VirtioPciQueueCfg × Virtqueue :=
  let regs := content.1
  let vq := content.2
  if write.off + write.size > 32 then content
  else if !queueAccessAllowed write.off write.size then content
  else if regs.enable ≠ 0 then content
  else if write.off = 6 ∨ write.off = 2 then content
  else if write.off = 0
      ∧ (write.val = 0 ∨ notPowerOfTwo write.val = true ∨ write.val > vq.maxSize) then content
  else if write.off = 4 then
    if write.val ≠ 1 then content
    else
      match virtqueueSetSize vq regs.size with
      | .error _ => content
      | .ok sized =>
          match virtqueueSetAddrs ram sized regs.desc regs.avail regs.used with
          | .error _ => (regs, sized)
          | .ok enabled => (regs.store write.off write.size write.val, enabled)
  else (regs.store write.off write.size write.val, vq)

def pciBank (w : World D F VirtioPciCtx) (q : Nat) : VirtioPciQueueCfg × Virtqueue :=
  (w.transport.queues q, w.queue q)

def setPciBank (q : Nat) (content : VirtioPciQueueCfg × Virtqueue) (w : World D F VirtioPciCtx)
    : World D F VirtioPciCtx :=
  (w.setQueue q content.2).setTransport
    { w.transport with queues := update w.transport.queues q content.1 }

theorem setPciBank_self (q : Nat) (w : World D F VirtioPciCtx)
    : setPciBank q (w.transport.queues q, w.queue q) w = w := by
  unfold setPciBank World.setQueue World.setTransport World.queue
  simp only [update_eq_self]

theorem setPciBank_refused {refused : Prop} [Decidable refused] {q : Nat}
    {w next : World D F VirtioPciCtx} {content : VirtioPciQueueCfg × Virtqueue}
    (accepted : ¬ refused → next = setPciBank q content w)
    : (if refused then w else next)
      = setPciBank q (if refused then (w.transport.queues q, w.queue q) else content) w := by
  by_cases check : refused
  · rw [if_pos check, if_pos check, setPciBank_self]
  · rw [if_neg check, if_neg check, accepted check]

theorem pciStoreQueue_eq (q off size val : Nat) (w : World D F VirtioPciCtx)
    : pciStoreQueue q off size val w
      = setPciBank q ((w.transport.queues q).store off size val, w.queue q) w := by
  unfold setPciBank pciStoreQueue World.setQueue World.setTransport World.queue
  simp only [update_eq_self]

theorem pciEnableQueue_bank (ram : RamMap) (q off size val : Nat) (w : World D F VirtioPciCtx)
    : let regs := w.transport.queues q
      pciEnableQueue ram q off size val w
      = setPciBank q (match virtqueueSetSize (w.queue q) regs.size with
        | .error _ => (regs, w.queue q)
        | .ok sized =>
          match virtqueueSetAddrs ram sized regs.desc regs.avail regs.used with
          | .error _ => (regs, sized)
          | .ok enabled => (regs.store off size val, enabled)) w := by
  intro regs
  unfold pciEnableQueue
  dsimp only
  cases virtqueueSetSize (w.queue q) (w.transport.queues q).size with
  | error => exact (setPciBank_self q w).symm
  | ok sized =>
    dsimp only
    cases virtqueueSetAddrs ram sized (w.transport.queues q).desc (w.transport.queues q).avail
      (w.transport.queues q).used with
    | error =>
      unfold setPciBank World.setTransport
      rw [update_eq_self]
      rfl
    | ok =>
      unfold setPciBank pciStoreQueue World.setQueue World.setTransport
      simp only [update_idem]
      rfl

theorem pciWriteQueue_eq (ram : RamMap) (off val size : Nat) {w : World D F VirtioPciCtx} {q : Nat}
    (selected : w.transport.commonCfg.queueSelect = q)
    : pciWriteQueue ram off val size w
      = if q < w.vdev.nrVqs then
          setPciBank q (PciRegisterWrite.act ram ⟨off, val, size⟩ (pciBank w q)) w
        else w := by
  unfold pciWriteQueue
  rw [selected]
  by_cases inside : q < w.vdev.nrVqs
  · have outside : (q ≥ w.vdev.nrVqs ∨ off + size > 32) ↔ off + size > 32 :=
      or_iff_right (Nat.not_le.mpr inside)
    rw [if_pos inside]
    simp only [outside]
    -- the checks that refuse a write come first, in the same order on both sides
    refine setPciBank_refused fun _ => setPciBank_refused fun _ => setPciBank_refused fun _ =>
      setPciBank_refused fun _ => setPciBank_refused fun _ => ?_
    split
    · refine setPciBank_refused fun _ => ?_
      exact pciEnableQueue_bank ram q off size val w
    · exact pciStoreQueue_eq q off size val w
  · rw [if_neg inside, if_pos (.inl (Nat.le_of_not_lt inside))]

/-- The guest writes the queue selector or a register of the selected queue. -/
def PciQueueWrite (write : GuestWrite) : Prop :=
  write.offset = 22 ∨ 24 ≤ write.offset ∧ write.offset < 56

instance (write : GuestWrite) : Decidable (PciQueueWrite write) :=
  inferInstanceAs (Decidable (_ ∨ _))

/-- What such a write is. The selector takes 16-bit writes only. -/
def pciDecode (write : GuestWrite) : WindowWrite Nat PciRegisterWrite :=
  if write.offset = 22 then
    if write.size = .word then .select write.val.toNat else .ignored
  else .register ⟨write.offset - 24, write.val.toNat, write.size.bytes⟩

/-- The worlds differ at most in the queues and in the queue selector. -/
def PciFrame (w next : World D F VirtioPciCtx) : Prop :=
  ∃ regs vqs cfg,
    next = { w with
      vdev := { w.vdev with vqs := vqs }
      transport := { w.transport with queues := regs, commonCfg := cfg } }
    ∧ ∀ off, off < 22 ∨ 24 ≤ off → cfg.bytes off = w.transport.commonCfg.bytes off

theorem pciFrame_equivalence : Equivalence (PciFrame (D := D) (F := F)) where
  refl w := ⟨w.transport.queues, w.vdev.vqs, w.transport.commonCfg, rfl, fun _ _ => rfl⟩
  symm := by
    rintro w _ ⟨regs, vqs, cfg, rfl, same⟩
    exact ⟨w.transport.queues, w.vdev.vqs, w.transport.commonCfg, rfl,
      fun off outside => (same off outside).symm⟩
  trans := by
    rintro w _ _ ⟨_, _, _, rfl, first⟩ ⟨regs, vqs, cfg, rfl, second⟩
    exact ⟨regs, vqs, cfg, rfl, fun off outside => (second off outside).trans (first off outside)⟩

section Window
variable (ops : VirtioDeviceOps D F VirtioPciCtx) (ram : RamMap) (env : Env D)
  {w : World D F VirtioPciCtx} {write : GuestWrite}

theorem pciPerform_selects {next : Nat} (decoded : pciDecode write = .select next)
    : pciPerform ops ram env w write
        = w.setTransport
          { w.transport with commonCfg := w.transport.commonCfg.store 22 2 next }
      ∧ next < 2 ^ 16 := by
  obtain ⟨offset, size, val, fuel⟩ := write
  unfold pciDecode at decoded
  split_ifs at decoded with selector word
  · subst selector word
    cases decoded
    exact ⟨rfl, val.isLt⟩

theorem pciPerform_ignored (decoded : pciDecode write = .ignored)
    : pciPerform ops ram env w write = w := by
  obtain ⟨offset, size, val, fuel⟩ := write
  unfold pciDecode at decoded
  split_ifs at decoded with selector word
  · subst selector
    cases size with
    | word => exact absurd rfl word
    | byte => rfl
    | dword => rfl
    | qword => rfl

theorem pciPerform_register (admitted : PciQueueWrite write) {reg : PciRegisterWrite}
    (decoded : pciDecode write = .register reg) {q : Nat}
    (selected : w.transport.commonCfg.queueSelect = q)
    : pciPerform ops ram env w write
      = if q < w.vdev.nrVqs then setPciBank q (reg.act ram (pciBank w q)) w else w := by
  obtain ⟨offset, size, val, fuel⟩ := write
  unfold pciDecode at decoded
  split_ifs at decoded with selector
  cases decoded
  have inside : 24 ≤ offset ∧ offset < 56 := admitted.resolve_left selector
  unfold pciPerform
  rw [virtioPciBar0Write_queue inside.1 inside.2]
  exact pciWriteQueue_eq ram (offset - 24) val.toNat size.bytes selected

theorem pciPerform_frame (admitted : PciQueueWrite write)
    : PciFrame w (pciPerform ops ram env w write) := by
  cases decoded : pciDecode write with
  | select next =>
    rw [(pciPerform_selects ops ram env decoded).1]
    refine ⟨w.transport.queues, w.vdev.vqs, w.transport.commonCfg.store 22 2 next, rfl, ?_⟩
    intro off outside
    refine writeBytes_outside _ _ _ ?_
    simp only [Span.Has, toLe_length]
    omega
  | register =>
    rw [pciPerform_register ops ram env admitted decoded rfl]
    split
    · exact ⟨_, _, w.transport.commonCfg, rfl, fun _ _ => rfl⟩
    · exact pciFrame_equivalence.refl w
  | ignored =>
    rw [pciPerform_ignored ops ram env decoded]
    exact pciFrame_equivalence.refl w

theorem PciFrame.nrVqs {next : World D F VirtioPciCtx} (frame : PciFrame w next)
    : next.vdev.nrVqs = w.vdev.nrVqs := by
  obtain ⟨_, _, _, rfl, -⟩ := frame
  rfl

theorem pciBank_setPciBank (q : Nat) (content : VirtioPciQueueCfg × Virtqueue)
    : pciBank (setPciBank q content w) = update (pciBank w) q content := by
  funext other
  unfold pciBank setPciBank World.queue World.setQueue World.setTransport
  by_cases here : other = q
  · subst here
    simp only [update_self]
  · simp only [update_of_ne here]

theorem PciFrame.selected_eq {next : World D F VirtioPciCtx} (frame : PciFrame w next)
    (same : pciBank w = pciBank next) (val : Nat)
    : w.setTransport { w.transport with commonCfg := w.transport.commonCfg.store 22 2 val }
      = next.setTransport
        { next.transport with commonCfg := next.transport.commonCfg.store 22 2 val } := by
  obtain ⟨regs, vqs, cfg, rfl, outside⟩ := frame
  have queues : w.transport.queues = regs := funext fun q => congrArg Prod.fst (congrFun same q)
  have virtqueues : w.vdev.vqs = vqs := funext fun q => congrArg Prod.snd (congrFun same q)
  have stored : w.transport.commonCfg.store 22 2 val = cfg.store 22 2 val := by
    refine congrArg VirtioPciGlobalCfg.mk (writeBytes_congr ?_)
    intro off elsewhere
    simp only [Span.Has, toLe_length] at elsewhere
    exact (outside off (by omega)).symm
  subst queues virtqueues
  simp only [World.setTransport, stored]

/-- The window of queue registers in BAR 0 of a device with `nrVqs` queues. -/
def pciWindow (nrVqs : Nat)
    : Window (World D F VirtioPciCtx) GuestWrite Nat PciRegisterWrite
      (VirtioPciQueueCfg × Virtqueue) where
  step write w := pciPerform ops ram env w write
  decode := pciDecode
  Admits := PciQueueWrite
  Valid w := w.vdev.nrVqs = nrVqs
  Frame := PciFrame
  selected w := w.transport.commonCfg.queueSelect
  bank := pciBank
  Live q := q < nrVqs
  act q reg content := if q < nrVqs then reg.act ram content else content
  frame := pciFrame_equivalence
  valid_step admitted valid := (pciPerform_frame ops ram env admitted).nrVqs.trans valid
  frame_step admitted _ := pciPerform_frame ops ram env admitted
  select_selected _ _ decoded := by
    obtain ⟨stored, fits⟩ := pciPerform_selects ops ram env decoded
    rw [stored]
    exact VirtioPciGlobalCfg.queueSelect_store _ fits
  select_bank _ _ decoded := by
    rw [(pciPerform_selects ops ram env decoded).1]
    rfl
  register_selected admitted _ decoded := by
    rw [pciPerform_register ops ram env admitted decoded rfl]
    split
    · rfl
    · rfl
  register_bank admitted valid decoded := by
    rw [pciPerform_register ops ram env admitted decoded rfl, valid]
    split
    · exact pciBank_setPciBank ..
    · exact (update_eq_self ..).symm
  ignored_step _ _ decoded := pciPerform_ignored ops ram env decoded
  dead outside := if_neg outside
  select_eq _ decoded frame same := by
    rw [(pciPerform_selects ops ram env decoded).1, (pciPerform_selects ops ram env decoded).1]
    exact frame.selected_eq same _

theorem PciRegisterWrite.act_address {off size : Nat} (above : 8 ≤ off) (bound : off + size ≤ 32)
    (allowed : queueAccessAllowed off size = true) (val : Nat)
    (content : VirtioPciQueueCfg × Virtqueue)
    : PciRegisterWrite.act ram ⟨off, val, size⟩ content
      = if content.1.enable ≠ 0 then content
        else (content.1.store off size val, content.2) := by
  have accepted : ¬ ((!queueAccessAllowed off size) = true) := by simp [allowed]
  have writable : ¬ (off = 6 ∨ off = 2) := by omega
  have address : ¬ (off = 0
      ∧ (val = 0 ∨ notPowerOfTwo val = true ∨ val > content.2.maxSize)) :=
    fun first => absurd first.1 (by omega)
  have other : off ≠ 4 := by omega
  unfold PciRegisterWrite.act
  rw [if_neg (Nat.not_lt.mpr bound), if_neg accepted, if_neg writable, if_neg address,
    if_neg other]

theorem PciRegisterWrite.act_halves {off : Nat} (above : 8 ≤ off) (bound : off + 8 ≤ 32)
    (aligned : off % 8 = 0) (address : BitVec 64) (content : VirtioPciQueueCfg × Virtqueue)
    : PciRegisterWrite.act ram ⟨off + 4, (highWord address).toNat, 4⟩
        (PciRegisterWrite.act ram ⟨off, (lowWord address).toNat, 4⟩ content)
      = PciRegisterWrite.act ram ⟨off, address.toNat, 8⟩ content := by
  rw [PciRegisterWrite.act_address ram (by omega) (by omega)
      (queueAccessAllowed_address (by omega) (.inl rfl) (by omega)),
    PciRegisterWrite.act_address ram above (by omega)
      (queueAccessAllowed_address above (.inl rfl) (by omega)),
    PciRegisterWrite.act_address ram above bound
      (queueAccessAllowed_address above (.inr rfl) aligned)]
  by_cases enabled : content.1.enable ≠ 0
  · simp only [if_pos enabled]
  · -- The low half leaves the queue as enabled as it was.
    have still : (content.1.store off 4 (lowWord address).toNat).enable = content.1.enable :=
      le16_store_apart (by omega)
    simp only [still, if_neg enabled]
    rw [VirtioPciQueueCfg.store_words]

theorem setPciBank_setPciBank (q : Nat) (first second : VirtioPciQueueCfg × Virtqueue)
    : setPciBank q second (setPciBank q first w) = setPciBank q second w := by
  unfold setPciBank World.setQueue World.setTransport
  simp only [update_idem]

theorem pciPerform_halves {offset : Nat} (above : 32 ≤ offset) (bound : offset + 8 ≤ 56)
    (aligned : offset % 8 = 0) (address : BitVec 64) (fuel : Nat)
    : pciPerform ops ram env
        (pciPerform ops ram env w ⟨offset, .dword, lowWord address, fuel⟩)
        ⟨offset + 4, .dword, highWord address, fuel⟩
      = pciPerform ops ram env w ⟨offset, .qword, address, fuel⟩ := by
  have reaches : ∀ (place : Nat) (size : AccessSize) (val : BitVec (8 * size.bytes))
      {q : Nat} {w : World D F VirtioPciCtx}, 32 ≤ place → place < 56
      → w.transport.commonCfg.queueSelect = q
      → pciPerform ops ram env w ⟨place, size, val, fuel⟩
        = if q < w.vdev.nrVqs then
            setPciBank q (PciRegisterWrite.act ram ⟨place - 24, val.toNat, size.bytes⟩
              (pciBank w q)) w
          else w := by
    intro place size val q w above below selected
    refine pciPerform_register ops ram env (.inr ⟨?_, below⟩) ?_ selected
    · exact Nat.le_trans (by decide) above
    · exact if_neg (show place ≠ 22 by omega)
  obtain ⟨q, selected⟩ : ∃ q, w.transport.commonCfg.queueSelect = q := ⟨_, rfl⟩
  have whole := reaches offset .qword address above (by omega) selected
  have low := reaches offset .dword (lowWord address) above (by omega) selected
  have high := fun w => @reaches (offset + 4) .dword (highWord address) q w (by omega) (by omega)
  rw [low, whole]
  by_cases inside : q < w.vdev.nrVqs
  · have behind : offset + 4 - 24 = offset - 24 + 4 := by omega
    rw [if_pos inside, if_pos inside]
    refine (high (setPciBank q _ w) selected).trans ?_
    rw [pciBank_setPciBank, update_self, setPciBank_setPciBank, behind]
    exact (if_pos inside).trans (congrArg (setPciBank q · w)
      (PciRegisterWrite.act_halves ram (by omega) (by omega) (by omega) address _))
  · rw [if_neg inside, if_neg inside, high w selected, if_neg inside]

end Window

/-- The registers of the selected queue that the guest writes. -/
def mmioQueueRegs : List MmioReg :=
  [.queueNum, .queueReady, .queueDescLow, .queueDescHigh, .queueAvailLow, .queueAvailHigh,
    .queueUsedLow, .queueUsedHigh]

structure MmioRegisterWrite where
  reg : MmioReg
  val : Nat
deriving DecidableEq, Repr

def VirtioMmioQueue.assign (regs : VirtioMmioQueue) (reg : MmioReg) (val : BitVec 32)
    : VirtioMmioQueue :=
  match reg with
  | .queueNum => { regs with num := val }
  | .queueDescLow => { regs with descLo := val }
  | .queueDescHigh => { regs with descHi := val }
  | .queueAvailLow => { regs with availLo := val }
  | .queueAvailHigh => { regs with availHi := val }
  | .queueUsedLow => { regs with usedLo := val }
  | .queueUsedHigh => { regs with usedHi := val }
  | _ => regs

def mmioEnable (ram : RamMap) (content : VirtioMmioQueue × Virtqueue)
    : VirtioMmioQueue × Virtqueue :=
  let regs := content.1
  if regs.num.toNat > 2 ^ 16 - 1 then content
  else
    match virtqueueSetSize content.2 regs.num.toNat with
    | .error _ => content
    | .ok sized =>
        match virtqueueSetAddrs ram sized (assembleGpa regs.descHi regs.descLo)
            (assembleGpa regs.availHi regs.availLo) (assembleGpa regs.usedHi regs.usedLo) with
        | .error _ => (regs, sized)
        | .ok enabled => ({ regs with ready := true }, enabled)

def MmioRegisterWrite.act (ram : RamMap) (write : MmioRegisterWrite)
    (content : VirtioMmioQueue × Virtqueue)
    : VirtioMmioQueue × Virtqueue :=
  let regs := content.1
  let vq := content.2
  if write.reg = .queueReady then
    if write.val = 0 then ({ regs with ready := false }, virtqueueDisable vq)
    else if regs.ready = false ∧ write.val = 1 then mmioEnable ram content
    else content
  else if regs.ready = false then (regs.assign write.reg (.ofNat 32 write.val), vq)
  else content

def mmioBank (w : World D F VirtioMmioCtx) (q : Nat) : VirtioMmioQueue × Virtqueue :=
  (w.transport.queues q, w.queue q)

def setMmioBank (q : Nat) (content : VirtioMmioQueue × Virtqueue) (w : World D F VirtioMmioCtx)
    : World D F VirtioMmioCtx :=
  (w.setQueue q content.2).setTransport
    { w.transport with queues := update w.transport.queues q content.1 }

theorem setMmioBank_self (q : Nat) (w : World D F VirtioMmioCtx)
    : setMmioBank q (w.transport.queues q, w.queue q) w = w := by
  unfold setMmioBank World.setQueue World.setTransport World.queue
  simp only [update_eq_self]

section Mmio
variable {w : World D F VirtioMmioCtx} {q : Nat}

theorem mmioSetQueueReg_eq (update : VirtioMmioQueue → VirtioMmioQueue)
    (selected : w.transport.queueSel.toNat = q)
    : mmioSetQueueReg update w
      = if q < w.vdev.nrVqs then
          setMmioBank q (if (w.transport.queues q).ready = false then
            (update (w.transport.queues q), w.queue q)
            else (w.transport.queues q, w.queue q)) w
        else w := by
  unfold mmioSetQueueReg
  dsimp only
  rw [selected]
  by_cases inside : q < w.vdev.nrVqs
  · rw [if_pos inside]
    by_cases disabled : (w.transport.queues q).ready = false
    · rw [if_pos ⟨inside, disabled⟩, if_pos disabled]
      unfold setMmioBank World.setQueue World.setTransport World.queue
      simp only [update_eq_self]
    · rw [if_neg (fun both => disabled both.2), if_neg disabled]
      exact (setMmioBank_self q w).symm
  · rw [if_neg inside, if_neg (fun both => inside both.1)]

theorem mmioEnableQueue_bank (ram : RamMap) (q : Nat) (w : World D F VirtioMmioCtx)
    : mmioEnableQueue ram q w = setMmioBank q (mmioEnable ram (mmioBank w q)) w := by
  unfold mmioEnableQueue mmioEnable mmioBank
  dsimp only
  split
  · exact (setMmioBank_self q w).symm
  cases virtqueueSetSize (w.queue q) (w.transport.queues q).num.toNat with
  | error => exact (setMmioBank_self q w).symm
  | ok sized =>
    dsimp only
    generalize virtqueueSetAddrs ram sized _ _ _ = result
    cases result with
    | error =>
      unfold setMmioBank World.setTransport
      rw [update_eq_self]
      rfl
    | ok =>
      unfold setMmioBank mmioSetReady World.setQueue World.setTransport
      simp only [update_idem]

theorem mmioQueueReady_eq (ram : RamMap) (val : Nat) (selected : w.transport.queueSel.toNat = q)
    : mmioQueueReady ram val w
      = if q < w.vdev.nrVqs then
          setMmioBank q (MmioRegisterWrite.act ram ⟨.queueReady, val⟩ (mmioBank w q)) w
        else w := by
  unfold mmioQueueReady
  rw [selected]
  by_cases inside : q < w.vdev.nrVqs
  · simp only [inside, true_and]
    unfold MmioRegisterWrite.act mmioBank
    rw [if_pos rfl]
    split_ifs
    · rfl
    · exact mmioEnableQueue_bank ram q w
    · exact (setMmioBank_self q w).symm
  · rw [if_neg inside, if_neg (fun both => inside both.1), if_neg (fun both => inside both.1)]

theorem virtioMmioWriteReg_queue (ops : VirtioDeviceOps D F VirtioMmioCtx) (ram : RamMap)
    (env : Env D) (fuel : Nat) {reg : MmioReg} (queueReg : reg ∈ mmioQueueRegs) (val : Nat)
    (selected : w.transport.queueSel.toNat = q)
    : virtioMmioWriteReg ops ram env fuel reg val w
      = if q < w.vdev.nrVqs then
          setMmioBank q (MmioRegisterWrite.act ram ⟨reg, val⟩ (mmioBank w q)) w
        else w := by
  have assigns : ∀ reg : MmioReg, reg ≠ .queueReady →
      mmioSetQueueReg (fun regs => regs.assign reg (.ofNat 32 val)) w
      = if q < w.vdev.nrVqs then
          setMmioBank q (MmioRegisterWrite.act ram ⟨reg, val⟩ (mmioBank w q)) w
        else w := by
    intro reg other
    rw [mmioSetQueueReg_eq _ selected, MmioRegisterWrite.act, if_neg other]
    rfl
  simp only [mmioQueueRegs, List.mem_cons, List.not_mem_nil, or_false] at queueReg
  rcases queueReg with rfl | rfl | rfl | rfl | rfl | rfl | rfl | rfl
  · exact assigns .queueNum (by decide)
  · exact mmioQueueReady_eq ram val selected
  · exact assigns .queueDescLow (by decide)
  · exact assigns .queueDescHigh (by decide)
  · exact assigns .queueAvailLow (by decide)
  · exact assigns .queueAvailHigh (by decide)
  · exact assigns .queueUsedLow (by decide)
  · exact assigns .queueUsedHigh (by decide)

def MmioQueueWrite (write : GuestWrite) : Prop :=
  ∃ reg ∈ MmioReg.queueSel :: mmioQueueRegs, MmioReg.ofOffset write.offset = some reg

instance (write : GuestWrite) : Decidable (MmioQueueWrite write) :=
  inferInstanceAs (Decidable (∃ reg ∈ MmioReg.queueSel :: mmioQueueRegs, _))

/-- What such a write is. All registers take 32-bit writes only. -/
def mmioDecode (write : GuestWrite) : WindowWrite Nat MmioRegisterWrite :=
  if write.size = .dword then
    match MmioReg.ofOffset write.offset with
    | some .queueSel => .select write.val.toNat
    | some reg => .register ⟨reg, write.val.toNat⟩
    | none => .ignored
  else .ignored

def MmioFrame (w next : World D F VirtioMmioCtx) : Prop :=
  ∃ regs vqs sel,
    next = { w with
      vdev := { w.vdev with vqs := vqs }
      transport := { w.transport with queues := regs, queueSel := sel } }

theorem mmioFrame_equivalence : Equivalence (MmioFrame (D := D) (F := F)) where
  refl w := ⟨w.transport.queues, w.vdev.vqs, w.transport.queueSel, rfl⟩
  symm := by
    rintro w _ ⟨regs, vqs, sel, rfl⟩
    exact ⟨w.transport.queues, w.vdev.vqs, w.transport.queueSel, rfl⟩
  trans := by
    rintro w _ _ ⟨_, _, _, rfl⟩ ⟨regs, vqs, sel, rfl⟩
    exact ⟨regs, vqs, sel, rfl⟩

theorem MmioReg.ofOffset_place {offset : Nat} {reg : MmioReg}
    (decoded : MmioReg.ofOffset offset = some reg)
    : offset < virtioMmioConfig ∧ offset % 4 = 0 := by
  unfold MmioReg.ofOffset at decoded
  split at decoded <;> first | exact ⟨by decide, by decide⟩ | cases decoded

variable (ops : VirtioDeviceOps D F VirtioMmioCtx) (ram : RamMap) (env : Env D)
  {write : GuestWrite}

theorem mmioPerform_selects {next : Nat} (decoded : mmioDecode write = .select next)
    : mmioPerform ops ram env w write
        = w.setTransport { w.transport with queueSel := .ofNat 32 next }
      ∧ next < 2 ^ 32 := by
  obtain ⟨offset, size, val, fuel⟩ := write
  unfold mmioDecode at decoded
  split_ifs at decoded with word
  subst word
  split at decoded
  next selector =>
    cases decoded
    obtain ⟨below, aligned⟩ := MmioReg.ofOffset_place selector
    exact ⟨mmioPerform_reg selector below aligned val fuel w, val.isLt⟩
  · cases decoded
  · cases decoded

theorem mmioPerform_register (admitted : MmioQueueWrite write) {reg : MmioRegisterWrite}
    (decoded : mmioDecode write = .register reg) (selected : w.transport.queueSel.toNat = q)
    : mmioPerform ops ram env w write
      = if q < w.vdev.nrVqs then setMmioBank q (reg.act ram (mmioBank w q)) w else w := by
  obtain ⟨offset, size, val, fuel⟩ := write
  obtain ⟨target, listed, place⟩ := admitted
  obtain ⟨below, aligned⟩ := MmioReg.ofOffset_place place
  unfold mmioDecode at decoded
  split_ifs at decoded with word
  subst word
  rw [place] at decoded
  rcases List.mem_cons.mp listed with rfl | queueReg
  · cases decoded
  · have different : target ≠ .queueSel := by
      rintro rfl
      exact absurd queueReg (by decide)
    split at decoded
    next same => exact absurd (Option.some.inj same) different
    next same =>
      cases Option.some.inj same
      cases decoded
      refine (mmioPerform_reg place below aligned val fuel w).trans ?_
      exact virtioMmioWriteReg_queue ops ram env fuel queueReg val.toNat selected
    next same => cases same

theorem mmioPerform_ignored (admitted : MmioQueueWrite write)
    (decoded : mmioDecode write = .ignored)
    : mmioPerform ops ram env w write = w := by
  obtain ⟨offset, size, val, fuel⟩ := write
  obtain ⟨target, listed, place⟩ := admitted
  obtain ⟨below, aligned⟩ := MmioReg.ofOffset_place place
  unfold mmioDecode at decoded
  split_ifs at decoded with word
  · rw [place] at decoded
    split at decoded
    · cases decoded
    · cases decoded
    next same => cases same
  · have narrow : size.bytes ≠ 4 := by
      cases size with
      | dword => exact absurd rfl word
      | byte => decide
      | word => decide
      | qword => decide
    unfold mmioPerform virtioMmioWrite
    rw [if_neg (Nat.not_le.mpr below), if_pos (.inl narrow)]

theorem mmioPerform_frame (admitted : MmioQueueWrite write)
    : MmioFrame w (mmioPerform ops ram env w write) := by
  cases decoded : mmioDecode write with
  | select next =>
    rw [(mmioPerform_selects ops ram env decoded).1]
    exact ⟨w.transport.queues, w.vdev.vqs, .ofNat 32 next, rfl⟩
  | register =>
    rw [mmioPerform_register ops ram env admitted decoded rfl]
    split
    · exact ⟨_, _, w.transport.queueSel, rfl⟩
    · exact mmioFrame_equivalence.refl w
  | ignored =>
    rw [mmioPerform_ignored ops ram env admitted decoded]
    exact mmioFrame_equivalence.refl w

theorem MmioFrame.nrVqs {next : World D F VirtioMmioCtx} (frame : MmioFrame w next)
    : next.vdev.nrVqs = w.vdev.nrVqs := by
  obtain ⟨_, _, _, rfl⟩ := frame
  rfl

theorem mmioBank_setMmioBank (q : Nat) (content : VirtioMmioQueue × Virtqueue)
    : mmioBank (setMmioBank q content w) = update (mmioBank w) q content := by
  funext other
  unfold mmioBank setMmioBank World.queue World.setQueue World.setTransport
  by_cases here : other = q
  · subst here
    simp only [update_self]
  · simp only [update_of_ne here]

theorem MmioFrame.selected_eq {next : World D F VirtioMmioCtx} (frame : MmioFrame w next)
    (same : mmioBank w = mmioBank next) (sel : BitVec 32)
    : w.setTransport { w.transport with queueSel := sel }
      = next.setTransport { next.transport with queueSel := sel } := by
  obtain ⟨regs, vqs, old, rfl⟩ := frame
  have queues : w.transport.queues = regs := funext fun q => congrArg Prod.fst (congrFun same q)
  have virtqueues : w.vdev.vqs = vqs := funext fun q => congrArg Prod.snd (congrFun same q)
  subst queues virtqueues
  rfl

/-- The window of queue registers of a register block with `nrVqs` queues. -/
def mmioWindow (nrVqs : Nat)
    : Window (World D F VirtioMmioCtx) GuestWrite Nat MmioRegisterWrite
      (VirtioMmioQueue × Virtqueue) where
  step write w := mmioPerform ops ram env w write
  decode := mmioDecode
  Admits := MmioQueueWrite
  Valid w := w.vdev.nrVqs = nrVqs
  Frame := MmioFrame
  selected w := w.transport.queueSel.toNat
  bank := mmioBank
  Live q := q < nrVqs
  act q reg content := if q < nrVqs then reg.act ram content else content
  frame := mmioFrame_equivalence
  valid_step admitted valid := (mmioPerform_frame ops ram env admitted).nrVqs.trans valid
  frame_step admitted _ := mmioPerform_frame ops ram env admitted
  select_selected _ _ decoded := by
    obtain ⟨stored, fits⟩ := mmioPerform_selects ops ram env decoded
    rw [stored]
    exact Nat.mod_eq_of_lt fits
  select_bank _ _ decoded := by
    rw [(mmioPerform_selects ops ram env decoded).1]
    rfl
  register_selected admitted _ decoded := by
    rw [mmioPerform_register ops ram env admitted decoded rfl]
    split
    · rfl
    · rfl
  register_bank admitted valid decoded := by
    rw [mmioPerform_register ops ram env admitted decoded rfl, valid]
    split
    · exact mmioBank_setMmioBank ..
    · exact (update_eq_self ..).symm
  ignored_step admitted _ decoded := mmioPerform_ignored ops ram env admitted decoded
  dead outside := if_neg outside
  select_eq _ decoded frame same := by
    rw [(mmioPerform_selects ops ram env decoded).1, (mmioPerform_selects ops ram env decoded).1]
    exact frame.selected_eq same _

end Mmio

/-- Behind either transport, two sequences of writes to the selector and the queue registers that
issue the same writes to every queue leave the same registers, flags and virtqueues, and equal
worlds once a queue is selected. A queue without writes keeps what it has. Behind PCI, an address is
written whole or in halves.
-/
theorem queue_registers_independent (pci : VirtioDeviceOps D F VirtioPciCtx)
    (mmio : VirtioDeviceOps D F VirtioMmioCtx) (ram : RamMap) (env : Env D)
    : (∀ (w : World D F VirtioPciCtx) (left right : List GuestWrite),
        (∀ write ∈ left, PciQueueWrite write) → (∀ write ∈ right, PciQueueWrite write)
        → (∀ q < w.vdev.nrVqs,
            issued pciDecode q w.transport.commonCfg.queueSelect left
              = issued pciDecode q w.transport.commonCfg.queueSelect right)
        → let leftEnd := left.foldl (pciPerform pci ram env) w
          let rightEnd := right.foldl (pciPerform pci ram env) w
          pciBank leftEnd = pciBank rightEnd
            ∧ ∀ select q, PciQueueWrite select → pciDecode select = .select q
              → pciPerform pci ram env leftEnd select = pciPerform pci ram env rightEnd select)
      ∧ (∀ (w : World D F VirtioMmioCtx) (left right : List GuestWrite),
        (∀ write ∈ left, MmioQueueWrite write) → (∀ write ∈ right, MmioQueueWrite write)
        → (∀ q < w.vdev.nrVqs,
            issued mmioDecode q w.transport.queueSel.toNat left
              = issued mmioDecode q w.transport.queueSel.toNat right)
        → let leftEnd := left.foldl (mmioPerform mmio ram env) w
          let rightEnd := right.foldl (mmioPerform mmio ram env) w
          mmioBank leftEnd = mmioBank rightEnd
            ∧ ∀ select q, MmioQueueWrite select → mmioDecode select = .select q
              → mmioPerform mmio ram env leftEnd select
                = mmioPerform mmio ram env rightEnd select)
      ∧ (∀ (w : World D F VirtioPciCtx) (writes : List GuestWrite) (q : Nat),
        (∀ write ∈ writes, PciQueueWrite write)
        → issued pciDecode q w.transport.commonCfg.queueSelect writes = []
        → pciBank (writes.foldl (pciPerform pci ram env) w) q = pciBank w q)
      ∧ (∀ (w : World D F VirtioMmioCtx) (writes : List GuestWrite) (q : Nat),
        (∀ write ∈ writes, MmioQueueWrite write)
        → issued mmioDecode q w.transport.queueSel.toNat writes = []
        → mmioBank (writes.foldl (mmioPerform mmio ram env) w) q = mmioBank w q)
      ∧ ∀ (w : World D F VirtioPciCtx) (offset : Nat) (address : BitVec 64) (fuel : Nat),
        offset = 32 ∨ offset = 40 ∨ offset = 48
        → pciPerform pci ram env w ⟨offset, .qword, address, fuel⟩
          = [⟨offset, .dword, lowWord address, fuel⟩,
              ⟨offset + 4, .dword, highWord address, fuel⟩].foldl (pciPerform pci ram env) w := by
  refine ⟨?_, ?_, ?_, ?_, ?_⟩
  · intro w left right leftWrites rightWrites same
    let win := pciWindow pci ram env w.vdev.nrVqs
    refine ⟨win.run_bank_eq leftWrites rightWrites rfl same, ?_⟩
    intro select q selector selects
    exact win.run_eq leftWrites rightWrites rfl same selector selects
  · intro w left right leftWrites rightWrites same
    let win := mmioWindow mmio ram env w.vdev.nrVqs
    refine ⟨win.run_bank_eq leftWrites rightWrites rfl same, ?_⟩
    intro select q selector selects
    exact win.run_eq leftWrites rightWrites rfl same selector selects
  · intro w writes q admitted untouched
    exact (pciWindow pci ram env w.vdev.nrVqs).run_untouched admitted rfl untouched
  · intro w writes q admitted untouched
    exact (mmioWindow mmio ram env w.vdev.nrVqs).run_untouched admitted rfl untouched
  · intro w offset address fuel field
    exact (pciPerform_halves pci ram env (by omega) (by omega) (by omega) address fuel).symm

def twoQueueDisk : VirtioDevice :=
  { nullDiskDevice with
    vqs := fun _ => ⟨128, 128, false, false, 0, 0, none, none, none, fun _ => default⟩
    nrVqs := 2 }

def pciInOrder : List GuestWrite :=
  [⟨22, .word, 0, 0⟩, ⟨24, .word, 4, 0⟩, ⟨32, .qword, 0x1000, 0⟩,
    ⟨22, .word, 1, 0⟩, ⟨24, .word, 8, 0⟩]

/-- It changes queues in between, one of them a queue that the device does not have. -/
def pciInterleaved : List GuestWrite :=
  [⟨22, .word, 1, 0⟩, ⟨22, .word, 0, 0⟩, ⟨24, .word, 4, 0⟩, ⟨22, .word, 9, 0⟩, ⟨24, .word, 2, 0⟩,
    ⟨22, .word, 1, 0⟩, ⟨24, .word, 8, 0⟩, ⟨22, .word, 0, 0⟩, ⟨32, .qword, 0x1000, 0⟩]

def mmioInOrder : List GuestWrite :=
  [⟨0x30, .dword, 0, 0⟩, ⟨0x38, .dword, 4, 0⟩, ⟨0x30, .dword, 1, 0⟩, ⟨0x38, .dword, 8, 0⟩]

def mmioInterleaved : List GuestWrite :=
  [⟨0x30, .dword, 1, 0⟩, ⟨0x38, .dword, 8, 0⟩, ⟨0x30, .dword, 0, 0⟩, ⟨0x38, .dword, 4, 0⟩]

/-- Both orders leave four and eight entries, and writes to queue 1 alone leave queue 0. -/
theorem queue_registers_independent_disk
    : let onPci := virtioPciRealize ⟨0, 0, 0, 1, 0⟩ ⟨requestMemory, ()⟩ twoQueueDisk nullDiskCtx
      let onMmio := virtioMmioRealize ⟨requestMemory, ()⟩ twoQueueDisk nullDiskCtx
      let pciRun := (List.foldl (pciPerform (virtioBlkOps nullDisk) demoRam stillGuest) onPci)
      let mmioRun := (List.foldl (mmioPerform (virtioBlkOps nullDisk) demoRam stillGuest) onMmio)
      pciBank (pciRun pciInOrder) = pciBank (pciRun pciInterleaved)
        ∧ (pciBank (pciRun pciInterleaved) 0).1.size = 4
        ∧ (pciBank (pciRun pciInterleaved) 1).1.size = 8
        ∧ mmioBank (mmioRun mmioInOrder) = mmioBank (mmioRun mmioInterleaved)
        ∧ pciBank (pciRun [⟨22, .word, 1, 0⟩, ⟨24, .word, 8, 0⟩]) 0 = pciBank onPci 0
        ∧ mmioBank (mmioRun [⟨0x30, .dword, 1, 0⟩, ⟨0x38, .dword, 8, 0⟩]) 0 = mmioBank onMmio 0
        ∧ pciRun [⟨32, .qword, 0x123456789, 0⟩]
          = pciRun [⟨32, .dword, 0x23456789, 0⟩, ⟨36, .dword, 1, 0⟩] := by
  intro onPci onMmio pciRun mmioRun
  obtain ⟨pciSame, mmioSame, pciKept, mmioKept, halves⟩ :=
    queue_registers_independent (virtioBlkOps nullDisk) (virtioBlkOps nullDisk) demoRam stillGuest
  refine ⟨?_, by decide +kernel, by decide +kernel, ?_, ?_, ?_, ?_⟩
  · exact (pciSame onPci pciInOrder pciInterleaved (by decide) (by decide) (by decide +kernel)).1
  · exact (mmioSame onMmio mmioInOrder mmioInterleaved (by decide) (by decide)
      (by decide +kernel)).1
  · exact pciKept onPci _ 0 (by decide) (by decide +kernel)
  · exact mmioKept onMmio _ 0 (by decide) (by decide +kernel)
  · exact halves onPci 32 0x123456789 0 (.inl rfl)

end Modvm.Virtio
