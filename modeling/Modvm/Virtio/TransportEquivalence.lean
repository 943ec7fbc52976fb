import Modvm.Virtio.Discipline
import Modvm.Virtio.DriverScript
import Modvm.Virtio.MmioAgreement
import Modvm.Virtio.PciAgreement

/-! Both transports drive the device core in the same way. -/

namespace Modvm.Virtio

open Modvm.Core Modvm.Lib Modvm.Hw

variable {D F : Type}

def lowWord (address : BitVec 64) : BitVec 32 := address.extractLsb' 0 32

def highWord (address : BitVec 64) : BitVec 32 := address.extractLsb' 32 32

theorem assembleGpa_words (address : BitVec 64)
    : assembleGpa (highWord address) (lowWord address) = address.toNat := by
  have whole : ((highWord address).setWidth 64 <<< 32) ||| (lowWord address).setWidth 64
      = address := by
    refine BitVec.eq_of_getLsbD_eq ?_
    intro bit inside
    simp only [highWord, lowWord]
    by_cases low : bit < 32
    · simp [low, inside]
    · have high : bit - 32 < 32 := by omega
      have back : 32 + (bit - 32) = bit := by omega
      have wide : bit - 32 < 64 := by omega
      simp [low, inside, high, back]
  rw [assembleGpa, whole]

section Pci

def pciAddress (wide : Bool) (offset : Nat) (address : BitVec 64) : List GuestWrite :=
  if wide then [⟨offset, .qword, address, 0⟩]
  else [⟨offset, .dword, lowWord address, 0⟩, ⟨offset + 4, .dword, highWord address, 0⟩]

/-- The accesses to BAR 0 that perform an operation. -/
def DriverOp.pciWrites : DriverOp → List GuestWrite
  | .features selector word => [⟨8, .dword, selector, 0⟩, ⟨12, .dword, word, 0⟩]
  | .status byte => [⟨20, .byte, byte, 0⟩]
  | .setup q size desc avail used wide =>
      [⟨22, .word, .ofNat 16 q, 0⟩, ⟨24, .word, .ofNat 16 size, 0⟩]
        ++ pciAddress wide 32 desc ++ pciAddress wide 40 avail ++ pciAddress wide 48 used
        ++ [⟨28, .word, 1, 0⟩]
  | .doorbell q fuel => [⟨0x100, .word, .ofNat 16 q, fuel⟩]

def pciPerform (ops : VirtioDeviceOps D F VirtioPciCtx) (ram : RamMap) (env : Env D)
    (w : World D F VirtioPciCtx) (write : GuestWrite)
    : World D F VirtioPciCtx :=
  virtioPciBar0Write ops ram env write.fuel write.offset write.val.toNat write.size.bytes w

variable (regs : VirtioPciQueueCfg)

theorem VirtioPciQueueCfg.store_words (off : Nat) (address : BitVec 64)
    : (regs.store off 4 (lowWord address).toNat).store (off + 4) 4 (highWord address).toNat
      = regs.store off 8 address.toNat := by
  have low : (lowWord address).toNat = address.toNat % 256 ^ 4 := by
    simp [lowWord]
  have high : (highWord address).toNat = address.toNat / 256 ^ 4 % 256 ^ 4 := by
    simp [highWord, Nat.shiftRight_eq_div_pow]
  have split := toLe_add 4 4 address.toNat
  unfold VirtioPciQueueCfg.store
  rw [low, high, toLe_mod, toLe_mod, split, writeBytes_append, toLe_length]

theorem VirtioPciQueueCfg.address_store (off : Nat) (address : BitVec 64)
    : (regs.store off 8 address.toNat).address off = address.toNat := by
  have back : ∀ (regs : VirtioPciQueueCfg) off (word : BitVec 32),
      le32 (regs.store off 4 word.toNat).bytes off = word.toNat := by
    intro regs off word
    unfold le32 VirtioPciQueueCfg.store
    rw [leNat_readBytes_writeBytes]
    exact Nat.mod_eq_of_lt word.isLt
  rw [← VirtioPciQueueCfg.store_words, VirtioPciQueueCfg.address, back,
    le32_store_apart (by omega), back, BitVec.ofNat_toNat, BitVec.ofNat_toNat, BitVec.setWidth_eq,
    BitVec.setWidth_eq, assembleGpa_words]

theorem VirtioPciQueueCfg.address_store_apart {regs : VirtioPciQueueCfg} {field off size val : Nat}
    (apart : field + 8 ≤ off ∨ off + size ≤ field)
    : (regs.store off size val).address field = regs.address field := by
  rw [VirtioPciQueueCfg.address, VirtioPciQueueCfg.address, le32_store_apart (by omega),
    le32_store_apart (by omega)]

/-- The registers of a queue after a size and three addresses were written. -/
def VirtioPciQueueCfg.configured (regs : VirtioPciQueueCfg) (size : Nat)
    (desc avail used : BitVec 64)
    : VirtioPciQueueCfg :=
  (((regs.store 0 2 size).store 8 8 desc.toNat).store 16 8 avail.toNat).store 24 8 used.toNat

variable {size : Nat}

theorem VirtioPciQueueCfg.configured_fields (fits : size < 2 ^ 16) (desc avail used : BitVec 64)
    : (regs.configured size desc avail used).size = size
      ∧ (regs.configured size desc avail used).desc = desc.toNat
      ∧ (regs.configured size desc avail used).avail = avail.toNat
      ∧ (regs.configured size desc avail used).used = used.toNat
      ∧ (regs.configured size desc avail used).enable = regs.enable := by
  unfold VirtioPciQueueCfg.configured
  refine ⟨?_, ?_, ?_, ?_, ?_⟩
  · rw [VirtioPciQueueCfg.size, le16_store_apart (by omega), le16_store_apart (by omega),
      le16_store_apart (by omega), le16_store _ _ fits]
  · rw [VirtioPciQueueCfg.desc, address_store_apart (by omega), address_store_apart (by omega),
      address_store]
  · rw [VirtioPciQueueCfg.avail, address_store_apart (by omega), address_store]
  · rw [VirtioPciQueueCfg.used, address_store]
  · rfl

variable {ops : VirtioDeviceOps D F VirtioPciCtx} {core : VirtioDeviceOps D F Unit} {ram : RamMap}
  {env : Env D} {vdev : VirtioDevice} {view : DriverView D F} {w : World D F VirtioPciCtx} {q : Nat}
  {cfg : VirtioPciGlobalCfg} {regs : VirtioPciQueueCfg}

def pciConfigure (q : Nat) (cfg : VirtioPciGlobalCfg) (regs : VirtioPciQueueCfg)
    (w : World D F VirtioPciCtx)
    : World D F VirtioPciCtx :=
  w.setTransport
    { w.transport with commonCfg := cfg, queues := Function.update w.transport.queues q regs }

theorem virtioPciBar0Write_queue {offset : Nat} (below : 24 ≤ offset) (above : offset < 56)
    (fuel val size : Nat) (w : World D F VirtioPciCtx)
    : virtioPciBar0Write ops ram env fuel offset val size w
      = pciWriteQueue ram (offset - 24) val size w := by
  rw [virtioPciBar0Write, if_pos above, if_pos below]

theorem pciWriteQueue_stores (selected : cfg.queueSelect = q) (inside : q < w.vdev.nrVqs)
    (disabled : regs.enable = 0) {field size val : Nat} (bound : field + size ≤ 32)
    (allowed : queueAccessAllowed field size = true) (writable : ¬ (field = 6 ∨ field = 2))
    (acceptable : ¬ (field = 0
      ∧ (val = 0 ∨ notPowerOfTwo val = true ∨ val > (w.queue q).maxSize)))
    (other : field ≠ 4)
    : pciWriteQueue ram field val size (pciConfigure q cfg regs w)
      = pciConfigure q cfg (regs.store field size val) w := by
  have here : (pciConfigure q cfg regs w).transport.queues q = regs :=
    Function.update_self ..
  have within : ¬ (q ≥ (pciConfigure q cfg regs w).vdev.nrVqs ∨ field + size > 32) := by
    rw [not_or]
    exact ⟨Nat.not_le.mpr inside, by omega⟩
  have maximum : (pciConfigure q cfg regs w).queue q = w.queue q := rfl
  unfold pciWriteQueue
  dsimp only
  rw [show (pciConfigure q cfg regs w).transport.commonCfg.queueSelect = q from selected, here,
    maximum,
    if_neg within, if_neg (by simp [allowed]), if_neg (by simp [disabled]), if_neg writable,
    if_neg acceptable, if_neg other]
  simp only [pciStoreQueue, pciConfigure, World.setTransport, Function.update_self,
    Function.update_idem]

theorem queueAccessAllowed_address {field size : Nat} (above : 8 ≤ field)
    (width : size = 4 ∨ size = 8) (aligned : field % size = 0)
    : queueAccessAllowed field size = true := by
  have low : ¬ field < 8 := by omega
  rcases width with rfl | rfl
  · simp [queueAccessAllowed, low, aligned]
  · simp [queueAccessAllowed, low, aligned]

theorem pciAddress_stores (selected : cfg.queueSelect = q) (inside : q < w.vdev.nrVqs)
    (disabled : regs.enable = 0) (wide : Bool) {offset : Nat} (below : 32 ≤ offset)
    (above : offset + 8 ≤ 56) (aligned : offset % 8 = 0) (address : BitVec 64)
    : (pciAddress wide offset address).foldl (pciPerform ops ram env) (pciConfigure q cfg regs w)
      = pciConfigure q cfg (regs.store (offset - 24) 8 address.toNat) w := by
  have stores : ∀ {regs : VirtioPciQueueCfg} {field : Nat} {size : AccessSize}
      {val : BitVec (8 * size.bytes)}, regs.enable = 0 → 32 ≤ field
      → field + size.bytes ≤ 56 → queueAccessAllowed (field - 24) size.bytes = true
      → pciPerform ops ram env (pciConfigure q cfg regs w) ⟨field, size, val, 0⟩
        = pciConfigure q cfg (regs.store (field - 24) size.bytes val.toNat) w := by
    intro regs field size val disabled below above allowed
    have positive : 0 < size.bytes := by cases size <;> decide
    change virtioPciBar0Write ops ram env 0 field val.toNat size.bytes _ = _
    rw [virtioPciBar0Write_queue (by omega) (by omega)]
    exact pciWriteQueue_stores selected inside disabled (by omega) allowed (by omega)
      (fun first => absurd first.1 (by omega)) (by omega)
  cases wide with
  | true =>
    exact stores disabled below above
      (queueAccessAllowed_address (by omega) (.inr rfl) (show _ % 8 = 0 by omega))
  | false =>
    have low := @stores regs offset .dword (lowWord address) disabled below
      (show offset + 4 ≤ 56 by omega)
      (queueAccessAllowed_address (by omega) (.inl rfl) (show _ % 4 = 0 by omega))
    have still : (regs.store (offset - 24) 4 (lowWord address).toNat).enable = 0 :=
      (le16_store_apart (by omega)).trans disabled
    have high := @stores _ (offset + 4) .dword (highWord address) still (by omega)
      (show offset + 4 + 4 ≤ 56 by omega)
      (queueAccessAllowed_address (by omega) (.inl rfl) (show _ % 4 = 0 by omega))
    have behind : offset + 4 - 24 = offset - 24 + 4 := by omega
    rw [behind] at high
    have words := regs.store_words (offset - 24) address
    calc (pciAddress false offset address).foldl (pciPerform ops ram env)
          (pciConfigure q cfg regs w)
        = pciPerform ops ram env (pciPerform ops ram env (pciConfigure q cfg regs w)
            ⟨offset, .dword, lowWord address, 0⟩)
            ⟨offset + 4, .dword, highWord address, 0⟩ := rfl
      _ = pciConfigure q cfg (regs.store (offset - 24) 8 address.toNat) w := by
          rw [low, ← words]
          exact high

theorem pciPerform_select (fits : q < 2 ^ 16)
    : pciPerform ops ram env w ⟨22, .word, .ofNat 16 q, 0⟩
      = pciConfigure q (w.transport.commonCfg.store 22 2 q) (w.transport.queues q) w := by
  have value : (BitVec.ofNat 16 q).toNat = q := Nat.mod_eq_of_lt fits
  rw [pciConfigure, Function.update_eq_self]
  change virtioPciBar0Write ops ram env 0 22 (BitVec.ofNat 16 q).toNat 2 w = _
  rw [value]
  rfl

theorem VirtioPciGlobalCfg.queueSelect_store (cfg : VirtioPciGlobalCfg) (fits : q < 2 ^ 16)
    : (cfg.store 22 2 q).queueSelect = q := by
  unfold VirtioPciGlobalCfg.queueSelect VirtioPciGlobalCfg.store le16
  rw [leNat_readBytes_writeBytes]
  exact Nat.mod_eq_of_lt fits

theorem pciPerform_size (selected : cfg.queueSelect = q) (inside : q < w.vdev.nrVqs)
    (disabled : regs.enable = 0) (fits : size < 2 ^ 16) (power : size.isPowerOfTwo)
    (bound : size ≤ (w.queue q).maxSize)
    : pciPerform ops ram env (pciConfigure q cfg regs w) ⟨24, .word, .ofNat 16 size, 0⟩
      = pciConfigure q cfg (regs.store 0 2 size) w := by
  have value : (BitVec.ofNat 16 size).toNat = size := Nat.mod_eq_of_lt fits
  have positive : 0 < size := by
    obtain ⟨bits, rfl⟩ := power
    exact Nat.two_pow_pos bits
  have valid := (notPowerOfTwo_eq_false_iff positive).mpr power
  change virtioPciBar0Write ops ram env 0 24 (BitVec.ofNat 16 size).toNat 2 _ = _
  rw [value]
  refine pciWriteQueue_stores selected inside disabled (by decide) (by decide) (by decide) ?_
    (by decide)
  rintro ⟨-, zero | invalid | large⟩
  · omega
  · rw [valid] at invalid
    cases invalid
  · omega

theorem pciPerform_enable (selected : cfg.queueSelect = q) (inside : q < w.vdev.nrVqs)
    (disabled : regs.enable = 0)
    : pciPerform ops ram env (pciConfigure q cfg regs w) ⟨28, .word, 1, 0⟩
      = pciEnableQueue ram q 4 2 1 (pciConfigure q cfg regs w) := by
  have here : (pciConfigure q cfg regs w).transport.queues q = regs :=
    Function.update_self ..
  have within : ¬ (q ≥ (pciConfigure q cfg regs w).vdev.nrVqs ∨ 4 + 2 > 32) := by
    rw [not_or]
    exact ⟨Nat.not_le.mpr inside, by decide⟩
  change virtioPciBar0Write ops ram env 0 28 1 2 _ = _
  rw [virtioPciBar0Write_queue (by decide) (by decide)]
  unfold pciWriteQueue
  dsimp only
  rw [show (pciConfigure q cfg regs w).transport.commonCfg.queueSelect = q from selected, here,
    if_neg within, if_neg (by decide), if_neg (by simp [disabled]), if_neg (by decide),
    if_neg (by simp), if_pos rfl, if_neg (by decide)]

theorem pciSetup_disabled (fitsQ : q < 2 ^ 16) (inside : q < w.vdev.nrVqs)
    (disabled : (w.transport.queues q).enable = 0) (fits : size < 2 ^ 16)
    (power : size.isPowerOfTwo) (bound : size ≤ (w.queue q).maxSize) (desc avail used : BitVec 64)
    (wide : Bool)
    : (DriverOp.setup q size desc avail used wide).pciWrites.foldl (pciPerform ops ram env) w
      = pciEnableQueue ram q 4 2 1
        (pciConfigure q (w.transport.commonCfg.store 22 2 q)
          ((w.transport.queues q).configured size desc avail used) w) := by
  have selected := w.transport.commonCfg.queueSelect_store fitsQ
  have first := @pciPerform_select _ _ ops ram env w q fitsQ
  generalize w.transport.commonCfg.store 22 2 q = cfg at selected first ⊢
  generalize w.transport.queues q = regs at disabled first ⊢
  -- No register but the last one written enables the queue.
  have sized : (regs.store 0 2 size).enable = 0 :=
    (le16_store_apart (by omega)).trans disabled
  have described : ((regs.store 0 2 size).store 8 8 desc.toNat).enable = 0 :=
    (le16_store_apart (by omega)).trans sized
  have offered : (((regs.store 0 2 size).store 8 8 desc.toNat).store 16 8 avail.toNat).enable
      = 0 :=
    (le16_store_apart (by omega)).trans described
  have configured : (regs.configured size desc avail used).enable = 0 :=
    (regs.configured_fields fits desc avail used).2.2.2.2.trans disabled
  have descStored := @pciAddress_stores _ _ ops ram env w q cfg _ selected inside sized wide 32
    (by decide) (by decide) (by decide) desc
  have availStored := @pciAddress_stores _ _ ops ram env w q cfg _ selected inside described wide
    40 (by decide) (by decide) (by decide) avail
  have usedStored := @pciAddress_stores _ _ ops ram env w q cfg _ selected inside offered wide
    48 (by decide) (by decide) (by decide) used
  simp only [DriverOp.pciWrites, List.foldl_append, List.foldl_cons, List.foldl_nil]
  rw [first, pciPerform_size selected inside disabled fits power bound, descStored, availStored,
    usedStored]
  exact pciPerform_enable selected inside configured

theorem pciPerform_locked
    (locked : (w.transport.queues w.transport.commonCfg.queueSelect).enable ≠ 0)
    {write : GuestWrite} (below : 24 ≤ write.offset) (above : write.offset < 56)
    : pciPerform ops ram env w write = w := by
  unfold pciPerform
  rw [virtioPciBar0Write_queue below above]
  unfold pciWriteQueue
  dsimp only
  split_ifs <;> rfl

theorem pciSetup_enabled (fitsQ : q < 2 ^ 16) (enabled : (w.transport.queues q).enable ≠ 0)
    (size : Nat) (desc avail used : BitVec 64) (wide : Bool)
    : (DriverOp.setup q size desc avail used wide).pciWrites.foldl (pciPerform ops ram env) w
      = pciConfigure q (w.transport.commonCfg.store 22 2 q) (w.transport.queues q) w := by
  have selected := w.transport.commonCfg.queueSelect_store fitsQ
  have first := @pciPerform_select _ _ ops ram env w q fitsQ
  generalize w.transport.commonCfg.store 22 2 q = cfg at selected first ⊢
  have locked : ((pciConfigure q cfg (w.transport.queues q) w).transport.queues
      (pciConfigure q cfg (w.transport.queues q) w).transport.commonCfg.queueSelect).enable
        ≠ 0 := by
    rw [show (pciConfigure q cfg (w.transport.queues q) w).transport.commonCfg.queueSelect = q
      from selected]
    simpa [pciConfigure, World.setTransport] using enabled
  obtain ⟨rest, writes, within⟩ : ∃ rest,
      (DriverOp.setup q size desc avail used wide).pciWrites
        = ⟨22, .word, .ofNat 16 q, 0⟩ :: rest
      ∧ ∀ write ∈ rest, 24 ≤ write.offset ∧ write.offset < 56 := by
    refine ⟨_, rfl, ?_⟩
    cases wide <;> simp [pciAddress]
  rw [writes, List.foldl_cons, first]
  refine List.foldlRecOn
    (motive := fun after => after = pciConfigure q cfg (w.transport.queues q) w)
    _ _ rfl ?_
  rintro _ rfl write member
  exact pciPerform_locked locked (within write member).1 (within write member).2

theorem pciEnableQueue_eq (ram : RamMap) (q off size val : Nat) (w : World D F VirtioPciCtx)
    : pciEnableQueue ram q off size val w
      = match coreEnableQueue ram q (w.transport.queues q).size (w.transport.queues q).desc
          (w.transport.queues q).avail (w.transport.queues q).used w with
        | (false, after) => after
        | (true, after) => pciStoreQueue q off size val after := by
  unfold pciEnableQueue coreEnableQueue
  generalize w.transport.queues q = regs
  dsimp only
  cases virtqueueSetSize (w.queue q) regs.size with
  | error => rfl
  | ok vq =>
    dsimp only
    cases virtqueueSetAddrs ram vq regs.desc regs.avail regs.used with
    | error => rfl
    | ok => rfl

/-- The PCI transport shows a driver's view: the same core, and `enable` says which queues are
enabled.
-/
structure PciShows (vdev : VirtioDevice) (view : DriverView D F) (w : World D F VirtioPciCtx)
    : Prop where
  core : w.core = view.world
  shaped : w.Shaped vdev
  enable : ∀ q < vdev.nrVqs, (w.transport.queues q).enable ≠ 0 ↔ view.ready q = true

theorem PciShows.update (shows : PciShows vdev view w) {next : World D F VirtioPciCtx}
    {world : World D F Unit} {enabled : Bool} (core : next.core = world)
    (shaped : next.Shaped vdev)
    (queues : next.transport.queues = Function.update w.transport.queues q regs)
    (enable : regs.enable ≠ 0 ↔ enabled = true)
    : PciShows vdev ⟨world, Function.update view.ready q enabled⟩ next := by
  refine ⟨core, shaped, ?_⟩
  intro p inside
  dsimp only
  rw [queues]
  by_cases here : p = q
  · rw [here, Function.update_self, Function.update_self]
    exact enable
  · rw [Function.update_of_ne here, Function.update_of_ne here]
    exact shows.enable p inside

theorem PciShows.setup (shows : PciShows vdev view w) (fresh : FreshDevice vdev)
    {desc avail used : BitVec 64} {wide : Bool}
    (valid : (DriverOp.setup q size desc avail used wide).Valid vdev)
    : PciShows vdev (driverStep core ram env view (.setup q size desc avail used wide))
        ((DriverOp.setup q size desc avail used wide).pciWrites.foldl (pciPerform ops ram env)
          w) := by
  obtain ⟨inside, power, bound⟩ := valid
  obtain ⟨fitsQ, fits⟩ := fresh.fits inside bound
  have counted : q < w.vdev.nrVqs := shows.shaped.count ▸ inside
  have allowed : size ≤ (w.queue q).maxSize := shows.shaped.maxSize q ▸ bound
  have enable := shows.enable q inside
  cases ready : view.ready q with
  | true =>
    rw [driverStep, if_pos ready, pciSetup_enabled fitsQ (enable.mpr ready)]
    refine ⟨shows.core, shows.shaped.of_core rfl, ?_⟩
    simpa [pciConfigure, World.setTransport] using shows.enable
  | false =>
    have disabled : (w.transport.queues q).enable = 0 := by
      simpa [ready] using enable
    have off : ¬ view.ready q = true := by
      rw [ready]
      exact Bool.false_ne_true
    obtain ⟨sizeEq, descEq, availEq, usedEq, enableEq⟩ :=
      (w.transport.queues q).configured_fields fits desc avail used
    rw [disabled] at enableEq
    rw [pciSetup_disabled fitsQ counted disabled fits power allowed, pciEnableQueue_eq,
      driverStep, if_neg off, ← shows.core]
    generalize (w.transport.queues q).configured size desc avail used = regs at *
    generalize w.transport.commonCfg.store 22 2 q = cfg
    have here : (pciConfigure q cfg regs w).transport.queues q = regs :=
      Function.update_self ..
    have before : (pciConfigure q cfg regs w).Shaped vdev := shows.shaped.of_core rfl
    have shaped := before.enableQueue ram q size desc.toNat avail.toNat used.toNat
    have wires := coreEnableQueue_transport ram q size desc.toNat avail.toNat used.toNat
      (pciConfigure q cfg regs w)
    rw [here, sizeEq, descEq, availEq, usedEq,
      show w.core = (pciConfigure q cfg regs w).core from rfl, coreEnableQueue_core]
    generalize coreEnableQueue ram q size desc.toNat avail.toNat used.toNat
      (pciConfigure q cfg regs w) = outcome at shaped wires ⊢
    obtain ⟨enabled, after⟩ := outcome
    cases enabled with
    | false =>
      refine shows.update rfl shaped (by rw [wires]; rfl) ?_
      simp [enableEq]
    | true =>
      have same : after.transport = (pciConfigure q cfg regs w).transport := wires
      have stored : (pciStoreQueue q 4 2 1 after).transport.queues
          = Function.update w.transport.queues q (regs.store 4 2 1) := by
        simp only [pciStoreQueue]
        rw [same, here]
        exact Function.update_idem regs _ w.transport.queues
      refine shows.update rfl (shaped.of_core rfl) stored ?_
      rw [VirtioPciQueueCfg.enable, le16_store _ _ (by decide)]
      exact iff_of_true (by decide) rfl

theorem PciShows.features (shows : PciShows vdev view w) (selector word : BitVec 32)
    : PciShows vdev (driverStep core ram env view (.features selector word))
        ((DriverOp.features selector word).pciWrites.foldl (pciPerform ops ram env) w) := by
  let selecting := w.setTransport { w.transport with
    commonCfg := w.transport.commonCfg.store 8 4 selector.toNat }
  have selected : selecting.transport.commonCfg.guestFeatureSelect = selector.toNat := by
    change leNat (readBytes (writeBytes _ 8 (toLe 4 selector.toNat)) 8 4) = _
    rw [leNat_readBytes_writeBytes]
    exact Nat.mod_eq_of_lt selector.isLt
  have chosen : (DriverOp.features selector word).pciWrites.foldl (pciPerform ops ram env) w
      = virtioDeviceSetFeatures selector.toNat word selecting := by
    change virtioDeviceSetFeatures selecting.transport.commonCfg.guestFeatureSelect
      (.ofNat 32 word.toNat) selecting = _
    rw [selected, BitVec.ofNat_toNat, BitVec.setWidth_eq]
  have shaped : selecting.Shaped vdev := shows.shaped.of_core rfl
  rw [chosen]
  refine ⟨?_, shaped.setFeatures selector.toNat word, ?_⟩
  · rw [← virtioDeviceSetFeatures_core, driverStep, ← shows.core]
    rfl
  · rw [virtioDeviceSetFeatures_transport]
    exact shows.enable

theorem PciShows.status (same : Erases ops core) (shows : PciShows vdev view w)
    (byte : BitVec 8)
    : PciShows vdev (driverStep core ram env view (.status byte))
        ((DriverOp.status byte).pciWrites.foldl (pciPerform ops ram env) w) := by
  have written : (DriverOp.status byte).pciWrites.foldl (pciPerform ops ram env) w
      = let after := virtioDeviceSetStatus ops byte w
        if byte.toNat = 0 then after.setTransport (after.transport.reset after.vdev)
        else after := by
    have value : BitVec.ofNat 8 byte.toNat = byte := by
      rw [BitVec.ofNat_toNat, BitVec.setWidth_eq]
    change (let after := virtioDeviceSetStatus ops (.ofNat 8 byte.toNat) w
        if byte.toNat = 0 then after.setTransport (after.transport.reset after.vdev)
        else after) = _
    rw [value]
  have shaped := shows.shaped.setStatus ops byte
  rw [written, driverStep, ← shows.core, virtioDeviceSetStatus_core same]
  by_cases zero : byte = 0
  · rw [if_pos (by rw [zero]; rfl)]
    refine ⟨rfl, shaped.of_core rfl, ?_⟩
    intro q inside
    have counted : q < (virtioDeviceSetStatus ops byte w).vdev.nrVqs := shaped.count ▸ inside
    refine iff_of_false (not_not_intro ?_) (by simp [zero])
    simp only [World.setTransport, VirtioPciCtx.reset, if_pos counted,
      VirtioPciQueueCfg.initial_enable]
  · have some : byte.toNat ≠ 0 := fun none => zero (BitVec.eq_of_toNat_eq none)
    rw [if_neg some]
    refine ⟨rfl, shaped, ?_⟩
    intro q inside
    rw [virtioDeviceSetStatus_transport]
    simpa only [if_neg zero] using shows.enable q inside

theorem PciShows.doorbell (portable : Portable ops core) (fresh : FreshDevice vdev)
    (shows : PciShows vdev view w) (inside : q < vdev.nrVqs) (fuel : Nat)
    : PciShows vdev (driverStep core ram env view (.doorbell q fuel))
        ((DriverOp.doorbell q fuel).pciWrites.foldl (pciPerform ops ram env) w) := by
  have fits : q < 2 ^ 16 := (fresh.fits inside (Nat.le_refl _)).1
  have counted : q < w.vdev.nrVqs := shows.shaped.count ▸ inside
  have rung : (DriverOp.doorbell q fuel).pciWrites.foldl (pciPerform ops ram env) w
      = if q < w.vdev.nrVqs ∧ (w.transport.queues q).enable ≠ 0
          ∧ virtioDeviceReady w.vdev = true then
        ops.notifyQueue ram env fuel q w
      else w := by
    have value : (BitVec.ofNat 16 q).toNat % 2 ^ 16 = q := by
      rw [BitVec.toNat_ofNat, Nat.mod_mod, Nat.mod_eq_of_lt fits]
    change (let q := (BitVec.ofNat 16 q).toNat % 2 ^ 16
      if q < w.vdev.nrVqs ∧ (w.transport.queues q).enable ≠ 0
          ∧ virtioDeviceReady w.vdev = true then
        ops.notifyQueue ram env fuel q w
      else w) = _
    rw [value]
  have guard : (view.ready q && virtioDeviceReady view.world.vdev) = true
      ↔ q < w.vdev.nrVqs ∧ (w.transport.queues q).enable ≠ 0
        ∧ virtioDeviceReady w.vdev = true := by
    rw [Bool.and_eq_true, shows.enable q inside, ← shows.core]
    exact ⟨fun both => ⟨counted, both⟩, And.right⟩
  rw [rung, driverStep]
  by_cases rings : q < w.vdev.nrVqs ∧ (w.transport.queues q).enable ≠ 0
      ∧ virtioDeviceReady w.vdev = true
  · have frame := portable.undisturbed ram env fuel q w
    rw [if_pos rings, if_pos (guard.mpr rings)]
    refine ⟨?_, shows.shaped.undisturbed frame, ?_⟩
    · rw [← portable.notify, shows.core]
    · rw [frame.transport.pciQueues]
      exact shows.enable
  · rw [if_neg rings, if_neg fun both => rings (guard.mp both)]
    exact shows

theorem PciShows.step (portable : Portable ops core) (fresh : FreshDevice vdev) {op : DriverOp}
    (valid : op.Valid vdev) (shows : PciShows vdev view w)
    : PciShows vdev (driverStep core ram env view op)
        (op.pciWrites.foldl (pciPerform ops ram env) w) := by
  cases op with
  | features selector word => exact shows.features selector word
  | status byte => exact shows.status portable.toErases byte
  | setup => exact shows.setup fresh valid
  | doorbell q fuel => exact shows.doorbell portable fresh valid fuel

/-- The world after a driver issued a script through BAR 0 of a realized device. -/
def pciRun (ops : VirtioDeviceOps D F VirtioPciCtx) (ram : RamMap) (env : Env D)
    (place : VirtioPciPlace) (guest : Guest D) (vdev : VirtioDevice) (frontend : F)
    (script : List DriverOp)
    : World D F VirtioPciCtx :=
  (script.flatMap DriverOp.pciWrites).foldl (pciPerform ops ram env)
    (virtioPciRealize place guest vdev frontend)

theorem pciRun_shows (portable : Portable ops core) (fresh : FreshDevice vdev) (ram : RamMap)
    (env : Env D) (place : VirtioPciPlace) (guest : Guest D) (frontend : F)
    {script : List DriverOp}
    (valid : ∀ op ∈ script, op.Valid vdev)
    : PciShows vdev (driverRun core ram env guest vdev frontend script)
        (pciRun ops ram env place guest vdev frontend script) := by
  have start : PciShows vdev (.initial guest vdev frontend)
      (virtioPciRealize place guest vdev frontend) := by
    refine ⟨rfl, ⟨rfl, fun _ => rfl⟩, ?_⟩
    intro q inside
    simp [virtioPciRealize, DriverView.initial, inside, VirtioPciQueueCfg.initial_enable]
  rw [pciRun, List.foldl_flatMap]
  refine List.foldl_rel start ?_
  intro op member view w shows
  exact shows.step portable fresh (valid op member)

end Pci

section Mmio

/-- The register writes that perform an operation. -/
def DriverOp.mmioWrites : DriverOp → List GuestWrite
  | .features selector word => [⟨0x024, .dword, selector, 0⟩, ⟨0x020, .dword, word, 0⟩]
  | .status byte => [⟨0x070, .dword, byte.setWidth 32, 0⟩]
  | .setup q size desc avail used _ =>
      [⟨0x030, .dword, .ofNat 32 q, 0⟩, ⟨0x038, .dword, .ofNat 32 size, 0⟩,
        ⟨0x080, .dword, lowWord desc, 0⟩, ⟨0x084, .dword, highWord desc, 0⟩,
        ⟨0x090, .dword, lowWord avail, 0⟩, ⟨0x094, .dword, highWord avail, 0⟩,
        ⟨0x0a0, .dword, lowWord used, 0⟩, ⟨0x0a4, .dword, highWord used, 0⟩,
        ⟨0x044, .dword, .ofNat 32 1, 0⟩]
  | .doorbell q fuel => [⟨0x050, .dword, .ofNat 32 q, fuel⟩]

def mmioPerform (ops : VirtioDeviceOps D F VirtioMmioCtx) (ram : RamMap) (env : Env D)
    (w : World D F VirtioMmioCtx) (write : GuestWrite)
    : World D F VirtioMmioCtx :=
  virtioMmioWrite ops ram env write.fuel write.offset write.val.toNat write.size.bytes w

/-- What a setup writes to the registers of its queue, in this order. -/
def mmioSetupRegs (size : Nat) (desc avail used : BitVec 64)
    : List (VirtioMmioQueue → VirtioMmioQueue) :=
  [fun regs => { regs with num := .ofNat 32 size },
    fun regs => { regs with descLo := lowWord desc },
    fun regs => { regs with descHi := highWord desc },
    fun regs => { regs with availLo := lowWord avail },
    fun regs => { regs with availHi := highWord avail },
    fun regs => { regs with usedLo := lowWord used },
    fun regs => { regs with usedHi := highWord used }]

def VirtioMmioQueue.configured (regs : VirtioMmioQueue) (size : Nat)
    (desc avail used : BitVec 64)
    : VirtioMmioQueue :=
  (mmioSetupRegs size desc avail used).foldl (fun regs update => update regs) regs

theorem VirtioMmioQueue.configured_fields (regs : VirtioMmioQueue) {size : Nat}
    (fits : size < 2 ^ 16) (desc avail used : BitVec 64)
    : (regs.configured size desc avail used).num.toNat = size
      ∧ assembleGpa (regs.configured size desc avail used).descHi
          (regs.configured size desc avail used).descLo = desc.toNat
      ∧ assembleGpa (regs.configured size desc avail used).availHi
          (regs.configured size desc avail used).availLo = avail.toNat
      ∧ assembleGpa (regs.configured size desc avail used).usedHi
          (regs.configured size desc avail used).usedLo = used.toNat
      ∧ (regs.configured size desc avail used).ready = regs.ready :=
  ⟨Nat.mod_eq_of_lt (Nat.lt_trans fits (by decide)), assembleGpa_words desc,
    assembleGpa_words avail, assembleGpa_words used, rfl⟩

variable {ops : VirtioDeviceOps D F VirtioMmioCtx} {core : VirtioDeviceOps D F Unit} {ram : RamMap}
  {env : Env D} {vdev : VirtioDevice} {view : DriverView D F} {w : World D F VirtioMmioCtx}
  {q : Nat} {sel : BitVec 32} {regs : VirtioMmioQueue}

def mmioConfigure (q : Nat) (sel : BitVec 32) (regs : VirtioMmioQueue)
    (w : World D F VirtioMmioCtx)
    : World D F VirtioMmioCtx :=
  w.setTransport
    { w.transport with queueSel := sel, queues := Function.update w.transport.queues q regs }

/-- Queue registers take their values, while the queue is not ready, by induction on the
writes.
-/
theorem mmioSetQueueReg_stores (selected : sel.toNat = q) (inside : q < w.vdev.nrVqs)
    (off : regs.ready = false) {updates : List (VirtioMmioQueue → VirtioMmioQueue)}
    (keeps : ∀ update ∈ updates, ∀ regs, (update regs).ready = regs.ready)
    : updates.foldl (fun w update => mmioSetQueueReg update w) (mmioConfigure q sel regs w)
      = mmioConfigure q sel (updates.foldl (fun regs update => update regs) regs) w := by
  induction updates generalizing regs with
  | nil => rfl
  | cons update rest ih =>
    have here : (mmioConfigure q sel regs w).transport.queues q = regs :=
      Function.update_self ..
    have guard : q < (mmioConfigure q sel regs w).vdev.nrVqs ∧ regs.ready = false :=
      ⟨inside, off⟩
    have stored : mmioSetQueueReg update (mmioConfigure q sel regs w)
        = mmioConfigure q sel (update regs) w := by
      unfold mmioSetQueueReg
      dsimp only
      rw [show (mmioConfigure q sel regs w).transport.queueSel.toNat = q from selected, here,
        if_pos guard]
      simp only [mmioConfigure, World.setTransport, Function.update_idem]
    rw [List.foldl_cons, stored]
    refine ih ?_ fun later member => keeps later (List.mem_cons_of_mem _ member)
    rw [keeps update List.mem_cons_self, off]

theorem mmioSetQueueReg_locked
    (locked : (w.transport.queues w.transport.queueSel.toNat).ready = true)
    (updates : List (VirtioMmioQueue → VirtioMmioQueue))
    : updates.foldl (fun w update => mmioSetQueueReg update w) w = w := by
  refine List.foldlRecOn (motive := fun after => after = w) _ _ rfl ?_
  rintro _ rfl update -
  unfold mmioSetQueueReg
  rw [if_neg (by simp [locked])]

theorem mmioQueueReady_locked
    (locked : (w.transport.queues w.transport.queueSel.toNat).ready = true)
    : mmioQueueReady ram 1 w = w := by
  unfold mmioQueueReady
  rw [if_neg (by simp), if_neg (by simp [locked])]

theorem mmioPerform_reg {offset : Nat} {reg : MmioReg}
    (decoded : MmioReg.ofOffset offset = some reg) (below : offset < virtioMmioConfig)
    (aligned : offset % 4 = 0) (word : BitVec 32) (fuel : Nat) (w : World D F VirtioMmioCtx)
    : mmioPerform ops ram env w ⟨offset, .dword, word, fuel⟩
      = virtioMmioWriteReg ops ram env fuel reg word.toNat w := by
  have access : ¬ (AccessSize.dword.bytes ≠ 4 ∨ offset % 4 ≠ 0) := by
    rw [not_or]
    exact ⟨not_not_intro rfl, not_not_intro aligned⟩
  unfold mmioPerform virtioMmioWrite
  rw [if_neg (Nat.not_le.mpr below), if_neg access, decoded]
  rfl

theorem mmioSetup_eq (size : Nat) (desc avail used : BitVec 64) (wide : Bool)
    : (DriverOp.setup q size desc avail used wide).mmioWrites.foldl (mmioPerform ops ram env) w
      = mmioQueueReady ram 1
        ((mmioSetupRegs size desc avail used).foldl (fun w update => mmioSetQueueReg update w)
          (mmioConfigure q (.ofNat 32 q) (w.transport.queues q) w)) := by
  have selecting : mmioConfigure q (.ofNat 32 q) (w.transport.queues q) w
      = w.setTransport { w.transport with queueSel := .ofNat 32 q } := by
    rw [mmioConfigure, Function.update_eq_self]
  rw [selecting]
  simp only [DriverOp.mmioWrites, List.foldl_cons]
  rw [mmioPerform_reg (show MmioReg.ofOffset 0x030 = some .queueSel from rfl) (by decide) rfl,
    mmioPerform_reg (show MmioReg.ofOffset 0x038 = some .queueNum from rfl) (by decide) rfl,
    mmioPerform_reg (show MmioReg.ofOffset 0x080 = some .queueDescLow from rfl) (by decide) rfl,
    mmioPerform_reg (show MmioReg.ofOffset 0x084 = some .queueDescHigh from rfl) (by decide) rfl,
    mmioPerform_reg (show MmioReg.ofOffset 0x090 = some .queueAvailLow from rfl) (by decide) rfl,
    mmioPerform_reg (show MmioReg.ofOffset 0x094 = some .queueAvailHigh from rfl) (by decide) rfl,
    mmioPerform_reg (show MmioReg.ofOffset 0x0a0 = some .queueUsedLow from rfl) (by decide) rfl,
    mmioPerform_reg (show MmioReg.ofOffset 0x0a4 = some .queueUsedHigh from rfl) (by decide) rfl,
    mmioPerform_reg (show MmioReg.ofOffset 0x044 = some .queueReady from rfl) (by decide) rfl]
  simp only [virtioMmioWriteReg, BitVec.ofNat_toNat, BitVec.setWidth_eq, mmioSetupRegs,
    List.foldl_cons, List.foldl_nil, show (BitVec.ofNat 32 1).toNat = 1 from rfl]

theorem mmioQueueReady_enables (selected : sel.toNat = q) (inside : q < w.vdev.nrVqs)
    (off : regs.ready = false)
    : mmioQueueReady ram 1 (mmioConfigure q sel regs w)
      = mmioEnableQueue ram q (mmioConfigure q sel regs w) := by
  have here : (mmioConfigure q sel regs w).transport.queues q = regs :=
    Function.update_self ..
  have guard : q < (mmioConfigure q sel regs w).vdev.nrVqs ∧ regs.ready = false ∧ 1 = 1 :=
    ⟨inside, off, rfl⟩
  unfold mmioQueueReady
  dsimp only
  rw [show (mmioConfigure q sel regs w).transport.queueSel.toNat = q from selected, here,
    if_neg (by simp), if_pos guard]

theorem mmioEnableQueue_eq (ram : RamMap) {q : Nat} {w : World D F VirtioMmioCtx}
    (fits : (w.transport.queues q).num.toNat < 2 ^ 16)
    : mmioEnableQueue ram q w
      = match coreEnableQueue ram q (w.transport.queues q).num.toNat
          (assembleGpa (w.transport.queues q).descHi (w.transport.queues q).descLo)
          (assembleGpa (w.transport.queues q).availHi (w.transport.queues q).availLo)
          (assembleGpa (w.transport.queues q).usedHi (w.transport.queues q).usedLo) w with
        | (false, after) => after
        | (true, after) => mmioSetReady q true after := by
  unfold mmioEnableQueue coreEnableQueue
  generalize w.transport.queues q = regs at fits
  rw [if_neg (by omega)]
  cases virtqueueSetSize (w.queue q) regs.num.toNat with
  | error => rfl
  | ok vq =>
    dsimp only
    cases virtqueueSetAddrs ram vq (assembleGpa regs.descHi regs.descLo)
      (assembleGpa regs.availHi regs.availLo) (assembleGpa regs.usedHi regs.usedLo) with
    | error => rfl
    | ok => rfl

/-- The MMIO transport shows a driver's view: the same core, and it knows which queues are
enabled.
-/
structure MmioShows (vdev : VirtioDevice) (view : DriverView D F) (w : World D F VirtioMmioCtx)
    : Prop where
  core : w.core = view.world
  shaped : w.Shaped vdev
  ready : ∀ q < vdev.nrVqs, (w.transport.queues q).ready = view.ready q

theorem MmioShows.update (shows : MmioShows vdev view w) {next : World D F VirtioMmioCtx}
    {world : World D F Unit} (core : next.core = world) (shaped : next.Shaped vdev)
    (queues : next.transport.queues = Function.update w.transport.queues q regs)
    : MmioShows vdev ⟨world, Function.update view.ready q regs.ready⟩ next := by
  refine ⟨core, shaped, ?_⟩
  intro p inside
  dsimp only
  rw [queues]
  by_cases here : p = q
  · rw [here, Function.update_self, Function.update_self]
  · rw [Function.update_of_ne here, Function.update_of_ne here]
    exact shows.ready p inside

theorem MmioShows.setup (shows : MmioShows vdev view w) (fresh : FreshDevice vdev) {size : Nat}
    {desc avail used : BitVec 64} {wide : Bool}
    (valid : (DriverOp.setup q size desc avail used wide).Valid vdev)
    : MmioShows vdev (driverStep core ram env view (.setup q size desc avail used wide))
        ((DriverOp.setup q size desc avail used wide).mmioWrites.foldl (mmioPerform ops ram env)
          w) := by
  obtain ⟨inside, power, bound⟩ := valid
  obtain ⟨fitsQ, fits⟩ := fresh.fits inside bound
  have counted : q < w.vdev.nrVqs := shows.shaped.count ▸ inside
  have same := shows.ready q inside
  have selected : (BitVec.ofNat 32 q).toNat = q := Nat.mod_eq_of_lt (by omega)
  rw [mmioSetup_eq]
  generalize BitVec.ofNat 32 q = sel at selected
  cases ready : view.ready q with
  | true =>
    have locked : ((mmioConfigure q sel (w.transport.queues q) w).transport.queues
        (mmioConfigure q sel (w.transport.queues q) w).transport.queueSel.toNat).ready
          = true := by
      rw [show (mmioConfigure q sel (w.transport.queues q) w).transport.queueSel.toNat = q
        from selected]
      simpa [mmioConfigure, World.setTransport] using same.trans ready
    rw [mmioSetQueueReg_locked locked, mmioQueueReady_locked locked, driverStep,
      if_pos ready]
    refine ⟨shows.core, shows.shaped.of_core rfl, ?_⟩
    simpa [mmioConfigure, World.setTransport] using shows.ready
  | false =>
    have off : (w.transport.queues q).ready = false := same.trans ready
    have closed : ¬ view.ready q = true := by
      rw [ready]
      exact Bool.false_ne_true
    have keeps : ∀ update ∈ mmioSetupRegs size desc avail used,
        ∀ regs, (update regs).ready = regs.ready := by
      simp [mmioSetupRegs]
    obtain ⟨sizeEq, descEq, availEq, usedEq, readyEq⟩ :=
      (w.transport.queues q).configured_fields fits desc avail used
    rw [off] at readyEq
    rw [mmioSetQueueReg_stores selected counted off keeps, driverStep, if_neg closed,
      ← shows.core]
    change MmioShows vdev _ (mmioQueueReady ram 1 (mmioConfigure q sel
      ((w.transport.queues q).configured size desc avail used) w))
    generalize (w.transport.queues q).configured size desc avail used = regs at *
    have here : (mmioConfigure q sel regs w).transport.queues q = regs :=
      Function.update_self ..
    have before : (mmioConfigure q sel regs w).Shaped vdev := shows.shaped.of_core rfl
    have shaped := before.enableQueue ram q size desc.toNat avail.toNat used.toNat
    have wires := coreEnableQueue_transport ram q size desc.toNat avail.toNat used.toNat
      (mmioConfigure q sel regs w)
    rw [mmioQueueReady_enables selected counted readyEq,
      mmioEnableQueue_eq ram (by rw [here, sizeEq]; exact fits), here, sizeEq, descEq, availEq,
      usedEq, show w.core = (mmioConfigure q sel regs w).core from rfl, coreEnableQueue_core]
    generalize coreEnableQueue ram q size desc.toNat avail.toNat used.toNat
      (mmioConfigure q sel regs w) = outcome at shaped wires ⊢
    obtain ⟨enabled, after⟩ := outcome
    cases enabled with
    | false =>
      have kept := @MmioShows.update _ _ vdev view w q regs shows after _ rfl shaped
        (by rw [show after.transport = _ from wires]; rfl)
      rwa [readyEq] at kept
    | true =>
      have same : after.transport = (mmioConfigure q sel regs w).transport := wires
      have stored : (mmioSetReady q true after).transport.queues
          = Function.update w.transport.queues q { regs with ready := true } := by
        simp only [mmioSetReady]
        rw [same, here]
        exact Function.update_idem regs _ w.transport.queues
      have ready : (mmioSetReady q true after).Shaped vdev := shaped.of_core rfl
      exact shows.update rfl ready stored

theorem MmioShows.features (shows : MmioShows vdev view w) (selector word : BitVec 32)
    : MmioShows vdev (driverStep core ram env view (.features selector word))
        ((DriverOp.features selector word).mmioWrites.foldl (mmioPerform ops ram env) w) := by
  let selecting := w.setTransport { w.transport with driverFeaturesSel := selector }
  have chosen : (DriverOp.features selector word).mmioWrites.foldl (mmioPerform ops ram env) w
      = virtioDeviceSetFeatures selector.toNat word selecting := by
    simp only [DriverOp.mmioWrites, List.foldl_cons]
    rw [mmioPerform_reg (show MmioReg.ofOffset 0x024 = some .driverFeaturesSel from rfl)
        (by decide) rfl,
      mmioPerform_reg (show MmioReg.ofOffset 0x020 = some .driverFeatures from rfl)
        (by decide) rfl]
    simp only [virtioMmioWriteReg, BitVec.ofNat_toNat]
    rfl
  have shaped : selecting.Shaped vdev := shows.shaped.of_core rfl
  rw [chosen]
  refine ⟨?_, shaped.setFeatures selector.toNat word, ?_⟩
  · rw [← virtioDeviceSetFeatures_core, driverStep, ← shows.core]
    rfl
  · rw [virtioDeviceSetFeatures_transport]
    exact shows.ready

theorem MmioShows.status (same : Erases ops core) (shows : MmioShows vdev view w)
    (byte : BitVec 8)
    : MmioShows vdev (driverStep core ram env view (.status byte))
        ((DriverOp.status byte).mmioWrites.foldl (mmioPerform ops ram env) w) := by
  have value : (byte.setWidth 32).toNat = byte.toNat := by
    rw [BitVec.toNat_setWidth, Nat.mod_eq_of_lt (Nat.lt_trans byte.isLt (by decide))]
  have written : (DriverOp.status byte).mmioWrites.foldl (mmioPerform ops ram env) w
      = let after := virtioDeviceSetStatus ops byte w
        if byte.toNat = 0 then after.setTransport .zero else after := by
    simp only [DriverOp.mmioWrites, List.foldl_cons, List.foldl_nil]
    rw [mmioPerform_reg (show MmioReg.ofOffset 0x070 = some .status from rfl) (by decide) rfl,
      value]
    simp only [virtioMmioWriteReg, BitVec.ofNat_toNat, BitVec.setWidth_eq]
  have shaped := shows.shaped.setStatus ops byte
  rw [written, driverStep, ← shows.core, virtioDeviceSetStatus_core same]
  by_cases zero : byte = 0
  · rw [if_pos (by rw [zero]; rfl)]
    refine ⟨rfl, shaped.of_core rfl, ?_⟩
    intro q inside
    simp only [if_pos zero]
    rfl
  · have some : byte.toNat ≠ 0 := fun none => zero (BitVec.eq_of_toNat_eq none)
    rw [if_neg some]
    refine ⟨rfl, shaped, ?_⟩
    intro q inside
    rw [virtioDeviceSetStatus_transport]
    simpa only [if_neg zero] using shows.ready q inside

theorem MmioShows.doorbell (portable : Portable ops core) (fresh : FreshDevice vdev)
    (shows : MmioShows vdev view w) (inside : q < vdev.nrVqs) (fuel : Nat)
    : MmioShows vdev (driverStep core ram env view (.doorbell q fuel))
        ((DriverOp.doorbell q fuel).mmioWrites.foldl (mmioPerform ops ram env) w) := by
  have fits : q < 2 ^ 16 := (fresh.fits inside (Nat.le_refl _)).1
  have counted : q < w.vdev.nrVqs := shows.shaped.count ▸ inside
  have value : (BitVec.ofNat 32 q).toNat = q := Nat.mod_eq_of_lt (by omega)
  have rung : (DriverOp.doorbell q fuel).mmioWrites.foldl (mmioPerform ops ram env) w
      = if q < w.vdev.nrVqs ∧ (w.transport.queues q).ready = true
          ∧ virtioDeviceReady w.vdev = true then
        ops.notifyQueue ram env fuel q w
      else w := by
    simp only [DriverOp.mmioWrites, List.foldl_cons]
    rw [mmioPerform_reg (show MmioReg.ofOffset 0x050 = some .queueNotify from rfl) (by decide)
      rfl, value]
    rfl
  have guard : (view.ready q && virtioDeviceReady view.world.vdev) = true
      ↔ q < w.vdev.nrVqs ∧ (w.transport.queues q).ready = true
        ∧ virtioDeviceReady w.vdev = true := by
    rw [Bool.and_eq_true, shows.ready q inside, ← shows.core]
    exact ⟨fun both => ⟨counted, both⟩, And.right⟩
  rw [rung, driverStep]
  by_cases rings : q < w.vdev.nrVqs ∧ (w.transport.queues q).ready = true
      ∧ virtioDeviceReady w.vdev = true
  · have frame := portable.undisturbed ram env fuel q w
    rw [if_pos rings, if_pos (guard.mpr rings)]
    refine ⟨?_, shows.shaped.undisturbed frame, ?_⟩
    · rw [← portable.notify, shows.core]
    · rw [frame.transport.mmioQueues]
      exact shows.ready
  · rw [if_neg rings, if_neg fun both => rings (guard.mp both)]
    exact shows

theorem MmioShows.step (portable : Portable ops core) (fresh : FreshDevice vdev) {op : DriverOp}
    (valid : op.Valid vdev) (shows : MmioShows vdev view w)
    : MmioShows vdev (driverStep core ram env view op)
        (op.mmioWrites.foldl (mmioPerform ops ram env) w) := by
  cases op with
  | features selector word => exact shows.features selector word
  | status byte => exact shows.status portable.toErases byte
  | setup => exact shows.setup fresh valid
  | doorbell q fuel => exact shows.doorbell portable fresh valid fuel

/-- The world after a driver issued a script through the registers of a realized device. -/
def mmioRun (ops : VirtioDeviceOps D F VirtioMmioCtx) (ram : RamMap) (env : Env D)
    (guest : Guest D) (vdev : VirtioDevice) (frontend : F) (script : List DriverOp)
    : World D F VirtioMmioCtx :=
  (script.flatMap DriverOp.mmioWrites).foldl (mmioPerform ops ram env)
    (virtioMmioRealize guest vdev frontend)

theorem mmioRun_shows (portable : Portable ops core) (fresh : FreshDevice vdev) (ram : RamMap)
    (env : Env D) (guest : Guest D) (frontend : F) {script : List DriverOp}
    (valid : ∀ op ∈ script, op.Valid vdev)
    : MmioShows vdev (driverRun core ram env guest vdev frontend script)
        (mmioRun ops ram env guest vdev frontend script) := by
  have start : MmioShows vdev (.initial guest vdev frontend)
      (virtioMmioRealize guest vdev frontend) :=
    ⟨rfl, ⟨rfl, fun _ => rfl⟩, fun _ _ => rfl⟩
  rw [mmioRun, List.foldl_flatMap]
  refine List.foldl_rel start ?_
  intro op member view w shows
  exact shows.step portable fresh (valid op member)

end Mmio

/-- A realized device of one model, with the operations of that model behind either transport. -/
inductive SameModel
    : {F : Type} → VirtioDeviceOps D F VirtioPciCtx → VirtioDeviceOps D F VirtioMmioCtx
      → VirtioDevice → F → Prop
  | blk {S : Type} (backend : BlockBackend S) (vdev : VirtioDevice) (ctx : VirtioBlkCtx S)
    (realized : Realized (virtioBlkOps backend : VirtioDeviceOps D _ VirtioPciCtx) vdev ctx)
    : SameModel (virtioBlkOps backend) (virtioBlkOps backend) vdev ctx
  | net {S : Type} (backend : NetBackend S) (vdev : VirtioDevice) (ctx : VirtioNetCtx S)
    (realized : Realized (virtioNetOps backend : VirtioDeviceOps D _ VirtioPciCtx) vdev ctx)
    : SameModel (virtioNetOps backend) (virtioNetOps backend) vdev ctx

theorem SameModel.portable {pci : VirtioDeviceOps D F VirtioPciCtx}
    {mmio : VirtioDeviceOps D F VirtioMmioCtx} {vdev : VirtioDevice} {frontend : F}
    (same : SameModel pci mmio vdev frontend)
    : FreshDevice vdev ∧ ∃ core, Portable pci core ∧ Portable mmio core := by
  cases same with
  | blk backend vdev ctx realized =>
    exact ⟨realized.fresh, _, virtioBlkOps_portable backend, virtioBlkOps_portable backend⟩
  | net backend vdev ctx realized =>
    exact ⟨realized.fresh, _, virtioNetOps_portable backend, virtioNetOps_portable backend⟩

/-- Whatever script a driver issues, the device ends behind PCI and behind MMIO with the same
status, features and queues, in the same guest memory; and if it remembers its calls of
`notify_queue`, those are the same in the same order.
-/
theorem transports_equivalent (ram : RamMap) (env : Env D) (guest : Guest D)
    (place : VirtioPciPlace) {pci : VirtioDeviceOps D F VirtioPciCtx}
    {mmio : VirtioDeviceOps D F VirtioMmioCtx} {vdev : VirtioDevice} {frontend : F}
    (same : SameModel pci mmio vdev frontend) {script : List DriverOp}
    (valid : ∀ op ∈ script, op.Valid vdev)
    : let onPci := pciRun pci ram env place guest vdev frontend script
      let onMmio := mmioRun mmio ram env guest vdev frontend script
      let tracedOnPci := pciRun pci.traced ram env place guest vdev (frontend, []) script
      let tracedOnMmio := mmioRun mmio.traced ram env guest vdev (frontend, []) script
      onPci.vdev = onMmio.vdev ∧ onPci.guest = onMmio.guest
        ∧ onPci.frontend = onMmio.frontend
        ∧ tracedOnPci.vdev = onPci.vdev ∧ tracedOnMmio.vdev = onMmio.vdev
        ∧ tracedOnPci.frontend.2 = tracedOnMmio.frontend.2 := by
  obtain ⟨fresh, core, behindPci, behindMmio⟩ := same.portable
  have onPci := (pciRun_shows behindPci fresh ram env place guest frontend valid).core
  have onMmio := (mmioRun_shows behindMmio fresh ram env guest frontend valid).core
  have tracedOnPci :=
    (pciRun_shows behindPci.traced fresh ram env place guest (frontend, []) valid).core
  have tracedOnMmio :=
    (mmioRun_shows behindMmio.traced fresh ram env guest (frontend, []) valid).core
  have plain := onPci.trans onMmio.symm
  have traced := tracedOnPci.trans tracedOnMmio.symm
  -- Without its memory, the traced core is the plain one.
  have untraced := congrArg (fun view => view.world.vdev)
    (driverRun_untraced core ram env guest vdev frontend script)
  refine ⟨congrArg World.vdev plain, congrArg World.guest plain, congrArg World.frontend plain,
    ?_, ?_, congrArg (fun w => w.frontend.2) traced⟩
  · exact ((congrArg World.vdev tracedOnPci).trans untraced.symm).trans
      (congrArg World.vdev onPci).symm
  · exact ((congrArg World.vdev tracedOnMmio).trans untraced.symm).trans
      (congrArg World.vdev onMmio).symm

/-- The driver negotiates, sets up queue 0, rings, resets, and starts again with rings outside
memory.
-/
def diskScript : List DriverOp :=
  [.status 3, .features 1 1, .status 0xb, .setup 0 4 0x1000 0x2000 0x3000 false, .status 0xf,
    .doorbell 0 4, .setup 0 8 0x1000 0x2000 0x3000 true, .status 0, .status 0xf,
    .setup 0 4 0x1000 0xffffffffffff0000 0x3000 true, .doorbell 0 4]

/-- The null disk is called once, through either transport, and ends in the same state. -/
theorem transports_equivalent_disk
    : (∀ op ∈ diskScript, op.Valid nullDiskDevice)
      ∧ (pciRun (virtioBlkOps nullDisk) demoRam stillGuest ⟨0, 0, 0, 1, 0⟩ ⟨requestMemory, ()⟩
          nullDiskDevice nullDiskCtx diskScript).vdev
        = (mmioRun (virtioBlkOps nullDisk) demoRam stillGuest ⟨requestMemory, ()⟩
          nullDiskDevice nullDiskCtx diskScript).vdev
      ∧ (pciRun (virtioBlkOps nullDisk).traced demoRam stillGuest ⟨0, 0, 0, 1, 0⟩
          ⟨requestMemory, ()⟩ nullDiskDevice (nullDiskCtx, []) diskScript).frontend.2 = [0]
      ∧ (mmioRun (virtioBlkOps nullDisk).traced demoRam stillGuest
          ⟨requestMemory, ()⟩ nullDiskDevice (nullDiskCtx, []) diskScript).frontend.2 = [0] := by
  have valid : ∀ op ∈ diskScript, op.Valid nullDiskDevice := by
    have four : Nat.isPowerOfTwo 4 := ⟨2, rfl⟩
    have eight : Nat.isPowerOfTwo 8 := ⟨3, rfl⟩
    simp [diskScript, DriverOp.Valid, nullDiskDevice, four, eight]
  have called : (mmioRun (virtioBlkOps nullDisk).traced demoRam stillGuest
      ⟨requestMemory, ()⟩ nullDiskDevice (nullDiskCtx, []) diskScript).frontend.2 = [0] := by
    decide +kernel
  obtain ⟨device, -, -, -, -, calls⟩ := transports_equivalent demoRam stillGuest
    ⟨requestMemory, ()⟩ ⟨0, 0, 0, 1, 0⟩ (.blk nullDisk nullDiskDevice nullDiskCtx nullDisk_realized)
    valid
  exact ⟨valid, device, calls.trans called, called⟩

end Modvm.Virtio
