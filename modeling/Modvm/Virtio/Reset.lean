import Modvm.Virtio.Discipline

/-! A reset takes a device back to where it started, but for an address that the driver of a
network device has set.
-/

namespace Modvm.Virtio

open Modvm.Core Modvm.Lib Modvm.Hw

variable {D F T : Type}

/-- The core has its initial protocol state and queues. -/
structure CoreBackToStart (start w : World D F T) : Prop where
  status : w.vdev.status = start.vdev.status
  features : w.vdev.driverFeatures = start.vdev.driverFeatures
  enabled : ∀ q < start.vdev.nrVqs, (w.queue q).enabled = (start.queue q).enabled
  broken : ∀ q < start.vdev.nrVqs, (w.queue q).broken = (start.queue q).broken
  queueSize : ∀ q < start.vdev.nrVqs, (w.queue q).queueSize = (start.queue q).queueSize
  lastAvailIdx : ∀ q < start.vdev.nrVqs, (w.queue q).lastAvailIdx = (start.queue q).lastAvailIdx
  lastUsedIdx : ∀ q < start.vdev.nrVqs, (w.queue q).lastUsedIdx = (start.queue q).lastUsedIdx

/-- All MMIO registers, the interrupt line, and whatever the guest can read are as at the start. -/
structure MmioBackToStart (ops : VirtioDeviceOps D F VirtioMmioCtx)
    (start w : World D F VirtioMmioCtx) : Prop
    extends CoreBackToStart start w where
  registers : w.transport = start.transport
  reads : ∀ offset size, virtioMmioRead ops offset size w = virtioMmioRead ops offset size start

/-- The PCI registers are as at the start, and both levels of the interrupt. -/
structure PciRegistersBack (start w : World D F VirtioPciCtx) : Prop where
  commonCfg : w.transport.commonCfg = start.transport.commonCfg
  queues : ∀ q < start.vdev.nrVqs, w.transport.queues q = start.transport.queues q
  isrStatus : w.transport.isrStatus = start.transport.isrStatus
  irqLevel : w.transport.pciDev.irqLevel = start.transport.pciDev.irqLevel
  forwarded : w.transport.pciDev.forwarded = start.transport.pciDev.forwarded

/-- Behind the PCI transport, registers and whatever the guest can read are as at the start. -/
structure PciBackToStart (ops : VirtioDeviceOps D F VirtioPciCtx)
    (start w : World D F VirtioPciCtx) : Prop
    extends CoreBackToStart start w, PciRegistersBack start w where
  reads : ∀ offset size,
    (virtioPciBar0Read ops offset size w).1 = (virtioPciBar0Read ops offset size start).1

def MmioOp.clear : MmioOp := .write ⟨0x070, .dword, 0, 0⟩

def PciOp.clear : PciOp := .write ⟨20, .byte, 0, 0⟩

def SameConfig (ops : VirtioDeviceOps D F T) (before after : F) : Prop :=
  ∀ offset size, configRead ops after offset size = configRead ops before offset size

section Config

theorem readConfigBytes_byte (config : List Byte) {i : Nat} (inside : i < config.length)
    : readConfigBytes config i 1 = config[i].toNat := by
  have valid : ¬ (1 = 0 ∨ 1 > 8 ∨ i > config.length ∨ 1 > config.length - i) := by omega
  rw [readConfigBytes, if_neg valid, List.drop_eq_getElem_cons inside, List.take_succ_cons,
    List.take_zero, leNat, leNat]
  omega

theorem VirtioNetConfig.read_mac (config : VirtioNetConfig) {i : Nat}
    (inside : i < config.mac.length)
    : readConfigBytes config.bytes i 1 = config.mac[i].toNat := by
  have within : i < config.bytes.length := by
    simp only [VirtioNetConfig.bytes, List.length_append]
    omega
  rw [readConfigBytes_byte config.bytes within]
  simp only [VirtioNetConfig.bytes, List.append_assoc, List.getElem_append_left inside]

theorem SameButMac.sameConfig_iff {S : Type} [VirtioTransport T] {backend : NetBackend S}
    {before after : VirtioNetCtx S} (same : SameButMac before after)
    : SameConfig (virtioNetOps backend : VirtioDeviceOps D (VirtioNetCtx S) T) before after
      ↔ after.config.mac = before.config.mac := by
  constructor
  · intro reads
    refine List.ext_getElem same.length ?_
    intro i inAfter inBefore
    have byte := reads i 1
    simp only [configRead, virtioNetOps] at byte
    rw [VirtioNetConfig.read_mac _ inAfter, VirtioNetConfig.read_mac _ inBefore] at byte
    exact BitVec.eq_of_toNat_eq byte
  · intro address offset size
    simp only [configRead, virtioNetOps]
    rw [same.rest, address]

end Config

/-- The device started fresh, is served, keeps its features, and its configuration reads the same
exactly if its address is the same.
-/
structure Resettable [VirtioTransport T] (ops : VirtioDeviceOps D F T) (vdev : VirtioDevice)
    (frontend : F) (address : F → List Byte) (keeps : F → F → Prop) : Prop where
  fresh : FreshDevice vdev
  served : Served ops keeps
  features : ∀ after, ops.getFeatures after = ops.getFeatures frontend
  config : ∀ after, keeps frontend after
    → (SameConfig ops frontend after ↔ address after = address frontend)

variable {address : F → List Byte}

theorem RealizedWith.resettable [VirtioTransport T] {ops : VirtioDeviceOps D F T}
    {vdev : VirtioDevice} {frontend : F} (realized : RealizedWith ops vdev frontend address)
    : ∃ keeps, Resettable ops vdev frontend address keeps := by
  have fresh := Realized.fresh ⟨address, realized⟩
  cases realized with
  | blk backend =>
    refine ⟨_, fresh, virtioBlkOps_served backend, fun _ => rfl, ?_⟩
    intro after same
    refine ⟨fun _ => rfl, ?_⟩
    intro _ offset size
    simp only [configRead, virtioBlkOps]
    rw [same]
  | net backend =>
    exact ⟨_, fresh, virtioNetOps_served backend, fun _ => rfl, fun _ same =>
      same.sameConfig_iff⟩

structure Lasting (keeps : F → F → Prop) (start w : World D F T) : Prop where
  deviceId : w.vdev.deviceId = start.vdev.deviceId
  nrVqs : w.vdev.nrVqs = start.vdev.nrVqs
  maxSize : ∀ q, (w.queue q).maxSize = (start.queue q).maxSize
  frontend : keeps start.frontend w.frontend

theorem Lasting.congr {keeps : F → F → Prop} {start w next : World D F T}
    (lasting : Lasting keeps start w) (deviceId : next.vdev.deviceId = w.vdev.deviceId)
    (nrVqs : next.vdev.nrVqs = w.vdev.nrVqs)
    (maxSize : ∀ q, (next.queue q).maxSize = (w.queue q).maxSize)
    (frontend : next.frontend = w.frontend)
    : Lasting keeps start next :=
  ⟨deviceId.trans lasting.deviceId, nrVqs.trans lasting.nrVqs,
    fun q => (maxSize q).trans (lasting.maxSize q), frontend ▸ lasting.frontend⟩

theorem Lasting.setQueue {keeps : F → F → Prop} {start w : World D F T}
    (lasting : Lasting keeps start w) {q : Nat} {vq : Virtqueue}
    (maxSize : vq.maxSize = (w.queue q).maxSize)
    : Lasting keeps start (w.setQueue q vq) := by
  refine lasting.congr rfl rfl ?_ rfl
  intro p
  by_cases here : p = q
  · rw [here, World.queue_setQueue_self, maxSize]
  · rw [World.queue_setQueue_other w vq here]

theorem virtioDeviceSetStatus_clear {ops : VirtioDeviceOps D F T} (noReset : ops.reset = none)
    (w : World D F T)
    : virtioDeviceSetStatus ops 0 w = { w with vdev := resetDevice w.vdev } := by
  rw [virtioDeviceSetStatus, if_pos rfl, noReset]

section
variable [VirtioTransport T] {ops : VirtioDeviceOps D F T} {ram : RamMap} {env : Env D}
  {keeps : F → F → Prop} {wires : T → T → Prop} {start w next : World D F T}

section

variable (served : Served ops keeps) (lasting : Lasting keeps start w)
include served lasting

theorem Lasting.step (step : CoreStep ops ram env keeps wires w next)
    : Lasting keeps start next := by
  cases step with
  | session session =>
    have undisturbed := session.undisturbed
    exact ⟨undisturbed.deviceId.trans lasting.deviceId,
      undisturbed.count.trans lasting.nrVqs,
      fun q => (undisturbed.setup q).maxSize.trans (lasting.maxSize q),
      served.trans _ _ _ lasting.frontend (session.frontend served.refl served.trans)⟩
  | status nonzero =>
    rw [virtioDeviceSetStatus_nonzero ops nonzero]
    exact lasting.congr rfl rfl (fun _ => rfl) rfl
  | features =>
    unfold virtioDeviceSetFeatures
    split
    · exact lasting
    · exact lasting.congr rfl rfl (fun _ => rfl) rfl
  | resize set =>
    obtain ⟨-, rfl, -⟩ := virtqueueSetSize_ok set
    exact lasting.setQueue rfl
  | enable set =>
    obtain ⟨-, -, maxSize, -⟩ := virtqueueSetAddrs_ok set
    exact lasting.setQueue maxSize
  | disable => exact lasting.setQueue rfl
  | registers => exact lasting.congr rfl rfl (fun _ => rfl) rfl

theorem Lasting.steps (steps : CoreSteps ops ram env keeps wires w next)
    : Lasting keeps start next := by
  induction steps with
  | refl => exact lasting
  | tail _ step ih => exact ih.step served step

theorem Lasting.reset (transport : T)
    : Lasting keeps start ((virtioDeviceSetStatus ops 0 w).setTransport transport) := by
  rw [virtioDeviceSetStatus_clear served.noReset]
  refine lasting.congr rfl rfl ?_ rfl
  intro q
  simp only [World.setTransport, World.queue, resetDevice]
  split
  · rfl
  · rfl

end

theorem Lasting.of_run {ι : Type} {step : World D F T → ι → World D F T} {resets : ι → Prop}
    (served : Served ops keeps)
    (core : ∀ op w, (¬ resets op ∧ CoreSteps ops ram env keeps wires w (step w op))
      ∨ (resets op ∧ ∃ transport,
          step w op = (virtioDeviceSetStatus ops 0 w).setTransport transport))
    {done : List ι} (run : Run (Performs step) start done w)
    : Lasting keeps start w := by
  refine run.invariant (Lasting keeps start) ?_ ⟨rfl, rfl, fun _ => rfl, served.refl _⟩
  rintro before op _ lasting rfl
  rcases core op before with ⟨-, steps⟩ | ⟨-, transport, reset⟩
  · exact lasting.steps served steps
  · exact reset ▸ lasting.reset served transport

theorem Lasting.coreBackToStart (served : Served ops keeps) (lasting : Lasting keeps start w)
    (fresh : FreshDevice start.vdev) (transport : T)
    : CoreBackToStart start ((virtioDeviceSetStatus ops 0 w).setTransport transport) := by
  rw [virtioDeviceSetStatus_clear served.noReset]
  have reset : ∀ q < start.vdev.nrVqs,
      World.queue (({ w with vdev := resetDevice w.vdev }).setTransport transport) q
        = virtqueueReset (w.queue q) := by
    intro q inside
    simp only [World.setTransport, World.queue, resetDevice, lasting.nrVqs, if_pos inside]
  have created : ∀ q < start.vdev.nrVqs, ∃ size ≤ 2 ^ 15,
      virtqueueCreate true size = some (start.queue q) :=
    fresh.created
  refine ⟨fresh.status.symm, fresh.features.symm, ?_, ?_, ?_, ?_, ?_⟩ <;>
    intro q inside <;>
    obtain ⟨size, -, made⟩ := created q inside <;>
    obtain ⟨enabled, broken, queueSize, maxSize, avail, used, -⟩ := virtqueueCreate_off made <;>
    rw [reset q inside]
  · exact enabled.symm
  · exact broken.symm
  · rw [virtqueueReset, lasting.maxSize, maxSize, queueSize]
  · exact avail.symm
  · exact used.symm

end

section Mmio

variable {ops : VirtioDeviceOps D F VirtioMmioCtx} {keeps : F → F → Prop}
  {start : World D F VirtioMmioCtx}

theorem mmioOpStep_clear (ops : VirtioDeviceOps D F VirtioMmioCtx) (ram : RamMap) (env : Env D)
    (w : World D F VirtioMmioCtx)
    : mmioOpStep ops ram env w .clear = (virtioDeviceSetStatus ops 0 w).setTransport .zero := rfl

section

variable {w : World D F VirtioMmioCtx} (core : CoreBackToStart start w)
  (lasting : Lasting keeps start w) (registers : w.transport = start.transport)
  (features : ops.getFeatures w.frontend = ops.getFeatures start.frontend)
include core lasting registers features

theorem virtioMmioReadReg_back (reg : MmioReg)
    : virtioMmioReadReg ops reg w = virtioMmioReadReg ops reg start := by
  cases reg with
  | deviceId => exact lasting.deviceId
  | deviceFeatures => simp only [virtioMmioReadReg, registers, features]
  | queueNumMax => simp only [virtioMmioReadReg, registers, lasting.nrVqs, lasting.maxSize]
  | queueReady => simp only [virtioMmioReadReg, registers, lasting.nrVqs]
  | interruptStatus => simp only [virtioMmioReadReg, registers]
  | status => simp only [virtioMmioReadReg, core.status]
  | _ => rfl

theorem mmioBackToStart_iff
    : MmioBackToStart ops start w ↔ SameConfig ops start.frontend w.frontend := by
  constructor
  · intro back offset size
    have reads := back.reads (virtioMmioConfig + offset) size
    simpa only [virtioMmioRead, Nat.le_add_right, if_true, Nat.add_sub_cancel_left]
      using reads
  · intro same
    refine ⟨core, registers, ?_⟩
    intro offset size
    unfold virtioMmioRead
    rw [same]
    simp only [virtioMmioReadReg_back core lasting registers features]

end

end Mmio

section Pci

variable {ops : VirtioDeviceOps D F VirtioPciCtx} {keeps : F → F → Prop}
  {start : World D F VirtioPciCtx}

theorem pciOpStep_clear (ops : VirtioDeviceOps D F VirtioPciCtx) (ram : RamMap) (env : Env D)
    (w : World D F VirtioPciCtx)
    : pciOpStep ops ram env w .clear
      = (virtioDeviceSetStatus ops 0 w).setTransport
        (w.transport.reset (resetDevice w.vdev)) :=
  virtioPciBar0Write_reset ⟨rfl, rfl, rfl⟩ w

theorem Notified.samePlace {before after : VirtioPciCtx} (notified : Notified before after)
    : SamePlace before after := by
  induction notified with
  | refl => rfl
  | tail _ step ih =>
    rcases step with rfl | rfl
    · exact (pciDeviceSetIrq_bus ..).trans ih
    · exact (pciDeviceSetIrq_bus ..).trans ih

variable {w : World D F VirtioPciCtx}

theorem CoreSteps.samePlace {ram : RamMap} {env : Env D} {next : World D F VirtioPciCtx}
    (steps : CoreSteps ops ram env keeps SamePlace w next)
    : SamePlace w.transport next.transport := by
  induction steps with
  | refl => rfl
  | tail _ step ih =>
    refine Eq.trans ?_ ih
    cases step with
    | session session => exact session.undisturbed.transport.samePlace
    | status => rw [virtioDeviceSetStatus_transport]
    | features => rw [virtioDeviceSetFeatures_transport]
    | resize => rfl
    | enable => rfl
    | disable => rfl
    | registers wired => exact wired

theorem pciOpStep_samePlace (served : Served ops keeps) (ram : RamMap) (env : Env D)
    (op : PciOp) (w : World D F VirtioPciCtx)
    : SamePlace w.transport (pciOpStep ops ram env w op).transport := by
  rcases pciOpStep_core served ram env op w with ⟨-, steps⟩ | ⟨reset, -⟩
  · exact steps.samePlace
  · cases op with
    | write =>
      rw [pciOpStep, virtioPciBar0Write_reset reset]
      exact pciDeviceSetIrq_bus ..
    | read => exact reset.elim
    | header => exact reset.elim
    | receive => exact reset.elim

theorem pciRegistersBack_clear {place : VirtioPciPlace} {guest : Guest D} {vdev : VirtioDevice}
    {frontend : F} (lasting : Lasting keeps (virtioPciRealize place guest vdev frontend) w)
    (attached : w.transport.pciDev.bus = some place.bus)
    : PciRegistersBack (virtioPciRealize place guest vdev frontend)
        ((virtioDeviceSetStatus ops 0 w).setTransport
          (w.transport.reset (resetDevice w.vdev))) := by
  obtain ⟨irqLevel, forwarded⟩ :=
    @pciDeviceSetIrq_false w.transport.pciDev (by rw [attached]; rfl)
  have count : (resetDevice w.vdev).nrVqs = vdev.nrVqs := lasting.nrVqs
  refine ⟨?_, ?_, rfl, irqLevel, forwarded⟩
  · simp only [World.setTransport, VirtioPciCtx.reset, virtioPciRealize, count]
  · intro q inside
    have counted : q < vdev.nrVqs := inside
    have maximum : ((resetDevice w.vdev).vqs q).maxSize = (vdev.vqs q).maxSize := by
      rw [show (vdev.vqs q).maxSize = (w.queue q).maxSize from (lasting.maxSize q).symm]
      simp only [resetDevice]
      split
      · rfl
      · rfl
    simp only [World.setTransport, VirtioPciCtx.reset, virtioPciRealize, count, if_pos counted,
      maximum]

section

variable (core : CoreBackToStart start w) (lasting : Lasting keeps start w)
  (registers : PciRegistersBack start w)
  (features : ops.getFeatures w.frontend = ops.getFeatures start.frontend)
include core lasting registers features

theorem pciReadCommon_back (offset size : Nat)
    : pciReadCommon ops offset size w = pciReadCommon ops offset size start := by
  unfold pciReadCommon
  simp only [core.status, core.features, features, registers.commonCfg, lasting.nrVqs]
  -- Registers of a queue that does not exist read zero, whatever is stored for it.
  by_cases counted : start.transport.commonCfg.queueSelect < start.vdev.nrVqs
  · rw [registers.queues _ counted]
  · simp only [Nat.not_lt.mp counted, true_or, if_true]

theorem pciBackToStart_iff
    : PciBackToStart ops start w ↔ SameConfig ops start.frontend w.frontend := by
  constructor
  · intro back offset size
    have reads := back.reads (0x300 + offset) size
    have beyond : ¬ 0x300 + offset < 56 ∧ ¬ 0x300 + offset = 0x200 ∧ 0x300 + offset ≥ 0x300 := by
      omega
    simpa only [virtioPciBar0Read, beyond, if_true, if_false, Nat.add_sub_cancel_left]
      using reads
  · intro same
    refine ⟨core, registers, ?_⟩
    intro offset size
    unfold virtioPciBar0Read
    rw [same, pciReadCommon_back core lasting registers features]
    dsimp only
    rw [registers.isrStatus]
    split
    · rfl
    split
    · rfl
    split
    · rfl
    · rfl

end

end Pci

theorem mmio_clear_iff {ops : VirtioDeviceOps D F VirtioMmioCtx} {vdev : VirtioDevice}
    {frontend : F} (realized : RealizedWith ops vdev frontend address) {ram : RamMap} {env : Env D}
    {guest : Guest D} {done : List MmioOp} {w : World D F VirtioMmioCtx}
    (run : Run (Performs (mmioOpStep ops ram env)) (virtioMmioRealize guest vdev frontend) done w)
    : MmioBackToStart ops (virtioMmioRealize guest vdev frontend)
        (mmioOpStep ops ram env w .clear)
      ↔ address w.frontend = address frontend := by
  obtain ⟨keeps, resettable⟩ := realized.resettable
  have served := resettable.served
  have lasting := Lasting.of_run served (mmioOpStep_core served ram env) run
  have unchanged : ((virtioDeviceSetStatus ops 0 w).setTransport .zero).frontend
      = w.frontend := by
    rw [virtioDeviceSetStatus_clear served.noReset]
    rfl
  -- Only the configuration space is left to compare, and it depends on the address alone.
  rw [mmioOpStep_clear, mmioBackToStart_iff
    (lasting.coreBackToStart served resettable.fresh .zero) (lasting.reset served .zero) rfl
    (resettable.features _), unchanged]
  exact resettable.config w.frontend lasting.frontend

theorem pci_clear_iff {ops : VirtioDeviceOps D F VirtioPciCtx} {vdev : VirtioDevice}
    {frontend : F} {address : F → List Byte} (realized : RealizedWith ops vdev frontend address)
    {ram : RamMap} {env : Env D} {guest : Guest D} {place : VirtioPciPlace} {done : List PciOp}
    {w : World D F VirtioPciCtx}
    (run : Run (Performs (pciOpStep ops ram env)) (virtioPciRealize place guest vdev frontend)
      done w)
    : PciBackToStart ops (virtioPciRealize place guest vdev frontend)
        (pciOpStep ops ram env w .clear)
      ↔ address w.frontend = address frontend := by
  obtain ⟨keeps, resettable⟩ := realized.resettable
  have served := resettable.served
  have lasting := Lasting.of_run served (pciOpStep_core served ram env) run
  -- A detached endpoint would keep its interrupt level through the reset.
  have attached : w.transport.pciDev.bus = some place.bus := by
    refine run.invariant (fun w => w.transport.pciDev.bus = some place.bus) ?_ rfl
    rintro before op _ still rfl
    exact (pciOpStep_samePlace served ram env op before).trans still
  have unchanged : ((virtioDeviceSetStatus ops 0 w).setTransport
      (w.transport.reset (resetDevice w.vdev))).frontend = w.frontend := by
    rw [virtioDeviceSetStatus_clear served.noReset]
    rfl
  rw [pciOpStep_clear, pciBackToStart_iff
    (lasting.coreBackToStart served resettable.fresh _) (lasting.reset served _)
    (pciRegistersBack_clear lasting attached) (resettable.features _), unchanged]
  exact resettable.config w.frontend lasting.frontend

/-- A status write of zero returns a device to its initial state, behind either transport and after
any run, exactly if the hardware address is the one it was realized with. A disk has none. A network
device has no reset hook, so an address that its driver set survives.
-/
theorem reset_returns_to_start_iff (ram : RamMap) (env : Env D) (guest : Guest D)
    : (∀ (F : Type) (ops : VirtioDeviceOps D F VirtioMmioCtx) (vdev : VirtioDevice)
        (frontend : F) (address : F → List Byte), RealizedWith ops vdev frontend address
        → ∀ done w,
          Run (Performs (mmioOpStep ops ram env)) (virtioMmioRealize guest vdev frontend) done w
          → (MmioBackToStart ops (virtioMmioRealize guest vdev frontend)
              (mmioOpStep ops ram env w .clear)
            ↔ address w.frontend = address frontend))
      ∧ (∀ (F : Type) (ops : VirtioDeviceOps D F VirtioPciCtx) (vdev : VirtioDevice)
        (frontend : F) (address : F → List Byte) (place : VirtioPciPlace),
        RealizedWith ops vdev frontend address
        → ∀ done w,
          Run (Performs (pciOpStep ops ram env)) (virtioPciRealize place guest vdev frontend)
            done w
          → (PciBackToStart ops (virtioPciRealize place guest vdev frontend)
              (pciOpStep ops ram env w .clear)
            ↔ address w.frontend = address frontend)) :=
  ⟨fun _ _ _ _ _ realized _ _ run => mmio_clear_iff realized run,
    fun _ _ _ _ _ _ realized _ _ run => pci_clear_iff realized run⟩

/-- The null disk returns to its start from the session that completed a request. -/
theorem reset_returns_to_start_disk
    : servedDisk.vdev.status = 0x0f
      ∧ MmioBackToStart (virtioBlkOps nullDisk)
        (virtioMmioRealize ⟨requestMemory, ()⟩ nullDiskDevice nullDiskCtx)
        (mmioOpStep (virtioBlkOps nullDisk) demoRam stillGuest servedDisk .clear) := by
  have run : Run (Performs (mmioOpStep (virtioBlkOps nullDisk) demoRam stillGuest))
      (virtioMmioRealize ⟨requestMemory, ()⟩ nullDiskDevice nullDiskCtx) driverSession
      servedDisk :=
    Run.foldl _ _ driverSession
  refine ⟨by decide +kernel, ?_⟩
  exact ((reset_returns_to_start_iff demoRam stillGuest _).1 _ _ _ _ _
    (.blk nullDisk () true nullDiskDevice nullDiskCtx rfl) _ _ run).mpr rfl

def nullNet : NetBackend Unit where
  write _ _ := (0, ())
  getMac _ := .ok plainMac

def nullNetDevice : VirtioDevice where
  state := .active
  deviceId := virtioIdNet
  status := 0
  driverFeatures := 0
  vqs := Function.update (Function.update (Function.update (fun _ => default)
    0 ⟨256, 256, false, false, 0, 0, none, none, none, fun _ => default⟩)
    1 ⟨256, 256, false, false, 0, 0, none, none, none, fun _ => default⟩)
    2 ⟨64, 64, false, false, 0, 0, none, none, none, fun _ => default⟩
  nrVqs := 3

def nullNetCtx : VirtioNetCtx Unit :=
  ⟨(), ⟨[0x52, 0x54, 0x00, 0x12, 0x34, 0x56], 1, 0, 0, 0, 0, 0, 0, 0⟩⟩

/-- A command `VIRTIO_NET_CTRL_MAC_ADDR_SET`, made available in a queue of four slots. -/
def commandMemory : Nat → Byte :=
  writeBytes
    (writeBytes
      (writeBytes
        (writeBytes (fun _ => 0) 0x1000 (toLe 8 0x4000 ++ toLe 4 8 ++ toLe 2 1 ++ toLe 2 1))
        0x1010 (toLe 8 0x5000 ++ toLe 4 1 ++ toLe 2 2 ++ toLe 2 0))
      0x2002 (toLe 2 1))
    0x4000 [1, 1, 0x02, 0, 0, 0, 0, 0x01]

/-- The driver negotiates a control queue with addresses, sets up queue 2, and rings its
doorbell.
-/
def commandSession : List MmioOp :=
  [.reg 0x070 3 0, .reg 0x020 0x820000 0, .reg 0x024 1 0, .reg 0x020 1 0, .reg 0x070 0xb 0,
    .reg 0x030 2 0, .reg 0x038 4 0, .reg 0x080 0x1000 0, .reg 0x090 0x2000 0,
    .reg 0x0a0 0x3000 0, .reg 0x044 1 0, .reg 0x070 0xf 0, .reg 0x050 2 4]

def commandedNet : World Unit (VirtioNetCtx Unit) VirtioMmioCtx :=
  commandSession.foldl (mmioOpStep (virtioNetOps nullNet) demoRam stillGuest)
    (virtioMmioRealize ⟨commandMemory, ()⟩ nullNetDevice nullNetCtx)

/-- The driver's address survives: the configuration reads `0x02` where it read `0x52`. -/
theorem reset_keeps_driver_address
    : RealizedWith (virtioNetOps nullNet : VirtioDeviceOps Unit _ VirtioMmioCtx) nullNetDevice
        nullNetCtx (fun ctx => ctx.config.mac)
      ∧ Run (Performs (mmioOpStep (virtioNetOps nullNet) demoRam stillGuest))
        (virtioMmioRealize ⟨commandMemory, ()⟩ nullNetDevice nullNetCtx) commandSession
        commandedNet
      ∧ ¬ MmioBackToStart (virtioNetOps nullNet)
        (virtioMmioRealize ⟨commandMemory, ()⟩ nullNetDevice nullNetCtx)
        (mmioOpStep (virtioNetOps nullNet) demoRam stillGuest commandedNet .clear) := by
  refine ⟨.net nullNet () (fun _ => true) (.ok ()) nullNetDevice nullNetCtx rfl,
    Run.foldl _ _ commandSession, ?_⟩
  intro back
  have survived : virtioMmioRead (virtioNetOps nullNet) 0x100 1
      (mmioOpStep (virtioNetOps nullNet) demoRam stillGuest commandedNet .clear) = 0x02 := by
    decide +kernel
  have initial : virtioMmioRead (virtioNetOps nullNet) 0x100 1
      (virtioMmioRealize (D := Unit) ⟨commandMemory, ()⟩ nullNetDevice nullNetCtx) = 0x52 := by
    decide +kernel
  have same := back.reads 0x100 1
  rw [survived] at same
  exact absurd same (by decide)

end Modvm.Virtio
