import Modvm.Core.Vm
import Modvm.Lib.ByteMemory

/-! The PCI bus. No endpoint implements the optional configuration hooks, so they are absent. -/

namespace Modvm.Hw

open Function Modvm.Core Modvm.Lib Modvm.Util

/-- One base address register: the region it decodes to, and whether the guest is sizing it. -/
structure PciBar where
  region : Option Nat
  probe : Bool
deriving DecidableEq, Repr

/-- `struct pci_device`, and the level it last passed to the host bridge. Bus and owner are
indices.
-/
structure PciDevice where
  bus : Option Nat
  owner : Option Nat
  devfn : BitVec 8
  interruptPin : BitVec 8
  irqLevel : Bool
  forwarded : Bool
  bars : Nat → PciBar
  configSpace : Nat → Byte

structure PciBus where
  devices : List Nat
  owner : Option Nat
  mmioBase : Nat
  mmioLimit : Nat
deriving Repr

structure Machine extends VmCtx where
  endpoints : Nat → PciDevice
  buses : Nat → PciBus

namespace Machine

def setVm (m : Machine) (vm : VmCtx) : Machine := { m with toVmCtx := vm }

def setEndpoint (m : Machine) (endpoint : Nat) (dev : PciDevice) : Machine :=
  { m with endpoints := update m.endpoints endpoint dev }

def setBus (m : Machine) (bus : Nat) (state : PciBus) : Machine :=
  { m with buses := update m.buses bus state }

theorem setEndpoint_eq_self (m : Machine) (endpoint : Nat)
    : m.setEndpoint endpoint (m.endpoints endpoint) = m := by
  unfold setEndpoint
  rw [update_eq_self]

theorem setEndpoint_setEndpoint (m : Machine) (endpoint : Nat) (first second : PciDevice)
    : (m.setEndpoint endpoint first).setEndpoint endpoint second
      = m.setEndpoint endpoint second := by
  unfold setEndpoint
  rw [update_idem]

end Machine

def pciInterruptLine : Nat := 0x3c

def pciInterruptPin : Nat := 0x3d

def PciDevice.intxDisabled (dev : PciDevice) : Bool := dev.configSpace 5 &&& 4 != 0

def PciDevice.memoryEnabled (dev : PciDevice) : Bool := dev.configSpace 4 &&& 2 != 0

/-- `pci_device_set_irq_locked`: the level is recorded, and masked before it is forwarded. -/
def pciDeviceSetIrq (level : Bool) (dev : PciDevice) : PciDevice :=
  match dev.bus with
  | none => dev
  | some _ => { dev with irqLevel := level, forwarded := level && !dev.intxDisabled }

@[simp]
theorem pciDeviceSetIrq_bus (level : Bool) (dev : PciDevice)
    : (pciDeviceSetIrq level dev).bus = dev.bus := by
  unfold pciDeviceSetIrq
  split
  · rfl
  · rfl

theorem pciDeviceSetIrq_false {dev : PciDevice} (attached : dev.bus.isSome = true)
    : (pciDeviceSetIrq false dev).irqLevel = false
      ∧ (pciDeviceSetIrq false dev).forwarded = false := by
  unfold pciDeviceSetIrq
  split
  · rename_i detached
    rw [detached] at attached
    cases attached
  · exact ⟨rfl, rfl⟩

def pciBusInit (bus : Nat) (owner : Option Nat) (mmioBase mmioSize : BitVec 64) (m : Machine)
    : Except VmError Unit × Machine :=
  match owner with
  | none => (.error .einval, m)
  | some dev =>
      if !(m.devices dev).ctx || decide (mmioBase.toNat > 2 ^ 32)
          || decide (mmioSize.toNat > 2 ^ 32 - mmioBase.toNat) then (.error .einval, m)
      else
        (.ok (), m.setBus bus ⟨[], owner, mmioBase.toNat, gpaAdd mmioBase.toNat mmioSize.toNat⟩)

/-- `(base + size - 1) & ~(size - 1)` on 64-bit words. -/
def alignUp (base size : Nat) : Nat :=
  (BitVec.ofNat 64 (base + size - 1) &&& ~~~ BitVec.ofNat 64 (size - 1)).toNat

/-- One pass: past the last I/O region in the way, or a RAM region that ends later, or `base` if
free.
-/
def nextCandidate (mmio : List IoRegion) (ram : List MemRegion) (base size : Nat) : Nat :=
  let next := mmio.foldl
    (fun next reg =>
      if regionIsOverlap base size reg.base reg.size then gpaAdd reg.base reg.size else next)
    base
  ram.foldl
    (fun next reg =>
      if regionIsOverlap base size reg.gpa reg.size && decide (gpaAdd reg.gpa reg.size > next) then
        gpaAdd reg.gpa reg.size
      else next)
    next

theorem le_nextCandidate (mmio : List IoRegion) (ram : List MemRegion) (base size : Nat)
    : base ≤ nextCandidate mmio ram base size := by
  have past : ∀ {other extent : Nat}, regionIsOverlap base size other extent = true
      → base ≤ gpaAdd other extent := by
    intro other extent inTheWay
    simp only [regionIsOverlap, Bool.and_eq_true, decide_eq_true_eq] at inTheWay
    omega
  -- Both loops keep the candidate at or above the base.
  refine List.foldlRecOn (motive := fun next => base ≤ next) ram _ ?_ ?_
  · refine List.foldlRecOn (motive := fun next => base ≤ next) mmio _ (Nat.le_refl base) ?_
    intro next above reg _
    split
    · exact past ‹_›
    · exact above
  · intro next above reg _
    split
    · rename_i inTheWay
      exact past (Bool.and_eq_true_iff.mp inTheWay).1
    · exact above

theorem alignUp_isLeast {base size : Nat} (power : size.isPowerOfTwo)
    (below : base + size ≤ 2 ^ 64)
    : IsLeast {place | size ∣ place ∧ base ≤ place} (alignUp base size) :=
  roundUp_mask_isLeast power below

theorem le_alignUp {base size : Nat} (power : size.isPowerOfTwo)
    (below : base + size ≤ 2 ^ 64)
    : base ≤ alignUp base size :=
  (alignUp_isLeast power below).1.2

/-- The placement loop of `pci_register_bar_locked`: `none` is `-VM_ENOSPC`. Every round moves the
base up, to 4 GiB at most.
-/
def placeBar (mmio : List IoRegion) (ram : List MemRegion) (limit size : Nat)
    (power : size.isPowerOfTwo) (base : Nat)
    : Option Nat :=
  if base > 2 ^ 32 - 1 - (size - 1) then none
  else
    let aligned := alignUp base size
    if aligned + size > limit ∨ aligned + size > 2 ^ 32 then none
    else
      let next := nextCandidate mmio ram aligned size
      if next = aligned then some aligned else placeBar mmio ram limit size power next
termination_by 2 ^ 32 - base
decreasing_by
  rename_i low fits moved
  have positive : 0 < size := by
    obtain ⟨bits, rfl⟩ := power
    exact Nat.two_pow_pos bits
  have up : base ≤ aligned := le_alignUp power (by omega)
  have forward : aligned ≤ next := le_nextCandidate mmio ram aligned size
  change 2 ^ 32 - next < 2 ^ 32 - base
  omega

/-- The base to register: the requested one, or a free one of the window for `PCI_AUTO_MMIO`. -/
def barBase (m : Machine) (bus : PciBus) (size : Nat) (power : size.isPowerOfTwo)
    (requestedBase : BitVec 64)
    : Option Nat :=
  if requestedBase.toNat = uint64Max then
    placeBar (m.ioMap.regions .mmio) m.memSpace.regions bus.mmioLimit size power bus.mmioBase
  else some requestedBase.toNat

def PciDevice.setBarBytes (dev : PciDevice) (index base : Nat) : PciDevice :=
  { dev with configSpace := writeBytes dev.configSpace (0x10 + index * 4) (toLe 4 base) }

/-- `pci_register_bar_locked`; `node` and `action` are the outcomes of its allocations. -/
def pciRegisterBar (node action : Bool) (endpoint : Option Nat) (index : Nat)
    (size : BitVec 32) (requestedBase : BitVec 64) (m : Machine)
    : Except VmError Unit × Machine :=
  match endpoint with
  | none => (.error .einval, m)
  | some endpoint =>
      let dev := m.endpoints endpoint
      match dev.bus, dev.owner with
      | some bus, some owner =>
          if index ≥ 6 then (.error .einval, m)
          else if valid : size.toNat ≥ 16 ∧ notPowerOfTwo size.toNat = false then
            have power : size.toNat.isPowerOfTwo :=
              (notPowerOfTwo_eq_false_iff (by omega)).mp valid.2
            if (dev.bars index).region.isSome then (.error .eexist, m)
            else
              match barBase m (m.buses bus) size.toNat power requestedBase with
              | none => (.error .enospc, m)
              | some base =>
                  if base % size.toNat ≠ 0 ∨ base > 2 ^ 32 - size.toNat then
                    (.error .einval, m)
                  else
                    match ioMapRegisterRegion node action .mmio (.ofNat 64 base)
                        (size.setWidth 64) (some owner) m.toVmCtx with
                    | (.error error, vm) => (.error error, m.setVm vm)
                    | (.ok handle, vm) =>
                        -- Until memory decoding is on, the region is registered but disabled.
                        let vm := vm.setIoMap
                          (vm.ioMap.modify handle fun reg =>
                            { reg with enabled := dev.memoryEnabled })
                        let dev := { dev with
                          bars := update dev.bars index
                            { dev.bars index with region := some handle } }
                        (.ok (), (m.setVm vm).setEndpoint endpoint (dev.setBarBytes index base))
          else (.error .einval, m)
      | _, _ => (.error .einval, m)

def pciUnregister (endpoint : Nat) (m : Machine) : Machine :=
  let dev := pciDeviceSetIrq false (m.endpoints endpoint)
  let m := match dev.bus with
    | none => m
    | some bus =>
        m.setBus bus { m.buses bus with devices := (m.buses bus).devices.erase endpoint }
  m.setEndpoint endpoint
    { dev with
      bus := none
      bars := fun index => if index < 6 then ⟨none, false⟩ else dev.bars index }

def pciSlot (devfn : BitVec 8) : Nat := devfn.toNat / 8

/-- The first slot from 1 to 31 that no endpoint of the bus occupies, for `PCI_AUTO_DEVFN`. -/
def freeSlot (m : Machine) (bus : PciBus) : Option Nat :=
  (List.range' 1 31).find? fun slot =>
    !bus.devices.any fun pos => pciSlot (m.endpoints pos).devfn == slot

/-- `pci_device_register_locked`; `action` is the outcome of the allocation of its cleanup. -/
def pciDeviceRegister (action : Bool) (bus endpoint : Option Nat) (m : Machine)
    : Except VmError Unit × Machine :=
  match bus, endpoint with
  | some bus, some endpoint =>
      let dev := m.endpoints endpoint
      let state := m.buses bus
      match dev.owner, state.owner with
      | some owner, some bridge =>
          if (m.devices owner).ctx ≠ (m.devices bridge).ctx ∨ dev.interruptPin.toNat > 4 then
            (.error .einval, m)
          else if dev.bus.isSome then (.error .ebusy, m)
          else
            -- `PCI_AUTO_DEVFN` takes the first free slot, with function 0.
            let devfn := if dev.devfn = 0xff then
                (freeSlot m state).map fun slot => BitVec.ofNat 8 (slot * 8)
              else some dev.devfn
            match devfn with
            | none => (.error .enospc, m)
            | some devfn =>
                let dev := { dev with devfn := devfn }
                if state.devices.any fun pos => (m.endpoints pos).devfn == devfn then
                  (.error .ebusy, m.setEndpoint endpoint dev)
                else
                  let dev := { dev with
                    configSpace := update
                      (update dev.configSpace pciInterruptPin dev.interruptPin)
                      pciInterruptLine 0 }
                  match resAddAction action (.pciUnregister endpoint)
                      (m.devices owner).resources with
                  | .error error => (.error error, m.setEndpoint endpoint dev)
                  | .ok pool =>
                      let m := m.setVm (m.toVmCtx.setResources owner pool)
                      let m := m.setEndpoint endpoint { dev with bus := some bus }
                      (.ok (),
                        m.setBus bus { state with devices := state.devices ++ [endpoint] })
      | _, _ => (.error .einval, m)
  | _, _ => (.error .einval, m)

def writtenBase (oldBase regionSize : Nat) (offset : Nat) (val : BitVec 32) (size : Nat)
    : BitVec 32 :=
  let shift := offset % 4 * 8
  let mask := BitVec.allOnes 32 >>> (32 - size * 8)
  let base := (BitVec.ofNat 32 oldBase &&& ~~~(mask <<< shift)) ||| ((val &&& mask) <<< shift)
  base &&& ~~~ BitVec.ofNat 32 (regionSize - 1)

def pciWriteBar (endpoint offset : Nat) (val : BitVec 32) (size : Nat) (m : Machine)
    : Machine :=
  let bar := (offset - 0x10) / 4
  let dev := m.endpoints endpoint
  match (dev.bars bar).region with
  | none => m
  | some handle =>
      let probe := fun probe => { dev with
        bars := update dev.bars bar { dev.bars bar with probe := probe } }
      -- Writing all ones asks for the size and moves nothing.
      if size = 4 ∧ val = .allOnes 32 then m.setEndpoint endpoint (probe true)
      else
        match m.ioMap.find handle with
        | none => m.setEndpoint endpoint (probe false)
        | some reg =>
            let base := writtenBase reg.base reg.size offset val size
            match ioMapRelocateRegion (some handle) (base.setWidth 64) m.toVmCtx with
            -- A base that is refused leaves region and register as they were.
            | (.error _, vm) => (m.setVm vm).setEndpoint endpoint (probe false)
            | (.ok _, vm) =>
                (m.setVm vm).setEndpoint endpoint ((probe false).setBarBytes bar base.toNat)

/-- What the guest may change in the rest of the header: three command bits and the interrupt line.
-/
def headerByte (offset : Nat) (byte old : Byte) : Byte :=
  if offset = 4 then byte &&& 6
  else if offset = 5 then byte &&& 4
  else if offset = pciInterruptLine then byte
  else old

def headerBytes (configSpace : Nat → Byte) (offset : Nat) (val : BitVec 32) (size : Nat)
    : Nat → Byte :=
  fun off =>
    if offset ≤ off ∧ off < offset + size then
      headerByte off ((val >>> ((off - offset) * 8)).setWidth 8) (configSpace off)
    else configSpace off

/-- The endpoint after a guest write to the rest of the header; INTx masking applies to its level.
-/
def PciDevice.writeHeader (dev : PciDevice) (offset : Nat) (val : BitVec 32) (size : Nat)
    : PciDevice :=
  let dev := { dev with configSpace := headerBytes dev.configSpace offset val size }
  if offset < 6 ∧ offset + size > 4 then pciDeviceSetIrq dev.irqLevel dev else dev

@[simp]
theorem PciDevice.writeHeader_bus (dev : PciDevice) (offset : Nat) (val : BitVec 32)
    (size : Nat)
    : (dev.writeHeader offset val size).bus = dev.bus := by
  unfold PciDevice.writeHeader
  split
  · exact pciDeviceSetIrq_bus ..
  · rfl

/-- A guest write to the rest of the header; decoding also reaches the regions. -/
def pciWriteHeader (endpoint offset : Nat) (val : BitVec 32) (size : Nat) (m : Machine)
    : Machine :=
  let dev := (m.endpoints endpoint).writeHeader offset val size
  if offset < 6 ∧ offset + size > 4 then
    let enable := fun (map : IoMap) (bar : Nat) =>
      match (dev.bars bar).region with
      | none => map
      | some handle => map.modify handle fun reg => { reg with enabled := dev.memoryEnabled }
    (m.setVm (m.toVmCtx.setIoMap ((List.range 6).foldl enable m.ioMap))).setEndpoint endpoint
      dev
  else m.setEndpoint endpoint dev

def pciBusFindDevice (m : Machine) (bus : Nat) (devfn : BitVec 8) : Option Nat :=
  (m.buses bus).devices.find? fun pos => (m.endpoints pos).devfn == devfn

/-- One byte of a configuration read; a register being sized reads as the mask of its size. -/
def readConfigByte (m : Machine) (dev : PciDevice) (off : Nat) : Byte :=
  if off ≥ 0x10 ∧ off < 0x28 then
    let bar := dev.bars ((off - 0x10) / 4)
    match bar.region.bind m.ioMap.find, bar.probe with
    | some region, true =>
        ((~~~ BitVec.ofNat 32 (region.size - 1)) >>> (off % 4 * 8)).setWidth 8
    | _, _ => dev.configSpace off
  else dev.configSpace off

def pciBusReadConfig (bus : Option Nat) (devfn offset : BitVec 8) (size : BitVec 8) (m : Machine)
    : BitVec 32 :=
  let offset := offset.toNat
  let size := size.toNat
  match bus with
  | none => .allOnes 32
  | some bus =>
      if (size ≠ 1 ∧ size ≠ 2 ∧ size ≠ 4) ∨ offset % size ≠ 0 ∨ offset + size > 256 then
        .allOnes 32
      else
        match pciBusFindDevice m bus devfn with
        | none => .allOnes 32
        | some endpoint =>
            (List.range size).foldl
              (fun value i => value
                ||| (readConfigByte m (m.endpoints endpoint) (offset + i)).setWidth 32 <<< (i * 8))
              0

def pciBusWriteConfig (bus : Option Nat) (devfn offset : BitVec 8) (val : BitVec 32)
    (size : BitVec 8) (m : Machine)
    : Machine :=
  let offset := offset.toNat
  let size := size.toNat
  match bus with
  | none => m
  | some bus =>
      if (size ≠ 1 ∧ size ≠ 2 ∧ size ≠ 4) ∨ offset % size ≠ 0 ∨ offset + size > 256 then m
      else
        match pciBusFindDevice m bus devfn with
        | none => m
        | some endpoint =>
            if offset ≥ 0x40 then m
            else if offset ≥ 0x10 ∧ offset < 0x28 then pciWriteBar endpoint offset val size m
            else pciWriteHeader endpoint offset val size m

def runCleanup (cleanup : Cleanup) (m : Machine) : Machine :=
  match cleanup with
  | .ioRegionUnregister handle => m.setVm (m.toVmCtx.setIoMap (m.ioMap.remove handle))
  | .pciUnregister endpoint => pciUnregister endpoint m

/-- `res_release_all` on the pool of a device, whose cleanup actions touch no pool. -/
def releaseResources (dev : Nat) (m : Machine) : Machine :=
  if (m.devices dev).resources.releasing then m
  else
    let m := resRelease runCleanup (m.devices dev).resources.resources.reverse m
    m.setVm (m.toVmCtx.setResources dev resPoolInit)

end Modvm.Hw
