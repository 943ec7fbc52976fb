import Modvm.Core.RegionLookup
import Modvm.Hw.Pci

/-! The operations on the PCI buses of a machine, and what each of them can do. -/

namespace Modvm.Hw

open Function Modvm.Core Modvm.Lib Modvm.Util

def Machine.pools (m : Machine) (dev : Nat) : List (Option Cleanup) :=
  (m.devices dev).resources.resources

/-- An operation on the buses, with the outcomes of its allocations; a removal releases the owner's
pool.
-/
inductive BusOp where
  | registerEndpoint (action : Bool) (bus endpoint : Option Nat)
  | registerBar (node action : Bool) (endpoint : Option Nat) (index : Nat) (size : BitVec 32)
    (requestedBase : BitVec 64)
  | remove (owner : Nat)
  | writeConfig (bus : Option Nat) (devfn offset : BitVec 8) (val : BitVec 32)
    (size : BitVec 8)
  | setIrq (endpoint : Nat) (level : Bool)

def BusOp.apply (m : Machine) : BusOp → Machine
  | .registerEndpoint action bus endpoint => (pciDeviceRegister action bus endpoint m).2
  | .registerBar node action endpoint index size requestedBase =>
      (pciRegisterBar node action endpoint index size requestedBase m).2
  | .remove owner => releaseResources owner m
  | .writeConfig bus devfn offset val size => pciBusWriteConfig bus devfn offset val size m
  | .setIrq endpoint level =>
      m.setEndpoint endpoint (pciDeviceSetIrq level (m.endpoints endpoint))

def commandTarget (bus : Option Nat) (devfn offset : BitVec 8) (size : BitVec 8) (m : Machine)
    : Option Nat :=
  let offset := offset.toNat
  let size := size.toNat
  match bus with
  | none => none
  | some bus =>
      if (size ≠ 1 ∧ size ≠ 2 ∧ size ≠ 4) ∨ offset % size ≠ 0 ∨ offset + size > 256 then none
      else if offset < 6 ∧ offset + size > 4 then pciBusFindDevice m bus devfn
      else none

/-- The endpoint whose interrupt an operation other than a removal signals last. -/
def BusOp.signals (m : Machine) : BusOp → Option Nat
  | .registerEndpoint .. | .registerBar .. | .remove _ => none
  | .writeConfig bus devfn offset _ size => commandTarget bus devfn offset size m
  | .setIrq endpoint _ => some endpoint

/-- The two configuration spaces differ at most in the interrupt line and pin. -/
def PciDevice.AgreesBesidesInterrupt (dev next : PciDevice) : Prop :=
  ∀ off, off ≠ pciInterruptPin → off ≠ pciInterruptLine →
    next.configSpace off = dev.configSpace off

/-- The endpoint changes neither its place on a bus nor its owner, pin and regions. -/
structure PciDevice.Stays (dev next : PciDevice) : Prop where
  bus : next.bus = dev.bus
  owner : next.owner = dev.owner
  devfn : dev.bus.isSome → next.devfn = dev.devfn
  pin : next.interruptPin = dev.interruptPin
  regions : ∀ index, (next.bars index).region = (dev.bars index).region
  bytes : dev.AgreesBesidesInterrupt next

/-- The same regions are behind the same handles, and the pools hold the same cleanup actions. -/
structure VmCtx.Quiet (vm next : VmCtx) : Prop where
  lookup : ∀ handle, next.ioMap.find handle = vm.ioMap.find handle
  handles : vm.ioMap.nextHandle ≤ next.ioMap.nextHandle
  pools : ∀ dev action, some action ∈ (next.devices dev).resources.resources
    ↔ some action ∈ (vm.devices dev).resources.resources

def PciDevice.setBar (dev : PciDevice) (index : Nat) (bar : PciBar) (base : Nat) : PciDevice :=
  { dev with bars := update dev.bars index bar }.setBarBytes index base

/-- What an operation other than a removal does, and the endpoint that it signals last. -/
inductive BusEffect (m : Machine) : Option Nat → Machine → Prop
  /-- Nothing, but for the pool of a device that a failed registration allocated in. -/
  | quiet {vm : VmCtx} (same : VmCtx.Quiet m.toVmCtx vm) : BusEffect m none (m.setVm vm)
  /-- A failed registration prepared an endpoint that stays detached. -/
  | prepared {endpoint : Nat} {dev : PciDevice}
    (detached : (m.endpoints endpoint).bus = none) (stays : (m.endpoints endpoint).Stays dev)
    (irq : dev.irqLevel = (m.endpoints endpoint).irqLevel)
    : BusEffect m none (m.setEndpoint endpoint dev)
  /-- An endpoint is attached to a bus under a free number. -/
  | attached {bus endpoint owner : Nat} {dev : PciDevice} {pool : ResPool Cleanup}
    (detached : (m.endpoints endpoint).bus = none)
    (owned : (m.endpoints endpoint).owner = some owner)
    (there : dev.bus = some bus) (owner_eq : dev.owner = some owner)
    (free : ∀ other ∈ (m.buses bus).devices, (m.endpoints other).devfn ≠ dev.devfn)
    (pin : dev.interruptPin = (m.endpoints endpoint).interruptPin)
    (pinRange : dev.interruptPin.toNat ≤ 4)
    (bars : dev.bars = (m.endpoints endpoint).bars)
    (irq : dev.irqLevel = (m.endpoints endpoint).irqLevel)
    (pinByte : dev.configSpace pciInterruptPin = dev.interruptPin)
    (bytes : (m.endpoints endpoint).AgreesBesidesInterrupt dev)
    (scheduled : pool.resources = m.pools owner ++ [some (.pciUnregister endpoint)])
    : BusEffect m none
        (((m.setVm (m.toVmCtx.setResources owner pool)).setEndpoint endpoint dev).setBus bus
          { m.buses bus with devices := (m.buses bus).devices ++ [endpoint] })
  /-- A base address register is implemented by a new region. -/
  | barAdded {endpoint index owner base size : Nat} {vm : VmCtx}
    (attached : (m.endpoints endpoint).bus.isSome)
    (owned : (m.endpoints endpoint).owner = some owner) (inRange : index < 6)
    (empty : ((m.endpoints endpoint).bars index).region = none)
    (power : size.isPowerOfTwo) (aligned : base % size = 0) (bounded : base + size ≤ 2 ^ 32)
    (added : vm.ioMap = (m.ioMap.add ⟨m.ioMap.nextHandle, owner, base, size, .mmio, true⟩).modify
      m.ioMap.nextHandle fun reg => { reg with enabled := (m.endpoints endpoint).memoryEnabled })
    (pools : ∀ dev action, some action ∈ (vm.devices dev).resources.resources
      ↔ some action ∈ m.pools dev
        ∨ dev = owner ∧ action = .ioRegionUnregister m.ioMap.nextHandle)
    : BusEffect m none ((m.setVm vm).setEndpoint endpoint
        ((m.endpoints endpoint).setBar index
          { (m.endpoints endpoint).bars index with region := some m.ioMap.nextHandle } base))
  /-- The guest starts or ends sizing a base address register. -/
  | barProbed {endpoint index : Nat} {probe : Bool} (attached : (m.endpoints endpoint).bus.isSome)
    : BusEffect m none (m.setEndpoint endpoint
        { m.endpoints endpoint with
          bars := update (m.endpoints endpoint).bars index
            { (m.endpoints endpoint).bars index with probe := probe } })
  /-- The guest moves the region of a base address register. -/
  | barMoved {endpoint index handle : Nat} {reg : IoRegion} {offset : Nat} {val : BitVec 32}
    {size : Nat} (attached : (m.endpoints endpoint).bus.isSome) (inRange : index < 6)
    (implemented : ((m.endpoints endpoint).bars index).region = some handle)
    (found : m.ioMap.find handle = some reg)
    : BusEffect m none
        ((m.setVm (m.toVmCtx.setIoMap (m.ioMap.modify handle fun reg' => { reg' with
            base := (writtenBase reg.base reg.size offset val size).toNat }))).setEndpoint endpoint
          ((m.endpoints endpoint).setBar index
            { (m.endpoints endpoint).bars index with probe := false }
            (writtenBase reg.base reg.size offset val size).toNat))
  /-- The guest writes to the rest of the header. -/
  | headerWritten {endpoint offset : Nat} {val : BitVec 32} {size : Nat}
    (attached : (m.endpoints endpoint).bus.isSome)
    : BusEffect m (if offset < 6 ∧ offset + size > 4 then some endpoint else none)
        (pciWriteHeader endpoint offset val size m)
  /-- An endpoint asserts or deasserts its interrupt. -/
  | irqSet {endpoint : Nat} {level : Bool}
    : BusEffect m (some endpoint)
        (m.setEndpoint endpoint (pciDeviceSetIrq level (m.endpoints endpoint)))

theorem VmCtx.Quiet.refl (vm : VmCtx) : VmCtx.Quiet vm vm :=
  ⟨fun _ => rfl, Nat.le_refl _, fun _ _ => Iff.rfl⟩

theorem BusEffect.unchanged (m : Machine) : BusEffect m none m := .quiet (.refl m.toVmCtx)

theorem some_mem_resZalloc {node : Bool} {pool grown : ResPool Cleanup}
    (allocated : resZalloc node pool = some grown) (action : Cleanup)
    : some action ∈ grown.resources ↔ some action ∈ pool.resources := by
  unfold resZalloc at allocated
  split at allocated
  · cases allocated
  · cases allocated
    simp

theorem resAddAction_ok {allocated : Bool} {action : Cleanup} {pool grown : ResPool Cleanup}
    (added : resAddAction allocated action pool = .ok grown)
    : grown.resources = pool.resources ++ [some action] := by
  unfold resAddAction at added
  split at added
  · cases added
  split at added
  · cases added
  split at added
  · cases added
  · cases added
    rfl

theorem setResources_pools (vm : VmCtx) (dev : Nat) (pool : ResPool Cleanup) (other : Nat)
    : ((vm.setResources dev pool).devices other).resources
      = if other = dev then pool else (vm.devices other).resources := by
  unfold VmCtx.setResources
  by_cases here : other = dev
  · subst here
    simp
  · simp [here]

variable (node action : Bool)

/-- A refused region changes nothing that is seen; a mapped one is new. -/
theorem ioMapRegisterRegion_outcome (type : IoSpace) (base size : BitVec 64) (dev : Nat)
    {vm : VmCtx} (unused : vm.ioMap.find vm.ioMap.nextHandle = none)
    : match ioMapRegisterRegion node action type base size (some dev) vm with
      | (.error _, next) => VmCtx.Quiet vm next
      | (.ok handle, next) =>
        handle = vm.ioMap.nextHandle
        ∧ next.ioMap
          = vm.ioMap.add ⟨vm.ioMap.nextHandle, dev, base.toNat, size.toNat, type, true⟩
        ∧ ∀ other scheduled, some scheduled ∈ (next.devices other).resources.resources
          ↔ some scheduled ∈ (vm.devices other).resources.resources
            ∨ other = dev ∧ scheduled = .ioRegionUnregister vm.ioMap.nextHandle := by
  unfold ioMapRegisterRegion
  dsimp only
  split
  next next same =>
    split at same
    · cases same
      exact .refl vm
    split at same
    · cases same
      exact .refl vm
    split at same
    · cases same
      exact .refl vm
    split at same
    · cases same
      exact .refl vm
    split at same
    · cases same
      exact .refl vm
    next pool allocated =>
      split at same
      · cases same
        -- the region is linked and unlinked again
        refine ⟨fun handle => ?_, Nat.le_succ _, fun other scheduled => ?_⟩
        · simp only [VmCtx.setIoMap]
          rw [IoMap.find_remove, IoMap.find_add unused]
          by_cases here : handle = vm.ioMap.nextHandle
          · rw [if_pos here, here, unused]
          · rw [if_neg here, if_neg here]
        · simp only [VmCtx.setIoMap]
          rw [setResources_pools]
          split
          next here => rw [some_mem_resZalloc allocated, here]
          · exact Iff.rfl
      · cases same
  next handle next same =>
    split at same
    · cases same
    split at same
    · cases same
    split at same
    · cases same
    split at same
    · cases same
    split at same
    · cases same
    next pool allocated =>
      split at same
      · cases same
      next grown added =>
        cases same
        refine ⟨rfl, rfl, fun other scheduled => ?_⟩
        rw [setResources_pools]
        split
        next here =>
          rw [resAddAction_ok added, List.mem_append, some_mem_resZalloc allocated, here]
          simp
        next elsewhere =>
          simp only [VmCtx.setIoMap]
          rw [setResources_pools]
          simp [elsewhere]

theorem pciDeviceRegister_effect (action : Bool) (bus endpoint : Option Nat) (m : Machine)
    : BusEffect m none (pciDeviceRegister action bus endpoint m).2 := by
  unfold pciDeviceRegister
  split
  case h_2 => exact .unchanged m
  case h_1 bus endpoint =>
    dsimp only
    split
    case h_2 => exact .unchanged m
    case h_1 owner bridge owned bridged =>
      split
      · exact .unchanged m
      rename_i valid
      split
      · exact .unchanged m
      rename_i attached
      have detached : (m.endpoints endpoint).bus = none := by simpa using attached
      split
      · exact .unchanged m
      rename_i devfn _
      have stays : ∀ {configSpace : Nat → Byte},
          (∀ off, off ≠ pciInterruptPin → off ≠ pciInterruptLine →
            configSpace off = (m.endpoints endpoint).configSpace off) →
          (m.endpoints endpoint).Stays
            { m.endpoints endpoint with devfn := devfn, configSpace := configSpace } :=
        fun bytes => ⟨rfl, rfl, by simp [detached], rfl, fun _ => rfl, bytes⟩
      have bytes : ∀ off, off ≠ pciInterruptPin → off ≠ pciInterruptLine →
          update (update (m.endpoints endpoint).configSpace pciInterruptPin
            (m.endpoints endpoint).interruptPin) pciInterruptLine 0 off
          = (m.endpoints endpoint).configSpace off := by
        intro off pin line
        rw [update_of_ne line, update_of_ne pin]
      split
      · exact .prepared detached (stays fun _ _ _ => rfl) rfl
      rename_i free
      split
      · exact .prepared detached (stays bytes) rfl
      rename_i pool added
      refine .attached detached owned rfl owned ?_ rfl ?_ rfl rfl ?_ bytes
        (resAddAction_ok added)
      · intro other member same
        exact free (List.any_eq_true.mpr ⟨other, member, by simp [same]⟩)
      · exact Nat.le_of_not_lt (not_or.mp valid).2
      · simp [pciInterruptPin, pciInterruptLine]

/-- A base address register of an endpoint on a bus gets a region of its own, under the next
handle.
-/
structure BarAdded (m : Machine) (endpoint index owner base size : Nat) (vm : VmCtx) : Prop where
  attached : (m.endpoints endpoint).bus.isSome
  owned : (m.endpoints endpoint).owner = some owner
  inRange : index < 6
  empty : ((m.endpoints endpoint).bars index).region = none
  wide : 16 ≤ size
  power : size.isPowerOfTwo
  aligned : base % size = 0
  bounded : base + size ≤ 2 ^ 32
  added : vm.ioMap = (m.ioMap.add ⟨m.ioMap.nextHandle, owner, base, size, .mmio, true⟩).modify
    m.ioMap.nextHandle fun reg => { reg with enabled := (m.endpoints endpoint).memoryEnabled }
  pools : ∀ dev action, some action ∈ (vm.devices dev).resources.resources
    ↔ some action ∈ m.pools dev ∨ dev = owner ∧ action = .ioRegionUnregister m.ioMap.nextHandle

variable {m : Machine}

section

variable (endpoint : Option Nat) (index : Nat) (size : BitVec 32) (requestedBase : BitVec 64)
  (unused : m.ioMap.find m.ioMap.nextHandle = none)
include unused

theorem pciRegisterBar_outcome
    : let next := (pciRegisterBar node action endpoint index size requestedBase m).2
      (∃ vm, VmCtx.Quiet m.toVmCtx vm ∧ next = m.setVm vm)
      ∨ ∃ endpoint owner base size vm, BarAdded m endpoint index owner base size vm
        ∧ next = (m.setVm vm).setEndpoint endpoint ((m.endpoints endpoint).setBar index
          { (m.endpoints endpoint).bars index with region := some m.ioMap.nextHandle } base) := by
  have nothing : ∃ vm, VmCtx.Quiet m.toVmCtx vm ∧ m = m.setVm vm := ⟨m.toVmCtx, .refl _, rfl⟩
  unfold pciRegisterBar
  split
  case h_1 => exact .inl nothing
  case h_2 endpoint =>
    dsimp only
    split
    case h_2 => exact .inl nothing
    case h_1 bus owner there owned =>
      split
      · exact .inl nothing
      rename_i inRange
      split
      case isFalse => exact .inl nothing
      case isTrue valid =>
        split
        · exact .inl nothing
        rename_i empty
        split
        · exact .inl nothing
        rename_i base _
        split
        · exact .inl nothing
        rename_i placed
        have ⟨aligned, low⟩ := not_or.mp placed
        have outcome := ioMapRegisterRegion_outcome node action .mmio (.ofNat 64 base)
          (size.setWidth 64) owner unused
        have base_eq : (BitVec.ofNat 64 base).toNat = base := by
          rw [BitVec.toNat_ofNat, Nat.mod_eq_of_lt (by omega)]
        have size_eq : (size.setWidth 64).toNat = size.toNat := by
          rw [BitVec.toNat_setWidth, Nat.mod_eq_of_lt (by omega)]
        rw [base_eq, size_eq] at outcome
        split
        next failed =>
          rw [failed] at outcome
          exact .inl ⟨_, outcome, rfl⟩
        next registered =>
          rw [registered] at outcome
          obtain ⟨rfl, added, pools⟩ := outcome
          refine .inr ⟨endpoint, owner, base, size.toNat, _, ?_, rfl⟩
          refine ⟨by simp [there], owned, Nat.lt_of_not_le inRange, by simpa using empty,
            valid.1, (notPowerOfTwo_eq_false_iff (by omega)).mp valid.2,
            by simpa using aligned, by omega, ?_, pools⟩
          rw [← added]
          rfl

/-- A BAR is added as a whole or not at all. -/
theorem pciRegisterBar_effect
    : BusEffect m none (pciRegisterBar node action endpoint index size requestedBase m).2 := by
  rcases pciRegisterBar_outcome node action endpoint index size requestedBase unused with
    ⟨vm, quiet, next⟩ | ⟨endpoint, owner, base, size, vm, bar, next⟩
  · rw [next]
    exact .quiet quiet
  · rw [next]
    exact .barAdded bar.attached bar.owned bar.inRange bar.empty bar.power bar.aligned bar.bounded
      bar.added bar.pools

end

theorem ioMapRelocateRegion_outcome {handle : Nat} {reg : IoRegion} {vm : VmCtx}
    (found : vm.ioMap.find handle = some reg) (newBase : BitVec 64)
    : match ioMapRelocateRegion (some handle) newBase vm with
      | (.error _, next) => next = vm
      | (.ok _, next) => next = vm.setIoMap
          (vm.ioMap.modify handle fun reg => { reg with base := newBase.toNat }) := by
  have name := IoMap.find_handle found
  unfold ioMapRelocateRegion
  simp only [Option.bind_some, found]
  split
  next refused =>
    split at refused
    · cases refused; rfl
    split at refused
    · cases refused; rfl
    split at refused
    · cases refused; rfl
    · cases refused
  next moved =>
    split at moved
    · cases moved
    split at moved
    · cases moved
    split at moved
    · cases moved
    · cases moved
      rw [name]

theorem pciWriteBar_effect {endpoint offset : Nat} (val : BitVec 32) (size : Nat)
    (attached : (m.endpoints endpoint).bus.isSome) (inRange : (offset - 0x10) / 4 < 6)
    : BusEffect m none (pciWriteBar endpoint offset val size m) := by
  unfold pciWriteBar
  dsimp only
  split
  · exact .unchanged m
  rename_i handle implemented
  split
  · exact .barProbed attached
  split
  · exact .barProbed attached
  rename_i reg found
  have outcome := ioMapRelocateRegion_outcome found
    ((writtenBase reg.base reg.size offset val size).setWidth 64)
  split
  next refused =>
    rw [refused] at outcome
    subst outcome
    exact .barProbed attached
  next moved =>
    rw [moved] at outcome
    subst outcome
    exact .barMoved attached inRange implemented found

/-- A configuration write signals at most the endpoint it addresses. -/
theorem pciBusWriteConfig_effect (bus : Option Nat) (devfn offset : BitVec 8) (val : BitVec 32)
    (size : BitVec 8)
    (listed : ∀ bus endpoint, endpoint ∈ (m.buses bus).devices
      → (m.endpoints endpoint).bus = some bus)
    : BusEffect m (commandTarget bus devfn offset size m)
        (pciBusWriteConfig bus devfn offset val size m) := by
  unfold pciBusWriteConfig commandTarget
  dsimp only
  split
  · exact .unchanged m
  rename_i bus
  split
  · exact .unchanged m
  cases found : pciBusFindDevice m bus devfn with
  | none =>
    simp only [found, ite_self]
    exact .unchanged m
  | some endpoint =>
    have attached : (m.endpoints endpoint).bus.isSome := by
      rw [listed bus endpoint (List.mem_of_find?_eq_some found)]
      rfl
    simp only [found]
    by_cases high : offset.toNat ≥ 0x40
    · rw [if_pos high, if_neg (by omega)]
      exact .unchanged m
    rw [if_neg high]
    by_cases window : offset.toNat ≥ 0x10 ∧ offset.toNat < 0x28
    · rw [if_pos window, if_neg (by omega)]
      exact pciWriteBar_effect val size.toNat attached (by omega)
    · rw [if_neg window]
      exact .headerWritten attached

/-- Every operation but a removal has one of the effects. -/
theorem BusOp.effect {op : BusOp} (stays : ∀ owner, op ≠ .remove owner)
    (listed : ∀ bus endpoint, endpoint ∈ (m.buses bus).devices
      → (m.endpoints endpoint).bus = some bus) (unused : m.ioMap.find m.ioMap.nextHandle = none)
    : BusEffect m (op.signals m) (op.apply m) := by
  cases op with
  | registerEndpoint action bus endpoint => exact pciDeviceRegister_effect action bus endpoint m
  | registerBar node action endpoint index size requestedBase =>
    exact pciRegisterBar_effect node action endpoint index size requestedBase unused
  | remove owner => exact absurd rfl (stays owner)
  | writeConfig bus devfn offset val size =>
    exact pciBusWriteConfig_effect bus devfn offset val size listed
  | setIrq => exact .irqSet

theorem BusOp.remove_or (op : BusOp)
    : (∃ owner, op = .remove owner) ∨ ∀ owner, op ≠ .remove owner := by
  cases op with
  | remove owner => exact .inl ⟨owner, rfl⟩
  | _ => exact .inr fun _ => nofun

end Modvm.Hw
