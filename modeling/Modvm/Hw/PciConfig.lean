import Modvm.Hw.PciTopology
import Modvm.Lib.Runs

/-! Base address registers agree with their regions, in address and in the enable flag. -/

namespace Modvm.Hw

open Function Modvm.Core Modvm.Lib Modvm.Util

/-- The register's bytes are the base of its region, aligned to its size and below 4 GiB, enabled if
and only if decoding is on.
-/
structure BarAgrees (dev : PciDevice) (index : Nat) (reg : IoRegion) : Prop where
  power : reg.size.isPowerOfTwo
  aligned : reg.base % reg.size = 0
  bounded : reg.base + reg.size ≤ 2 ^ 32
  bytes : readBytes dev.configSpace (0x10 + index * 4) 4 = toLe 4 reg.base
  enabled : reg.enabled = dev.memoryEnabled

/-- The registers in scope agree with their regions, share none, and only the owner's pool may end
one.
-/
structure Bars (scope : Nat → Prop) (pools : Nat → List (Option Cleanup)) (m : Machine)
    : Prop where
  handles : ∀ handle reg, m.ioMap.find handle = some reg → handle < m.ioMap.nextHandle
  cleanups : ∀ owner handle, some (.ioRegionUnregister handle) ∈ pools owner →
    handle < m.ioMap.nextHandle
  given : ∀ endpoint, ∀ index < 6, ∀ handle,
    ((m.endpoints endpoint).bars index).region = some handle → handle < m.ioMap.nextHandle
  single : ∀ endpoint other, ∀ index < 6, ∀ index' < 6, ∀ handle,
    ((m.endpoints endpoint).bars index).region = some handle →
    ((m.endpoints other).bars index').region = some handle → endpoint = other ∧ index = index'
  owner : ∀ endpoint, ∀ index < 6, ∀ handle owner,
    ((m.endpoints endpoint).bars index).region = some handle →
    some (.ioRegionUnregister handle) ∈ pools owner → (m.endpoints endpoint).owner = some owner
  agrees : ∀ endpoint, scope endpoint → ∀ index < 6, ∀ handle,
    ((m.endpoints endpoint).bars index).region = some handle →
    ∃ reg, m.ioMap.find handle = some reg ∧ BarAgrees (m.endpoints endpoint) index reg

/-- Only the register's four bytes and the command register matter. -/
theorem BarAgrees.congr {dev next : PciDevice} {index : Nat} {reg : IoRegion}
    (agrees : BarAgrees dev index reg)
    (bytes : ∀ off, 0x10 + index * 4 ≤ off → off < 0x14 + index * 4 →
      next.configSpace off = dev.configSpace off)
    (command : next.memoryEnabled = dev.memoryEnabled)
    : BarAgrees next index reg := by
  refine ⟨agrees.power, agrees.aligned, agrees.bounded, ?_, agrees.enabled.trans command.symm⟩
  rw [← agrees.bytes]
  refine readBytes_congr fun off inside => bytes off inside.1 ?_
  have := inside.2
  dsimp only at this
  omega

/-- A register that gets a base shows it, if the region is a power of two and aligned. -/
theorem barAgrees_setBar {dev : PciDevice} {index base : Nat} {bar : PciBar} {reg : IoRegion}
    (inRange : index < 6) (power : reg.size.isPowerOfTwo) (aligned : reg.base % reg.size = 0)
    (bounded : reg.base + reg.size ≤ 2 ^ 32) (stored : reg.base = base)
    (enabled : reg.enabled = dev.memoryEnabled)
    : BarAgrees (dev.setBar index bar base) index reg := by
  refine ⟨power, aligned, bounded, ?_, ?_⟩
  · have back := readBytes_writeBytes dev.configSpace (0x10 + index * 4) (toLe 4 base)
    rw [stored]
    exact back
  · rw [enabled]
    unfold PciDevice.memoryEnabled PciDevice.setBar
    rw [PciDevice.setBarBytes_other _ _ (by omega)]

/-- The other registers keep their bytes, which are apart. -/
theorem BarAgrees.setBar {dev : PciDevice} {index other base : Nat} {bar : PciBar}
    {reg : IoRegion} (agrees : BarAgrees dev other reg) (inRange : index < 6)
    (apart : other ≠ index)
    : BarAgrees (dev.setBar index bar base) other reg := by
  unfold PciDevice.setBar
  refine agrees.congr (fun off low high => ?_) ?_
  · rw [PciDevice.setBarBytes_other _ _ (by omega)]
  · unfold PciDevice.memoryEnabled
    rw [PciDevice.setBarBytes_other _ _ (by omega)]

/-- What the guest writes is masked to a multiple of the region's size, below 4 GiB. -/
theorem writtenBase_placed {oldBase regionSize : Nat} (power : regionSize.isPowerOfTwo)
    (fits : regionSize ≤ 2 ^ 32) (offset : Nat) (val : BitVec 32) (size : Nat)
    : (writtenBase oldBase regionSize offset val size).toNat % regionSize = 0
      ∧ (writtenBase oldBase regionSize offset val size).toNat + regionSize ≤ 2 ^ 32 := by
  obtain ⟨bits, rfl⟩ := power
  unfold writtenBase
  rw [and_not_mask]
  refine ⟨Nat.mul_mod_left _ _, ?_⟩
  generalize (_ ||| _ : BitVec 32) = word
  have small : bits ≤ 32 := (Nat.pow_le_pow_iff_right (by decide)).mp fits
  have whole : 2 ^ 32 = 2 ^ (32 - bits) * 2 ^ bits := by
    rw [← Nat.pow_add]
    congr 1
    omega
  have below : word.toNat / 2 ^ bits < 2 ^ (32 - bits) := by
    rw [Nat.div_lt_iff_lt_mul (Nat.two_pow_pos bits), ← whole]
    exact word.isLt
  calc word.toNat / 2 ^ bits * 2 ^ bits + 2 ^ bits
      = (word.toNat / 2 ^ bits + 1) * 2 ^ bits := (Nat.succ_mul _ _).symm
    _ ≤ 2 ^ (32 - bits) * 2 ^ bits := Nat.mul_le_mul_right _ below
    _ = 2 ^ 32 := whole.symm

/-- A header write reaches the command register and the interrupt line only. -/
theorem headerBytes_other (configSpace : Nat → Byte) (offset : Nat) (val : BitVec 32)
    (size : Nat) {off : Nat} (low : off ≠ 4) (high : off ≠ 5) (line : off ≠ pciInterruptLine)
    : headerBytes configSpace offset val size off = configSpace off := by
  unfold headerBytes headerByte
  rw [if_neg low, if_neg high, if_neg line, ite_self]

theorem pciDeviceSetIrq_fields (level : Bool) (dev : PciDevice)
    : (pciDeviceSetIrq level dev).configSpace = dev.configSpace
      ∧ (pciDeviceSetIrq level dev).bars = dev.bars
      ∧ (pciDeviceSetIrq level dev).owner = dev.owner := by
  unfold pciDeviceSetIrq
  split
  · exact ⟨rfl, rfl, rfl⟩
  · exact ⟨rfl, rfl, rfl⟩

/-- A header write changes no base address register and no owner. -/
theorem PciDevice.writeHeader_fields (dev : PciDevice) (offset : Nat) (val : BitVec 32)
    (size : Nat)
    : (dev.writeHeader offset val size).configSpace
        = headerBytes dev.configSpace offset val size
      ∧ (dev.writeHeader offset val size).bars = dev.bars
      ∧ (dev.writeHeader offset val size).owner = dev.owner := by
  unfold PciDevice.writeHeader
  split
  · exact pciDeviceSetIrq_fields _ _
  · exact ⟨rfl, rfl, rfl⟩

/-- Only the endpoint that is written to changes. -/
theorem pciWriteHeader_endpoints (endpoint offset : Nat) (val : BitVec 32) (size : Nat)
    (m : Machine)
    : (pciWriteHeader endpoint offset val size m).endpoints
      = update m.endpoints endpoint
        ((m.endpoints endpoint).writeHeader offset val size) := by
  unfold pciWriteHeader
  split
  · rfl
  · rfl

theorem pciWriteHeader_pools (endpoint offset : Nat) (val : BitVec 32) (size : Nat) (m : Machine)
    : (pciWriteHeader endpoint offset val size m).pools = m.pools := by
  unfold pciWriteHeader
  split
  · rfl
  · rfl

/-- Cleanup actions keep the owners, by induction on the actions. -/
theorem released_owner (actions : List (Option Cleanup)) (m : Machine) (endpoint : Nat)
    : ((resRelease runCleanup actions m).endpoints endpoint).owner
      = (m.endpoints endpoint).owner := by
  refine resRelease_keeps
    (fun state : Machine => (state.endpoints endpoint).owner = (m.endpoints endpoint).owner)
    ?_ actions rfl
  intro action state same
  cases action with
  | ioRegionUnregister => exact same
  | pciUnregister other => exact (pciUnregister_owner other state endpoint).trans same

namespace Bars

variable {scope : Nat → Prop} {pools next_pools : Nat → List (Option Cleanup)}
  {m next : Machine}

section

variable (bars : Bars scope pools m)
include bars

/-- The invariant is kept where registers only lose regions, and those left still agree. -/
theorem carry
    (regions : ∀ endpoint, ∀ index < 6, ∀ handle,
      ((next.endpoints endpoint).bars index).region = some handle →
      ((m.endpoints endpoint).bars index).region = some handle)
    (owners : ∀ endpoint, (next.endpoints endpoint).owner = (m.endpoints endpoint).owner)
    (known : ∀ handle reg, next.ioMap.find handle = some reg → (m.ioMap.find handle).isSome)
    (agree : ∀ endpoint, scope endpoint → ∀ index < 6, ∀ handle reg,
      ((next.endpoints endpoint).bars index).region = some handle →
      m.ioMap.find handle = some reg → BarAgrees (m.endpoints endpoint) index reg →
      ∃ reg', next.ioMap.find handle = some reg'
        ∧ BarAgrees (next.endpoints endpoint) index reg')
    (later : m.ioMap.nextHandle ≤ next.ioMap.nextHandle)
    (fewer : ∀ owner handle, some (.ioRegionUnregister handle) ∈ next_pools owner →
      some (.ioRegionUnregister handle) ∈ pools owner)
    : Bars scope next_pools next where
  handles handle reg found := by
    obtain ⟨old, found⟩ := Option.isSome_iff_exists.mp (known handle reg found)
    exact Nat.lt_of_lt_of_le (bars.handles handle old found) later
  cleanups owner handle planned :=
    Nat.lt_of_lt_of_le (bars.cleanups owner handle (fewer owner handle planned)) later
  given endpoint index inRange handle implemented := by
    have before := regions endpoint index inRange handle implemented
    exact Nat.lt_of_lt_of_le (bars.given endpoint index inRange handle before) later
  single endpoint other index inRange index' inRange' handle left right :=
    bars.single endpoint other index inRange index' inRange' handle
      (regions endpoint index inRange handle left) (regions other index' inRange' handle right)
  owner endpoint index inRange handle owner implemented planned := by
    rw [owners]
    exact bars.owner endpoint index inRange handle owner
      (regions endpoint index inRange handle implemented) (fewer owner handle planned)
  agrees endpoint inScope index inRange handle implemented := by
    obtain ⟨reg, found, agrees⟩ := bars.agrees endpoint inScope index inRange handle
      (regions endpoint index inRange handle implemented)
    exact agree endpoint inScope index inRange handle reg implemented found agrees

/-- Fewer endpoints are in scope. -/
theorem narrow {smaller : Nat → Prop} (within : ∀ endpoint, smaller endpoint → scope endpoint)
    : Bars smaller pools m :=
  { bars with agrees := fun endpoint inScope => bars.agrees endpoint (within endpoint inScope) }

/-- An endpoint without regions may join the scope. -/
theorem widen
    (empty : ∀ endpoint, ¬ scope endpoint → ∀ index < 6,
      ((m.endpoints endpoint).bars index).region = none)
    : Bars (fun _ => True) pools m :=
  { bars with
    agrees := fun endpoint _ index inRange handle implemented => by
      by_cases inScope : scope endpoint
      · exact bars.agrees endpoint inScope index inRange handle implemented
      · rw [empty endpoint inScope index inRange] at implemented
        cases implemented }

/-- One endpoint changes and the I/O map does not. -/
theorem setEndpoint {endpoint : Nat} {dev : PciDevice}
    (endpoints : next.endpoints = update m.endpoints endpoint dev) (ioMap : next.ioMap = m.ioMap)
    (regions : ∀ index < 6, ∀ handle, (dev.bars index).region = some handle →
      ((m.endpoints endpoint).bars index).region = some handle)
    (owner : dev.owner = (m.endpoints endpoint).owner)
    (agree : ∀ index < 6, ∀ handle reg, (dev.bars index).region = some handle →
      BarAgrees (m.endpoints endpoint) index reg → BarAgrees dev index reg)
    (fewer : ∀ owner handle, some (.ioRegionUnregister handle) ∈ next_pools owner →
      some (.ioRegionUnregister handle) ∈ pools owner)
    : Bars scope next_pools next := by
  have others : ∀ other, other ≠ endpoint → next.endpoints other = m.endpoints other :=
    fun other elsewhere => by rw [endpoints, update_of_ne elsewhere]
  have this : next.endpoints endpoint = dev := by rw [endpoints, update_self]
  refine bars.carry (fun other index inRange handle => ?_) (fun other => ?_) ?_ ?_
    (ioMap ▸ Nat.le_refl _) fewer
  · by_cases here : other = endpoint
    · subst here
      rw [this]
      exact regions index inRange handle
    · rw [others other here]
      exact id
  · by_cases here : other = endpoint
    · subst here
      rw [this, owner]
    · rw [others other here]
  · intro handle reg found
    rw [ioMap] at found
    rw [found]
    rfl
  · intro other _ index inRange handle reg implemented found agrees
    refine ⟨reg, ioMap ▸ found, ?_⟩
    by_cases here : other = endpoint
    · subst here
      rw [this] at implemented ⊢
      exact agree index inRange handle reg implemented agrees
    · rwa [others other here]

end

/-- A register's region after one register was set. -/
theorem region_setBar (m : Machine) (vm : VmCtx) (endpoint index : Nat) (bar : PciBar)
    (base other i : Nat)
    : ((((m.setVm vm).setEndpoint endpoint
        ((m.endpoints endpoint).setBar index bar base)).endpoints other).bars i).region
      = if other = endpoint ∧ i = index then bar.region
        else ((m.endpoints other).bars i).region := by
  by_cases here : other = endpoint
  · subst here
    by_cases this : i = index
    · simp [Machine.setEndpoint, PciDevice.setBar, PciDevice.setBarBytes, this]
    · simp [Machine.setEndpoint, PciDevice.setBar, PciDevice.setBarBytes, this]
  · simp [Machine.setEndpoint, Machine.setVm, here]

section

variable (bars : Bars scope pools m)
include bars

/-- One register and its region change; no other register has that region. -/
theorem setBar {endpoint index handle base : Nat} {bar : PciBar} {vm : VmCtx} (reg : IoRegion)
    (inRange : index < 6) (implements : bar.region = some handle) (power : reg.size.isPowerOfTwo)
    (aligned : reg.base % reg.size = 0) (bounded : reg.base + reg.size ≤ 2 ^ 32)
    (stored : reg.base = base) (enabled : reg.enabled = (m.endpoints endpoint).memoryEnabled)
    (unshared : ∀ other, ∀ i < 6, ¬ (other = endpoint ∧ i = index) →
      ((m.endpoints other).bars i).region ≠ some handle)
    (lookup : ∀ other, vm.ioMap.find other
      = if other = handle then some reg else m.ioMap.find other)
    (later : m.ioMap.nextHandle ≤ vm.ioMap.nextHandle) (given : handle < vm.ioMap.nextHandle)
    (same : ∀ owner other, other ≠ handle → (some (.ioRegionUnregister other) ∈ next_pools owner
      ↔ some (.ioRegionUnregister other) ∈ pools owner))
    (mine : ∀ owner, some (.ioRegionUnregister handle) ∈ next_pools owner →
      (m.endpoints endpoint).owner = some owner)
    : Bars scope next_pools
        ((m.setVm vm).setEndpoint endpoint ((m.endpoints endpoint).setBar index bar base)) := by
  have endpoints : ∀ other, ((m.setVm vm).setEndpoint endpoint
      ((m.endpoints endpoint).setBar index bar base)).endpoints other
      = if other = endpoint then (m.endpoints endpoint).setBar index bar base
        else m.endpoints other := by
    intro other
    simp [Machine.setEndpoint, Machine.setVm, update_apply]
  have regions : ∀ other, ∀ i < 6, ((((m.setVm vm).setEndpoint endpoint
      ((m.endpoints endpoint).setBar index bar base)).endpoints other).bars i).region
      = if other = endpoint ∧ i = index then some handle
        else ((m.endpoints other).bars i).region := by
    intro other i _
    rw [region_setBar, implements]
  refine ⟨?_, ?_, ?_, ?_, ?_, ?_⟩
  · intro other found
    have old := bars.handles other
    simp only [Machine.setEndpoint, Machine.setVm]
    grind
  · intro owner other planned
    have old := bars.cleanups owner other
    simp only [Machine.setEndpoint, Machine.setVm]
    grind
  · intro other i small handle' implemented
    have old := bars.given other i small handle'
    have value := regions other i small
    simp only [Machine.setEndpoint, Machine.setVm] at implemented value ⊢
    grind
  · intro left right i small i' small' handle'
    have old := bars.single left right i small i' small' handle'
    grind
  · intro other i small handle' owner
    have old := bars.owner other i small handle' owner
    rw [regions other i small, endpoints]
    simp only [PciDevice.setBar, PciDevice.setBarBytes]
    grind
  · intro other inScope i small handle' implemented
    rw [regions other i small] at implemented
    rw [endpoints]
    simp only [Machine.setEndpoint, Machine.setVm]
    rw [lookup]
    split at implemented
    next here =>
      obtain ⟨rfl, rfl⟩ := here
      cases implemented
      rw [if_pos rfl, if_pos rfl]
      exact ⟨reg, rfl, barAgrees_setBar inRange power aligned bounded stored enabled⟩
    next elsewhere =>
      have differ : handle' ≠ handle := by
        rintro rfl
        exact unshared other i small elsewhere implemented
      obtain ⟨old, found, agrees⟩ := bars.agrees other inScope i small handle' implemented
      refine ⟨old, (if_neg differ).trans found, ?_⟩
      split
      next here =>
        subst here
        exact agrees.setBar inRange fun same => elsewhere ⟨rfl, same⟩
      · exact agrees

/-- The next handle names no region. -/
theorem unused : m.ioMap.find m.ioMap.nextHandle = none := by
  cases found : m.ioMap.find m.ioMap.nextHandle with
  | none => rfl
  | some reg => exact absurd (bars.handles _ reg found) (Nat.lt_irrefl _)

/-- Looking up a handle after a region was added under the next one. -/
theorem find_barAdded {vm : VmCtx} {owner base size : Nat} {enabled : Bool}
    (added : vm.ioMap = (m.ioMap.add ⟨m.ioMap.nextHandle, owner, base, size, .mmio, true⟩).modify
      m.ioMap.nextHandle fun reg => { reg with enabled := enabled }) (handle : Nat)
    : vm.ioMap.find handle
      = if handle = m.ioMap.nextHandle then
          some ⟨m.ioMap.nextHandle, owner, base, size, .mmio, enabled⟩
        else m.ioMap.find handle := by
  rw [added, IoMap.find_modify, IoMap.find_add bars.unused]
  · by_cases here : handle = m.ioMap.nextHandle
    · simp [here]
    · simp [here]
  · exact fun _ => rfl

/-- A new region under a new handle, with its cleanup in the owner's pool. -/
theorem barAdded {endpoint index owner base size : Nat} {vm : VmCtx}
    (owned : (m.endpoints endpoint).owner = some owner) (inRange : index < 6)
    (power : size.isPowerOfTwo) (aligned : base % size = 0) (bounded : base + size ≤ 2 ^ 32)
    (added : vm.ioMap = (m.ioMap.add ⟨m.ioMap.nextHandle, owner, base, size, .mmio, true⟩).modify
      m.ioMap.nextHandle fun reg => { reg with enabled := (m.endpoints endpoint).memoryEnabled })
    (planned : ∀ dev action, some action ∈ next_pools dev
      ↔ some action ∈ pools dev ∨ dev = owner ∧ action = .ioRegionUnregister m.ioMap.nextHandle)
    : Bars scope next_pools ((m.setVm vm).setEndpoint endpoint
        ((m.endpoints endpoint).setBar index
          { (m.endpoints endpoint).bars index with region := some m.ioMap.nextHandle } base)) := by
  have next : vm.ioMap.nextHandle = m.ioMap.nextHandle + 1 := by
    rw [added]
    rfl
  refine bars.setBar
    ⟨m.ioMap.nextHandle, owner, base, size, .mmio, (m.endpoints endpoint).memoryEnabled⟩
    inRange rfl power aligned bounded rfl rfl ?_ ?_ (next ▸ Nat.le_succ _)
    (next ▸ Nat.lt_succ_self _) ?_ ?_
  · intro other i small _ implemented
    exact Nat.lt_irrefl _ (bars.given other i small _ implemented)
  · exact bars.find_barAdded added
  · intro dev other differ
    rw [planned]
    simp [differ]
  · intro dev scheduled
    rcases (planned dev _).mp scheduled with old | ⟨rfl, -⟩
    · exact absurd (bars.cleanups dev _ old) (Nat.lt_irrefl _)
    · exact owned

/-- A region moves together with the bytes that show its base. -/
theorem barMoved {endpoint index handle : Nat} {reg : IoRegion} (offset : Nat) (val : BitVec 32)
    (size : Nat) (inScope : scope endpoint) (inRange : index < 6)
    (implemented : ((m.endpoints endpoint).bars index).region = some handle)
    (found : m.ioMap.find handle = some reg)
    : Bars scope pools
        ((m.setVm (m.toVmCtx.setIoMap (m.ioMap.modify handle fun reg' => { reg' with
            base := (writtenBase reg.base reg.size offset val size).toNat }))).setEndpoint endpoint
          ((m.endpoints endpoint).setBar index
            { (m.endpoints endpoint).bars index with probe := false }
            (writtenBase reg.base reg.size offset val size).toNat)) := by
  have before : BarAgrees (m.endpoints endpoint) index reg := by
    obtain ⟨same, found', agrees⟩ := bars.agrees endpoint inScope index inRange handle implemented
    rw [found] at found'
    cases found'
    exact agrees
  have fits : reg.size ≤ 2 ^ 32 := Nat.le_trans (Nat.le_add_left _ _) before.bounded
  obtain ⟨aligned, bounded⟩ := writtenBase_placed before.power fits offset val size
  refine bars.setBar
    { reg with base := (writtenBase reg.base reg.size offset val size).toNat } inRange implemented
    before.power aligned bounded rfl before.enabled ?_ ?_ (Nat.le_refl _)
    (bars.given endpoint index inRange handle implemented) (fun _ _ _ => Iff.rfl)
    fun owner => bars.owner endpoint index inRange handle owner implemented
  · intro other i small elsewhere shared
    exact elsewhere (bars.single other endpoint i small index inRange handle shared implemented)
  · intro other
    simp only [VmCtx.setIoMap]
    rw [IoMap.find_modify]
    · by_cases here : other = handle
      · simp [here, found]
      · simp [here]
    · exact fun _ => rfl

end

/-- The loop of `pciWriteHeader` enables exactly the regions of its registers, by induction. -/
theorem find_enabled (regions : Nat → Option Nat) (enabled : Bool) (indices : List Nat)
    (map : IoMap) (handle : Nat)
    : (indices.foldl (fun map index => match regions index with
        | none => map
        | some handle => map.modify handle fun reg => { reg with enabled := enabled }) map).find
          handle
      = (map.find handle).map fun reg =>
          if ∃ index ∈ indices, regions index = some handle then { reg with enabled := enabled }
          else reg := by
  induction indices generalizing map with
  | nil => simp
  | cons index rest ih =>
    rw [List.foldl_cons, ih]
    cases implemented : regions index with
    | none => simp [implemented]
    | some other =>
      have modified := @IoMap.find_modify map handle other
        (fun reg => { reg with enabled := enabled }) fun _ => rfl
      rw [modified, Option.map_map]
      refine congrArg (Option.map · _) (funext fun reg => ?_)
      by_cases here : handle = other
      · subst here
        simp [implemented]
      · simp [here, implemented, Ne.symm here]

theorem nextHandle_enabled (regions : Nat → Option Nat) (enabled : Bool) (indices : List Nat)
    (map : IoMap)
    : (indices.foldl (fun map index => match regions index with
        | none => map
        | some handle => map.modify handle fun reg => { reg with enabled := enabled })
          map).nextHandle
      = map.nextHandle := by
  refine List.foldlRecOn (motive := fun state : IoMap => state.nextHandle = map.nextHandle) indices
    _ rfl ?_
  intro state same index _
  split
  · exact same
  · exact same

/-- Command bits and regions change together: all registers agree again after the loop. -/
theorem headerWritten (bars : Bars scope pools m) (endpoint offset : Nat) (val : BitVec 32)
    (size : Nat)
    : Bars scope pools (pciWriteHeader endpoint offset val size m) := by
  have ⟨config, registers, owner⟩ := (m.endpoints endpoint).writeHeader_fields offset val size
  have bytes : ∀ off, 0x10 ≤ off → off < 0x28 →
      ((m.endpoints endpoint).writeHeader offset val size).configSpace off
        = (m.endpoints endpoint).configSpace off := by
    intro off low high
    rw [config]
    exact headerBytes_other _ offset val size (by omega) (by omega)
      (by simp only [pciInterruptLine]; omega)
  unfold pciWriteHeader
  generalize (m.endpoints endpoint).writeHeader offset val size = dev at *
  have endpoints : ∀ vm other, ((m.setVm vm).setEndpoint endpoint dev).endpoints other
      = if other = endpoint then dev else m.endpoints other := by
    simp [Machine.setEndpoint, Machine.setVm, update_apply]
  have regions : ∀ vm other, ∀ i < 6,
      ((((m.setVm vm).setEndpoint endpoint dev).endpoints other).bars i).region
        = ((m.endpoints other).bars i).region := by
    intro vm other i _
    rw [endpoints]
    split
    next here => rw [registers, here]
    · rfl
  have owners : ∀ vm other, (((m.setVm vm).setEndpoint endpoint dev).endpoints other).owner
      = (m.endpoints other).owner := by
    intro vm other
    rw [endpoints]
    split
    next here => rw [owner, here]
    · rfl
  split
  next touched =>
    -- the regions of the endpoint follow the memory-enable bit
    have lookup := find_enabled (fun index => (dev.bars index).region) dev.memoryEnabled
      (List.range 6) m.ioMap
    refine bars.carry ?_ (owners _) ?_ ?_ (Nat.le_of_eq (nextHandle_enabled ..).symm)
      fun _ _ => id
    · exact fun other i small handle => (regions _ other i small ▸ id)
    · intro handle reg found
      have value := (lookup handle).symm.trans found
      exact Option.isSome_map.symm.trans (Option.isSome_of_eq_some value)
    · intro other _ i small handle reg implemented found agrees
      rw [regions _ other i small] at implemented
      refine ⟨_, (lookup handle).trans (congrArg _ found), ?_⟩
      rw [endpoints]
      dsimp only
      split
      next here =>
        subst here
        rw [if_pos ⟨i, List.mem_range.mpr small, registers ▸ implemented⟩]
        refine ⟨agrees.power, agrees.aligned, agrees.bounded, ?_, rfl⟩
        rw [← agrees.bytes]
        refine readBytes_congr fun off inside => bytes off ?_ ?_
        · have := inside.1
          dsimp only at this
          omega
        · have := inside.2
          dsimp only at this
          omega
      next elsewhere =>
        rw [if_neg]
        · exact agrees
        · rintro ⟨index, inside, shared⟩
          rw [registers] at shared
          exact elsewhere (bars.single other endpoint i small index
            (List.mem_range.mp inside) handle implemented shared).1
  next untouched =>
    refine bars.setEndpoint rfl rfl (fun _ _ _ => by rw [registers]; exact id) owner ?_
      fun _ _ => id
    intro i small handle reg _ agrees
    refine agrees.congr (fun off low high => bytes off (by omega) (by omega)) ?_
    unfold PciDevice.memoryEnabled
    rw [config, headerBytes, if_neg (by omega)]

/-- Every operation but a removal keeps the invariant, by cases on its effect. -/
theorem effect {signalled : Option Nat} (bars : Bars (fun _ => True) m.pools m)
    (top : Topology m.pools m) (effect : BusEffect m signalled next)
    : Bars (fun _ => True) next.pools next := by
  have empty : ∀ {endpoint : Nat}, (m.endpoints endpoint).bus = none →
      ∀ index < 6, ∀ handle, ((m.endpoints endpoint).bars index).region ≠ some handle := by
    intro endpoint detached index inRange handle implemented
    rw [(top.idle endpoint detached).2 index inRange] at implemented
    cases implemented
  cases effect with
  | quiet same =>
    refine bars.carry (fun _ _ _ _ => id) (fun _ => rfl) ?_ ?_ same.handles
      fun owner handle => (same.pools owner _).mp
    · intro handle reg found
      rw [← same.lookup handle]
      exact Option.isSome_of_eq_some found
    · intro endpoint _ index _ handle reg _ found agrees
      exact ⟨reg, (same.lookup handle).trans found, agrees⟩
  | prepared detached stays =>
    refine bars.setEndpoint rfl rfl (fun index _ _ => (stays.regions index).symm.trans)
      stays.owner ?_ fun _ _ => id
    intro index inRange handle _ implemented
    exact absurd ((stays.regions index).symm.trans implemented)
      (empty detached index inRange handle)
  | attached detached owned _ owner_eq _ _ _ registers _ _ _ planned =>
    refine bars.setEndpoint rfl rfl (fun _ _ _ => by rw [registers]; exact id)
      (owner_eq.trans owned.symm) ?_ ?_
    · intro index inRange handle _ implemented
      rw [registers] at implemented
      exact absurd implemented (empty detached index inRange handle)
    · intro other handle
      simp only [Machine.pools, Machine.setBus, Machine.setEndpoint, Machine.setVm]
      rw [setResources_pools]
      split
      next here =>
        rw [planned, here]
        simp [Machine.pools]
      · exact id
  | barAdded attached owned inRange _ power aligned bounded added planned =>
    exact bars.barAdded owned inRange power aligned bounded added planned
  | @barProbed =>
    refine bars.setEndpoint rfl rfl (fun other _ handle => ?_) rfl
      (fun _ _ _ _ _ agrees => agrees.congr (fun _ _ _ => rfl) rfl) fun _ _ => id
    simp only [update_apply]
    split
    next here => rw [here]; exact id
    · exact id
  | barMoved attached inRange implemented found =>
    exact bars.barMoved _ _ _ trivial inRange implemented found
  | @headerWritten endpoint offset val size =>
    rw [pciWriteHeader_pools]
    exact bars.headerWritten endpoint offset val size
  | @irqSet endpoint level =>
    obtain ⟨config, registers, owner⟩ := pciDeviceSetIrq_fields level (m.endpoints endpoint)
    refine bars.setEndpoint rfl rfl (fun _ _ _ => by rw [registers]; exact id) owner ?_
      fun _ _ => id
    intro index _ handle reg _ agrees
    refine agrees.congr (fun _ _ _ => by rw [config]) ?_
    unfold PciDevice.memoryEnabled
    rw [config]

/-- An endpoint that leaves its bus loses its regions. -/
theorem unregister (bars : Bars scope pools m) (endpoint : Nat)
    (fewer : ∀ owner handle, some (.ioRegionUnregister handle) ∈ next_pools owner →
      some (.ioRegionUnregister handle) ∈ pools owner)
    : Bars scope next_pools (pciUnregister endpoint m) := by
  have empty : ∀ index < 6, ∀ handle,
      ((m.endpoints endpoint).removed.bars index).region ≠ some handle := by
    intro index inRange handle
    rw [PciDevice.removed_bars _ inRange]
    simp
  refine bars.setEndpoint (pciUnregister_endpoints endpoint m)
    (congrArg VmCtx.ioMap (pciUnregister_toVmCtx endpoint m)) ?_ (PciDevice.removed_owner _) ?_
    fewer
  · exact fun index inRange handle implemented => absurd implemented (empty index inRange handle)
  · exact fun index inRange handle _ implemented => absurd implemented (empty index inRange handle)

/-- A release keeps the invariant of foreign endpoints, by induction on the actions left. -/
theorem releaseLoop {owner : Nat} {actions : List (Option Cleanup)}
    (bars : Bars scope (update pools owner actions) m)
    (foreign : ∀ endpoint, scope endpoint → (m.endpoints endpoint).owner ≠ some owner)
    : Bars scope (update pools owner []) (resRelease runCleanup actions m) := by
  induction actions generalizing m with
  | nil => exact bars
  | cons action rest ih =>
    have fewer : ∀ other handle,
        some (.ioRegionUnregister handle) ∈ update pools owner rest other →
        some (.ioRegionUnregister handle)
          ∈ update pools owner (action :: rest) other := by
      intro other handle
      simp only [update_apply]
      split
      · exact List.mem_cons_of_mem _
      · exact id
    cases action with
    | none =>
      refine ih (bars.carry (fun _ _ _ _ => id) (fun _ => rfl) ?_ ?_ (Nat.le_refl _) fewer)
        foreign
      · exact fun _ _ => Option.isSome_of_eq_some
      · exact fun _ _ _ _ _ reg _ found agrees => ⟨reg, found, agrees⟩
    | some action =>
      cases action with
      | pciUnregister endpoint =>
        have emptied := bars.unregister endpoint fewer
        refine ih emptied fun other inScope => ?_
        simp only [runCleanup]
        rw [pciUnregister_owner]
        exact foreign other inScope
      | ioRegionUnregister gone =>
        refine ih (bars.carry (fun _ _ _ _ => id) (fun _ => rfl) ?_ ?_ (Nat.le_refl _) fewer)
          foreign
        · intro handle reg found
          simp only [runCleanup, Machine.setVm, VmCtx.setIoMap] at found
          rw [IoMap.find_remove] at found
          split at found
          · cases found
          · exact Option.isSome_of_eq_some found
        · intro endpoint inScope index inRange handle reg implemented found agrees
          refine ⟨reg, ?_, agrees⟩
          -- the region of another owner is not in this pool
          have kept : handle ≠ gone := by
            rintro rfl
            exact foreign endpoint inScope
              (bars.owner endpoint index inRange handle owner implemented (by simp))
          simp only [runCleanup, Machine.setVm, VmCtx.setIoMap]
          rw [IoMap.find_remove, if_neg kept]
          exact found

/-- The owner's endpoints have no regions after its pool is released, so all endpoints agree. -/
theorem release (bars : Bars (fun _ => True) m.pools m) (top : Topology m.pools m) (owner : Nat)
    : Bars (fun _ => True) (releaseResources owner m).pools (releaseResources owner m) := by
  unfold releaseResources
  split
  · exact bars
  · have reversed : Bars (fun endpoint => (m.endpoints endpoint).owner ≠ some owner)
        (update m.pools owner (m.pools owner).reverse) m := by
      refine (bars.narrow fun _ _ => trivial).carry (fun _ _ _ _ => id) (fun _ => rfl)
        (fun _ _ => Option.isSome_of_eq_some)
        (fun _ _ _ _ _ reg _ found agrees => ⟨reg, found, agrees⟩) (Nat.le_refl _) ?_
      intro other handle
      rw [update_apply]
      split
      next here => rw [here]; exact List.mem_reverse.mp
      · exact id
    have released := reversed.releaseLoop fun _ => id
    have topology := top.reversed owner |>.releaseLoop
    have owners := released_owner (m.pools owner).reverse m
    rw [released_pools]
    refine (released.widen fun endpoint mine index inRange => ?_).carry (fun _ _ _ _ => id)
      (fun _ => rfl) (fun _ _ => Option.isSome_of_eq_some)
      (fun _ _ _ _ _ reg _ found agrees => ⟨reg, found, agrees⟩) (Nat.le_refl _) fun _ _ => id
    -- an endpoint of the owner is on no bus, or its removal would be scheduled still
    cases there : ((resRelease runCleanup (m.pools owner).reverse m).endpoints endpoint).bus with
    | none => exact (topology.idle endpoint there).2 index inRange
    | some =>
      obtain ⟨other, owned, planned⟩ := topology.scheduled endpoint (by rw [there]; rfl)
      rw [owners, not_not.mp mine] at owned
      cases owned
      simp at planned

end Bars

theorem Machine.Fresh.bars {m : Machine} (fresh : m.Fresh) : Bars (fun _ => True) m.pools m where
  handles := fresh.handles
  cleanups := fresh.cleanups
  given endpoint index inRange handle implemented := by
    simp [fresh.empty endpoint index inRange] at implemented
  single endpoint other index inRange index' inRange' handle implemented := by
    simp [fresh.empty endpoint index inRange] at implemented
  owner endpoint index inRange handle owner implemented := by
    simp [fresh.empty endpoint index inRange] at implemented
  agrees endpoint _ index inRange handle implemented := by
    simp [fresh.empty endpoint index inRange] at implemented

end Modvm.Hw
