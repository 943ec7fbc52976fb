import Modvm.Hw.AddressMap
import Modvm.Hw.ConfigSpace

/-! The machines that operations on the buses, new RAM and new I/O regions reach, in any order. -/

namespace Modvm.Hw

open Function Modvm.Core Modvm.Lib Modvm.Util

/-! ### Operations -/

/-- An operation on a machine, with the outcomes of the host allocations it makes. -/
inductive MachineOp where
  | bus (op : BusOp)
  | addRam (host : AddRamHost) (gpa size : BitVec 64) (flags : BitVec 32)
  | registerRegion (node action : Bool) (type : IoSpace) (base size : BitVec 64)
    (dev : Option Nat)

def MachineOp.apply (m : Machine) : MachineOp → Machine
  | .bus op => op.apply m
  | .addRam host gpa size flags => m.setVm (vmAddRam host gpa size flags m.toVmCtx).2
  | .registerRegion node action type base size dev =>
      m.setVm (ioMapRegisterRegion node action type base size dev m.toVmCtx).2

/-- The bytes of all base address registers are zero, as in memory that was allocated zeroed. -/
def PciDevice.Zeroed (dev : PciDevice) : Prop :=
  ∀ off, 0x10 ≤ off → off < 0x28 → dev.configSpace off = 0

/-- A registration that succeeds finds the registers zeroed; one that is refused may find any
bytes.
-/
def MachineOp.Zeroed (m : Machine) : MachineOp → Prop
  | .bus (.registerEndpoint action parent (some endpoint)) =>
      (pciDeviceRegister action parent (some endpoint) m).1 = .ok ()
      → (m.endpoints endpoint).Zeroed
  | _ => True

/-- Every operation of a run registers zeroed endpoints. -/
def ZeroedRun (m : Machine) : List MachineOp → Prop
  | [] => True
  | op :: rest => op.Zeroed m ∧ ZeroedRun (op.apply m) rest

/-! ### What operations keep -/

/-- No register gets a region, and the regions have the sizes they had. -/
structure RegionsKept (m next : Machine) : Prop where
  handles : m.ioMap.nextHandle ≤ next.ioMap.nextHandle
  regions : ∀ endpoint, ∀ index < 6, ∀ handle,
    ((next.endpoints endpoint).bars index).region = some handle →
    ((m.endpoints endpoint).bars index).region = some handle
  sizes : ∀ handle reg, handle < m.ioMap.nextHandle → next.ioMap.find handle = some reg →
    ∃ old, m.ioMap.find handle = some old ∧ old.size = reg.size

/-- An endpoint on a bus was there before, and the registers that it does not implement are as
before.
-/
def BytesKept (m next : Machine) : Prop :=
  ∀ endpoint, (next.endpoints endpoint).bus.isSome →
    (m.endpoints endpoint).bus.isSome
    ∧ ∀ index < 6, ((next.endpoints endpoint).bars index).region = none →
      ((m.endpoints endpoint).bars index).region = none
      ∧ ∀ off, 0x10 + index * 4 ≤ off → off < 0x14 + index * 4 →
        (next.endpoints endpoint).configSpace off = (m.endpoints endpoint).configSpace off

section Kept
variable {m middle next : Machine}

theorem RegionsKept.trans (first : RegionsKept m middle) (second : RegionsKept middle next)
    : RegionsKept m next where
  handles := Nat.le_trans first.handles second.handles
  regions endpoint index inRange handle implemented :=
    first.regions endpoint index inRange handle
      (second.regions endpoint index inRange handle implemented)
  sizes handle reg known found := by
    obtain ⟨mid, found, size⟩ :=
      second.sizes handle reg (Nat.lt_of_lt_of_le known first.handles) found
    obtain ⟨old, found, size'⟩ := first.sizes handle mid known found
    exact ⟨old, found, size'.trans size⟩

theorem BytesKept.trans (first : BytesKept m middle) (second : BytesKept middle next)
    : BytesKept m next := by
  intro endpoint attached
  obtain ⟨between, later⟩ := second endpoint attached
  obtain ⟨before, earlier⟩ := first endpoint between
  refine ⟨before, fun index inRange empty => ?_⟩
  obtain ⟨emptyBetween, laterBytes⟩ := later index inRange empty
  obtain ⟨emptyBefore, earlierBytes⟩ := earlier index inRange emptyBetween
  exact ⟨emptyBefore, fun off low high =>
    (laterBytes off low high).trans (earlierBytes off low high)⟩

theorem RegionsKept.of_lookup (endpoints : next.endpoints = m.endpoints)
    (handles : m.ioMap.nextHandle ≤ next.ioMap.nextHandle)
    (lookup : ∀ handle < m.ioMap.nextHandle, next.ioMap.find handle = m.ioMap.find handle)
    : RegionsKept m next where
  handles := handles
  regions _ _ _ _ implemented := endpoints ▸ implemented
  sizes handle reg known found := ⟨reg, (lookup handle known).symm.trans found, rfl⟩

theorem BytesKept.of_eq (endpoints : next.endpoints = m.endpoints) : BytesKept m next := by
  intro endpoint attached
  rw [endpoints] at attached ⊢
  exact ⟨attached, fun _ _ empty => ⟨empty, fun _ _ _ => rfl⟩⟩

theorem RegionsKept.setEndpoint {endpoint : Nat} {dev : PciDevice}
    (endpoints : next.endpoints = update m.endpoints endpoint dev)
    (regions : ∀ index < 6, ∀ handle, (dev.bars index).region = some handle →
      ((m.endpoints endpoint).bars index).region = some handle)
    (handles : m.ioMap.nextHandle ≤ next.ioMap.nextHandle)
    (sizes : ∀ handle reg, next.ioMap.find handle = some reg →
      ∃ old, m.ioMap.find handle = some old ∧ old.size = reg.size)
    : RegionsKept m next := by
  refine ⟨handles, ?_, fun handle reg _ => sizes handle reg⟩
  intro other index inRange handle implemented
  rw [endpoints] at implemented
  by_cases here : other = endpoint
  · subst here
    rw [update_self] at implemented
    exact regions index inRange handle implemented
  · rwa [update_of_ne here] at implemented

theorem BytesKept.setEndpoint {endpoint : Nat} {dev : PciDevice}
    (endpoints : next.endpoints = update m.endpoints endpoint dev)
    (bus : dev.bus = (m.endpoints endpoint).bus)
    (regions : ∀ index < 6,
      (dev.bars index).region = ((m.endpoints endpoint).bars index).region)
    (bytes : ∀ index < 6, ((m.endpoints endpoint).bars index).region = none → ∀ off,
      0x10 + index * 4 ≤ off → off < 0x14 + index * 4 →
      dev.configSpace off = (m.endpoints endpoint).configSpace off)
    : BytesKept m next := by
  intro other attached
  rw [endpoints] at attached ⊢
  by_cases here : other = endpoint
  · subst here
    rw [update_self] at attached ⊢
    rw [bus] at attached
    refine ⟨attached, fun index inRange empty => ?_⟩
    rw [regions index inRange] at empty
    exact ⟨empty, bytes index inRange empty⟩
  · rw [update_of_ne here] at attached ⊢
    exact ⟨attached, fun index _ empty => ⟨empty, fun _ _ _ => rfl⟩⟩

end Kept

/-! ### The operations one by one -/

theorem region_probed (bars : Nat → PciBar) (bar index : Nat) (probe : Bool)
    : (update bars bar { bars bar with probe := probe } index).region
      = (bars index).region := by
  rw [update_apply]
  split
  next here => rw [here]
  · rfl

theorem kept_probed (m : Machine) (endpoint bar : Nat) (probe : Bool)
    : let next := m.setEndpoint endpoint { m.endpoints endpoint with
        bars := update (m.endpoints endpoint).bars bar
          { (m.endpoints endpoint).bars bar with probe := probe } }
      RegionsKept m next ∧ BytesKept m next := by
  have regions := fun index (_ : index < 6) =>
    region_probed (m.endpoints endpoint).bars bar index probe
  refine ⟨.setEndpoint rfl (fun index inRange handle => (regions index inRange).symm.trans)
    (Nat.le_refl _) fun handle reg found => ⟨reg, found, rfl⟩, ?_⟩
  exact .setEndpoint rfl rfl regions fun _ _ _ _ _ _ => rfl

theorem size_of_map {found : Option IoRegion} {update : IoRegion → IoRegion} {reg : IoRegion}
    (same : ∀ reg, (update reg).size = reg.size) (updated : found.map update = some reg)
    : ∃ old, found = some old ∧ old.size = reg.size := by
  obtain ⟨old, there, rfl⟩ := Option.map_eq_some_iff.mp updated
  exact ⟨old, there, (same old).symm⟩

theorem pciWriteBar_kept (endpoint offset : Nat) (val : BitVec 32) (size : Nat) (m : Machine)
    : RegionsKept m (pciWriteBar endpoint offset val size m)
      ∧ BytesKept m (pciWriteBar endpoint offset val size m) := by
  unfold pciWriteBar
  dsimp only
  split
  · exact ⟨.of_lookup rfl (Nat.le_refl _) fun _ _ => rfl, .of_eq rfl⟩
  next handle implemented =>
    split
    · exact kept_probed m endpoint _ true
    split
    · exact kept_probed m endpoint _ false
    next reg found =>
      have outcome := ioMapRelocateRegion_outcome found
        ((writtenBase reg.base reg.size offset val size).setWidth 64)
      generalize ioMapRelocateRegion (some handle)
        ((writtenBase reg.base reg.size offset val size).setWidth 64) m.toVmCtx = result
        at outcome ⊢
      obtain ⟨_ | _, vm⟩ := result
      · subst outcome
        exact kept_probed m endpoint _ false
      · subst outcome
        have regions := fun index (_ : index < 6) =>
          region_probed (m.endpoints endpoint).bars ((offset - 0x10) / 4) index false
        refine ⟨.setEndpoint rfl (fun index inRange handle => (regions index inRange).symm.trans)
          (Nat.le_refl _) ?_, .setEndpoint rfl rfl regions ?_⟩
        · -- A region that moves keeps its size.
          intro other moved found
          change (m.ioMap.modify handle fun reg' => { reg' with base := _ }).find other
            = some moved at found
          rw [IoMap.find_modify] at found
          · refine size_of_map (fun old => ?_) found
            split
            · rfl
            · rfl
          · exact fun _ => rfl
        · intro index inRange empty off low high
          have differ : index ≠ (offset - 0x10) / 4 := by
            rintro rfl
            rw [implemented] at empty
            cases empty
          exact PciDevice.setBarBytes_other _ _ (by omega)

theorem pciWriteHeader_kept (endpoint offset : Nat) (val : BitVec 32) (size : Nat) (m : Machine)
    : RegionsKept m (pciWriteHeader endpoint offset val size m)
      ∧ BytesKept m (pciWriteHeader endpoint offset val size m) := by
  have endpoints := pciWriteHeader_endpoints endpoint offset val size m
  have ⟨config, registers, _⟩ := (m.endpoints endpoint).writeHeader_fields offset val size
  constructor
  · refine .setEndpoint endpoints (fun _ _ _ => by rw [registers]; exact id) ?_ ?_
    · unfold pciWriteHeader
      split
      · exact Nat.le_of_eq (Bars.nextHandle_enabled ..).symm
      · exact Nat.le_refl _
    · intro handle reg found
      unfold pciWriteHeader at found
      split at found
      · have lookup := Bars.find_enabled
          (fun index => (((m.endpoints endpoint).writeHeader offset val size).bars index).region)
          ((m.endpoints endpoint).writeHeader offset val size).memoryEnabled (List.range 6)
          m.ioMap handle
        refine size_of_map (fun old => ?_) (lookup.symm.trans found)
        split
        · rfl
        · rfl
      · exact ⟨reg, found, rfl⟩
  · refine .setEndpoint endpoints ((m.endpoints endpoint).writeHeader_bus offset val size)
      (fun _ _ => by rw [registers]) ?_
    intro index inRange _ off low high
    rw [config]
    exact headerBytes_other _ offset val size (by omega) (by omega)
      (by simp only [pciInterruptLine]; omega)

theorem pciBusWriteConfig_kept (bus : Option Nat) (devfn offset : BitVec 8) (val : BitVec 32)
    (size : BitVec 8) (m : Machine)
    : RegionsKept m (pciBusWriteConfig bus devfn offset val size m)
      ∧ BytesKept m (pciBusWriteConfig bus devfn offset val size m) := by
  have nothing : RegionsKept m m ∧ BytesKept m m :=
    ⟨.of_lookup rfl (Nat.le_refl _) fun _ _ => rfl, .of_eq rfl⟩
  unfold pciBusWriteConfig
  dsimp only
  split
  · exact nothing
  split
  · exact nothing
  split
  · exact nothing
  split
  · exact nothing
  split
  · exact pciWriteBar_kept _ _ _ _ m
  · exact pciWriteHeader_kept _ _ _ _ m

theorem runCleanup_kept (action : Cleanup) (m : Machine)
    : RegionsKept m (runCleanup action m) ∧ BytesKept m (runCleanup action m) := by
  cases action with
  | ioRegionUnregister gone =>
    refine ⟨⟨Nat.le_refl _, fun _ _ _ _ => id, ?_⟩, .of_eq rfl⟩
    intro handle reg _ found
    change (m.ioMap.remove gone).find handle = some reg at found
    rw [IoMap.find_remove] at found
    split at found
    · cases found
    · exact ⟨reg, found, rfl⟩
  | pciUnregister endpoint =>
    have endpoints := pciUnregister_endpoints endpoint m
    have map : (pciUnregister endpoint m).ioMap = m.ioMap :=
      congrArg VmCtx.ioMap (pciUnregister_toVmCtx endpoint m)
    refine ⟨.setEndpoint endpoints ?_ ?_ ?_, ?_⟩
    · intro index inRange handle implemented
      rw [PciDevice.removed_bars _ inRange] at implemented
      cases implemented
    · exact Nat.le_of_eq (congrArg IoMap.nextHandle map).symm
    · intro handle reg found
      exact ⟨reg, (congrArg (IoMap.find · handle) map).symm.trans found, rfl⟩
    · intro other attached
      simp only [runCleanup] at attached ⊢
      rw [endpoints] at attached ⊢
      by_cases here : other = endpoint
      · subst here
        rw [update_self] at attached
        cases attached
      · rw [update_of_ne here] at attached ⊢
        exact ⟨attached, fun _ _ empty => ⟨empty, fun _ _ _ => rfl⟩⟩

theorem releaseResources_kept (owner : Nat) (m : Machine)
    : RegionsKept m (releaseResources owner m) ∧ BytesKept m (releaseResources owner m) := by
  have nothing : RegionsKept m m ∧ BytesKept m m :=
    ⟨.of_lookup rfl (Nat.le_refl _) fun _ _ => rfl, .of_eq rfl⟩
  unfold releaseResources
  split
  · exact nothing
  have released : ∀ actions, RegionsKept m (resRelease runCleanup actions m)
      ∧ BytesKept m (resRelease runCleanup actions m) := fun actions =>
    resRelease_keeps (fun state => RegionsKept m state ∧ BytesKept m state)
      (fun action _ before => ⟨before.1.trans (runCleanup_kept action _).1,
        before.2.trans (runCleanup_kept action _).2⟩) actions nothing
  obtain ⟨regions, bytes⟩ := released (m.devices owner).resources.resources.reverse
  exact ⟨regions.trans (.of_lookup rfl (Nat.le_refl _) fun _ _ => rfl), bytes.trans (.of_eq rfl)⟩

variable {m : Machine}

theorem kept_quiet {vm : VmCtx} (quiet : VmCtx.Quiet m.toVmCtx vm)
    : RegionsKept m (m.setVm vm) ∧ BytesKept m (m.setVm vm) :=
  ⟨.of_lookup rfl quiet.handles fun handle _ => quiet.lookup handle, .of_eq rfl⟩

theorem vmAddRam_quiet (host : AddRamHost) (gpa size : BitVec 64) (flags : BitVec 32) (vm : VmCtx)
    : VmCtx.Quiet vm (vmAddRam host gpa size flags vm).2 := by
  unfold vmAddRam
  split
  · exact .refl vm
  · exact .refl vm
  · exact .refl vm
  · exact .refl vm
  · exact ⟨fun _ => rfl, Nat.le_refl _, fun _ _ => Iff.rfl⟩

theorem pciDeviceRegister_none (action : Bool) (bus : Option Nat) (m : Machine)
    : (pciDeviceRegister action bus none m).2 = m := by
  cases bus with
  | none => rfl
  | some => rfl

/-- A registration touches the endpoint only, keeps its registers and, unless it succeeds, the bus
that it is on.
-/
theorem pciDeviceRegister_endpoints (action : Bool) (bus : Option Nat) (endpoint : Nat)
    (m : Machine)
    : let result := pciDeviceRegister action bus (some endpoint) m
      result.2.ioMap = m.ioMap
      ∧ ∃ dev, result.2.endpoints = update m.endpoints endpoint dev
        ∧ dev.bars = (m.endpoints endpoint).bars
        ∧ (m.endpoints endpoint).AgreesBesidesInterrupt dev
        ∧ (result.1 = .ok () ∨ dev.bus = (m.endpoints endpoint).bus) := by
  have nothing (result : Except VmError Unit) : m.ioMap = m.ioMap
      ∧ ∃ dev, m.endpoints = update m.endpoints endpoint dev
        ∧ dev.bars = (m.endpoints endpoint).bars
        ∧ (m.endpoints endpoint).AgreesBesidesInterrupt dev
        ∧ (result = .ok () ∨ dev.bus = (m.endpoints endpoint).bus) :=
    ⟨rfl, m.endpoints endpoint, (update_eq_self _ _).symm, rfl, fun _ _ _ => rfl, .inr rfl⟩
  have bytes : ∀ off, off ≠ pciInterruptPin → off ≠ pciInterruptLine →
      update (update (m.endpoints endpoint).configSpace pciInterruptPin
        (m.endpoints endpoint).interruptPin) pciInterruptLine 0 off
      = (m.endpoints endpoint).configSpace off := by
    intro off pin line
    rw [update_of_ne line, update_of_ne pin]
  unfold pciDeviceRegister
  dsimp only
  split
  case h_2 => exact nothing _
  case h_1 bus endpoint same =>
    cases same
    split
    case h_2 => exact nothing _
    case h_1 owner bridge owned bridged =>
      split
      · exact nothing _
      split
      · exact nothing _
      split
      · exact nothing _
      split
      · exact ⟨rfl, _, rfl, rfl, fun _ _ _ => rfl, .inr rfl⟩
      split
      · exact ⟨rfl, _, rfl, rfl, bytes, .inr rfl⟩
      · exact ⟨rfl, _, rfl, rfl, bytes, .inl rfl⟩

/-! ### Sound machines -/

namespace Machine

/-- What holds in every machine that can be reached. -/
structure Sound (m : Machine) : Prop where
  ordered : m.Ordered
  mapped : VmCtx.Mapped m.toVmCtx
  wide : ∀ endpoint, ∀ index < 6, ∀ handle reg,
    ((m.endpoints endpoint).bars index).region = some handle →
    m.ioMap.find handle = some reg → 16 ≤ reg.size

/-- A register that an endpoint on a bus does not implement is zero. -/
def Blank (m : Machine) : Prop :=
  ∀ endpoint, (m.endpoints endpoint).bus.isSome → ∀ index < 6,
    ((m.endpoints endpoint).bars index).region = none →
    ∀ off, 0x10 + index * 4 ≤ off → off < 0x14 + index * 4 →
      (m.endpoints endpoint).configSpace off = 0

variable {m next : Machine}

theorem Sound.wide_of_kept (sound : m.Sound) (kept : RegionsKept m next)
    : ∀ endpoint, ∀ index < 6, ∀ handle reg,
      ((next.endpoints endpoint).bars index).region = some handle →
      next.ioMap.find handle = some reg → 16 ≤ reg.size := by
  intro endpoint index inRange handle reg implemented found
  have before := kept.regions endpoint index inRange handle implemented
  have known := sound.ordered.bars.given endpoint index inRange handle before
  obtain ⟨old, found, size⟩ := kept.sizes handle reg known found
  rw [← size]
  exact sound.wide endpoint index inRange handle old before found

theorem Blank.kept (blank : m.Blank) (kept : BytesKept m next) : next.Blank := by
  intro endpoint attached index inRange empty off low high
  obtain ⟨before, same⟩ := kept endpoint attached
  obtain ⟨emptyBefore, bytes⟩ := same index inRange empty
  rw [bytes off low high]
  exact blank endpoint before index inRange emptyBefore off low high

theorem Ordered.quiet (ordered : m.Ordered) {vm : VmCtx} (quiet : VmCtx.Quiet m.toVmCtx vm)
    : (m.setVm vm).Ordered :=
  ⟨ordered.topology.effect (.quiet quiet), ordered.bars.effect ordered.topology (.quiet quiet)⟩

theorem Ordered.regionAdded (ordered : m.Ordered) {vm : VmCtx} {reg : IoRegion} {dev : Nat}
    (name : reg.handle = m.ioMap.nextHandle) (added : vm.ioMap = m.ioMap.add reg)
    (pools : ∀ other action, some action ∈ (vm.devices other).resources.resources
      ↔ some action ∈ m.pools other
        ∨ other = dev ∧ action = .ioRegionUnregister m.ioMap.nextHandle)
    : (m.setVm vm).Ordered := by
  have bars := ordered.bars
  have lookup : ∀ handle, vm.ioMap.find handle
      = if handle = m.ioMap.nextHandle then some reg else m.ioMap.find handle := by
    intro handle
    rw [added, IoMap.find_add (name ▸ bars.unused), name]
  have next : (m.setVm vm).ioMap.nextHandle = m.ioMap.nextHandle + 1 :=
    congrArg IoMap.nextHandle added
  refine ⟨ordered.topology.congr rfl (fun _ => .refl _) fun owner endpoint => ?_, ?_⟩
  · refine (pools owner _).trans ⟨fun planned => ?_, .inl⟩
    rcases planned with old | ⟨-, new⟩
    · exact old
    · cases new
  · constructor
    · intro handle reg' found
      have found : vm.ioMap.find handle = some reg' := found
      rw [lookup] at found
      rw [next]
      split at found
      next here => exact here ▸ Nat.lt_succ_self _
      · exact Nat.lt_succ_of_lt (bars.handles handle reg' found)
    · intro owner handle planned
      rw [next]
      rcases (pools owner _).mp planned with old | ⟨-, new⟩
      · exact Nat.lt_succ_of_lt (bars.cleanups owner handle old)
      · cases new
        exact Nat.lt_succ_self _
    · intro endpoint index inRange handle implemented
      rw [next]
      exact Nat.lt_succ_of_lt (bars.given endpoint index inRange handle implemented)
    · exact bars.single
    · intro endpoint index inRange handle owner implemented planned
      rcases (pools owner _).mp planned with old | ⟨-, new⟩
      · exact bars.owner endpoint index inRange handle owner implemented old
      · -- The handle of a register was given out before.
        cases new
        exact absurd (bars.given endpoint index inRange _ implemented) (Nat.lt_irrefl _)
    · intro endpoint _ index inRange handle implemented
      obtain ⟨reg', found, agrees⟩ := bars.agrees endpoint trivial index inRange handle implemented
      have old := Nat.ne_of_lt (bars.given endpoint index inRange handle implemented)
      exact ⟨reg', (lookup handle).trans ((if_neg old).trans found), agrees⟩

end Machine

theorem ioMapRegisterRegion_ordered (node action : Bool) (type : IoSpace) (base size : BitVec 64)
    (dev : Option Nat) (ordered : m.Ordered)
    : let next := m.setVm (ioMapRegisterRegion node action type base size dev m.toVmCtx).2
      next.Ordered ∧ RegionsKept m next := by
  cases dev with
  | none => exact ⟨ordered, .of_lookup rfl (Nat.le_refl _) fun _ _ => rfl⟩
  | some dev =>
    have outcome := ioMapRegisterRegion_outcome node action type base size dev
      ordered.bars.unused
    generalize ioMapRegisterRegion node action type base size (some dev) m.toVmCtx = result
      at outcome ⊢
    obtain ⟨_ | handle, vm⟩ := result
    · exact ⟨ordered.quiet outcome, (kept_quiet outcome).1⟩
    · obtain ⟨-, added, pools⟩ := outcome
      refine ⟨ordered.regionAdded rfl added pools, .of_lookup rfl ?_ ?_⟩
      · exact Nat.le_trans (Nat.le_succ _) (Nat.le_of_eq (congrArg IoMap.nextHandle added).symm)
      · intro handle known
        have same : vm.ioMap.find handle = m.ioMap.find handle := by
          rw [added, IoMap.find_add ordered.bars.unused, if_neg (Nat.ne_of_lt known)]
        exact same

theorem pciRegisterBar_sound (node action : Bool) (endpoint : Option Nat) (index : Nat)
    (size : BitVec 32) (requestedBase : BitVec 64) (sound : m.Sound)
    : let next := (pciRegisterBar node action endpoint index size requestedBase m).2
      (∀ endpoint, ∀ index < 6, ∀ handle reg,
        ((next.endpoints endpoint).bars index).region = some handle →
        next.ioMap.find handle = some reg → 16 ≤ reg.size)
      ∧ (m.Blank → next.Blank) := by
  intro next
  rcases pciRegisterBar_outcome node action endpoint index size requestedBase
    sound.ordered.bars.unused with ⟨vm, quiet, same⟩ | ⟨endpoint, owner, base, size, vm, bar, same⟩
  · have kept := kept_quiet quiet
    change next = _ at same
    rw [same]
    exact ⟨sound.wide_of_kept kept.1, fun blank => blank.kept kept.2⟩
  · change next = _ at same
    have endpoints : next.endpoints = update m.endpoints endpoint
        ((m.endpoints endpoint).setBar index
          { (m.endpoints endpoint).bars index with region := some m.ioMap.nextHandle } base) :=
      congrArg Machine.endpoints same
    have regions : ∀ other i, ((next.endpoints other).bars i).region
        = if other = endpoint ∧ i = index then some m.ioMap.nextHandle
          else ((m.endpoints other).bars i).region := by
      intro other i
      rw [same]
      exact Bars.region_setBar ..
    have lookup : ∀ handle, next.ioMap.find handle = vm.ioMap.find handle :=
      fun handle => congrArg (fun m : Machine => m.ioMap.find handle) same
    constructor
    · intro other i inRange handle reg implemented found
      rw [regions] at implemented
      rw [lookup, sound.ordered.bars.find_barAdded bar.added] at found
      split at implemented
      · cases implemented
        rw [if_pos rfl] at found
        cases found
        exact bar.wide
      · have old := Nat.ne_of_lt (sound.ordered.bars.given other i inRange handle implemented)
        rw [if_neg old] at found
        exact sound.wide other i inRange handle reg implemented found
    · intro blank other attached i inRange empty off low high
      rw [regions] at empty
      split at empty
      · cases empty
      next elsewhere =>
        rw [endpoints] at attached ⊢
        by_cases here : other = endpoint
        · subst here
          rw [update_self] at attached ⊢
          rw [PciDevice.setBar, PciDevice.setBarBytes_other _ _ (by omega)]
          exact blank other attached i inRange empty off low high
        · rw [update_of_ne here] at attached ⊢
          exact blank other attached i inRange empty off low high

theorem BusOp.apply_mapped (op : BusOp) (mapped : VmCtx.Mapped m.toVmCtx)
    : VmCtx.Mapped (op.apply m).toVmCtx := by
  cases op with
  | registerEndpoint action bus endpoint =>
    exact pciDeviceRegister_mapped action bus endpoint mapped
  | registerBar node action endpoint index size requestedBase =>
    exact pciRegisterBar_mapped node action endpoint index size requestedBase mapped
  | remove owner => exact releaseResources_mapped owner mapped
  | writeConfig bus devfn offset val size =>
    exact pciBusWriteConfig_mapped bus devfn offset val size mapped
  | setIrq => exact mapped

theorem setIrq_kept (m : Machine) (endpoint : Nat) (level : Bool)
    : let next := m.setEndpoint endpoint (pciDeviceSetIrq level (m.endpoints endpoint))
      RegionsKept m next ∧ BytesKept m next := by
  have ⟨config, registers, _⟩ := pciDeviceSetIrq_fields level (m.endpoints endpoint)
  refine ⟨.setEndpoint rfl (fun _ _ _ => by rw [registers]; exact id) (Nat.le_refl _)
    fun handle reg found => ⟨reg, found, rfl⟩, ?_⟩
  exact .setEndpoint rfl (pciDeviceSetIrq_bus level _) (fun _ _ => by rw [registers])
    fun _ _ _ off _ _ => congrFun config off

theorem Machine.Sound.apply (sound : m.Sound) (op : MachineOp)
    : (op.apply m).Sound := by
  cases op with
  | bus op =>
    refine ⟨sound.ordered.apply op, op.apply_mapped sound.mapped, ?_⟩
    cases op with
    | registerEndpoint action bus endpoint =>
      cases endpoint with
      | none =>
        simp only [MachineOp.apply, BusOp.apply, pciDeviceRegister_none]
        exact sound.wide
      | some endpoint =>
        obtain ⟨map, dev, endpoints, bars, -⟩ :=
          pciDeviceRegister_endpoints action bus endpoint m
        refine sound.wide_of_kept (.setEndpoint endpoints ?_ ?_ ?_)
        · exact fun index _ handle => by rw [bars]; exact id
        · exact Nat.le_of_eq (congrArg IoMap.nextHandle map).symm
        · exact fun handle reg found =>
            ⟨reg, (congrArg (IoMap.find · handle) map).symm.trans found, rfl⟩
    | registerBar node action endpoint index size requestedBase =>
      exact (pciRegisterBar_sound node action endpoint index size requestedBase sound).1
    | remove owner => exact sound.wide_of_kept (releaseResources_kept owner m).1
    | writeConfig bus devfn offset val size =>
      exact sound.wide_of_kept (pciBusWriteConfig_kept bus devfn offset val size m).1
    | setIrq endpoint level => exact sound.wide_of_kept (setIrq_kept m endpoint level).1
  | addRam host gpa size flags =>
    have quiet := vmAddRam_quiet host gpa size flags m.toVmCtx
    exact ⟨sound.ordered.quiet quiet, vmAddRam_mapped host gpa size flags sound.mapped,
      sound.wide_of_kept (kept_quiet quiet).1⟩
  | registerRegion node action type base size dev =>
    have ⟨ordered, kept⟩ := ioMapRegisterRegion_ordered node action type base size dev
      sound.ordered
    exact ⟨ordered, ioMapRegisterRegion_mapped node action type base size dev sound.mapped,
      sound.wide_of_kept kept⟩

theorem Machine.Blank.apply (blank : m.Blank) (sound : m.Sound) {op : MachineOp}
    (zeroed : op.Zeroed m)
    : (op.apply m).Blank := by
  cases op with
  | bus op =>
    cases op with
    | registerEndpoint action bus endpoint =>
      cases endpoint with
      | none =>
        simp only [MachineOp.apply, BusOp.apply, pciDeviceRegister_none]
        exact blank
      | some endpoint =>
        obtain ⟨-, dev, endpoints, bars, bytes, outcome⟩ :=
          pciDeviceRegister_endpoints action bus endpoint m
        intro other attached index inRange empty off low high
        simp only [MachineOp.apply, BusOp.apply] at attached empty ⊢
        rw [endpoints] at attached empty ⊢
        by_cases here : other = endpoint
        · subst here
          rw [update_self] at attached empty
          rw [update_self, bytes off (by unfold pciInterruptPin; omega)
            (by unfold pciInterruptLine; omega)]
          rcases outcome with succeeded | refused
          · exact zeroed succeeded off (by omega) (by omega)
          · -- an endpoint that is on a bus after a refusal was there before
            rw [refused] at attached
            rw [bars] at empty
            exact blank other attached index inRange empty off low high
        · rw [update_of_ne here] at attached empty ⊢
          exact blank other attached index inRange empty off low high
    | registerBar node action endpoint index size requestedBase =>
      exact (pciRegisterBar_sound node action endpoint index size requestedBase sound).2 blank
    | remove owner => exact blank.kept (releaseResources_kept owner m).2
    | writeConfig bus devfn offset val size =>
      exact blank.kept (pciBusWriteConfig_kept bus devfn offset val size m).2
    | setIrq endpoint level => exact blank.kept (setIrq_kept m endpoint level).2
  | addRam => exact blank.kept (.of_eq rfl)
  | registerRegion => exact blank.kept (.of_eq rfl)

theorem Machine.Sound.run (sound : m.Sound) (ops : List MachineOp)
    : (ops.foldl MachineOp.apply m).Sound :=
  List.foldlRecOn (motive := Machine.Sound) ops _ sound fun _ before op _ => before.apply op

/-- A run that registers zeroed endpoints keeps registers blank, by induction on the operations. -/
theorem Machine.Blank.run (blank : m.Blank) (sound : m.Sound) {ops : List MachineOp}
    (zeroed : ZeroedRun m ops)
    : (ops.foldl MachineOp.apply m).Blank := by
  induction ops generalizing m with
  | nil => exact blank
  | cons op rest ih => exact ih (blank.apply sound zeroed.1) (sound.apply op) zeroed.2

structure Machine.Start (m : Machine) : Prop where
  fresh : m.Fresh
  empty : m.Empty

theorem Machine.Start.sound {m : Machine} (start : m.Start) : m.Sound where
  ordered := start.fresh.ordered
  mapped := start.empty.mapped
  wide endpoint index inRange handle reg implemented := by
    rw [start.fresh.empty endpoint index inRange] at implemented
    cases implemented

theorem Machine.Start.blank {m : Machine} (start : m.Start) : m.Blank := by
  intro endpoint attached
  rw [start.fresh.detached endpoint] at attached
  cases attached

end Modvm.Hw
