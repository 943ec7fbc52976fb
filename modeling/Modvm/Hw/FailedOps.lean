import Mathlib.Data.List.ReduceOption
import Modvm.Hw.AddressMap

/-! Operations on the topology of a machine that fail, and the one that leaves a trace. -/

namespace Modvm.Hw

open Function Modvm.Core Modvm.Lib Modvm.Util

/-! ### Model -/

structure PciTree extends Machine where
  parents : Nat → Option Nat

namespace PciTree

def setMachine (t : PciTree) (m : Machine) : PciTree := { t with toMachine := m }

/-- `pci_device_register_locked` with its last step: the bridge's device becomes the parent. -/
def pciDeviceRegister (action : Bool) (bus endpoint : Option Nat) (t : PciTree)
    : Except VmError Unit × PciTree :=
  match Hw.pciDeviceRegister action bus endpoint t.toMachine, bus, endpoint with
  | (.ok _, m), some bus, some endpoint =>
      match (t.endpoints endpoint).owner with
      | some owner =>
          (.ok (),
            { toMachine := m
              parents := if (t.buses bus).owner = some owner then t.parents
                else update t.parents owner (t.buses bus).owner })
      | none => (.ok (), t.setMachine m)
  | (result, m), _, _ => (result, t.setMachine m)

end PciTree

/-- An operation on the topology, with the outcomes of the host allocations it makes. -/
inductive TopologyOp where
  | addRam (host : AddRamHost) (gpa size : BitVec 64) (flags : BitVec 32)
  | registerRegion (node action : Bool) (type : IoSpace) (base size : BitVec 64)
    (dev : Option Nat)
  | relocateRegion (target : Option Nat) (newBase : BitVec 64)
  | registerBar (node action : Bool) (endpoint : Option Nat) (index : Nat) (size : BitVec 32)
    (requestedBase : BitVec 64)
  | registerEndpoint (action : Bool) (bus endpoint : Option Nat)

def TopologyOp.perform (t : PciTree) : TopologyOp → Except VmError Unit × PciTree
  | .addRam host gpa size flags =>
      let (result, vm) := vmAddRam host gpa size flags t.toVmCtx
      (result, t.setMachine (t.toMachine.setVm vm))
  | .registerRegion node action type base size dev =>
      let (result, vm) := ioMapRegisterRegion node action type base size dev t.toVmCtx
      (result.map fun _ => (), t.setMachine (t.toMachine.setVm vm))
  | .relocateRegion target newBase =>
      let (result, vm) := ioMapRelocateRegion target newBase t.toVmCtx
      (result, t.setMachine (t.toMachine.setVm vm))
  | .registerBar node action endpoint index size requestedBase =>
      let (result, m) := pciRegisterBar node action endpoint index size requestedBase t.toMachine
      (result, t.setMachine m)
  | .registerEndpoint action bus endpoint => t.pciDeviceRegister action bus endpoint

/-- The virtual machine is as before, but for memory that pools keep. -/
structure VmUnchanged (before after : VmCtx) : Prop where
  state : after.state = before.state ∧ after.stopRequested = before.stopRequested
    ∧ after.accel = before.accel
  memSpace : after.memSpace = before.memSpace
  regions : after.ioMap.regions = before.ioMap.regions
  devices : ∀ dev, (after.devices dev).ctx = (before.devices dev).ctx
    ∧ (after.devices dev).ops = (before.devices dev).ops
    ∧ (after.devices dev).resources.releasing = (before.devices dev).resources.releasing
    ∧ (after.devices dev).resources.resources.reduceOption
      = (before.devices dev).resources.resources.reduceOption

/-- The whole topology is as before, but for memory that pools keep. -/
structure Unchanged (before after : PciTree) : Prop where
  vm : VmUnchanged before.toVmCtx after.toVmCtx
  buses : after.buses = before.buses
  endpoints : after.endpoints = before.endpoints
  parents : after.parents = before.parents

theorem VmUnchanged.refl (vm : VmCtx) : VmUnchanged vm vm :=
  ⟨⟨rfl, rfl, rfl⟩, rfl, rfl, fun _ => ⟨rfl, rfl, rfl, rfl⟩⟩

theorem Unchanged.of_vm {t : PciTree} {vm : VmCtx} (unchanged : VmUnchanged t.toVmCtx vm)
    : Unchanged t (t.setMachine (t.toMachine.setVm vm)) :=
  ⟨unchanged, rfl, rfl, rfl⟩

/-! ### Operations that unwind -/

variable {error : VmError} {action : Bool} {m : Machine}

theorem vmAddRam_failed {host : AddRamHost} {gpa size : BitVec 64} {flags : BitVec 32} {vm : VmCtx}
    (failed : (vmAddRam host gpa size flags vm).1 = .error error)
    : VmUnchanged vm (vmAddRam host gpa size flags vm).2 := by
  unfold vmAddRam at failed ⊢
  split at failed
  · exact .refl vm
  · exact .refl vm
  · exact .refl vm
  · exact .refl vm
  · cases failed

theorem ioMapRelocateRegion_failed {target : Option Nat} {newBase : BitVec 64} {vm : VmCtx}
    (failed : (ioMapRelocateRegion target newBase vm).1 = .error error)
    : VmUnchanged vm (ioMapRelocateRegion target newBase vm).2 := by
  unfold ioMapRelocateRegion at failed ⊢
  split
  · exact .refl vm
  next reg found =>
    rw [found] at failed
    dsimp only at failed ⊢
    split_ifs at failed ⊢
    · exact .refl vm
    · exact .refl vm
    · exact .refl vm

theorem remove_add {map : IoMap} {reg : IoRegion}
    (unused : ∀ type, ∀ other ∈ map.regions type, other.handle ≠ reg.handle)
    : ((map.add reg).remove reg.handle).regions = map.regions := by
  funext type
  have kept : (map.regions type).filter (fun other => other.handle != reg.handle)
      = map.regions type :=
    List.filter_eq_self.mpr fun other member => bne_iff_ne.mpr (unused type other member)
  unfold IoMap.remove IoMap.add
  by_cases here : type = reg.type
  · subst here
    simp only [update_self, List.filter_append, kept]
    simp
  · simp only [update_of_ne here, kept]

theorem vmUnchanged_unlinked {vm : VmCtx} {node : Bool} {dev : Nat} {pool : ResPool Cleanup}
    (allocated : resZalloc node (vm.devices dev).resources = some pool) {reg : IoRegion}
    (unused : ∀ type, ∀ other ∈ vm.ioMap.regions type, other.handle ≠ reg.handle)
    : VmUnchanged vm
      ((vm.setResources dev pool).setIoMap ((vm.ioMap.add reg).remove reg.handle)) := by
  refine ⟨⟨rfl, rfl, rfl⟩, rfl, remove_add unused, fun other => ?_⟩
  unfold resZalloc at allocated
  split at allocated
  · cases allocated
  · obtain rfl := Option.some.inj allocated
    by_cases here : other = dev
    · subst here
      simp [VmCtx.setResources, VmCtx.setIoMap, List.reduceOption_append]
    · simp [VmCtx.setResources, VmCtx.setIoMap, here]

theorem ioMapRegisterRegion_failed {node : Bool} {type : IoSpace} {base size : BitVec 64}
    {dev : Option Nat} {vm : VmCtx}
    (fresh : ∀ type, ∀ reg ∈ vm.ioMap.regions type, reg.handle < vm.ioMap.nextHandle)
    (failed : (ioMapRegisterRegion node action type base size dev vm).1 = .error error)
    : VmUnchanged vm (ioMapRegisterRegion node action type base size dev vm).2 := by
  unfold ioMapRegisterRegion at failed ⊢
  cases dev with
  | none => exact .refl vm
  | some dev =>
    dsimp only at failed ⊢
    split_ifs at failed ⊢ with incomplete overflow taken shadows
    · exact .refl vm
    · exact .refl vm
    · exact .refl vm
    · exact .refl vm
    · generalize allocated : resZalloc node (vm.devices dev).resources = outcome at failed ⊢
      cases outcome with
      | none => exact .refl vm
      | some pool =>
        dsimp only at failed ⊢
        generalize resAddAction action (.ioRegionUnregister vm.ioMap.nextHandle) pool = added
          at failed ⊢
        cases added with
        | ok => cases failed
        | error =>
          exact vmUnchanged_unlinked allocated fun type reg member =>
            Nat.ne_of_lt (fresh type reg member)

theorem pciRegisterBar_failed {node : Bool} {endpoint : Option Nat} {index : Nat} {size : BitVec 32}
    {requestedBase : BitVec 64}
    (fresh : ∀ type, ∀ reg ∈ m.ioMap.regions type, reg.handle < m.ioMap.nextHandle)
    (failed : (pciRegisterBar node action endpoint index size requestedBase m).1 = .error error)
    : ∃ vm, (pciRegisterBar node action endpoint index size requestedBase m).2 = m.setVm vm
      ∧ VmUnchanged m.toVmCtx vm := by
  have nothing : ∃ vm, m = m.setVm vm ∧ VmUnchanged m.toVmCtx vm := ⟨m.toVmCtx, rfl, .refl _⟩
  unfold pciRegisterBar at failed ⊢
  cases endpoint with
  | none => exact nothing
  | some =>
    dsimp only at failed ⊢
    split
    case h_2 => exact nothing
    case h_1 bus owner there owned =>
      rw [there, owned] at failed
      dsimp only at failed
      split_ifs at failed ⊢ with range valid mapped
      · exact nothing
      · exact nothing
      · generalize barBase m (m.buses bus) size.toNat _ requestedBase = placed at failed ⊢
        cases placed with
        | none => exact nothing
        | some base =>
          dsimp only at failed ⊢
          split_ifs at failed ⊢
          · exact nothing
          · generalize registered : ioMapRegisterRegion node action .mmio (.ofNat 64 base)
              (size.setWidth 64) (some owner) m.toVmCtx = outcome at failed ⊢
            obtain ⟨_ | handle, vm⟩ := outcome
            · refine ⟨vm, rfl, ?_⟩
              have kept := ioMapRegisterRegion_failed fresh
                (congrArg Prod.fst registered)
              rwa [registered] at kept
            · cases failed
      · exact nothing

/-! ### Registration of an endpoint -/

/-- The checks of `pci_device_register_locked`, before it changes anything, refuse the endpoint. -/
def RegisterRefused (m : Machine) (bus endpoint : Nat) : Prop :=
  let dev := m.endpoints endpoint
  let state := m.buses bus
  dev.owner = none ∨ state.owner = none
  ∨ (∃ owner bridge, dev.owner = some owner ∧ state.owner = some bridge
    ∧ (m.devices owner).ctx ≠ (m.devices bridge).ctx)
  ∨ dev.interruptPin.toNat > 4
  ∨ dev.bus.isSome
  ∨ (dev.devfn = 0xff ∧ freeSlot m state = none)
  ∨ (dev.devfn ≠ 0xff ∧ ∃ pos ∈ state.devices, (m.endpoints pos).devfn = dev.devfn)

def PciDevice.assign (dev : PciDevice) (devfn : BitVec 8) : PciDevice :=
  { dev with
    devfn := devfn
    configSpace := update
      (update dev.configSpace pciInterruptPin dev.interruptPin)
      pciInterruptLine 0 }

/-- The endpoint has a slot of its own, and its interrupt bytes are what registration makes them. -/
def Prepared (dev : PciDevice) : Prop :=
  dev.devfn ≠ 0xff
  ∧ dev.configSpace pciInterruptPin = dev.interruptPin
  ∧ dev.configSpace pciInterruptLine = 0

theorem freeSlot_spec {state : PciBus} {slot : Nat} (free : freeSlot m state = some slot)
    : BitVec.ofNat 8 (slot * 8) ≠ 0xff
      ∧ ∀ pos ∈ state.devices, (m.endpoints pos).devfn ≠ BitVec.ofNat 8 (slot * 8) := by
  have member := List.mem_range'_1.mp (List.mem_of_find?_eq_some free)
  have unoccupied := List.find?_some free
  constructor
  · intro same
    have number : slot * 8 % 256 = 255 := congrArg BitVec.toNat same
    omega
  · intro pos listed same
    have taken : state.devices.any (fun pos => pciSlot (m.endpoints pos).devfn == slot) = true := by
      refine List.any_eq_true.mpr ⟨pos, listed, beq_iff_eq.mpr ?_⟩
      unfold pciSlot
      rw [same, BitVec.toNat_ofNat]
      omega
    rw [taken] at unoccupied
    cases unoccupied

def chosenDevfn (m : Machine) (state : PciBus) (dev : PciDevice) : Option (BitVec 8) :=
  if dev.devfn = 0xff then (freeSlot m state).map fun slot => BitVec.ofNat 8 (slot * 8)
  else some dev.devfn

theorem chosenDevfn_eq_none {state : PciBus} {dev : PciDevice}
    (full : chosenDevfn m state dev = none)
    : dev.devfn = 0xff ∧ freeSlot m state = none := by
  unfold chosenDevfn at full
  split_ifs at full with auto
  exact ⟨auto, Option.map_eq_none_iff.mp full⟩

theorem chosenDevfn_eq_some {state : PciBus} {dev : PciDevice} {devfn : BitVec 8}
    (chosen : chosenDevfn m state dev = some devfn)
    : (dev.devfn = 0xff ∧ freeSlot m state ≠ none ∧ devfn ≠ 0xff
        ∧ ∀ pos ∈ state.devices, (m.endpoints pos).devfn ≠ devfn)
      ∨ (dev.devfn ≠ 0xff ∧ devfn = dev.devfn) := by
  unfold chosenDevfn at chosen
  split_ifs at chosen with auto
  · obtain ⟨slot, free, rfl⟩ := Option.map_eq_some_iff.mp chosen
    obtain ⟨number, unoccupied⟩ := freeSlot_spec free
    exact .inl ⟨auto, by rw [free]; exact Option.some_ne_none slot, number, unoccupied⟩
  · exact .inr ⟨auto, (Option.some.inj chosen).symm⟩

theorem not_registerRefused {m : Machine} {bus endpoint owner bridge : Nat} {devfn : BitVec 8}
    (owned : (m.endpoints endpoint).owner = some owner)
    (bridged : (m.buses bus).owner = some bridge)
    (right : ¬ ((m.devices owner).ctx ≠ (m.devices bridge).ctx
      ∨ (m.endpoints endpoint).interruptPin.toNat > 4))
    (detached : ¬ (m.endpoints endpoint).bus.isSome)
    (chosen : chosenDevfn m (m.buses bus) (m.endpoints endpoint) = some devfn)
    (clear : ∀ pos ∈ (m.buses bus).devices, (m.endpoints pos).devfn ≠ devfn)
    : ¬ RegisterRefused m bus endpoint := by
  have number := chosenDevfn_eq_some chosen
  rintro (lost | lost | ⟨_, _, own, other, foreign⟩ | pin | busy | full | taken)
  · cases owned.symm.trans lost
  · cases bridged.symm.trans lost
  · cases owned.symm.trans own
    cases bridged.symm.trans other
    exact right (.inl foreign)
  · exact right (.inr pin)
  · exact detached busy
  · rcases number with ⟨-, free, -⟩ | ⟨fixed, -⟩
    · exact free full.2
    · exact fixed full.1
  · obtain ⟨fixed, pos, listed, same⟩ := taken
    rcases number with ⟨auto, -⟩ | ⟨-, rfl⟩
    · exact fixed auto
    · exact clear pos listed same

theorem pciDeviceRegister_failed {bus endpoint : Nat}
    (failed : (pciDeviceRegister action (some bus) (some endpoint) m).1 = .error error)
    : let dev := m.endpoints endpoint
      (RegisterRefused m bus endpoint
        ∧ (pciDeviceRegister action (some bus) (some endpoint) m).2 = m)
      ∨ (¬ RegisterRefused m bus endpoint
        ∧ ∃ devfn, devfn ≠ 0xff ∧ (dev.devfn ≠ 0xff → devfn = dev.devfn)
          ∧ (pciDeviceRegister action (some bus) (some endpoint) m).2
            = m.setEndpoint endpoint (dev.assign devfn)) := by
  intro dev
  unfold pciDeviceRegister at failed ⊢
  dsimp only at failed ⊢
  split
  case h_2 missing =>
    refine .inl ⟨?_, rfl⟩
    cases owned : dev.owner with
    | none => exact .inl owned
    | some owner =>
      refine .inr (.inl ?_)
      cases bridged : (m.buses bus).owner with
      | none => rfl
      | some bridge => exact absurd bridged (missing owner bridge owned)
  case h_1 owner bridge owned bridged =>
    rw [owned, bridged] at failed
    dsimp only at failed
    by_cases wrong : (m.devices owner).ctx ≠ (m.devices bridge).ctx ∨ dev.interruptPin.toNat > 4
    · rw [if_pos wrong]
      refine .inl ⟨?_, rfl⟩
      rcases wrong with foreign | pin
      · exact .inr (.inr (.inl ⟨owner, bridge, owned, bridged, foreign⟩))
      · exact .inr (.inr (.inr (.inl pin)))
    rw [if_neg wrong] at failed ⊢
    by_cases attached : dev.bus.isSome
    · rw [if_pos attached]
      exact .inl ⟨.inr (.inr (.inr (.inr (.inl attached)))), rfl⟩
    rw [if_neg attached] at failed ⊢
    generalize chosen : (if dev.devfn = 0xff then
      (freeSlot m (m.buses bus)).map fun slot => BitVec.ofNat 8 (slot * 8)
      else some dev.devfn) = choice at failed ⊢
    cases choice with
    | none =>
      have full := chosenDevfn_eq_none chosen
      exact .inl ⟨.inr (.inr (.inr (.inr (.inr (.inl full))))), rfl⟩
    | some devfn =>
      have number := chosenDevfn_eq_some chosen
      dsimp only at failed ⊢
      by_cases collision : (m.buses bus).devices.any
        (fun pos => (m.endpoints pos).devfn == devfn) = true
      · -- A slot nobody occupies cannot collide, so the number was the endpoint's own.
        rw [if_pos collision]
        obtain ⟨pos, listed, same⟩ := List.any_eq_true.mp collision
        rcases number with ⟨-, -, -, unoccupied⟩ | ⟨fixed, rfl⟩
        · exact absurd (beq_iff_eq.mp same) (unoccupied pos listed)
        · refine .inl ⟨.inr (.inr (.inr (.inr (.inr (.inr ⟨fixed, pos, listed, ?_⟩))))), ?_⟩
          · exact beq_iff_eq.mp same
          · exact m.setEndpoint_eq_self endpoint
      · rw [if_neg collision] at failed ⊢
        generalize resAddAction action (.pciUnregister endpoint) (m.devices owner).resources
          = added at failed ⊢
        cases added with
        | ok => cases failed
        | error =>
          have clear : ∀ pos ∈ (m.buses bus).devices, (m.endpoints pos).devfn ≠ devfn :=
            fun pos listed same =>
              collision (List.any_eq_true.mpr ⟨pos, listed, beq_iff_eq.mpr same⟩)
          refine .inr ⟨?_, devfn, ?_, ?_, rfl⟩
          · exact not_registerRefused owned bridged wrong attached chosen clear
          · rcases number with ⟨-, -, given, -⟩ | ⟨fixed, rfl⟩
            · exact given
            · exact fixed
          · intro fixed
            rcases number with ⟨auto, -⟩ | ⟨-, own⟩
            · exact absurd auto fixed
            · exact own

theorem PciDevice.assign_eq_self_iff {dev : PciDevice} {devfn : BitVec 8} (number : devfn ≠ 0xff)
    (own : dev.devfn ≠ 0xff → devfn = dev.devfn)
    : dev.assign devfn = dev ↔ Prepared dev := by
  constructor
  · intro same
    have bytes := congrArg PciDevice.configSpace same
    refine ⟨?_, ?_, ?_⟩
    · rw [← congrArg PciDevice.devfn same]
      exact number
    · rw [← bytes]
      simp [PciDevice.assign, pciInterruptPin, pciInterruptLine]
    · rw [← bytes]
      simp [PciDevice.assign]
  · rintro ⟨fixed, pin, line⟩
    have bytes : update
        (update dev.configSpace pciInterruptPin dev.interruptPin)
        pciInterruptLine 0 = dev.configSpace := by
      rw [← pin, update_eq_self, ← line, update_eq_self]
    unfold PciDevice.assign
    rw [bytes, own fixed]

theorem PciTree.pciDeviceRegister_failed {bus endpoint : Nat} {t : PciTree}
    (failed : (t.pciDeviceRegister action (some bus) (some endpoint)).1 = .error error)
    : Unchanged t (t.pciDeviceRegister action (some bus) (some endpoint)).2
      ↔ RegisterRefused t.toMachine bus endpoint ∨ Prepared (t.endpoints endpoint) := by
  unfold PciTree.pciDeviceRegister at failed ⊢
  generalize performed : Hw.pciDeviceRegister action (some bus) (some endpoint) t.toMachine
    = outcome at failed ⊢
  obtain ⟨result, m⟩ := outcome
  cases result with
  | ok =>
    dsimp only at failed
    split at failed
    · cases failed
    · cases failed
  | error =>
    have left := Hw.pciDeviceRegister_failed (congrArg Prod.fst performed)
    rw [performed] at left
    rcases left with ⟨refused, rfl⟩ | ⟨accepted, devfn, number, own, rfl⟩
    · exact iff_of_true ⟨.refl _, rfl, rfl, rfl⟩ (.inl refused)
    · rw [or_iff_right accepted, ← PciDevice.assign_eq_self_iff number own]
      constructor
      · intro unchanged
        exact update_eq_self_iff.mp unchanged.endpoints
      · intro same
        exact ⟨.refl _, rfl, update_eq_self_iff.mpr same, rfl⟩

/-! ### Every operation -/

/-- What makes a failed operation leave nothing: a registration must be refused by a check, or write
what stands there.
-/
def TopologyOp.Unwound (t : PciTree) : TopologyOp → Prop
  | .registerEndpoint _ (some bus) (some endpoint) =>
      RegisterRefused t.toMachine bus endpoint ∨ Prepared (t.endpoints endpoint)
  | _ => True

/-- A failed operation leaves the whole topology as it was, unless it registers an endpoint that
passes every check, fails at its cleanup, and had to be given a number or its interrupt bytes.
-/
theorem failed_op_unchanged {t : PciTree}
    -- A new allocation is at a new address.
    (fresh : ∀ type, ∀ reg ∈ t.ioMap.regions type, reg.handle < t.ioMap.nextHandle)
    (op : TopologyOp) {error : VmError} (failed : (op.perform t).1 = .error error)
    : Unchanged t (op.perform t).2 ↔ op.Unwound t := by
  cases op with
  | addRam => exact iff_of_true (.of_vm (vmAddRam_failed failed)) trivial
  | registerRegion node action type base size dev =>
    refine iff_of_true (.of_vm ?_) trivial
    have failed : (ioMapRegisterRegion node action type base size dev t.toVmCtx).1.map
        (fun _ => ()) = .error error := failed
    generalize registered : (ioMapRegisterRegion node action type base size dev t.toVmCtx).1
      = result at failed
    cases result with
    | error => exact ioMapRegisterRegion_failed fresh registered
    | ok => cases failed
  | relocateRegion =>
    exact iff_of_true (.of_vm (ioMapRelocateRegion_failed failed)) trivial
  | registerBar =>
    obtain ⟨vm, same, unchanged⟩ := pciRegisterBar_failed fresh failed
    refine iff_of_true ?_ trivial
    have unwound := Unchanged.of_vm unchanged
    rwa [← same] at unwound
  | registerEndpoint action bus endpoint =>
    cases bus with
    | none => exact iff_of_true ⟨.refl _, rfl, rfl, rfl⟩ trivial
    | some =>
      cases endpoint with
      | none => exact iff_of_true ⟨.refl _, rfl, rfl, rfl⟩ trivial
      | some => exact PciTree.pciDeviceRegister_failed failed

def askingTree : PciTree where
  toMachine := { bareMachine with
    endpoints := fun _ =>
      ⟨none, some 0, 0xff, 1, false, false, fun _ => ⟨none, false⟩, fun _ => 0⟩
    buses := fun _ => ⟨[], some 0, 0xc0000000, 0xc1000000⟩ }
  parents := fun _ => none

/-- A failed registration that is refused since there is no such interrupt pin. -/
theorem failed_op_unchanged_pin
    : let t := { askingTree with
        endpoints := fun _ =>
          ⟨none, some 0, 0xff, 5, false, false, fun _ => ⟨none, false⟩, fun _ => 0⟩ }
      let op : TopologyOp := .registerEndpoint true (some 0) (some 0)
      (op.perform t).1 = .error .einval ∧ op.Unwound t ∧ Unchanged t (op.perform t).2 := by
  intro t op
  have pin : (t.endpoints 0).interruptPin.toNat > 4 := by decide
  have unwound : op.Unwound t := .inl (.inr (.inr (.inr (.inl pin))))
  have unused : ∀ type, ∀ reg ∈ t.ioMap.regions type, reg.handle < t.ioMap.nextHandle :=
    fun _ _ member => absurd member List.not_mem_nil
  exact ⟨rfl, unwound, (failed_op_unchanged unused op rfl).mpr unwound⟩

/-- The endpoint keeps slot 1 and its interrupt pin when its cleanup cannot be allocated. -/
theorem failed_registration_kept
    : let op : TopologyOp := .registerEndpoint false (some 0) (some 0)
      (op.perform askingTree).1 = .error .enomem
      ∧ ((op.perform askingTree).2.endpoints 0).devfn = 8
      ∧ ((op.perform askingTree).2.endpoints 0).configSpace pciInterruptPin = 1
      ∧ ¬ Unchanged askingTree (op.perform askingTree).2 := by
  refine ⟨rfl, rfl, rfl, ?_⟩
  intro unchanged
  have number : (8 : BitVec 8) = 0xff :=
    congrArg PciDevice.devfn (congrFun unchanged.endpoints 0)
  exact absurd number (by decide)

end Modvm.Hw
