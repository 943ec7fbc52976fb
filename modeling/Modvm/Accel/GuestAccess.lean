import Modvm.Hw.Dispatch

/-! Accesses of a processor under KVM: to memory slots, and by exits to the I/O map. -/

namespace Modvm.Accel

open Function Modvm.Core Modvm.Hw Modvm.Lib Modvm.Util

/-! ### Memory slots -/

/-- `struct kvm_userspace_memory_region`; the host address is the start of a region's memory. -/
structure KvmMemorySlot where
  guestPhysAddr : Nat
  memorySize : Nat
  userspaceAddr : MemRegion
  readonly : Bool

/-- `struct kvm_state`, with the slots that the kernel holds. -/
structure KvmState where
  slots : BitVec 32 → Option KvmMemorySlot
  memSlotIdx : BitVec 32

def KvmMemorySlot.of (reg : MemRegion) : KvmMemorySlot :=
  ⟨reg.gpa, reg.size, reg, reg.isReadonly⟩

/-- The kernel replaces a slot whose number is used again. -/
def kvmAccelMapRam (ioctl : Except VmError Unit) (reg : MemRegion) (state : KvmState)
    : Except VmError Unit × KvmState :=
  match ioctl with
  | .error error => (.error error, state)
  | .ok _ => (.ok (), ⟨update state.slots state.memSlotIdx (some (.of reg)), state.memSlotIdx + 1⟩)

structure KvmMachine extends Machine where
  kvm : KvmState

def KvmMachine.fresh (m : Machine) : KvmMachine := ⟨m, fun _ => none, 0⟩

/-- `vm_add_ram` calls `kvm_accel_map_ram` when it has allocated its region. -/
def KvmMachine.apply (k : KvmMachine) (op : AddressMapOp) : KvmMachine where
  toMachine := op.apply k.toMachine
  kvm :=
    match op with
    | .addRam host gpa size flags =>
        match vmAddRamCheck gpa.toNat size.toNat k.toVmCtx, host.node, host.pages with
        | none, true, .ok _ =>
            (kvmAccelMapRam host.mapped ⟨gpa.toNat, size.toNat, flags⟩ k.kvm).2
        | _, _, _ => k.kvm
    | _ => k.kvm

/-- A slot lets a processor access the address, at this place of the host's memory. -/
def KvmState.Backs (kvm : KvmState) (write : Bool) (gpa : Nat) (hva : Hva) : Prop :=
  ∃ index slot, kvm.slots index = some slot
    ∧ (Span.mk slot.guestPhysAddr slot.memorySize).Has gpa
    ∧ (write = true → slot.readonly = false)
    ∧ hva = ⟨slot.userspaceAddr, gpa - slot.guestPhysAddr⟩

theorem runCleanup_memSpace (action : Cleanup) (m : Machine)
    : (runCleanup action m).memSpace = m.memSpace := by
  cases action with
  | ioRegionUnregister => rfl
  | pciUnregister =>
    simp only [runCleanup, pciUnregister]
    split <;> rfl

theorem releaseResources_memSpace (dev : Nat) (m : Machine)
    : (releaseResources dev m).memSpace = m.memSpace := by
  have each : ∀ actions m, (resRelease runCleanup actions m).memSpace = m.memSpace := by
    intro actions
    induction actions with
    | nil => exact fun _ => rfl
    | cons action rest ih =>
      intro m
      cases action with
      | none => exact ih m
      | some action => exact (ih _).trans (runCleanup_memSpace action m)
  unfold releaseResources
  split
  · rfl
  · exact each _ m

theorem ioMapRegisterRegion_memSpace {node action : Bool} {type : IoSpace} {base size : BitVec 64}
    {dev : Option Nat} {vm next : VmCtx} {result : Except VmError Nat}
    (registered : ioMapRegisterRegion node action type base size dev vm = (result, next))
    : next.memSpace = vm.memSpace := by
  rw [← show _ = next from congrArg Prod.snd registered]
  unfold ioMapRegisterRegion
  dsimp only
  repeat' split
  all_goals rfl

theorem ioMapRelocateRegion_memSpace {target : Option Nat} {newBase : BitVec 64} {vm next : VmCtx}
    {result : Except VmError Unit}
    (relocated : ioMapRelocateRegion target newBase vm = (result, next))
    : next.memSpace = vm.memSpace := by
  rw [← show _ = next from congrArg Prod.snd relocated]
  unfold ioMapRelocateRegion
  dsimp only
  repeat' split
  all_goals rfl

/-- Only `vm_add_ram` changes the memory space. -/
theorem apply_memSpace (m : Machine) {op : AddressMapOp}
    (other : ∀ host gpa size flags, op ≠ .addRam host gpa size flags)
    : (op.apply m).memSpace = m.memSpace := by
  cases op with
  | addRam host gpa size flags => exact absurd rfl (other host gpa size flags)
  | registerRegion => exact ioMapRegisterRegion_memSpace rfl
  | relocateRegion => exact ioMapRelocateRegion_memSpace rfl
  | release dev => exact releaseResources_memSpace dev m
  | registerBar =>
    simp only [AddressMapOp.apply, pciRegisterBar]
    repeat' split
    all_goals try rfl
    all_goals rename_i registered; exact (ioMapRegisterRegion_memSpace registered :)
  | writeConfig =>
    simp only [AddressMapOp.apply, pciBusWriteConfig, pciWriteBar, pciWriteHeader]
    repeat' split
    all_goals try rfl
    all_goals rename_i relocated; exact (ioMapRelocateRegion_memSpace relocated :)
  | initBus =>
    simp only [AddressMapOp.apply, pciBusInit]
    repeat' split
    all_goals rfl
  | registerEndpoint =>
    simp only [AddressMapOp.apply, pciDeviceRegister]
    repeat' split
    all_goals rfl

theorem vmAddRamCheck_aligned {gpa size : Nat} {vm : VmCtx}
    (passed : vmAddRamCheck gpa size vm = none)
    : vm.memSpace.hostPageSize ∣ gpa ∧ vm.memSpace.hostPageSize ∣ size := by
  simp only [vmAddRamCheck, reduceCtorEq, ite_eq_iff, and_false,
    false_or, not_or, not_not] at passed
  exact ⟨Nat.dvd_of_mod_eq_zero passed.2.2.2.2.2.2.1.1,
    Nat.dvd_of_mod_eq_zero passed.2.2.2.2.2.2.1.2⟩

variable {k : KvmMachine}

/-- What a step does to RAM: nothing, or it adds a region and the slot for it. -/
inductive RamStep (k next : KvmMachine) : Prop
  | same (space : next.memSpace = k.memSpace) (kvm : next.kvm = k.kvm)
  | added (reg : MemRegion)
    (aligned : k.memSpace.hostPageSize ∣ reg.gpa
      ∧ k.memSpace.hostPageSize ∣ reg.size)
    (page : next.memSpace.hostPageSize = k.memSpace.hostPageSize)
    (regions : next.memSpace.regions = k.memSpace.regions ++ [reg])
    (kvm : next.kvm = ⟨update k.kvm.slots k.kvm.memSlotIdx (some (.of reg)),
      k.kvm.memSlotIdx + 1⟩)

theorem KvmMachine.apply_ram (k : KvmMachine) (op : AddressMapOp) : RamStep k (k.apply op) := by
  cases op with
  | addRam host gpa size flags =>
    obtain ⟨node, pages, mapped⟩ := host
    cases passed : vmAddRamCheck gpa.toNat size.toNat k.toVmCtx with
    | some =>
      refine .same ?_ ?_ <;>
        simp only [KvmMachine.apply, AddressMapOp.apply, vmAddRam, passed, Machine.setVm]
    | none =>
      rcases node with _ | _ <;> rcases pages with _ | _ <;> rcases mapped with _ | _
      case true.ok.ok =>
        refine .added ⟨gpa.toNat, size.toNat, flags⟩ (vmAddRamCheck_aligned passed) ?_ ?_ ?_ <;>
          simp only [KvmMachine.apply, AddressMapOp.apply, vmAddRam, passed] <;> rfl
      all_goals
        refine .same ?_ ?_ <;>
          simp only [KvmMachine.apply, AddressMapOp.apply, vmAddRam, passed, Machine.setVm,
            kvmAccelMapRam]
  | _ => exact .same (apply_memSpace k.toMachine (by simp)) rfl

/-- The kernel holds a slot for each region, under the number of its place. -/
structure Mirrored (k : KvmMachine) : Prop where
  mapped : VmCtx.Mapped k.toVmCtx
  aligned : ∀ reg ∈ k.memSpace.regions,
    k.memSpace.hostPageSize ∣ reg.gpa ∧ k.memSpace.hostPageSize ∣ reg.size
  next : k.kvm.memSlotIdx = .ofNat 32 k.memSpace.regions.length
  slots : k.memSpace.regions.length ≤ 2 ^ 32
    → ∀ index, k.kvm.slots index = k.memSpace.regions[index.toNat]?.map .of

theorem Mirrored.apply (mirrored : Mirrored k) (op : AddressMapOp) : Mirrored (k.apply op) := by
  have mapped : VmCtx.Mapped (k.apply op).toVmCtx := op.apply_mapped mirrored.mapped
  cases k.apply_ram op with
  | same space kvm =>
    refine ⟨mapped, ?_, ?_, ?_⟩ <;> rw [space] <;> try rw [kvm]
    · exact mirrored.aligned
    · exact mirrored.next
    · exact mirrored.slots
  | added reg aligned page regions kvm =>
    refine ⟨mapped, ?_, ?_, ?_⟩ <;> rw [regions] <;> try rw [kvm]
    · intro other member
      rw [page]
      rcases List.mem_append.mp member with old | new
      · exact mirrored.aligned other old
      · exact List.mem_singleton.mp new ▸ aligned
    · rw [mirrored.next]
      simp [BitVec.ofNat_add]
    · intro few index
      rw [List.length_append, List.length_singleton] at few
      change update _ _ _ _ = _
      -- The number of the new slot is fresh, since it has not wrapped.
      have place : index = BitVec.ofNat 32 k.memSpace.regions.length
          ↔ index.toNat = k.memSpace.regions.length := by
        rw [← BitVec.toNat_inj, BitVec.toNat_ofNat, Nat.mod_eq_of_lt (by omega)]
      rw [mirrored.next, update_apply, mirrored.slots (by omega)]
      split_ifs with here
      · rw [place.mp here, List.getElem?_concat_length]
        rfl
      · rcases Nat.lt_or_gt_of_ne (mt place.mpr here) with low | high
        · rw [List.getElem?_append_left low]
        · rw [List.getElem?_eq_none (by omega), List.getElem?_eq_none (by simp; omega)]

/-! ### Exits -/

/-- `run->mmio`. -/
structure MmioExit where
  physAddr : BitVec 64
  data : List (BitVec 8)
  len : BitVec 32
  isWrite : Bool

variable {σ : Type}

def kvmVcpuHandleMmioExit (ops : Nat → DeviceOps σ) (map : IoMap) (exit : MmioExit) (s : σ)
    : MmioExit × σ :=
  let size := exit.len.setWidth 8
  if exit.isWrite then
    let val := leNat (exit.data.take size.toNat)
    (exit, ioMapWrite ops map .mmio exit.physAddr (.ofNat 64 val) size s)
  else
    let (val, s) := ioMapRead ops map .mmio exit.physAddr size s
    ({ exit with data := toLe size.toNat val.toNat ++ exit.data.drop size.toNat }, s)

variable {gpa : Nat}

theorem Mirrored.backs_iff (mirrored : Mirrored k)
    (few : k.memSpace.regions.length ≤ 2 ^ 32) {write : Bool} {hva : Hva}
    : k.kvm.Backs write gpa hva
      ↔ ∃ reg ∈ k.memSpace.regions, reg.span.Has gpa
        ∧ (write = true → reg.isReadonly = false) ∧ hva = ⟨reg, gpa - reg.gpa⟩ := by
  constructor
  · rintro ⟨index, slot, held, has, writable, same⟩
    rw [mirrored.slots few, Option.map_eq_some_iff] at held
    obtain ⟨reg, found, rfl⟩ := held
    exact ⟨reg, List.mem_of_getElem? found, has, writable, same⟩
  · rintro ⟨reg, member, has, writable, same⟩
    obtain ⟨place, found⟩ := List.mem_iff_getElem?.mp member
    have small : place < 2 ^ 32 := (List.getElem?_eq_some_iff.mp found).1.trans_le few
    refine ⟨.ofNat 32 place, .of reg, ?_, has, writable, same⟩
    rw [mirrored.slots few, BitVec.toNat_ofNat, Nat.mod_eq_of_lt small, found]
    rfl

theorem within_page {page base size len : Nat} (aligned : page ∣ base ∧ page ∣ size)
    (has : (Span.mk base size).Has gpa) (inside : (gpa + len - 1) / page = gpa / page)
    : gpa + len ≤ base + size := by
  obtain ⟨low, high⟩ := has
  obtain ⟨whole, total⟩ := Nat.dvd_add aligned.1 aligned.2
  rw [total] at high ⊢
  have some : 0 < page := Nat.pos_of_ne_zero fun zero => by simp [zero] at high
  have last := Nat.div_lt_of_lt_mul high
  rw [← inside, Nat.div_lt_iff_lt_mul some, Nat.mul_comm] at last
  omega

theorem Mirrored.memMapRange_iff (mirrored : Mirrored k) {len : Nat} (nonempty : len ≠ 0)
    (inside : (gpa + len - 1) / k.memSpace.hostPageSize
      = gpa / k.memSpace.hostPageSize) {write : Bool} {hva : Hva}
    : memMapRange k.memSpace gpa len write = some hva
      ↔ ∃ reg ∈ k.memSpace.regions, reg.span.Has gpa
        ∧ (write = true → reg.isReadonly = false) ∧ hva = ⟨reg, gpa - reg.gpa⟩ := by
  have layout := mirrored.mapped.1.ram.layout
  constructor
  · intro mapped
    obtain ⟨member, same, -, -, -, within, writable⟩ :=
      memMapChunk_sound (memMapRange_sound mapped)
    obtain ⟨reg, offset⟩ := hva
    obtain rfl : reg.gpa + offset = gpa := same
    refine ⟨reg, member, within.has ⟨le_rfl, by dsimp only; omega⟩, writable, ?_⟩
    rw [Nat.add_sub_cancel_left]
  · rintro ⟨reg, member, has, writable, rfl⟩
    -- Regions consist of whole pages, so one that has the address has the rest of its page.
    have fits := within_page (mirrored.aligned reg member) has inside
    have bound := layout.bounded reg member
    unfold memMapRange
    rw [layout.memMapChunk_eq nonempty (by omega) member has writable]
    exact if_pos (by omega)

theorem setWidth_of_access {len : BitVec 32} (width : len.toNat ∈ accessSizes)
    : (len.setWidth 8).toNat = len.toNat := by
  have small : ∀ size ∈ accessSizes, size < 2 ^ 8 := by decide
  rw [BitVec.toNat_setWidth, Nat.mod_eq_of_lt (small _ width)]

/-- An access of a processor means the same to the kernel, to the devices and to the I/O map, in any
machine that any operations built, whatever the host answered. A slot backs an access that does not
cross a page if and only if `mem_map_range` grants it, at the same place. No slot backs an access
that a device's region contains: it is an exit, and one call of the device. A write to RAM that is
an exit, since its slot is read-only, changes nothing.
-/
theorem guest_access_resolved {m : Machine} {k : KvmMachine} {history : List AddressMapOp}
    (empty : m.Empty) (built : history.foldl KvmMachine.apply (.fresh m) = k)
    (few : k.memSpace.regions.length ≤ 2 ^ 32) (ops : Nat → DeviceOps σ) (s : σ)
    (gpa : BitVec 64) (len : BitVec 32) (width : len.toNat ∈ accessSizes)
    (inside : (gpa.toNat + len.toNat - 1) / k.memSpace.hostPageSize
      = gpa.toNat / k.memSpace.hostPageSize)
    : (∀ write hva, k.kvm.Backs write gpa.toNat hva
        ↔ memMapRange k.memSpace gpa.toNat len.toNat write = some hva)
      ∧ (∀ reg ∈ k.ioMap.regions .mmio, Contains reg gpa.toNat len.toNat →
        (∀ write hva, ¬ k.kvm.Backs write gpa.toNat hva)
        ∧ ∀ data,
          kvmVcpuHandleMmioExit ops k.ioMap ⟨gpa, data, len, true⟩ s
            = (⟨gpa, data, len, true⟩, callWrite ops (.ofNat 64 (leNat (data.take len.toNat)))
              len.toNat s reg (gpa.toNat - reg.base))
          ∧ kvmVcpuHandleMmioExit ops k.ioMap ⟨gpa, data, len, false⟩ s
            = (⟨gpa, toLe len.toNat
                (callRead ops len.toNat s reg (gpa.toNat - reg.base)).1.toNat
                ++ data.drop len.toNat, len, false⟩,
              (callRead ops len.toNat s reg (gpa.toNat - reg.base)).2))
      ∧ ∀ hva, k.kvm.Backs false gpa.toNat hva → ∀ data,
        kvmVcpuHandleMmioExit ops k.ioMap ⟨gpa, data, len, true⟩ s
          = (⟨gpa, data, len, true⟩, s) := by
  have mirrored : Mirrored k := by
    rw [← built]
    refine List.foldlRecOn (motive := Mirrored) history _ ?_ fun k before op _ => before.apply op
    exact ⟨empty.mapped, by simp [KvmMachine.fresh, empty.ram],
      by simp [KvmMachine.fresh, empty.ram], by simp [KvmMachine.fresh, empty.ram]⟩
  have size := setWidth_of_access width
  have some : 0 < len.toNat := by
    have positive : ∀ n ∈ accessSizes, 0 < n := by decide
    exact positive _ width
  have map := mirrored.mapped.1
  have separate := map.separate .mmio
  -- RAM and the regions of devices have no address in common.
  have apart : ∀ reg ∈ k.ioMap.regions .mmio, Contains reg gpa.toNat len.toNat
      → ∀ write hva, ¬ k.kvm.Backs write gpa.toNat hva := by
    intro reg member contains write hva backs
    obtain ⟨ram, backing, has, -⟩ := (mirrored.backs_iff few).mp backs
    refine (map.ramApart reg member ram backing).not_has (contains.2.has ⟨le_rfl, ?_⟩) has
    exact Nat.lt_add_of_pos_right some
  refine ⟨fun write hva => ?_,
    fun reg member contains => ⟨apart reg member contains, fun data => ?_⟩,
    fun hva backs data => ?_⟩
  · rw [mirrored.backs_iff few, mirrored.memMapRange_iff some.ne' inside]
  · simp only [kvmVcpuHandleMmioExit, ioMapRead, ioMapWrite, size, not_not_intro width, if_false,
      if_true, Bool.false_eq_true, ioMapReadLocked, ioMapWriteLocked,
      ioMapScan_hit separate some member contains, and_self]
  · have none : ∀ reg ∈ k.ioMap.regions .mmio, ¬ Contains reg gpa.toNat len.toNat :=
      fun reg member contains => apart reg member contains false hva backs
    simp only [kvmVcpuHandleMmioExit, ioMapWrite, size, not_not_intro width, if_false, if_true,
      ioMapWriteLocked, ioMapScan_miss separate.bounded none]

/-- RAM, a read-only region above it, and a device. -/
def romMachine : KvmMachine :=
  [.addRam ⟨true, .ok (), .ok ()⟩ 0 0x10000 0, .addRam ⟨true, .ok (), .ok ()⟩ 0x10000 0x1000 1,
    .registerRegion true true .mmio 0xd0000000 0x1000 (some 0)].foldl KvmMachine.apply
      (.fresh bareMachine)

/-- The guest can read the read-only region, and its writes change only the device. -/
theorem guest_access_resolved_rom
    : romMachine.kvm.Backs false 0x10ffc ⟨⟨0x10000, 0x1000, 1⟩, 0xffc⟩
      ∧ (kvmVcpuHandleMmioExit (fun _ => debugExitOps) romMachine.ioMap
        ⟨0x10ffc, [], 4, true⟩ false).2 = false
      ∧ (kvmVcpuHandleMmioExit (fun _ => debugExitOps) romMachine.ioMap
        ⟨0xd0000000, [], 4, true⟩ false).2 = true := by
  have empty : bareMachine.Empty := ⟨rfl, rfl, fun _ => rfl⟩
  have few : romMachine.memSpace.regions.length ≤ 2 ^ 32 := by decide +kernel
  have rom := guest_access_resolved empty rfl few (fun _ => debugExitOps) false
    0x10ffc 4 (by decide) (by decide +kernel)
  have device := guest_access_resolved empty rfl few (fun _ => debugExitOps) false
    0xd0000000 4 (by decide) (by decide +kernel)
  have backs := (rom.1 false ⟨⟨0x10000, 0x1000, 1⟩, 0xffc⟩).mpr (by decide +kernel)
  refine ⟨backs, congrArg Prod.snd (rom.2.2 _ backs []), ?_⟩
  exact congrArg Prod.snd ((device.2.1 ⟨0, 0, 0xd0000000, 0x1000, .mmio, true⟩ (by decide +kernel)
    (by decide)).2 []).1

end Modvm.Accel
