import Modvm.Hw.AddressMap

/-! Automatic placement of base address registers finds the lowest free place. -/

namespace Modvm.Hw

open Modvm.Core Modvm.Lib Modvm.Util

/-! ### Free places -/

/-- All ranges that a base address register may not overlap, disabled regions included. -/
def occupied (mmio : List IoRegion) (ram : List MemRegion) : List Span :=
  mmio.map IoRegion.span ++ ram.map MemRegion.span

def Unwrapped (spans : List Span) : Prop :=
  ∀ span ∈ spans, span.base + span.size ≤ uint64Max

/-- An aligned place from `base` on, below `limit`, and clear of everything occupied. -/
structure Vacant (spans : List Span) (base limit size place : Nat) : Prop where
  aligned : place % size = 0
  above : base ≤ place
  below : place + size ≤ limit
  clear : ∀ span ∈ spans, (Span.mk place size).Apart span

theorem alignUp_aligned {base size : Nat} (power : size.isPowerOfTwo)
    (below : base + size ≤ 2 ^ 64)
    : alignUp base size % size = 0 :=
  Nat.mod_eq_zero_of_dvd (alignUp_isLeast power below).1.1

theorem alignUp_le {base size place : Nat} (power : size.isPowerOfTwo)
    (below : base + size ≤ 2 ^ 64) (aligned : place % size = 0) (above : base ≤ place)
    : alignUp base size ≤ place :=
  (alignUp_isLeast power below).2 ⟨Nat.dvd_of_mod_eq_zero aligned, above⟩

/-! ### One pass over the regions -/

theorem foldl_last {α : Type} (matched : α → Bool) (value : α → Nat) (items : List α)
    (start : Nat)
    : (items.foldl (fun kept item => if matched item then value item else kept) start = start
        ∧ ∀ item ∈ items, matched item = false)
      ∨ ∃ item ∈ items, matched item = true
          ∧ items.foldl (fun kept item => if matched item then value item else kept) start
            = value item := by
  induction items generalizing start with
  | nil => exact .inl ⟨rfl, by simp⟩
  | cons first rest ih =>
    rw [List.foldl_cons]
    cases hit : matched first with
    | true =>
      rcases ih (value first) with ⟨same, -⟩ | ⟨item, member, found, last⟩
      · exact .inr ⟨first, List.mem_cons_self, hit, same⟩
      · exact .inr ⟨item, List.mem_cons_of_mem first member, found, last⟩
    | false =>
      rcases ih start with ⟨same, none⟩ | ⟨item, member, found, last⟩
      · exact .inl ⟨same, List.forall_mem_cons.mpr ⟨hit, none⟩⟩
      · exact .inr ⟨item, List.mem_cons_of_mem first member, found, last⟩

theorem foldl_largest {α : Type} (matched : α → Bool) (value : α → Nat) (items : List α)
    (start : Nat)
    : let result := items.foldl
        (fun kept item => if matched item && decide (value item > kept) then value item else kept)
        start
      start ≤ result
      ∧ (∀ item ∈ items, matched item = true → value item ≤ result)
      ∧ (result = start ∨ ∃ item ∈ items, matched item = true ∧ result = value item) := by
  induction items generalizing start with
  | nil => exact ⟨Nat.le_refl _, by simp, .inl rfl⟩
  | cons first rest ih =>
    rw [List.foldl_cons]
    by_cases hit : (matched first && decide (value first > start)) = true
    · rw [if_pos hit]
      simp only [Bool.and_eq_true, decide_eq_true_eq] at hit
      obtain ⟨above, covers, source⟩ := ih (value first)
      refine ⟨by omega, List.forall_mem_cons.mpr ⟨fun _ => above, covers⟩, .inr ?_⟩
      rcases source with same | ⟨item, member, found, last⟩
      · exact ⟨first, List.mem_cons_self, hit.1, same⟩
      · exact ⟨item, List.mem_cons_of_mem first member, found, last⟩
    · rw [if_neg hit]
      obtain ⟨above, covers, source⟩ := ih start
      refine ⟨above, List.forall_mem_cons.mpr ⟨?_, covers⟩, ?_⟩
      · intro found
        simp only [found, Bool.true_and, decide_eq_true_eq] at hit
        omega
      · rcases source with same | ⟨item, member, found, last⟩
        · exact .inl same
        · exact .inr ⟨item, List.mem_cons_of_mem first member, found, last⟩

section
variable {mmio : List IoRegion} {ram : List MemRegion} {size : Nat}

theorem nextCandidate_cases {place : Nat} (unwrapped : Unwrapped (occupied mmio ram))
    (bound : place + size ≤ uint64Max)
    : (nextCandidate mmio ram place size = place
        ∧ ∀ span ∈ occupied mmio ram, (Span.mk place size).Apart span)
      ∨ ∃ span ∈ occupied mmio ram,
          place < span.base + span.size
          ∧ span.base < place + size
          ∧ nextCandidate mmio ram place size = span.base + span.size := by
  have listed : ∀ reg ∈ mmio, reg.span ∈ occupied mmio ram := fun reg member =>
    List.mem_append_left _ (List.mem_map_of_mem member)
  have backed : ∀ reg ∈ ram, reg.span ∈ occupied mmio ram := fun reg member =>
    List.mem_append_right _ (List.mem_map_of_mem member)
  have hit : ∀ span ∈ occupied mmio ram,
      regionIsOverlap place size span.base span.size = true
        ↔ place < span.base + span.size ∧ span.base < place + size := fun span member =>
    @regionIsOverlap_iff ⟨place, size⟩ span bound (unwrapped span member)
  have theEnd : ∀ span ∈ occupied mmio ram,
      gpaAdd span.base span.size = span.base + span.size := fun span member =>
    gpaAdd_eq (Nat.lt_of_le_of_lt (unwrapped span member) (by decide))
  have io := foldl_last (fun reg : IoRegion => regionIsOverlap place size reg.base reg.size)
    (fun reg => gpaAdd reg.base reg.size) mmio place
  unfold nextCandidate
  generalize mmio.foldl _ place = past at io ⊢
  have backing := foldl_largest
    (fun reg : MemRegion => regionIsOverlap place size reg.gpa reg.size)
    (fun reg => gpaAdd reg.gpa reg.size) ram past
  generalize ram.foldl _ past = next at backing ⊢
  obtain ⟨above, covers, source⟩ := backing
  rcases source with rfl | ⟨reg, member, found, rfl⟩
  · rcases io with ⟨rfl, none⟩ | ⟨reg, member, found, rfl⟩
    · -- A RAM region in the way would end above the place, so the second loop saw none either.
      refine .inl ⟨rfl, fun span member => ?_⟩
      refine apart_of_not_overlap bound (unwrapped span member) fun overlap => ?_
      rcases List.mem_append.mp member with inIo | inRam
      · obtain ⟨reg, regMember, rfl⟩ := List.mem_map.mp inIo
        exact Bool.false_ne_true ((none reg regMember).symm.trans overlap)
      · obtain ⟨reg, regMember, rfl⟩ := List.mem_map.mp inRam
        have reached := covers reg regMember overlap
        have ends : gpaAdd reg.gpa reg.size = reg.gpa + reg.size := theEnd reg.span member
        have inside : next < reg.gpa + reg.size := ((hit reg.span member).mp overlap).1
        omega
    · obtain ⟨low, high⟩ := (hit reg.span (listed reg member)).mp found
      exact .inr ⟨reg.span, listed reg member, low, high, theEnd reg.span (listed reg member)⟩
  · obtain ⟨low, high⟩ := (hit reg.span (backed reg member)).mp found
    exact .inr ⟨reg.span, backed reg member, low, high, theEnd reg.span (backed reg member)⟩

/-! ### The search -/

theorem vacant_past_iff {spans : List Span} {base limit place : Nat} {span : Span}
    (power : size.isPowerOfTwo) (below : base + size ≤ 2 ^ 64) (member : span ∈ spans)
    (low : alignUp base size < span.base + span.size)
    (high : span.base < alignUp base size + size)
    : Vacant spans (span.base + span.size) limit size place
      ↔ Vacant spans base limit size place := by
  constructor
  · intro vacant
    have up := le_alignUp power below
    have above := vacant.above
    exact ⟨vacant.aligned, by omega, vacant.below, vacant.clear⟩
  · intro vacant
    have least := alignUp_le power below vacant.aligned vacant.above
    have apart := vacant.clear span member
    unfold Span.Apart at apart
    dsimp only at apart
    exact ⟨vacant.aligned, by omega, vacant.below, vacant.clear⟩

/-- The search finds the lowest free place, or there is none, by induction on its rounds. -/
theorem placeBar_least {limit : Nat} (power : size.isPowerOfTwo)
    (unwrapped : Unwrapped (occupied mmio ram)) (window : limit ≤ 2 ^ 32) (base : Nat)
    : match placeBar mmio ram limit size power base with
      | none => ∀ place, ¬ Vacant (occupied mmio ram) base limit size place
      | some found => IsLeast {place | Vacant (occupied mmio ram) base limit size place} found := by
  have positive : 0 < size := by
    obtain ⟨bits, rfl⟩ := power
    exact Nat.two_pow_pos bits
  induction base using placeBar.induct mmio ram limit size power with
  | case1 base high =>
    rw [placeBar, if_pos high]
    intro place vacant
    have := vacant.above
    have := vacant.below
    omega
  | case2 base low aligned outside =>
    rw [placeBar, if_neg low, if_pos outside]
    intro place vacant
    have fits := vacant.below
    have least : aligned ≤ place :=
      alignUp_le power (by omega) vacant.aligned vacant.above
    omega
  | case3 base low aligned inside next free =>
    rw [placeBar, if_neg low, if_neg inside]
    rw [if_pos free]
    have below : base + size ≤ 2 ^ 64 := by omega
    have bound : aligned + size ≤ uint64Max := by
      unfold uint64Max
      omega
    rcases nextCandidate_cases unwrapped bound with ⟨-, clear⟩ | ⟨span, -, inWay, -, moved⟩
    · refine ⟨⟨alignUp_aligned power below, le_alignUp power below, by omega, clear⟩, ?_⟩
      intro place vacant
      exact alignUp_le power below vacant.aligned vacant.above
    · omega
  | case4 base low aligned inside next moved ih =>
    rw [placeBar, if_neg low, if_neg inside]
    rw [if_neg moved]
    have bound : aligned + size ≤ uint64Max := by
      unfold uint64Max
      omega
    rcases nextCandidate_cases unwrapped bound with ⟨same, -⟩ | ⟨span, member, lower, upper, past⟩
    · exact absurd same moved
    · have skipped : ∀ place, Vacant (occupied mmio ram) next limit size place
          ↔ Vacant (occupied mmio ram) base limit size place := by
        intro place
        rw [show next = span.base + span.size from past]
        exact vacant_past_iff power (by omega) member lower upper
      simpa only [skipped] using ih

end

/-! ### Registration -/

def PciBus.Accepted (bus : PciBus) : Prop :=
  ∃ name owner mmioBase mmioSize before,
    (pciBusInit name owner mmioBase mmioSize before).1 = .ok ()
    ∧ ((pciBusInit name owner mmioBase mmioSize before).2.buses name).mmioBase = bus.mmioBase
    ∧ ((pciBusInit name owner mmioBase mmioSize before).2.buses name).mmioLimit = bus.mmioLimit

theorem PciBus.Accepted.limit_le {bus : PciBus} (accepted : bus.Accepted)
    : bus.mmioLimit ≤ 2 ^ 32 := by
  obtain ⟨name, owner, mmioBase, mmioSize, before, ok, -, limit⟩ := accepted
  rw [← limit]
  cases owner with
  | none => cases ok
  | some =>
    unfold pciBusInit at ok ⊢
    dsimp only at ok ⊢
    split
    · rename_i refused
      rw [if_pos refused] at ok
      cases ok
    · rename_i fits
      simp only [Bool.or_eq_true, decide_eq_true_eq] at fits
      simp only [Machine.setBus, Function.update_self]
      unfold gpaAdd
      omega

/-- The device is alive, and none of its cleanups refers to the next region. -/
structure CanRegister (vm : VmCtx) (owner : Nat) : Prop where
  context : (vm.devices owner).ctx = true
  operations : (vm.devices owner).ops = true
  live : (vm.devices owner).resources.releasing = false
  fresh : some (.ioRegionUnregister vm.ioMap.nextHandle)
    ∉ (vm.devices owner).resources.resources

/-- An endpoint can take a register at an index: it is on a bus and the register is free. -/
structure BarSlot (m : Machine) (endpoint index bus owner : Nat) : Prop where
  attached : (m.endpoints endpoint).bus = some bus
  owned : (m.endpoints endpoint).owner = some owner
  inRange : index < 6
  free : ((m.endpoints endpoint).bars index).region = none
  device : CanRegister m.toVmCtx owner

/-- One more region, which the register refers to and whose base stands in its bytes. -/
structure PlacedBar (m after : Machine) (endpoint index place size : Nat) : Prop where
  spans : (after.ioMap.regions .mmio).map IoRegion.span
    = (m.ioMap.regions .mmio).map IoRegion.span ++ [⟨place, size⟩]
  region : ∃ handle, ((after.endpoints endpoint).bars index).region = some handle
    ∧ ∃ reg ∈ after.ioMap.regions .mmio,
        reg.handle = handle ∧ reg.base = place ∧ reg.size = size
        ∧ reg.enabled = (m.endpoints endpoint).memoryEnabled
  bytes : readLe (after.endpoints endpoint).configSpace ⟨0x10 + index * 4, 4⟩ = place

theorem ioMapRegisterRegion_ne_enospc (node action : Bool) (type : IoSpace)
    (base size : BitVec 64) (dev : Nat) (vm : VmCtx)
    : (ioMapRegisterRegion node action type base size (some dev) vm).1 ≠ .error .enospc := by
  unfold ioMapRegisterRegion
  dsimp only
  split
  · simp
  split
  · simp
  split
  · simp
  split
  · simp
  split
  · simp
  rename_i pool _
  rcases resAddAction_cases action (Cleanup.ioRegionUnregister vm.ioMap.nextHandle) pool with
    answer | ⟨-, answer⟩ | answer | answer <;> simp [answer]

section
variable {vm : VmCtx} {base size : BitVec 64}

theorem not_overlap_of_clear {spans : List Span}
    (bound : base.toNat + size.toNat ≤ uint64Max) (unwrapped : Unwrapped spans)
    (clear : ∀ span ∈ spans, (Span.mk base.toNat size.toNat).Apart span)
    : ∀ span ∈ spans, ¬ regionIsOverlap base.toNat size.toNat span.base span.size = true := by
  intro span member
  exact Bool.eq_false_iff.mp
    (not_overlap_of_apart bound (unwrapped span member) (clear span member))

theorem ioMapRegisterRegion_free {owner : Nat} (device : CanRegister vm owner)
    (nonempty : 0 < size.toNat) (bound : base.toNat + size.toNat ≤ uint64Max)
    (unwrapped : Unwrapped (occupied (vm.ioMap.regions .mmio) vm.memSpace.regions))
    (clear : ∀ span ∈ occupied (vm.ioMap.regions .mmio) vm.memSpace.regions,
      (Span.mk base.toNat size.toNat).Apart span)
    : ∃ next, ioMapRegisterRegion true true .mmio base size (some owner) vm
        = (.ok vm.ioMap.nextHandle, next)
      ∧ next.ioMap = vm.ioMap.add
          ⟨vm.ioMap.nextHandle, owner, base.toNat, size.toNat, .mmio, true⟩ := by
  have apart := not_overlap_of_clear bound unwrapped clear
  have noRegion : ¬ ((vm.ioMap.regions .mmio).any fun pos =>
      regionIsOverlap base.toNat size.toNat pos.base pos.size) = true := by
    intro found
    obtain ⟨reg, member, overlap⟩ := List.any_eq_true.mp found
    exact apart reg.span (List.mem_append_left _ (List.mem_map_of_mem member)) overlap
  have noRam : ¬ (IoSpace.mmio == .mmio && vm.memSpace.regions.any fun ram =>
      regionIsOverlap base.toNat size.toNat ram.gpa ram.size) = true := by
    intro found
    obtain ⟨ram, member, overlap⟩ := List.any_eq_true.mp (Bool.and_eq_true_iff.mp found).2
    exact apart ram.span (List.mem_append_right _ (List.mem_map_of_mem member)) overlap
  have accepted : ¬ (!(vm.devices owner).ctx || !(vm.devices owner).ops || size == 0) = true := by
    have : ¬ size = 0#64 := by
      rintro rfl
      exact absurd nonempty (by decide)
    simp [device.context, device.operations, this]
  have fits : ¬ base.toNat > uint64Max - size.toNat := by omega
  unfold ioMapRegisterRegion
  dsimp only
  rw [if_neg accepted, if_neg fits, if_neg noRegion, if_neg noRam]
  simp [resZalloc, resAddAction, device.live, device.fresh, VmCtx.setResources, VmCtx.setIoMap]

end

section
variable {m : Machine} {endpoint index bus owner : Nat} {size : BitVec 32}

theorem pciRegisterBar_auto (node action : Bool) (slot : BarSlot m endpoint index bus owner)
    (least : 16 ≤ size.toNat) (power : size.toNat.isPowerOfTwo)
    : match placeBar (m.ioMap.regions .mmio) m.memSpace.regions (m.buses bus).mmioLimit
          size.toNat power (m.buses bus).mmioBase with
      | none =>
        pciRegisterBar node action (some endpoint) index size (.allOnes 64) m
        = (.error .enospc, m)
      | some place =>
        place % size.toNat = 0
        → place ≤ 2 ^ 32 - size.toNat
        → match ioMapRegisterRegion node action .mmio (.ofNat 64 place) (size.setWidth 64)
              (some owner) m.toVmCtx with
          | (.error error, vm) =>
            pciRegisterBar node action (some endpoint) index size (.allOnes 64) m
            = (.error error, m.setVm vm)
          | (.ok handle, vm) =>
            ∃ after, pciRegisterBar node action (some endpoint) index size (.allOnes 64) m
                = (.ok (), after)
              ∧ after.ioMap = vm.ioMap.modify handle (fun reg =>
                  { reg with enabled := (m.endpoints endpoint).memoryEnabled })
              ∧ ((after.endpoints endpoint).bars index).region = some handle
              ∧ (after.endpoints endpoint).configSpace
                = writeBytes (m.endpoints endpoint).configSpace (0x10 + index * 4)
                    (toLe 4 place) := by
  have valid : size.toNat ≥ 16 ∧ notPowerOfTwo size.toNat = false :=
    ⟨least, (notPowerOfTwo_eq_false_iff (by omega)).mpr power⟩
  have ones : (BitVec.allOnes 64).toNat = uint64Max := rfl
  unfold pciRegisterBar barBase
  simp only [slot.attached, slot.owned, slot.free, Nat.not_le.mpr slot.inRange, if_false,
    dif_pos valid, ones, if_true, Option.isSome_none, Bool.false_eq_true]
  split
  · rename_i none
    rw [none]
  · rename_i place found
    intro aligned low
    rw [found]
    dsimp only
    rw [if_neg (by omega)]
    generalize ioMapRegisterRegion node action .mmio (.ofNat 64 place) (size.setWidth 64)
      (some owner) m.toVmCtx = outcome
    rcases outcome with ⟨error | handle, vm⟩
    · rfl
    · refine ⟨_, rfl, rfl, ?_, ?_⟩
      · simp [Machine.setEndpoint, PciDevice.setBarBytes]
      · simp [Machine.setEndpoint, PciDevice.setBarBytes]

theorem PlacedBar.of_registered {after : Machine} {vm : VmCtx} {place : Nat}
    (below : place < 2 ^ 32)
    (added : vm.ioMap = m.ioMap.add
      ⟨m.ioMap.nextHandle, owner, place, size.toNat, .mmio, true⟩)
    (map : after.ioMap = vm.ioMap.modify m.ioMap.nextHandle (fun reg =>
      { reg with enabled := (m.endpoints endpoint).memoryEnabled }))
    (region : ((after.endpoints endpoint).bars index).region = some m.ioMap.nextHandle)
    (config : (after.endpoints endpoint).configSpace
      = writeBytes (m.endpoints endpoint).configSpace (0x10 + index * 4) (toLe 4 place))
    : PlacedBar m after endpoint index place size.toNat := by
  have regions : after.ioMap.regions .mmio
      = (m.ioMap.regions .mmio
          ++ [IoRegion.mk m.ioMap.nextHandle owner place size.toNat .mmio true]).map fun reg =>
        if reg.handle = m.ioMap.nextHandle then
          { reg with enabled := (m.endpoints endpoint).memoryEnabled }
        else reg := by
    rw [map, added]
    simp [IoMap.modify, IoMap.add]
  refine ⟨?_, ⟨m.ioMap.nextHandle, region, ?_⟩, ?_⟩
  · -- Enabling a region leaves all ranges where they are.
    rw [regions, List.map_map, List.map_append]
    refine congrArg₂ _ (List.map_congr_left fun reg _ => ?_) ?_
    · simp only [Function.comp_apply]
      split <;> rfl
    · simp [IoRegion.span]
  · rw [regions]
    simp
  · rw [config, readLe_writeBytes]
    exact Nat.mod_eq_of_lt (by omega)

/-- Automatic placement is a complete first fit. For a window that the bus accepts and regions that
do not wrap, in any order, the register comes to the lowest free place, unless an allocation fails.
No address space is left exactly if there is none.
-/
theorem pci_auto_bar_first_fit (slot : BarSlot m endpoint index bus owner)
    (window : (m.buses bus).Accepted) (least : 16 ≤ size.toNat)
    (power : size.toNat.isPowerOfTwo)
    (unwrapped : Unwrapped (occupied (m.ioMap.regions .mmio) m.memSpace.regions))
    : (∀ node action,
        (pciRegisterBar node action (some endpoint) index size (.allOnes 64) m).1
            = .error .enospc
          ↔ ¬ ∃ place, Vacant (occupied (m.ioMap.regions .mmio) m.memSpace.regions)
              (m.buses bus).mmioBase (m.buses bus).mmioLimit size.toNat place)
      ∧ ((∃ place, Vacant (occupied (m.ioMap.regions .mmio) m.memSpace.regions)
            (m.buses bus).mmioBase (m.buses bus).mmioLimit size.toNat place)
          → ∃ place after,
              IsLeast {place | Vacant (occupied (m.ioMap.regions .mmio) m.memSpace.regions)
                (m.buses bus).mmioBase (m.buses bus).mmioLimit size.toNat place} place
              ∧ pciRegisterBar true true (some endpoint) index size (.allOnes 64) m
                = (.ok (), after)
              ∧ PlacedBar m after endpoint index place size.toNat) := by
  have limit := window.limit_le
  have search := placeBar_least power unwrapped limit (m.buses bus).mmioBase
  have answer := fun node action => pciRegisterBar_auto node action slot least power
  cases found : placeBar (m.ioMap.regions .mmio) m.memSpace.regions (m.buses bus).mmioLimit
      size.toNat power (m.buses bus).mmioBase with
  | none =>
    simp only [found] at search answer
    refine ⟨fun node action => ?_, ?_⟩
    · rw [answer node action]
      exact iff_of_true rfl fun ⟨place, vacant⟩ => search place vacant
    · rintro ⟨place, vacant⟩
      exact absurd vacant (search place)
  | some place =>
    simp only [found] at search answer
    obtain ⟨vacant, lowest⟩ := search
    have fits := vacant.below
    have low : place ≤ 2 ^ 32 - size.toNat := by omega
    refine ⟨fun node action => iff_of_false ?_ (not_not_intro ⟨place, vacant⟩), fun _ => ?_⟩
    · have registered := ioMapRegisterRegion_ne_enospc node action .mmio (.ofNat 64 place)
        (size.setWidth 64) owner m.toVmCtx
      have result := answer node action vacant.aligned low
      split at result
      · rename_i failed
        rw [failed] at registered
        rw [result]
        simpa using registered
      · obtain ⟨after, ok, -⟩ := result
        rw [ok]
        simp
    · have placed : (BitVec.ofNat 64 place).toNat = place := by
        rw [BitVec.toNat_ofNat, Nat.mod_eq_of_lt (by omega)]
      have extent : (size.setWidth 64).toNat = size.toNat := by
        rw [BitVec.toNat_setWidth, Nat.mod_eq_of_lt (by omega)]
      have bound : place + size.toNat ≤ uint64Max := by
        unfold uint64Max
        omega
      obtain ⟨vm, registered, added⟩ := @ioMapRegisterRegion_free m.toVmCtx
        (.ofNat 64 place) (size.setWidth 64) owner slot.device (by omega) (by omega) unwrapped
        (by rw [placed]; exact vacant.clear)
      have result := answer true true vacant.aligned low
      rw [registered] at result
      rw [placed] at added
      obtain ⟨after, ok, map, region, config⟩ := result
      exact ⟨place, after, ⟨vacant, lowest⟩, ok,
        .of_registered (by omega) added map region config⟩

end

/-- A window of one page, RAM below it, and two regions at its start, the higher one first. -/
def crowdedWindow : Machine where
  state := .building
  stopRequested := false
  accel := none
  memSpace := ⟨[⟨0, 0x1000, 0⟩], 0x1000, 0x1000⟩
  ioMap :=
    { regions := fun
        | .pio => []
        | .mmio => [⟨1, 0, 0x1010, 0x10, .mmio, true⟩, ⟨0, 0, 0x1000, 0x10, .mmio, false⟩]
      nextHandle := 2 }
  devices := fun _ => ⟨true, true, ⟨[], false⟩⟩
  endpoints := fun _ => ⟨some 0, some 0, 8, 0, false, false, fun _ => ⟨none, false⟩, fun _ => 0⟩
  buses := fun _ => ⟨[0], some 0, 0x1000, 0x2000⟩

/-- A register of 16 bytes comes right above the two regions of that window. -/
theorem pci_auto_bar_first_fit_crowded
    : ∃ after, pciRegisterBar true true (some 0) 0 16 (.allOnes 64) crowdedWindow = (.ok (), after)
      ∧ PlacedBar crowdedWindow after 0 0 0x1020 16 := by
  have window : (crowdedWindow.buses 0).Accepted :=
    ⟨0, some 0, 0x1000, 0x1000, crowdedWindow, rfl, rfl, rfl⟩
  have slot : BarSlot crowdedWindow 0 0 0 0 :=
    ⟨rfl, rfl, by decide, rfl, ⟨rfl, rfl, rfl, by simp [crowdedWindow]⟩⟩
  have unwrapped : Unwrapped
      (occupied (crowdedWindow.ioMap.regions .mmio) crowdedWindow.memSpace.regions) := by
    unfold Unwrapped
    decide
  have vacant : Vacant (occupied (crowdedWindow.ioMap.regions .mmio)
      crowdedWindow.memSpace.regions) 0x1000 0x2000 16 0x1020 :=
    ⟨by decide, by decide, by decide, by decide⟩
  obtain ⟨place, after, ⟨free, lowest⟩, ok, placed⟩ :=
    (@pci_auto_bar_first_fit crowdedWindow 0 0 0 0 16 slot window (by decide) ⟨4, rfl⟩ unwrapped).2
      ⟨0x1020, vacant⟩
  have below : place ≤ 0x1020 := lowest vacant
  have above : 0x1000 ≤ place := free.above
  have first : (Span.mk place 16).Apart ⟨0x1000, 16⟩ := free.clear _ (by decide)
  have second : (Span.mk place 16).Apart ⟨0x1010, 16⟩ := free.clear _ (by decide)
  simp only [Span.Apart] at first second
  obtain rfl : place = 0x1020 := by omega
  exact ⟨after, ok, placed⟩

end Modvm.Hw
