import Modvm.Hw.Pci

/-! The address map of a virtual machine: no regions of a space overlap, and no device shadows RAM.
-/

namespace Modvm.Hw

open Modvm.Core Modvm.Lib Modvm.Util

/-- The invariant of the address map. It concerns disabled regions too: they stay in their
list.
-/
structure AddressMap (space : MemSpace) (map : IoMap) : Prop where
  ram : space.WellFormed
  nonempty : ∀ type, ∀ reg ∈ map.regions type, 0 < reg.size
  bounded : ∀ type, ∀ reg ∈ map.regions type, reg.base + reg.size ≤ uint64Max
  apart : ∀ type, (map.regions type).Pairwise fun left right => left.span.Apart right.span
  ramApart : ∀ reg ∈ map.regions .mmio, ∀ ram ∈ space.regions, reg.span.Apart ram.span

/-- Handles name one region, in the list of its type. -/
structure IoMap.Named (map : IoMap) : Prop where
  typed : ∀ type, ∀ reg ∈ map.regions type, reg.type = type
  fresh : ∀ type, ∀ reg ∈ map.regions type, reg.handle < map.nextHandle
  distinct : ∀ type, (map.regions type).Pairwise fun left right => left.handle ≠ right.handle
  oneSpace : ∀ type other, ∀ left ∈ map.regions type, ∀ right ∈ map.regions other,
    left.handle = right.handle → type = other

/-- A region keeps clear of everything that it may not overlap, itself excepted. -/
structure Clear (space : MemSpace) (map : IoMap) (type : IoSpace) (handle : Nat) (span : Span)
    : Prop where
  nonempty : 0 < span.size
  bounded : span.base + span.size ≤ uint64Max
  apart : ∀ other ∈ map.regions type, other.handle ≠ handle → span.Apart other.span
  ramApart : type = .mmio → ∀ ram ∈ space.regions, span.Apart ram.span

section

variable {left right : Span} (leftBound : left.base + left.size ≤ uint64Max)
  (rightBound : right.base + right.size ≤ uint64Max)
include leftBound rightBound

theorem regionIsOverlap_iff
    : regionIsOverlap left.base left.size right.base right.size = true
      ↔ left.base < right.base + right.size ∧ right.base < left.base + left.size := by
  simp only [regionIsOverlap, gpaAdd_eq (Nat.lt_of_le_of_lt leftBound (by decide)),
    gpaAdd_eq (Nat.lt_of_le_of_lt rightBound (by decide)), Bool.and_eq_true,
    decide_eq_true_eq]

theorem apart_of_not_overlap
    (free : ¬ regionIsOverlap left.base left.size right.base right.size = true)
    : left.Apart right := by
  rw [regionIsOverlap_iff leftBound rightBound] at free
  unfold Span.Apart
  omega

theorem not_overlap_of_apart (apart : left.Apart right)
    : regionIsOverlap left.base left.size right.base right.size = false := by
  rw [Bool.eq_false_iff, Ne, regionIsOverlap_iff leftBound rightBound]
  unfold Span.Apart at apart
  omega

end

section
variable {space : MemSpace} {map : IoMap}

variable {reg : IoRegion} {type : IoSpace} {update : IoRegion → IoRegion}

theorem AddressMap.clear (inv : AddressMap space map) (member : reg ∈ map.regions type)
    : Clear space map type reg.handle reg.span := by
  refine ⟨inv.nonempty type reg member, inv.bounded type reg member, ?_, ?_⟩
  · intro other otherMember different
    refine Span.apart_of_pairwise (inv.apart type) member otherMember ?_
    rintro rfl
    exact different rfl
  · rintro rfl ram ramMember
    exact inv.ramApart reg member ram ramMember

theorem IoMap.mem_add {other : IoRegion} (member : other ∈ (map.add reg).regions type)
    : other ∈ map.regions type ∨ (type = reg.type ∧ other = reg) := by
  by_cases here : type = reg.type
  · subst here
    simpa [IoMap.add] using member
  · exact .inl (by simpa [IoMap.add, here] using member)

theorem IoMap.pairwise_add {rel : IoRegion → IoRegion → Prop} (type : IoSpace)
    (before : (map.regions type).Pairwise rel) (new : ∀ other ∈ map.regions reg.type, rel other reg)
    : ((map.add reg).regions type).Pairwise rel := by
  by_cases here : type = reg.type
  · subst here
    simp only [IoMap.add, Function.update_self]
    refine List.pairwise_append.mpr ⟨before, List.pairwise_singleton _ _, ?_⟩
    intro other member last lastMember
    exact List.mem_singleton.mp lastMember ▸ new other member
  · simpa only [IoMap.add, Function.update_of_ne here] using before

theorem IoMap.Named.unused (named : IoMap.Named map) {other : IoRegion}
    (name : reg.handle = map.nextHandle) (member : other ∈ map.regions type)
    : other.handle ≠ reg.handle := by
  have := named.fresh type other member
  omega

theorem IoMap.Named.add (named : IoMap.Named map) (name : reg.handle = map.nextHandle)
    : IoMap.Named (map.add reg) := by
  refine ⟨?_, ?_, ?_, ?_⟩
  · intro type other member
    rcases IoMap.mem_add member with old | ⟨rfl, rfl⟩
    · exact named.typed type other old
    · rfl
  · intro type other member
    have next : (map.add reg).nextHandle = map.nextHandle + 1 := rfl
    rcases IoMap.mem_add member with old | ⟨-, rfl⟩
    · have := named.fresh type other old
      omega
    · omega
  · intro type
    exact IoMap.pairwise_add type (named.distinct type) fun other => named.unused name
  · intro type other left leftMember right rightMember same
    rcases IoMap.mem_add leftMember with oldLeft | ⟨rfl, rfl⟩
    · rcases IoMap.mem_add rightMember with oldRight | ⟨rfl, rfl⟩
      · exact named.oneSpace type other left oldLeft right oldRight same
      · exact absurd same (named.unused name oldLeft)
    · rcases IoMap.mem_add rightMember with oldRight | ⟨rfl, rfl⟩
      · exact absurd same.symm (named.unused name oldRight)
      · rfl

theorem AddressMap.add (inv : AddressMap space map) (named : IoMap.Named map) (reg : IoRegion)
    (name : reg.handle = map.nextHandle)
    (clear : Clear space map reg.type reg.handle reg.span)
    : AddressMap space (map.add reg) ∧ IoMap.Named (map.add reg) := by
  refine ⟨⟨inv.ram, ?_, ?_, ?_, ?_⟩, named.add name⟩
  · intro type other member
    rcases IoMap.mem_add member with old | ⟨-, rfl⟩
    · exact inv.nonempty type other old
    · exact clear.nonempty
  · intro type other member
    rcases IoMap.mem_add member with old | ⟨-, rfl⟩
    · exact inv.bounded type other old
    · exact clear.bounded
  · intro type
    refine IoMap.pairwise_add type (inv.apart type) ?_
    intro other member
    exact (clear.apart other member (named.unused name member)).symm
  · intro other member ram ramMember
    rcases IoMap.mem_add member with old | ⟨mmio, rfl⟩
    · exact inv.ramApart other old ram ramMember
    · exact clear.ramApart mmio.symm ram ramMember

theorem AddressMap.remove (inv : AddressMap space map) (named : IoMap.Named map) (handle : Nat)
    : AddressMap space (map.remove handle) ∧ IoMap.Named (map.remove handle) := by
  have members : ∀ {type : IoSpace} {reg : IoRegion}, reg ∈ (map.remove handle).regions type
      → reg ∈ map.regions type :=
    fun member => (List.mem_filter.mp member).1
  refine ⟨⟨inv.ram, ?_, ?_, ?_, ?_⟩, ⟨?_, ?_, ?_, ?_⟩⟩
  · exact fun type reg member => inv.nonempty type reg (members member)
  · exact fun type reg member => inv.bounded type reg (members member)
  · exact fun type => (inv.apart type).filter _
  · exact fun reg member => inv.ramApart reg (members member)
  · exact fun type reg member => named.typed type reg (members member)
  · exact fun type reg member => named.fresh type reg (members member)
  · exact fun type => (named.distinct type).filter _
  · intro type other left leftMember right rightMember
    exact named.oneSpace type other left (members leftMember) right (members rightMember)

theorem IoMap.mem_modify {handle : Nat}
    (same : ∀ reg, (update reg).handle = reg.handle ∧ (update reg).type = reg.type)
    (member : reg ∈ (map.modify handle update).regions type)
    : ∃ old ∈ map.regions type, old.handle = reg.handle ∧ old.type = reg.type
        ∧ (reg = old ∨ (old.handle = handle ∧ reg = update old)) := by
  obtain ⟨old, oldMember, rfl⟩ := List.mem_map.mp member
  refine ⟨old, oldMember, ?_⟩
  split
  · exact ⟨(same old).1.symm, (same old).2.symm, .inr ⟨‹_›, rfl⟩⟩
  · exact ⟨rfl, rfl, .inl rfl⟩

theorem IoMap.Named.modify (named : IoMap.Named map) {handle : Nat}
    (same : ∀ reg, (update reg).handle = reg.handle ∧ (update reg).type = reg.type)
    : IoMap.Named (map.modify handle update) := by
  refine ⟨?_, ?_, ?_, ?_⟩
  · intro type reg member
    obtain ⟨old, oldMember, -, kept, -⟩ := IoMap.mem_modify same member
    exact kept ▸ named.typed type old oldMember
  · intro type reg member
    obtain ⟨old, oldMember, name, -⟩ := IoMap.mem_modify same member
    exact name ▸ named.fresh type old oldMember
  · intro type
    refine List.pairwise_map.mpr ((named.distinct type).imp ?_)
    intro left right different
    have kept : ∀ reg, (if reg.handle = handle then update reg else reg).handle = reg.handle := by
      intro reg
      split
      · exact (same reg).1
      · rfl
    rwa [kept, kept]
  · intro type other left leftMember right rightMember together
    obtain ⟨oldLeft, oldLeftMember, leftName, -⟩ := IoMap.mem_modify same leftMember
    obtain ⟨oldRight, oldRightMember, rightName, -⟩ := IoMap.mem_modify same rightMember
    exact named.oneSpace type other oldLeft oldLeftMember oldRight oldRightMember
      (leftName.trans (together.trans rightName.symm))

theorem AddressMap.modify (inv : AddressMap space map) (named : IoMap.Named map) {handle : Nat}
    {update : IoRegion → IoRegion}
    (same : ∀ reg, (update reg).handle = reg.handle ∧ (update reg).type = reg.type)
    (clear : ∀ type, ∀ reg ∈ map.regions type, reg.handle = handle
      → Clear space map type handle (update reg).span)
    : AddressMap space (map.modify handle update)
      ∧ IoMap.Named (map.modify handle update) := by
  have stays : ∀ {type : IoSpace} {reg : IoRegion},
      reg ∈ (map.modify handle update).regions type
      → Clear space map type reg.handle reg.span := by
    intro type reg member
    obtain ⟨old, oldMember, name, -, rfl | ⟨here, rfl⟩⟩ := IoMap.mem_modify same member
    · exact inv.clear oldMember
    · rw [← name, here]
      exact clear type old oldMember here
  refine ⟨⟨inv.ram, fun type reg member => (stays member).nonempty,
    fun type reg member => (stays member).bounded, ?_,
    fun reg member => (stays member).ramApart rfl⟩, named.modify same⟩
  intro type
  refine List.pairwise_map.mpr ?_
  refine ((inv.apart type).and (named.distinct type)).imp_of_mem ?_
  rintro left right leftMember rightMember ⟨apart, different⟩
  split
  · rename_i here
    rw [if_neg (fun there => different (here.trans there.symm))]
    exact (clear type left leftMember here).apart right rightMember
      (fun there => different (here.trans there.symm))
  · rename_i elsewhere
    split
    · rename_i there
      exact ((clear type right rightMember there).apart left leftMember elsewhere).symm
    · exact apart

theorem AddressMap.enable (inv : AddressMap space map) (named : IoMap.Named map)
    (handle : Nat) (enabled : Bool)
    : AddressMap space (map.modify handle fun reg => { reg with enabled := enabled })
      ∧ IoMap.Named (map.modify handle fun reg => { reg with enabled := enabled }) := by
  refine inv.modify named (fun _ => ⟨rfl, rfl⟩) ?_
  rintro type reg member rfl
  exact inv.clear member

theorem IoMap.Named.find (named : IoMap.Named map) {handle : Nat}
    (found : map.find handle = some reg)
    : reg ∈ map.regions reg.type ∧ reg.handle = handle := by
  refine ⟨?_, by simpa using List.find?_some found⟩
  rcases List.mem_append.mp (List.mem_of_find?_eq_some found) with port | memory
  · rwa [named.typed .pio reg port]
  · rwa [named.typed .mmio reg memory]

theorem IoMap.Named.eq_of_handle (named : IoMap.Named map) {other : IoSpace} {left right : IoRegion}
    (leftMember : left ∈ map.regions type) (rightMember : right ∈ map.regions other)
    (same : left.handle = right.handle)
    : left = right := by
  obtain rfl := named.oneSpace type other left leftMember right rightMember same
  by_contra different
  have apartHandles : Std.Symm fun left right : IoRegion => left.handle ≠ right.handle :=
    ⟨fun _ _ different => different.symm⟩
  exact (named.distinct type).forall leftMember rightMember different same

end

def VmCtx.Mapped (vm : VmCtx) : Prop :=
  AddressMap vm.memSpace vm.ioMap ∧ IoMap.Named vm.ioMap

theorem vmAddRamCheck_none {gpa size : Nat} {vm : VmCtx}
    (passed : vmAddRamCheck gpa size vm = none)
    : size ≠ 0
      ∧ size ≤ uint64Max - vm.memSpace.totalRam
      ∧ size ≤ uint64Max - gpa
      ∧ (∀ ram ∈ vm.memSpace.regions, ¬ regionIsOverlap gpa size ram.gpa ram.size = true)
      ∧ (∀ reg ∈ vm.ioMap.regions .mmio,
          ¬ regionIsOverlap gpa size reg.base reg.size = true) := by
  simp only [vmAddRamCheck, ite_eq_right_iff, reduceCtorEq, imp_false, ite_eq_iff, and_false,
    false_or, Nat.not_lt, List.any_eq_true, not_exists, not_and] at passed
  obtain ⟨nonzero, -, -, -, total, wraps, -, noRam, noMmio⟩ := passed
  exact ⟨nonzero, total, wraps, noRam, noMmio⟩

theorem vmAddRam_mapped (host : AddRamHost) (gpa size : BitVec 64) (flags : BitVec 32)
    {vm : VmCtx} (mapped : VmCtx.Mapped vm)
    : VmCtx.Mapped (vmAddRam host gpa size flags vm).2 := by
  obtain ⟨inv, named⟩ := mapped
  unfold vmAddRam
  split
  iterate 4 exact ⟨inv, named⟩
  -- Only in the last case is the region published.
  rename_i passed _ _ _
  obtain ⟨nonzero, total, wraps, noRam, noMmio⟩ := vmAddRamCheck_none passed
  have positive : 0 < size.toNat := Nat.pos_of_ne_zero nonzero
  have bounded : gpa.toNat + size.toNat ≤ uint64Max := by
    omega
  have fromRam : ∀ ram ∈ vm.memSpace.regions,
      (Span.mk gpa.toNat size.toNat).Apart ram.span := by
    intro ram member
    exact apart_of_not_overlap bounded (inv.ram.bounded ram member) (noRam ram member)
  have fromMmio : ∀ reg ∈ vm.ioMap.regions .mmio,
      (Span.mk gpa.toNat size.toNat).Apart reg.span := by
    intro reg member
    exact apart_of_not_overlap bounded (inv.bounded .mmio reg member) (noMmio reg member)
  refine ⟨⟨⟨?_, ?_, ?_, ?_⟩, inv.nonempty, inv.bounded, inv.apart, ?_⟩, named⟩
  · intro ram member
    rcases List.mem_append.mp member with old | new
    · exact inv.ram.nonempty ram old
    · rw [List.mem_singleton.mp new]
      exact positive
  · intro ram member
    rcases List.mem_append.mp member with old | new
    · exact inv.ram.bounded ram old
    · rw [List.mem_singleton.mp new]
      exact bounded
  · refine List.pairwise_append.mpr ⟨inv.ram.apart, List.pairwise_singleton _ _, ?_⟩
    intro ram member new newMember
    rw [List.mem_singleton.mp newMember]
    exact (fromRam ram member).symm
  · have sum := inv.ram.total
    simp only [List.map_append, List.map_cons, List.map_nil, List.sum_append, List.sum_cons,
      List.sum_nil]
    rw [Nat.mod_eq_of_lt]
    · omega
    · unfold uint64Max at *
      omega
  · intro reg member ram ramMember
    rcases List.mem_append.mp ramMember with old | new
    · exact inv.ramApart reg member ram old
    · rw [List.mem_singleton.mp new]
      exact (fromMmio reg member).symm

theorem Clear.of_checks {space : MemSpace} {map : IoMap} (inv : AddressMap space map)
    {type : IoSpace} {handle base size : Nat} (nonempty : 0 < size)
    (bounded : base + size ≤ uint64Max)
    (noRegion : ∀ reg ∈ map.regions type, reg.handle ≠ handle
      → ¬ regionIsOverlap base size reg.base reg.size = true)
    (noRam : ¬ (type == .mmio && space.regions.any fun ram =>
      regionIsOverlap base size ram.gpa ram.size) = true)
    : Clear space map type handle ⟨base, size⟩ := by
  refine ⟨nonempty, bounded, ?_, ?_⟩
  · intro other member different
    exact apart_of_not_overlap bounded (inv.bounded type other member)
      (noRegion other member different)
  · rintro rfl ram member
    refine apart_of_not_overlap bounded (inv.ram.bounded ram member) ?_
    intro overlap
    simp only [beq_self_eq_true, Bool.true_and, List.any_eq_true, not_exists, not_and] at noRam
    exact noRam ram member overlap

theorem ioMapRegisterRegion_mapped (node action : Bool) (type : IoSpace)
    (base size : BitVec 64) (dev : Option Nat) {vm : VmCtx} (mapped : VmCtx.Mapped vm)
    : VmCtx.Mapped (ioMapRegisterRegion node action type base size dev vm).2 := by
  obtain ⟨inv, named⟩ := mapped
  cases dev with
  | none => exact ⟨inv, named⟩
  | some dev =>
    simp only [ioMapRegisterRegion]
    split
    · exact ⟨inv, named⟩
    rename_i valid
    split
    · exact ⟨inv, named⟩
    split
    · exact ⟨inv, named⟩
    rename_i noRegion
    split
    · exact ⟨inv, named⟩
    rename_i noRam
    have positive : 0 < size.toNat := by
      simp only [Bool.or_eq_true, not_or, beq_iff_eq] at valid
      refine Nat.pos_of_ne_zero fun zero => valid.2 (BitVec.eq_of_toNat_eq ?_)
      simpa using zero
    have bounded : base.toNat + size.toNat ≤ uint64Max := by
      unfold uint64Max at *
      omega
    have clear : Clear vm.memSpace vm.ioMap type vm.ioMap.nextHandle
        ⟨base.toNat, size.toNat⟩ := by
      refine .of_checks inv positive bounded ?_ noRam
      intro reg member _ overlap
      exact noRegion (List.any_eq_true.mpr ⟨reg, member, overlap⟩)
    split
    · exact ⟨inv, named⟩
    · obtain ⟨added, addedNamed⟩ := inv.add named
        ⟨vm.ioMap.nextHandle, dev, base.toNat, size.toNat, type, true⟩ rfl clear
      split
      · exact added.remove addedNamed _
      · exact ⟨added, addedNamed⟩

theorem ioMapRelocateRegion_mapped (target : Option Nat) (newBase : BitVec 64) {vm : VmCtx}
    (mapped : VmCtx.Mapped vm)
    : VmCtx.Mapped (ioMapRelocateRegion target newBase vm).2 := by
  obtain ⟨inv, named⟩ := mapped
  unfold ioMapRelocateRegion
  split
  · exact ⟨inv, named⟩
  rename_i reg found
  obtain ⟨handle, -, found⟩ := Option.bind_eq_some_iff.mp found
  obtain ⟨member, -⟩ := named.find found
  dsimp only
  split
  · exact ⟨inv, named⟩
  split
  · exact ⟨inv, named⟩
  rename_i noRegion
  split
  · exact ⟨inv, named⟩
  rename_i noRam
  have bounded : newBase.toNat + reg.size ≤ uint64Max := by
    have := inv.bounded reg.type reg member
    omega
  have clear : Clear vm.memSpace vm.ioMap reg.type reg.handle ⟨newBase.toNat, reg.size⟩ := by
    refine .of_checks inv (inv.nonempty reg.type reg member) bounded ?_ noRam
    intro other otherMember different overlap
    exact noRegion (List.any_eq_true.mpr ⟨other, otherMember, by simp [different, overlap]⟩)
  refine inv.modify named (fun _ => ⟨rfl, rfl⟩) ?_
  -- The handle names the target, so the assignment reaches nothing else.
  intro type other otherMember same
  obtain rfl := named.oneSpace type reg.type other otherMember reg member same
  obtain rfl := named.eq_of_handle otherMember member same
  exact clear

variable {m : Machine}

theorem pciRegisterBar_mapped (node action : Bool) (endpoint : Option Nat) (index : Nat)
    (size : BitVec 32) (requestedBase : BitVec 64) (mapped : VmCtx.Mapped m.toVmCtx)
    : VmCtx.Mapped
        (pciRegisterBar node action endpoint index size requestedBase m).2.toVmCtx := by
  cases endpoint with
  | none => exact mapped
  | some =>
    simp only [pciRegisterBar]
    split
    · split
      · exact mapped
      split
      · split
        · exact mapped
        split
        · exact mapped
        split
        · exact mapped
        rename_i bus owner _ _ _ _ _ _ base _ _
        have registered := ioMapRegisterRegion_mapped node action .mmio (.ofNat 64 base)
          (size.setWidth 64) (some owner) mapped
        split
        · rename_i outcome
          rwa [outcome] at registered
        · rename_i outcome
          rw [outcome] at registered
          exact registered.1.enable registered.2 _ _
      · exact mapped
    · exact mapped

theorem pciWriteBar_mapped (endpoint offset : Nat) (val : BitVec 32) (size : Nat)
    (mapped : VmCtx.Mapped m.toVmCtx)
    : VmCtx.Mapped (pciWriteBar endpoint offset val size m).toVmCtx := by
  unfold pciWriteBar
  dsimp only
  split
  · exact mapped
  rename_i handle _
  split
  · exact mapped
  split
  · exact mapped
  rename_i reg _
  have moved := ioMapRelocateRegion_mapped (some handle)
    ((writtenBase reg.base reg.size offset val size).setWidth 64) mapped
  split
  · rename_i outcome
    rwa [outcome] at moved
  · rename_i outcome
    rwa [outcome] at moved

theorem pciWriteHeader_mapped (endpoint offset : Nat) (val : BitVec 32) (size : Nat)
    (mapped : VmCtx.Mapped m.toVmCtx)
    : VmCtx.Mapped (pciWriteHeader endpoint offset val size m).toVmCtx := by
  unfold pciWriteHeader
  split
  · refine List.foldlRecOn
      (motive := fun map => AddressMap m.memSpace map ∧ IoMap.Named map) _ _ mapped ?_
    intro map before bar _
    split
    · exact before
    · exact before.1.enable before.2 _ _
  · exact mapped

theorem pciBusWriteConfig_mapped (bus : Option Nat) (devfn offset : BitVec 8) (val : BitVec 32)
    (size : BitVec 8) (mapped : VmCtx.Mapped m.toVmCtx)
    : VmCtx.Mapped (pciBusWriteConfig bus devfn offset val size m).toVmCtx := by
  cases bus with
  | none => exact mapped
  | some =>
    simp only [pciBusWriteConfig]
    split
    · exact mapped
    split
    · exact mapped
    rename_i endpoint _
    split
    · exact mapped
    split
    · exact pciWriteBar_mapped endpoint _ val _ mapped
    · exact pciWriteHeader_mapped endpoint _ val _ mapped

theorem pciDeviceRegister_mapped (action : Bool) (bus endpoint : Option Nat)
    (mapped : VmCtx.Mapped m.toVmCtx)
    : VmCtx.Mapped (pciDeviceRegister action bus endpoint m).2.toVmCtx := by
  unfold pciDeviceRegister
  split
  · dsimp only
    split
    · split
      · exact mapped
      split
      · exact mapped
      split
      · exact mapped
      split
      · exact mapped
      split
      · exact mapped
      · exact mapped
    · exact mapped
  · exact mapped

theorem releaseResources_mapped (dev : Nat) (mapped : VmCtx.Mapped m.toVmCtx)
    : VmCtx.Mapped (releaseResources dev m).toVmCtx := by
  unfold releaseResources
  split
  · exact mapped
  · refine resRelease_keeps (fun m : Machine => VmCtx.Mapped m.toVmCtx) ?_ _ mapped
    intro cleanup m mapped
    cases cleanup with
    | ioRegionUnregister handle => exact mapped.1.remove mapped.2 handle
    | pciUnregister =>
      simp only [runCleanup, pciUnregister]
      split
      · exact mapped
      · exact mapped

/-- An operation on the address map, with the outcomes of its allocations. -/
inductive AddressMapOp where
  | addRam (host : AddRamHost) (gpa size : BitVec 64) (flags : BitVec 32)
  | registerRegion (node action : Bool) (type : IoSpace) (base size : BitVec 64)
    (dev : Option Nat)
  | relocateRegion (target : Option Nat) (newBase : BitVec 64)
  | registerBar (node action : Bool) (endpoint : Option Nat) (index : Nat) (size : BitVec 32)
    (requestedBase : BitVec 64)
  | writeConfig (bus : Option Nat) (devfn offset : BitVec 8) (val : BitVec 32)
    (size : BitVec 8)
  | release (dev : Nat)
  | initBus (bus : Nat) (owner : Option Nat) (mmioBase mmioSize : BitVec 64)
  | registerEndpoint (action : Bool) (bus endpoint : Option Nat)

def AddressMapOp.apply (m : Machine) : AddressMapOp → Machine
  | .addRam host gpa size flags => m.setVm (vmAddRam host gpa size flags m.toVmCtx).2
  | .registerRegion node action type base size dev =>
      m.setVm (ioMapRegisterRegion node action type base size dev m.toVmCtx).2
  | .relocateRegion target newBase => m.setVm (ioMapRelocateRegion target newBase m.toVmCtx).2
  | .registerBar node action endpoint index size requestedBase =>
      (pciRegisterBar node action endpoint index size requestedBase m).2
  | .writeConfig bus devfn offset val size => pciBusWriteConfig bus devfn offset val size m
  | .release dev => releaseResources dev m
  | .initBus bus owner mmioBase mmioSize => (pciBusInit bus owner mmioBase mmioSize m).2
  | .registerEndpoint action bus endpoint => (pciDeviceRegister action bus endpoint m).2

theorem AddressMapOp.apply_mapped (op : AddressMapOp) (mapped : VmCtx.Mapped m.toVmCtx)
    : VmCtx.Mapped (op.apply m).toVmCtx := by
  cases op with
  | addRam host gpa size flags => exact vmAddRam_mapped host gpa size flags mapped
  | registerRegion node action type base size dev =>
    exact ioMapRegisterRegion_mapped node action type base size dev mapped
  | relocateRegion target newBase => exact ioMapRelocateRegion_mapped target newBase mapped
  | registerBar node action endpoint index size requestedBase =>
    exact pciRegisterBar_mapped node action endpoint index size requestedBase mapped
  | writeConfig bus devfn offset val size =>
    exact pciBusWriteConfig_mapped bus devfn offset val size mapped
  | release dev => exact releaseResources_mapped dev mapped
  | initBus =>
    simp only [AddressMapOp.apply, pciBusInit]
    split
    · exact mapped
    · split
      · exact mapped
      · exact mapped
  | registerEndpoint action bus endpoint =>
    exact pciDeviceRegister_mapped action bus endpoint mapped

/-- A machine without RAM and without I/O regions; its devices, pools, endpoints and buses are
arbitrary.
-/
structure Machine.Empty (m : Machine) : Prop where
  ram : m.memSpace.regions = []
  total : m.memSpace.totalRam = 0
  io : ∀ type, m.ioMap.regions type = []

theorem Machine.Empty.mapped (empty : m.Empty)
    : VmCtx.Mapped m.toVmCtx := by
  constructor
  · constructor
    · constructor <;> simp [empty.ram, empty.total]
    all_goals simp [empty.io]
  · constructor <;> simp [empty.io]

/-- From an empty machine, any sequence of operations leaves a valid address map: regions are
nonempty and end below the last address, those of a space are pairwise apart, memory-mapped ones are
apart from RAM, and the RAM total is exact.
-/
theorem address_map_invariant (m : Machine) (empty : m.Empty) (ops : List AddressMapOp)
    : AddressMap (ops.foldl AddressMapOp.apply m).memSpace
        (ops.foldl AddressMapOp.apply m).ioMap := by
  have mapped : VmCtx.Mapped (ops.foldl AddressMapOp.apply m).toVmCtx := by
    refine List.foldlRecOn (motive := fun m : Machine => VmCtx.Mapped m.toVmCtx) ops _
      empty.mapped ?_
    intro m before op _
    exact op.apply_mapped before
  exact mapped.1

def bareMachine : Machine where
  state := .building
  stopRequested := false
  accel := some ⟨true⟩
  memSpace := ⟨[], 0, 0x1000⟩
  ioMap := ⟨fun _ => [], 0⟩
  devices := fun _ => ⟨true, true, resPoolInit⟩
  endpoints := fun _ => ⟨none, some 0, 8, 1, false, false, fun _ => ⟨none, false⟩, fun _ => 0⟩
  buses := fun _ => ⟨[], none, 0, 0⟩

/-- RAM, a register block above it that a guest moves into RAM and elsewhere, and a region in its
way.
-/
def bareMachineOps : List AddressMapOp :=
  [.addRam ⟨true, .ok (), .ok ()⟩ 0 0x10000 0,
    .initBus 0 (some 0) 0xc0000000 0x1000000,
    .registerEndpoint true (some 0) (some 0),
    .registerBar true true (some 0) 0 0x1000 0xc0000000,
    .writeConfig (some 0) 8 0x10 0x8000 4,
    .writeConfig (some 0) 8 0x10 0xd0000000 4,
    .registerRegion true true .mmio 0xd0000800 0x10 (some 0)]

/-- The invariant on that run, where one region of each kind is left. -/
theorem address_map_invariant_bare
    : bareMachine.Empty
      ∧ (bareMachineOps.foldl AddressMapOp.apply bareMachine).memSpace.regions
        = [⟨0, 0x10000, 0⟩]
      ∧ (bareMachineOps.foldl AddressMapOp.apply bareMachine).ioMap.regions .mmio
        = [⟨0, 0, 0xd0000000, 0x1000, .mmio, false⟩]
      ∧ AddressMap (bareMachineOps.foldl AddressMapOp.apply bareMachine).memSpace
        (bareMachineOps.foldl AddressMapOp.apply bareMachine).ioMap := by
  have empty : bareMachine.Empty := ⟨rfl, rfl, fun _ => rfl⟩
  refine ⟨empty, ?_, ?_, address_map_invariant bareMachine empty bareMachineOps⟩
  · decide +kernel
  · decide +kernel

end Modvm.Hw
