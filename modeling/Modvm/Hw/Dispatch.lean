import Modvm.Hw.AddressMap

/-! Dispatch of guest accesses to I/O regions, which the order of registration does not affect. -/

namespace Modvm.Hw

open Modvm.Core Modvm.Lib

/-! ### Model -/

/-- `struct device_ops` without `stop`: optional callbacks on a state `σ`, with region, offset and
size.
-/
structure DeviceOps (σ : Type) where
  read : Option (IoRegion → Nat → Nat → σ → BitVec 64 × σ)
  write : Option (IoRegion → Nat → BitVec 64 → Nat → σ → σ)

/-- The scan of `io_map_read_locked` and `io_map_write_locked`, where ends have not wrapped. -/
def ioMapScan {α : Type} (addr size : Nat) (miss : α) (hit : IoRegion → Nat → α)
    : List IoRegion → α
  | [] => miss
  | pos :: rest =>
      if pos.enabled ∧ addr ≥ pos.base ∧ addr < gpaAdd pos.base pos.size then
        let offset := addr - pos.base
        if size > pos.size - offset then miss else hit pos offset
      else ioMapScan addr size miss hit rest

variable {σ : Type}

def callRead (ops : Nat → DeviceOps σ) (size : Nat) (s : σ) (pos : IoRegion) (offset : Nat)
    : BitVec 64 × σ :=
  match (ops pos.dev).read with
  | some read => read pos offset size s
  | none => (.allOnes 64, s)

/-- What `io_map_write_locked` does with it. -/
def callWrite (ops : Nat → DeviceOps σ) (val : BitVec 64) (size : Nat) (s : σ) (pos : IoRegion)
    (offset : Nat)
    : σ :=
  match (ops pos.dev).write with
  | some write => write pos offset val size s
  | none => s

def ioMapReadLocked (ops : Nat → DeviceOps σ) (map : IoMap) (type : IoSpace) (addr size : Nat)
    (s : σ)
    : BitVec 64 × σ :=
  ioMapScan addr size (.allOnes 64, s) (callRead ops size s) (map.regions type)

def ioMapWriteLocked (ops : Nat → DeviceOps σ) (map : IoMap) (type : IoSpace) (addr : Nat)
    (val : BitVec 64) (size : Nat) (s : σ)
    : σ :=
  ioMapScan addr size s (callWrite ops val size s) (map.regions type)

def accessSizes : List Nat := [1, 2, 4, 8]

/-- `io_map_read`, under the lock that it takes. -/
def ioMapRead (ops : Nat → DeviceOps σ) (map : IoMap) (type : IoSpace) (addr : BitVec 64)
    (size : BitVec 8) (s : σ)
    : BitVec 64 × σ :=
  if size.toNat ∉ accessSizes then (.allOnes 64, s)
  else ioMapReadLocked ops map type addr.toNat size.toNat s

/-- `io_map_write`, under the lock that it takes. -/
def ioMapWrite (ops : Nat → DeviceOps σ) (map : IoMap) (type : IoSpace) (addr : BitVec 64)
    (val : BitVec 64) (size : BitVec 8) (s : σ)
    : σ :=
  if size.toNat ∉ accessSizes then s
  else ioMapWriteLocked ops map type addr.toNat val size.toNat s

/-! ### The owner of an access -/

def Contains (reg : IoRegion) (addr size : Nat) : Prop :=
  reg.enabled = true ∧ (Span.mk addr size).Within reg.span

instance (reg : IoRegion) (addr size : Nat) : Decidable (Contains reg addr size) :=
  inferInstanceAs (Decidable (_ ∧ _))

/-- Regions that do not wrap and have no address in common, in any order. -/
structure Separate (regions : List IoRegion) : Prop where
  bounded : ∀ reg ∈ regions, reg.base + reg.size ≤ uint64Max
  apart : regions.Pairwise fun left right => left.span.Apart right.span

theorem AddressMap.separate {space : MemSpace} {map : IoMap} (inv : AddressMap space map)
    (type : IoSpace)
    : Separate (map.regions type) :=
  ⟨inv.bounded type, inv.apart type⟩

theorem gpaAdd_of_bounded {reg : IoRegion} (bounded : reg.base + reg.size ≤ uint64Max)
    : gpaAdd reg.base reg.size = reg.base + reg.size :=
  gpaAdd_eq (Nat.lt_of_le_of_lt bounded (by decide))

section Scan
variable {α : Type} {addr size : Nat} {miss : α} {hit : IoRegion → Nat → α}
  {regions : List IoRegion}

theorem ioMapScan_miss (bounded : ∀ reg ∈ regions, reg.base + reg.size ≤ uint64Max)
    (none : ∀ reg ∈ regions, ¬ Contains reg addr size)
    : ioMapScan addr size miss hit regions = miss := by
  induction regions with
  | nil => rfl
  | cons pos rest ih =>
    obtain ⟨first, later⟩ := List.forall_mem_cons.mp bounded
    obtain ⟨outside, others⟩ := List.forall_mem_cons.mp none
    rw [ioMapScan, gpaAdd_of_bounded first]
    dsimp only
    split_ifs with found crosses
    · rfl
    · -- the address is in the region, and so is the end of the access
      refine absurd ⟨found.1, found.2.1, ?_⟩ outside
      change addr + size ≤ pos.base + pos.size
      omega
    · exact ih later others

theorem ioMapScan_hit (separate : Separate regions) (some : 0 < size) {reg : IoRegion}
    (member : reg ∈ regions) (contains : Contains reg addr size)
    : ioMapScan addr size miss hit regions = hit reg (addr - reg.base) := by
  obtain ⟨bounded, apart⟩ := separate
  induction regions with
  | nil => cases member
  | cons pos rest ih =>
    obtain ⟨first, later⟩ := List.forall_mem_cons.mp bounded
    obtain ⟨headApart, restApart⟩ := List.pairwise_cons.mp apart
    obtain ⟨enabled, low, high⟩ := contains
    change reg.base ≤ addr at low
    change addr + size ≤ reg.base + reg.size at high
    rw [ioMapScan, gpaAdd_of_bounded first]
    rcases List.mem_cons.mp member with rfl | inRest
    · rw [if_pos ⟨enabled, low, by omega⟩, if_neg (by omega)]
    · have away : pos.base + pos.size ≤ reg.base ∨ reg.base + reg.size ≤ pos.base :=
        headApart reg inRest
      rw [if_neg (by omega)]
      exact ih inRest later restApart

theorem Separate.unique (separate : Separate regions) (some : 0 < size) {reg other : IoRegion}
    (member : reg ∈ regions) (otherMember : other ∈ regions) (contains : Contains reg addr size)
    (otherContains : Contains other addr size)
    : other = reg := by
  by_contra different
  have away := Span.apart_of_pairwise separate.apart member otherMember (Ne.symm different)
  obtain ⟨-, low, high⟩ := contains
  obtain ⟨-, otherLow, otherHigh⟩ := otherContains
  unfold Span.Apart at away
  dsimp only at low high otherLow otherHigh
  omega

theorem Separate.perm (separate : Separate regions) {others : List IoRegion}
    (perm : others.Perm regions)
    : Separate others := by
  refine ⟨fun reg member => separate.bounded reg (perm.mem_iff.mp member), ?_⟩
  exact (perm.pairwise_iff fun apart => apart.symm).mpr separate.apart

theorem ioMapScan_perm (separate : Separate regions) (some : 0 < size) {others : List IoRegion}
    (perm : others.Perm regions)
    : ioMapScan addr size miss hit others = ioMapScan addr size miss hit regions := by
  by_cases owned : ∃ reg ∈ regions, Contains reg addr size
  · obtain ⟨reg, member, contains⟩ := owned
    rw [ioMapScan_hit separate some member contains,
      ioMapScan_hit (separate.perm perm) some (perm.mem_iff.mpr member) contains]
  · have none : ∀ reg ∈ regions, ¬ Contains reg addr size :=
      fun reg member contains => owned ⟨reg, member, contains⟩
    rw [ioMapScan_miss separate.bounded none, ioMapScan_miss (separate.perm perm).bounded
      fun reg member => none reg (perm.mem_iff.mp member)]

end Scan

/-! ### Callbacks -/

structure IoCall where
  region : IoRegion
  offset : Nat
  size : Nat
  value : Option (BitVec 64)
deriving DecidableEq, Repr

def recording (ops : Nat → DeviceOps σ) (dev : Nat) : DeviceOps (σ × List IoCall) where
  read := (ops dev).read.map fun read reg offset size s =>
    ((read reg offset size s.1).1, (read reg offset size s.1).2,
      s.2 ++ [⟨reg, offset, size, none⟩])
  write := (ops dev).write.map fun write reg offset val size s =>
    (write reg offset val size s.1, s.2 ++ [⟨reg, offset, size, some val⟩])

theorem recording_calls (ops : Nat → DeviceOps σ) (val : BitVec 64) (size : Nat) (s : σ)
    (reg : IoRegion) (offset : Nat)
    : (callRead (recording ops) size (s, []) reg offset).2.2
        = (if (ops reg.dev).read.isSome then [⟨reg, offset, size, none⟩] else [])
      ∧ (callWrite (recording ops) val size (s, []) reg offset).2
        = if (ops reg.dev).write.isSome then [⟨reg, offset, size, some val⟩] else [] := by
  unfold callRead callWrite recording
  constructor
  · cases (ops reg.dev).read <;> rfl
  · cases (ops reg.dev).write <;> rfl

/-! ### The contract -/

/-- Dispatch over an address map is exact. If an enabled region contains the whole access, it is the
only one, and the access is one call of its device's callback, if there is one, with the offset.
Otherwise nothing is called, and a read gives all ones. The order of the regions does not matter.
-/
theorem io_dispatch_exact {space : MemSpace} {map : IoMap} (inv : AddressMap space map)
    (ops : Nat → DeviceOps σ) (type : IoSpace) (addr val : BitVec 64) {size : BitVec 8}
    (width : size.toNat ∈ accessSizes) (s : σ)
    : (∀ reg ∈ map.regions type, Contains reg addr.toNat size.toNat →
        ioMapRead ops map type addr size s
          = callRead ops size.toNat s reg (addr.toNat - reg.base)
        ∧ ioMapWrite ops map type addr val size s
          = callWrite ops val size.toNat s reg (addr.toNat - reg.base)
        ∧ (ioMapRead (recording ops) map type addr size (s, [])).2.2
          = (if (ops reg.dev).read.isSome then
              [⟨reg, addr.toNat - reg.base, size.toNat, none⟩] else [])
        ∧ (ioMapWrite (recording ops) map type addr val size (s, [])).2
          = (if (ops reg.dev).write.isSome then
              [⟨reg, addr.toNat - reg.base, size.toNat, some val⟩] else [])
        ∧ ∀ other ∈ map.regions type, Contains other addr.toNat size.toNat → other = reg)
      ∧ ((∀ reg ∈ map.regions type, ¬ Contains reg addr.toNat size.toNat) →
        ioMapRead ops map type addr size s = (.allOnes 64, s)
        ∧ ioMapWrite ops map type addr val size s = s
        ∧ (ioMapRead (recording ops) map type addr size (s, [])).2.2 = []
        ∧ (ioMapWrite (recording ops) map type addr val size (s, [])).2 = [])
      ∧ ∀ reordered : IoMap, (reordered.regions type).Perm (map.regions type) →
        ioMapRead ops reordered type addr size s = ioMapRead ops map type addr size s
        ∧ ioMapWrite ops reordered type addr val size s
          = ioMapWrite ops map type addr val size s := by
  have separate := inv.separate type
  have some : 0 < size.toNat := by
    have positive : ∀ n ∈ accessSizes, 0 < n := by decide
    exact positive _ width
  have admitted : ¬ size.toNat ∉ accessSizes := not_not_intro width
  unfold ioMapRead ioMapWrite ioMapReadLocked ioMapWriteLocked
  simp only [if_neg admitted]
  refine ⟨fun reg member contains => ?_, fun none => ?_, fun reordered perm => ?_⟩
  · have calls := recording_calls ops val size.toNat s reg (addr.toNat - reg.base)
    refine ⟨ioMapScan_hit separate some member contains,
      ioMapScan_hit separate some member contains, ?_, ?_, fun other otherMember owns => ?_⟩
    · rw [ioMapScan_hit separate some member contains]
      exact calls.1
    · rw [ioMapScan_hit separate some member contains]
      exact calls.2
    · exact separate.unique some member otherMember contains owns
  · refine ⟨ioMapScan_miss separate.bounded none, ioMapScan_miss separate.bounded none, ?_, ?_⟩
    · rw [ioMapScan_miss separate.bounded none]
    · rw [ioMapScan_miss separate.bounded none]
  · exact ⟨ioMapScan_perm separate some perm, ioMapScan_perm separate some perm⟩

/-- `debug_exit_ops`, on whether a shutdown was requested. -/
def debugExitOps : DeviceOps Bool where
  read := none
  write := some fun _ _ _ _ _ => true

def exitPort : IoMap where
  regions := fun type =>
    match type with
    | .pio => [⟨0, 0, 0xf4, 1, .pio, true⟩]
    | .mmio => []
  nextHandle := 1

theorem exitPort_map : AddressMap ⟨[], 0, 4096⟩ exitPort := by
  refine ⟨?_, ?_, ?_, ?_, nofun⟩
  · exact ⟨nofun, nofun, List.Pairwise.nil, rfl⟩
  · intro type
    cases type <;> decide
  · intro type
    cases type <;> decide
  · intro type
    cases type <;> decide

/-- A write to the port is one call; one that reaches over its end is none. -/
theorem io_dispatch_exit_port
    : ioMapWrite (fun _ => debugExitOps) exitPort .pio 0xf4 7 1 false = true
      ∧ ioMapWrite (fun _ => debugExitOps) exitPort .pio 0xf4 7 2 false = false := by
  constructor
  · exact ((io_dispatch_exact exitPort_map (fun _ => debugExitOps) .pio 0xf4 7
      (by decide : (1 : BitVec 8).toNat ∈ accessSizes) false).1 _ (List.mem_singleton_self _)
      (by decide)).2.1
  · exact ((io_dispatch_exact exitPort_map (fun _ => debugExitOps) .pio 0xf4 7
      (by decide : (2 : BitVec 8).toNat ∈ accessSizes) false).2.1 (by decide)).2.1

/-- A read of the port, which its region contains, calls nothing: the device has no callback for
reads.
-/
theorem exit_port_read_silent
    : AddressMap ⟨[], 0, 4096⟩ exitPort
      ∧ (∃ reg ∈ exitPort.regions .pio, Contains reg 0xf4 1)
      ∧ (ioMapRead (recording fun _ => debugExitOps) exitPort .pio 0xf4 1 (false, [])).2.2 = [] :=
  ⟨exitPort_map, ⟨_, List.mem_singleton_self _, by decide⟩, rfl⟩

end Modvm.Hw
