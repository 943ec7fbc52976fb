import Modvm.Core.Errno
import Modvm.Lib.Span
import Mathlib.Algebra.Ring.Nat

/-! Guest physical memory: registered RAM regions and their translation to host memory. -/

namespace Modvm.Core

open Modvm.Lib

def memReadonly : BitVec 32 := 1#32

/-- The largest value of a 64-bit address or size. -/
def uint64Max : Nat := 2 ^ 64 - 1

/-- `gpa_add`: addresses wrap at 64 bits. -/
def gpaAdd (base offset : Nat) : Nat := (base + offset) % 2 ^ 64

/-- `gpa_offset`, again modulo 64 bits. -/
def gpaOffset (high low : Nat) : Nat := (high + 2 ^ 64 - low) % 2 ^ 64

structure MemRegion where
  gpa : Nat
  size : Nat
  flags : BitVec 32
deriving DecidableEq, Repr

def MemRegion.span (reg : MemRegion) : Span := ⟨reg.gpa, reg.size⟩

def MemRegion.isReadonly (reg : MemRegion) : Bool := reg.flags &&& memReadonly != 0

structure MemSpace where
  regions : List MemRegion
  totalRam : Nat
  hostPageSize : Nat
deriving Repr

/-- A host address, named by the region whose backing it points into. -/
structure Hva where
  region : MemRegion
  offset : Nat
deriving DecidableEq, Repr

def Hva.gpa (hva : Hva) : Nat := hva.region.gpa + hva.offset

def findRegion (space : MemSpace) (addr : Nat) : Option MemRegion :=
  space.regions.find? fun reg =>
    decide (addr ≥ reg.gpa) && decide (gpaOffset addr reg.gpa < reg.size)

/-- `mem_map_chunk`: one contiguous, permission-checked part of a larger transfer. -/
def memMapChunk (space : MemSpace) (gpa len : Nat) (write : Bool) : Option (Hva × Nat) :=
  if len = 0 ∨ len > uint64Max - gpa then none
  else
    match findRegion space gpa with
    | none => none
    | some reg =>
        if write && reg.isReadonly then none
        else
          let offset := gpaOffset gpa reg.gpa
          let available := reg.size - offset
          some (⟨reg, offset⟩, if len < available then len else available)

/-- `mem_map_range`: an entire span or nothing. -/
def memMapRange (space : MemSpace) (gpa len : Nat) (write : Bool) : Option Hva :=
  match memMapChunk space gpa len write with
  | some (hva, available) => if available = len then some hva else none
  | none => none

/-- RAM as constructed: nonempty regions, ending below the last address and pairwise apart, with
their sum.
-/
structure MemSpace.WellFormed (space : MemSpace) : Prop where
  nonempty : ∀ reg ∈ space.regions, 0 < reg.size
  bounded : ∀ reg ∈ space.regions, reg.gpa + reg.size ≤ uint64Max
  apart : space.regions.Pairwise fun left right => left.span.Apart right.span
  total : space.totalRam = (space.regions.map MemRegion.size).sum

/-- A memory space whose topology is frozen: device models only ever see such a space. -/
structure RamMap where
  space : MemSpace
  formed : space.WellFormed

/-- Some registered region contains the address, writable if the access is a write. -/
def MemSpace.Grants (space : MemSpace) (write : Bool) (addr : Nat) : Prop :=
  ∃ reg ∈ space.regions, reg.span.Has addr ∧ (write = true → reg.isReadonly = false)

theorem gpaOffset_eq {high low : Nat} (ordered : low ≤ high) (bounded : high < 2 ^ 64)
    : gpaOffset high low = high - low := by
  unfold gpaOffset
  omega

theorem gpaAdd_eq {base offset : Nat} (bounded : base + offset < 2 ^ 64)
    : gpaAdd base offset = base + offset :=
  Nat.mod_eq_of_lt bounded

variable {space : MemSpace}

/-- A region that is found holds the address. -/
theorem findRegion_sound {addr : Nat} {reg : MemRegion} (bounded : addr < 2 ^ 64)
    (found : findRegion space addr = some reg)
    : reg ∈ space.regions ∧ reg.span.Has addr := by
  refine ⟨List.mem_of_find?_eq_some found, ?_⟩
  have matched := List.find?_some found
  simp only [Bool.and_eq_true, decide_eq_true_eq] at matched
  obtain ⟨above, below⟩ := matched
  rw [gpaOffset_eq above bounded] at below
  simp only [MemRegion.span, Span.Has]
  omega

/-- RAM regions that end below the last address and have no address in common. -/
structure MemSpace.Layout (space : MemSpace) : Prop where
  bounded : ∀ reg ∈ space.regions, reg.gpa + reg.size ≤ uint64Max
  disjoint : space.regions.Pairwise fun left right =>
    ∀ addr, left.span.Has addr → ¬ right.span.Has addr

theorem MemSpace.WellFormed.layout (formed : space.WellFormed)
    : space.Layout := by
  refine ⟨formed.bounded, formed.apart.imp ?_⟩
  intro left right apart addr has
  exact apart.not_has has

theorem MemSpace.Layout.region_unique (layout : space.Layout) {left right : MemRegion} {addr : Nat}
    (leftMember : left ∈ space.regions) (rightMember : right ∈ space.regions)
    (leftHas : left.span.Has addr) (rightHas : right.span.Has addr)
    : left = right := by
  by_contra different
  have : Std.Symm fun left right : MemRegion =>
      ∀ addr, left.span.Has addr → ¬ right.span.Has addr :=
    ⟨fun _ _ disjoint addr has other => disjoint addr other has⟩
  exact layout.disjoint.forall leftMember rightMember different addr leftHas rightHas

/-- Under the layout the region of an address is found. -/
theorem MemSpace.Layout.findRegion_eq (layout : space.Layout) {reg : MemRegion} {addr : Nat}
    (member : reg ∈ space.regions) (has : reg.span.Has addr)
    : findRegion space addr = some reg := by
  have limit := layout.bounded reg member
  have bounded : addr < 2 ^ 64 := by
    simp only [MemRegion.span, Span.Has, uint64Max] at has limit
    omega
  cases found : findRegion space addr with
  | none =>
    have missed := List.find?_eq_none.mp found reg member
    simp only [MemRegion.span, Span.Has] at has
    simp only [Bool.and_eq_true, decide_eq_true_eq, gpaOffset_eq has.1 bounded] at missed
    omega
  | some =>
    obtain ⟨otherMember, otherHas⟩ := findRegion_sound bounded found
    rw [layout.region_unique otherMember member otherHas has]

/-- A chunk lies in its region. -/
theorem memMapChunk_sound {gpa len chunk : Nat} {write : Bool} {hva : Hva}
    (mapped : memMapChunk space gpa len write = some (hva, chunk))
    : hva.region ∈ space.regions
      ∧ hva.gpa = gpa
      ∧ 0 < chunk
      ∧ chunk ≤ len
      ∧ gpa + len ≤ uint64Max
      ∧ (Span.mk gpa chunk).Within hva.region.span
      ∧ (write = true → hva.region.isReadonly = false) := by
  unfold memMapChunk at mapped
  split at mapped
  · cases mapped
  · rename_i valid
    have bounded : gpa < 2 ^ 64 := by
      unfold uint64Max at valid
      omega
    split at mapped
    · cases mapped
    · rename_i reg found
      obtain ⟨member, has⟩ := findRegion_sound bounded found
      split at mapped
      · cases mapped
      · rename_i permitted
        obtain ⟨rfl, rfl⟩ := Prod.mk.inj (Option.some.inj mapped)
        simp only [MemRegion.span, Span.Has] at has
        have offset := gpaOffset_eq has.1 bounded
        have writable : write = true → reg.isReadonly = false := by
          intro isWrite
          simpa [isWrite] using permitted
        simp only [Hva.gpa, Span.Within, MemRegion.span]
        refine ⟨member, ?_, ?_, ?_, ?_, ?_, writable⟩
        · omega
        · split <;> omega
        · split <;> omega
        · omega
        · split <;> omega

theorem MemSpace.Layout.memMapChunk_eq (layout : space.Layout) {gpa len : Nat} {write : Bool}
    {reg : MemRegion} (nonempty : len ≠ 0) (unwrapped : gpa + len ≤ uint64Max)
    (member : reg ∈ space.regions) (has : reg.span.Has gpa)
    (permitted : write = true → reg.isReadonly = false)
    : memMapChunk space gpa len write
      = some (⟨reg, gpa - reg.gpa⟩, min len (reg.gpa + reg.size - gpa)) := by
  have valid : ¬ (len = 0 ∨ len > uint64Max - gpa) := by omega
  have writable : (write && reg.isReadonly) = false := by
    cases write with
    | false => rfl
    | true => simpa using permitted
  have found := layout.findRegion_eq member has
  obtain ⟨low, high⟩ := has
  change reg.gpa ≤ gpa at low
  have offset : gpaOffset gpa reg.gpa = gpa - reg.gpa := by
    refine gpaOffset_eq low ?_
    unfold uint64Max at unwrapped
    omega
  have chunk : (if len < reg.size - (gpa - reg.gpa) then len else reg.size - (gpa - reg.gpa))
      = min len (reg.gpa + reg.size - gpa) := by
    split <;> omega
  unfold memMapChunk
  rw [if_neg valid, found]
  simp only [writable, Bool.false_eq_true, if_false, offset, chunk]

theorem RamMap.memMapChunk_granted (ram : RamMap) {gpa len : Nat} {write : Bool}
    (nonempty : len ≠ 0) (unwrapped : gpa + len ≤ uint64Max)
    (granted : ram.space.Grants write gpa)
    : ∃ hva chunk, memMapChunk ram.space gpa len write = some (hva, chunk) := by
  obtain ⟨reg, member, has, permitted⟩ := granted
  exact ⟨_, _, ram.formed.layout.memMapChunk_eq nonempty unwrapped member has permitted⟩

theorem memMapChunk_grants {gpa len chunk addr : Nat} {write : Bool} {hva : Hva}
    (mapped : memMapChunk space gpa len write = some (hva, chunk))
    (has : (Span.mk gpa chunk).Has addr)
    : space.Grants write addr := by
  obtain ⟨member, -, -, -, -, within, permitted⟩ := memMapChunk_sound mapped
  exact ⟨hva.region, member, within.has has, permitted⟩

theorem memMapRange_sound {gpa len : Nat} {write : Bool} {hva : Hva}
    (mapped : memMapRange space gpa len write = some hva)
    : memMapChunk space gpa len write = some (hva, len) := by
  unfold memMapRange at mapped
  split at mapped
  · rename_i found available chunk
    split at mapped
    · rename_i whole
      rw [chunk, whole, Option.some.inj mapped]
    · cases mapped
  · cases mapped

end Modvm.Core
