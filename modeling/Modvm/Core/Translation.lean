import Modvm.Core.Memory
import Mathlib.Data.List.Nodup

/-! Translation of guest-physical spans, chunk by chunk over disjoint regions. -/

namespace Modvm.Core

open Modvm.Lib

/-! ### The walk -/

/-- Calls of `mem_map_chunk` for what is left of the span until one fails: the chunks, and the rest.
-/
def mapChunks (space : MemSpace) (write : Bool) (gpa len : Nat) : List (Hva × Nat) × Nat :=
  match _mapped : memMapChunk space gpa len write with
  | none => ([], len)
  | some (hva, chunk) =>
      let later := mapChunks space write (gpa + chunk) (len - chunk)
      ((hva, chunk) :: later.1, later.2)
termination_by len
decreasing_by
  -- a chunk is never empty
  obtain ⟨-, -, positive, short, -⟩ := memMapChunk_sound _mapped
  omega

def chunkBytes (hva : Hva) (chunk : Nat) : List Hva :=
  (List.range' hva.offset chunk).map fun offset => ⟨hva.region, offset⟩

def visited (chunks : List (Hva × Nat)) : List Hva :=
  chunks.flatMap fun (hva, chunk) => chunkBytes hva chunk

section
variable {space : MemSpace} {write : Bool} {gpa len chunk : Nat} {hva : Hva}

theorem mapChunks_none (failed : memMapChunk space gpa len write = none)
    : mapChunks space write gpa len = ([], len) := by
  rw [mapChunks]
  split
  · rfl
  next mapped =>
    rw [failed] at mapped
    cases mapped

theorem mapChunks_some (mapped : memMapChunk space gpa len write = some (hva, chunk))
    : mapChunks space write gpa len
      = ((hva, chunk) :: (mapChunks space write (gpa + chunk) (len - chunk)).1,
        (mapChunks space write (gpa + chunk) (len - chunk)).2) := by
  rw [mapChunks]
  split
  next failed =>
    rw [failed] at mapped
    cases mapped
  next found =>
    obtain ⟨rfl, rfl⟩ := Prod.mk.inj (Option.some.inj (found.symm.trans mapped))
    rfl

/-! ### Which bytes a walk visits -/

theorem chunkBytes_gpa (hva : Hva) (chunk : Nat)
    : (chunkBytes hva chunk).map Hva.gpa = List.range' hva.gpa chunk := by
  unfold chunkBytes
  rw [List.map_map]
  exact List.map_add_range' (a := hva.region.gpa) ..

theorem visited_gpa (space : MemSpace) (write : Bool) (gpa len : Nat)
    : (mapChunks space write gpa len).2 ≤ len
      ∧ (visited (mapChunks space write gpa len).1).map Hva.gpa
        = List.range' gpa (len - (mapChunks space write gpa len).2) := by
  induction gpa, len using mapChunks.induct space write with
  | case1 gpa len failed => simp [mapChunks_none failed, visited]
  | case2 gpa len hva chunk mapped ih =>
    obtain ⟨-, same, -, short, -⟩ := memMapChunk_sound mapped
    obtain ⟨left, addresses⟩ := ih
    rw [mapChunks_some mapped]
    refine ⟨by dsimp only; omega, ?_⟩
    simp only [visited, List.flatMap_cons, List.map_append, chunkBytes_gpa, same] at addresses ⊢
    rw [addresses, List.range'_append_1]
    congr 1
    omega

/-- Every byte that a walk visits is in its region, by induction on the walk. -/
theorem visited_inside (space : MemSpace) (write : Bool) (gpa len : Nat)
    : ∀ byte ∈ visited (mapChunks space write gpa len).1,
      byte.region ∈ space.regions ∧ byte.offset < byte.region.size
      ∧ (write = true → byte.region.isReadonly = false) := by
  induction gpa, len using mapChunks.induct space write with
  | case1 gpa len failed =>
    rw [mapChunks_none failed]
    nofun
  | case2 gpa len hva chunk mapped ih =>
    rw [mapChunks_some mapped]
    intro byte member
    rcases List.mem_append.mp member with here | below
    · obtain ⟨offset, inside, rfl⟩ := List.mem_map.mp here
      obtain ⟨low, high⟩ := List.mem_range'_1.mp inside
      obtain ⟨registered, same, -, -, -, within, permitted⟩ := memMapChunk_sound mapped
      refine ⟨registered, ?_, permitted⟩
      have fits : gpa + chunk ≤ hva.region.gpa + hva.region.size := within.2
      have place : hva.region.gpa + hva.offset = gpa := same
      change offset < hva.region.size
      omega
    · exact ih byte below

/-! ### How far a walk gets -/

theorem MemSpace.Layout.refused (layout : space.Layout)
    (failed : memMapChunk space gpa len write = none) (some : len ≠ 0)
    : ∃ addr, (Span.mk gpa len).Has addr ∧ ¬ space.Grants write addr := by
  by_cases unwrapped : gpa + len ≤ uint64Max
  · refine ⟨gpa, ⟨Nat.le_refl _, by dsimp only; omega⟩, ?_⟩
    rintro ⟨reg, member, has, permitted⟩
    rw [layout.memMapChunk_eq some unwrapped member has permitted] at failed
    cases failed
  · -- the span has an address that no region can have
    refine ⟨gpa + len - 1, ⟨by dsimp only; omega, by dsimp only; omega⟩, ?_⟩
    rintro ⟨reg, member, ⟨-, high⟩, -⟩
    have limit := layout.bounded reg member
    change gpa + len - 1 < reg.gpa + reg.size at high
    omega

theorem MemSpace.Layout.reaches_iff (layout : space.Layout) (write : Bool) (gpa len : Nat)
    : (mapChunks space write gpa len).2 = 0
      ↔ ∀ addr, (Span.mk gpa len).Has addr → space.Grants write addr := by
  induction gpa, len using mapChunks.induct space write with
  | case1 gpa len failed =>
    rw [mapChunks_none failed]
    constructor
    · rintro rfl addr ⟨low, high⟩
      dsimp only at low high
      omega
    · intro all
      by_contra some
      obtain ⟨addr, has, refused⟩ := layout.refused failed some
      exact refused (all addr has)
  | case2 gpa len hva chunk mapped ih =>
    rw [mapChunks_some mapped]
    refine ih.trans ⟨fun rest addr has => ?_, fun all addr has => all addr ?_⟩
    · obtain ⟨low, high⟩ := has
      by_cases here : addr < gpa + chunk
      · exact memMapChunk_grants mapped ⟨low, here⟩
      · exact rest addr ⟨by dsimp only at *; omega, by dsimp only at *; omega⟩
    · obtain ⟨low, high⟩ := has
      exact ⟨by dsimp only at *; omega, by dsimp only at *; omega⟩

theorem MemSpace.Layout.memMapRange_iff (layout : space.Layout)
    : (memMapRange space gpa len write).isSome
      ↔ 0 < len ∧ ∃ reg ∈ space.regions, (Span.mk gpa len).Within reg.span
        ∧ (write = true → reg.isReadonly = false) := by
  constructor
  · intro some
    obtain ⟨hva, mapped⟩ := Option.isSome_iff_exists.mp some
    obtain ⟨member, -, positive, -, -, within, permitted⟩ :=
      memMapChunk_sound (memMapRange_sound mapped)
    exact ⟨positive, hva.region, member, within, permitted⟩
  · rintro ⟨positive, reg, member, ⟨low, high⟩, permitted⟩
    have limit := layout.bounded reg member
    change gpa + len ≤ reg.gpa + reg.size at high
    have has : reg.span.Has gpa := ⟨low, by change gpa < reg.gpa + reg.size; omega⟩
    unfold memMapRange
    rw [layout.memMapChunk_eq (by omega) (by omega) member has permitted]
    simp only
    rw [if_pos (by omega)]
    rfl

/-! ### The order of the regions -/

theorem MemSpace.Layout.perm (layout : space.Layout) {other : MemSpace}
    (perm : other.regions.Perm space.regions)
    : other.Layout := by
  refine ⟨fun reg member => layout.bounded reg (perm.mem_iff.mp member), ?_⟩
  refine (perm.pairwise_iff ?_).mpr layout.disjoint
  intro left right disjoint addr has leftHas
  exact disjoint addr leftHas has

theorem MemSpace.Layout.findRegion_perm (layout : space.Layout) {other : MemSpace}
    (perm : other.regions.Perm space.regions) {addr : Nat} (bounded : addr < 2 ^ 64)
    : findRegion other addr = findRegion space addr := by
  cases found : findRegion space addr with
  | some =>
    obtain ⟨member, has⟩ := findRegion_sound bounded found
    exact (layout.perm perm).findRegion_eq (perm.mem_iff.mpr member) has
  | none =>
    cases moved : findRegion other addr with
    | none => rfl
    | some =>
      obtain ⟨member, has⟩ := findRegion_sound bounded moved
      rw [layout.findRegion_eq (perm.mem_iff.mp member) has] at found
      cases found

theorem MemSpace.Layout.memMapChunk_perm (layout : space.Layout) {other : MemSpace}
    (perm : other.regions.Perm space.regions) (gpa len : Nat) (write : Bool)
    : memMapChunk other gpa len write = memMapChunk space gpa len write := by
  unfold memMapChunk
  by_cases refused : len = 0 ∨ len > uint64Max - gpa
  · rw [if_pos refused, if_pos refused]
  · have bounded : gpa < 2 ^ 64 := by
      unfold uint64Max at refused
      omega
    rw [if_neg refused, if_neg refused, layout.findRegion_perm perm bounded]

theorem MemSpace.Layout.mapChunks_perm (layout : space.Layout) {other : MemSpace}
    (perm : other.regions.Perm space.regions) (write : Bool) (gpa len : Nat)
    : mapChunks other write gpa len = mapChunks space write gpa len := by
  induction gpa, len using mapChunks.induct space write with
  | case1 gpa len failed =>
    rw [mapChunks_none failed, mapChunks_none]
    rw [layout.memMapChunk_perm perm, failed]
  | case2 gpa len hva chunk mapped ih =>
    have moved := (layout.memMapChunk_perm perm gpa len write).trans mapped
    rw [mapChunks_some mapped, mapChunks_some moved, ih]

end

/-! ### The contract -/

/-- Translation covers exactly RAM. A walk by chunks ends, and reaches the end of the span exactly
if every byte lies in a region that permits the access; then it visits every byte once and in order,
each at its own place. A range is mapped exactly if it is not empty and lies in one such region. The
order of the regions does not matter.
-/
theorem guest_translation_exact {space : MemSpace} (layout : space.Layout) (write : Bool)
    (gpa len : Nat)
    : ((mapChunks space write gpa len).2 = 0
        ↔ ∀ addr, (Span.mk gpa len).Has addr → space.Grants write addr)
      ∧ ((mapChunks space write gpa len).2 = 0 →
        (visited (mapChunks space write gpa len).1).map Hva.gpa = List.range' gpa len
        ∧ (visited (mapChunks space write gpa len).1).Nodup
        ∧ ∀ byte ∈ visited (mapChunks space write gpa len).1,
          byte.region ∈ space.regions ∧ byte.offset < byte.region.size
          ∧ (write = true → byte.region.isReadonly = false))
      ∧ ((memMapRange space gpa len write).isSome
        ↔ 0 < len ∧ ∃ reg ∈ space.regions, (Span.mk gpa len).Within reg.span
          ∧ (write = true → reg.isReadonly = false))
      ∧ (∀ hva, memMapRange space gpa len write = some hva → hva.gpa = gpa)
      ∧ ∀ other : MemSpace, other.regions.Perm space.regions →
        memMapChunk other gpa len write = memMapChunk space gpa len write
        ∧ mapChunks other write gpa len = mapChunks space write gpa len
        ∧ memMapRange other gpa len write = memMapRange space gpa len write := by
  refine ⟨layout.reaches_iff write gpa len, fun reached => ?_, layout.memMapRange_iff, ?_, ?_⟩
  · have addresses := (visited_gpa space write gpa len).2
    rw [reached] at addresses
    refine ⟨addresses, ?_, visited_inside space write gpa len⟩
    -- no two bytes have the same guest address
    refine List.Nodup.of_map Hva.gpa ?_
    rw [addresses]
    exact List.nodup_range'
  · intro hva mapped
    obtain ⟨-, same, -⟩ := memMapChunk_sound (memMapRange_sound mapped)
    exact same
  · intro other perm
    have chunk := layout.memMapChunk_perm perm gpa len write
    refine ⟨chunk, layout.mapChunks_perm perm write gpa len, ?_⟩
    unfold memMapRange
    rw [chunk]

def splitRam : MemSpace where
  regions := [⟨0x2000, 0x1000, memReadonly⟩, ⟨0x1000, 0x1000, 0⟩]
  totalRam := 0x2000
  hostPageSize := 0x1000

/-- A span over both can be read, and cannot be mapped as one range. -/
theorem guest_translation_split
    : (mapChunks splitRam false 0x1ff0 0x20).2 = 0
      ∧ (memMapRange splitRam 0x1ff0 0x20 false).isSome = false := by
  have layout : splitRam.Layout := by
    refine ⟨by decide, ?_⟩
    refine List.pairwise_pair.mpr ?_
    intro addr has other
    simp only [MemRegion.span, Span.Has] at has other
    omega
  refine ⟨(guest_translation_exact layout false 0x1ff0 0x20).1.mpr ?_, by decide⟩
  rintro addr ⟨low, high⟩
  dsimp only at low high
  by_cases first : addr < 0x2000
  · exact ⟨⟨0x1000, 0x1000, 0⟩, by decide, ⟨by change 0x1000 ≤ addr; omega, first⟩, by simp⟩
  · exact ⟨⟨0x2000, 0x1000, memReadonly⟩, by decide,
      ⟨by change 0x2000 ≤ addr; omega, by change addr < 0x3000; omega⟩, by simp⟩

end Modvm.Core
