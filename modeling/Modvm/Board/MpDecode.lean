import Mathlib.Algebra.BigOperators.Group.List.Basic
import Modvm.Board.MpRoutes
import Modvm.Lib.Scatter

/-! The MP table as a guest reads it. -/

namespace Modvm.Board

open Modvm.Core Modvm.Hw Modvm.Lib

/-! ### Decoding -/

/-- The size of an entry, by its type. -/
def mpEntrySize (type : Byte) : Option Nat :=
  if type = 0 then some 20 else if type.toNat ≤ 4 then some 8 else none

def text (bytes : List Byte) : String := .ofList (bytes.map fun byte => .ofNat byte.toNat)

/-- The entry in the bytes of its size. -/
def MpEntry.decode (bytes : List Byte) : Option MpEntry :=
  match bytes with
  | type :: first :: rest =>
      if type = 0 then
        some (.cpu ⟨first, rest.getD 0 0, rest.getD 1 0, leNat ((rest.drop 2).take 4),
          leNat ((rest.drop 6).take 4)⟩)
      else if type = 1 then some (.bus ⟨first, text rest⟩)
      else if type = 2 then
        some (.ioapic ⟨first, rest.getD 0 0, rest.getD 1 0, leNat ((rest.drop 2).take 4)⟩)
      else if type.toNat ≤ 4 then
        some (.irq ⟨type, first, .ofNat 16 (leNat (rest.take 2)), rest.getD 2 0, rest.getD 3 0,
          rest.getD 4 0, rest.getD 5 0⟩)
      else none
  | _ => none

/-- A walk over a number of entries: what they are, and where the last one ends. -/
def mpWalk (memory : Nat → Byte) (address : Nat) : Nat → Option (List MpEntry × Nat)
  | 0 => some ([], address)
  | count + 1 =>
      match mpEntrySize (memory address) with
      | none => none
      | some size =>
          match MpEntry.decode (readBytes memory address size) with
          | none => none
          | some entry =>
              (mpWalk memory (address + size) count).map fun (rest, finish) =>
                (entry :: rest, finish)

/-- An entry whose fields fit in their bytes. -/
def MpEntry.Fits : MpEntry → Prop
  | .cpu entry => entry.signature < 2 ^ 32 ∧ entry.features < 2 ^ 32
  | .bus entry => (ascii entry.name).length = 6 ∧ text (ascii entry.name) = entry.name
  | .ioapic entry => entry.address < 2 ^ 32
  | .irq entry => entry.type = 3 ∨ entry.type = 4

def MpEntry.size : MpEntry → Nat
  | .cpu _ => 20
  | _ => 8

theorem leNat_toLe_four {value : Nat} (small : value < 2 ^ 32)
    : leNat (toLe 4 value) = value := by
  rw [leNat_toLe]
  exact Nat.mod_eq_of_lt small

theorem leNat_toLe_two (value : BitVec 16)
    : BitVec.ofNat 16 (leNat (toLe 2 value.toNat)) = value := by
  rw [leNat_toLe]
  exact BitVec.eq_of_toNat_eq (by simp [Nat.mod_eq_of_lt value.isLt])

theorem MpEntry.Fits.decode {entry : MpEntry} (fits : entry.Fits)
    : MpEntry.decode entry.encode = some entry := by
  cases entry with
  | cpu entry =>
    obtain ⟨id, version, flags, signature, features⟩ := entry
    have first := leNat_toLe_four fits.1
    have second := leNat_toLe_four fits.2
    simpa [MpEntry.decode, MpEntry.encode] using ⟨first, second⟩
  | bus => simp [MpEntry.decode, MpEntry.encode, fits.2]
  | ioapic entry =>
    obtain ⟨id, version, flags, address⟩ := entry
    have back := leNat_toLe_four fits
    simpa [MpEntry.decode, MpEntry.encode, toLe] using back
  | irq entry =>
    have flags := leNat_toLe_two entry.flags
    obtain ⟨type, interruptType, flagBits, bus, source, destination, pin⟩ := entry
    rcases fits with same | same
    · obtain rfl : type = 3 := same
      simpa [MpEntry.decode, MpEntry.encode] using flags
    · obtain rfl : type = 4 := same
      simpa [MpEntry.decode, MpEntry.encode] using flags

theorem MpEntry.Fits.size {entry : MpEntry} (fits : entry.Fits)
    : entry.encode.length = entry.size
      ∧ ∃ rest, ∃ type, entry.encode = type :: rest ∧ mpEntrySize type = some entry.size := by
  cases entry with
  | cpu =>
    exact ⟨by simp [MpEntry.encode, MpEntry.size], _, _, rfl, rfl⟩
  | bus =>
    exact ⟨by simp [MpEntry.encode, MpEntry.size, fits.1], _, _, rfl, rfl⟩
  | ioapic =>
    exact ⟨by simp [MpEntry.encode, MpEntry.size], _, _, rfl, rfl⟩
  | irq =>
    refine ⟨by simp [MpEntry.encode, MpEntry.size], _, _, rfl, ?_⟩
    rcases fits with same | same
    · rw [same]
      rfl
    · rw [same]
      rfl

/-- A walk over encoded entries finds them and ends behind the last one, by induction on them. -/
theorem mpWalk_eq {memory : Nat → Byte} {address : Nat} {entries : List MpEntry}
    (fits : ∀ entry ∈ entries, entry.Fits)
    (stored : readBytes memory address (entries.flatMap MpEntry.encode).length
      = entries.flatMap MpEntry.encode)
    : mpWalk memory address entries.length
      = some (entries, address + (entries.flatMap MpEntry.encode).length) := by
  induction entries generalizing address with
  | nil => rfl
  | cons entry rest ih =>
    obtain ⟨here, later⟩ := List.forall_mem_cons.mp fits
    obtain ⟨length, tail, type, bytes, size⟩ := here.size
    rw [List.flatMap_cons, List.length_append, length, readBytes_add] at stored
    obtain ⟨first, others⟩ := List.append_inj stored (by rw [readBytes_length, length])
    have kind : memory address = type := by
      rw [← length, bytes, List.length_cons, readBytes, List.range_succ_eq_map] at first
      exact (List.cons.inj first).1
    rw [List.length_cons, mpWalk, kind, size]
    dsimp only
    rw [first, here.decode]
    rw [ih later others]
    simp [length, Nat.add_assoc]

/-! ### Sizes and checksums -/

def byteSum (bytes : List Byte) : Nat := (bytes.map BitVec.toNat).sum

theorem checksum_toNat (bytes : List Byte)
    : (byteSum bytes + (checksum bytes).toNat) % 256 = 0 := by
  have fold : ∀ start : Byte, (bytes.foldl (· + ·) start).toNat
      = (start.toNat + byteSum bytes) % 256 := by
    induction bytes with
    | nil =>
      intro start
      exact (Nat.mod_eq_of_lt start.isLt).symm
    | cons byte rest ih =>
      intro start
      rw [List.foldl_cons, ih, BitVec.toNat_add]
      simp only [byteSum, List.map_cons, List.sum_cons]
      omega
  have sum := fold 0
  change (bytes.foldl (· + ·) 0).toNat = (0 + byteSum bytes) % 256 at sum
  rw [checksum, BitVec.toNat_neg]
  omega

@[simp]
theorem byteSum_append (left right : List Byte)
    : byteSum (left ++ right) = byteSum left + byteSum right := by
  simp [byteSum]

theorem byteSum_checksum (bytes : Byte → List Byte) (before after : List Byte)
    (shape : ∀ sum, bytes sum = before ++ sum :: after)
    : byteSum (bytes (checksum (bytes 0))) % 256 = 0 := by
  have zero : (0 : Byte).toNat = 0 := rfl
  have split (sum : Byte) : byteSum (bytes sum) = byteSum (bytes 0) + sum.toNat := by
    rw [shape sum, shape 0, byteSum_append, byteSum_append]
    simp only [byteSum, List.map_cons, List.sum_cons]
    omega
  rw [split]
  exact checksum_toNat (bytes 0)

theorem mpFloat_sum : byteSum (mpFloat (checksum (mpFloat 0))) % 256 = 0 := by
  refine byteSum_checksum mpFloat (ascii "_MP_" ++ toLe 4 (mpBase + 16) ++ [1, 4])
    (List.replicate 5 0) fun sum => ?_
  simp [mpFloat]

theorem mpHeader_sum (length entries : Nat) (body : List Byte)
    : byteSum (mpHeader (checksum (mpHeader 0 length entries ++ body)) length entries ++ body)
      % 256 = 0 := by
  refine byteSum_checksum (fun sum => mpHeader sum length entries ++ body)
    (ascii "PCMP" ++ toLe 2 (44 + length) ++ [4])
    (ascii "MODVM   " ++ ascii "MODVM PC    " ++ toLe 4 0 ++ toLe 2 0 ++ toLe 2 entries
      ++ toLe 4 0xfee00000 ++ toLe 2 0 ++ [0, 0] ++ body) fun sum => ?_
  simp [mpHeader]

@[simp]
theorem mpFloat_length (sum : Byte) : (mpFloat sum).length = 16 := by
  simp [mpFloat, ascii]

@[simp]
theorem mpHeader_length (sum : Byte) (length entries : Nat)
    : (mpHeader sum length entries).length = 44 := by
  simp [mpHeader, ascii]

theorem encoded_length {entries : List MpEntry} (fits : ∀ entry ∈ entries, entry.Fits)
    : (entries.flatMap MpEntry.encode).length = (entries.map MpEntry.size).sum := by
  rw [List.length_flatMap]
  congr 1
  exact List.map_congr_left fun entry member => (fits entry member).size.1

section Entries
variable (nrVcpus : Nat) (devices : List PciDevice)

theorem mpEntries_fits : ∀ entry ∈ mpEntries nrVcpus devices, entry.Fits := by
  intro entry member
  unfold mpEntries at member
  simp only [List.mem_append, List.mem_map, List.mem_cons, List.not_mem_nil, or_false] at member
  rcases member with (((⟨i, -, rfl⟩ | rfl | rfl | rfl) | ⟨route, inside, rfl⟩)
    | ⟨route, inside, rfl⟩) | rfl
  · exact ⟨(by decide : 0x600 < 2 ^ 32), (by decide : 0x201 < 2 ^ 32)⟩
  · exact ⟨by decide, by decide⟩
  · exact ⟨by decide, by decide⟩
  · exact (by decide : 0xfec00000 < 2 ^ 32)
  · rw [(pciRoutes_eq devices).1] at inside
    obtain ⟨dev, -, rfl⟩ := List.mem_map.mp inside
    exact .inl rfl
  · obtain ⟨irq, -, rfl⟩ := List.mem_map.mp inside
    exact .inl rfl
  · exact .inr rfl

theorem mpEntries_size
    : let routes := devices.countP hasPin + (isaRoutes (pciRoutes devices).2).length
      (mpEntries nrVcpus devices).length = nrVcpus + 3 + routes + 1
      ∧ ((mpEntries nrVcpus devices).flatMap MpEntry.encode).length
        = nrVcpus * 20 + (3 + routes + 1) * 8 := by
  have irqs (routes : List MpIrq)
      : ((routes.map MpEntry.irq).map MpEntry.size).sum = routes.length * 8 := by
    rw [List.map_map]
    change (routes.map fun _ => 8).sum = routes.length * 8
    simp
  have cpus : (((List.range nrVcpus).map fun i => MpEntry.cpu (mpCpu i)).map MpEntry.size).sum
      = nrVcpus * 20 := by
    rw [List.map_map]
    change ((List.range nrVcpus).map fun _ => 20).sum = nrVcpus * 20
    simp
  have pci : (pciRoutes devices).1.length = devices.countP hasPin := by
    rw [(pciRoutes_eq devices).1, List.length_map, List.countP_eq_length_filter]
  constructor
  · unfold mpEntries
    simp only [List.length_append, List.length_map, List.length_range, List.length_cons,
      List.length_nil]
    omega
  · rw [encoded_length (mpEntries_fits nrVcpus devices)]
    unfold mpEntries
    simp only [List.map_append, List.sum_append, irqs]
    simp only [List.map_cons, List.map_nil, MpEntry.size, List.sum_cons, List.sum_nil]
    omega

theorem isaRoutes_length (pciIrqs : BitVec 16) : (isaRoutes pciIrqs).length ≤ 16 := by
  unfold isaRoutes
  rw [List.length_map]
  exact (List.length_filter_le ..).trans (List.length_range ..).le

end Entries

/-! ### What the entries say -/

def mpCpus (entries : List MpEntry) : List MpCpu :=
  entries.filterMap fun
    | .cpu entry => some entry
    | _ => none

def mpBuses (entries : List MpEntry) : List MpBus :=
  entries.filterMap fun
    | .bus entry => some entry
    | _ => none

def mpIoapics (entries : List MpEntry) : List MpIoapic :=
  entries.filterMap fun
    | .ioapic entry => some entry
    | _ => none

def mpLocals (entries : List MpEntry) : List MpIrq :=
  entries.filterMap fun
    | .irq route => if route.type = 4 then some route else none
    | _ => none

/-- A table of a machine with some processors and PCI endpoints. -/
structure MpImage (nrVcpus : Nat) (devices : List PciDevice) (entries : List MpEntry)
    : Prop where
  /-- Processors have the ids from 0 on. -/
  processors : (mpCpus entries).map (·.id.toNat) = List.range nrVcpus
  /-- The flag for the bootstrap processor is set for id 0 only. -/
  bootstrap : ∀ cpu ∈ mpCpus entries, cpu.flags.getLsbD 1 = true ↔ cpu.id = 0
  /-- There are a PCI and an ISA bus. -/
  buses : mpBuses entries = [⟨0, "PCI   "⟩, ⟨1, "ISA   "⟩]
  /-- There is one I/O APIC, whose id is none of the processors'. -/
  ioapic : ∃ ioapic, mpIoapics entries = [ioapic] ∧ ∀ cpu ∈ mpCpus entries, cpu.id ≠ ioapic.id
  /-- Every endpoint with a pin has a route, from its slot and pin to its line. -/
  pci : (mpRoutes 0 entries).map (fun route => (route.source.toNat, route.pin))
    = (devices.filter hasPin).map fun dev => (pciSource dev, dev.configSpace pciInterruptLine)
  /-- ISA interrupts that no endpoint uses have a route to the pin of the same number. -/
  isa : (mpRoutes 1 entries).map (fun route => (route.source.toNat, route.pin.toNat))
    = ((List.range 16).filter fun irq =>
        decide (irq ≠ 2 ∧ ∀ route ∈ mpRoutes 0 entries, route.pin.toNat ≠ irq)).map
      fun irq => (irq, irq)
  /-- One entry is for the NMI. -/
  nmi : mpLocals entries = [⟨4, 1, 0, 1, 0, 0xff, 1⟩]
  /-- There is nothing else. -/
  all : entries.length = nrVcpus + 2 + 1 + (mpRoutes 0 entries).length
    + (mpRoutes 1 entries).length + 1

section Image
variable {nrVcpus : Nat} (devices : List PciDevice)

theorem mpCpus_mpEntries : mpCpus (mpEntries nrVcpus devices) = (List.range nrVcpus).map mpCpu := by
  simp [mpCpus, mpEntries]

theorem mpLocals_mpEntries
    : mpLocals (mpEntries nrVcpus devices) = [⟨4, 1, 0, 1, 0, 0xff, 1⟩] := by
  have none {routes : List MpIrq} (global : ∀ route ∈ routes, route.type = 3)
      : mpLocals (routes.map .irq) = [] := by
    refine List.filterMap_eq_nil_iff.mpr fun entry member => ?_
    obtain ⟨route, inside, rfl⟩ := List.mem_map.mp member
    simp [global route inside]
  have pci : mpLocals ((pciRoutes devices).1.map .irq) = [] := by
    refine none fun route member => ?_
    rw [(pciRoutes_eq devices).1] at member
    obtain ⟨dev, -, rfl⟩ := List.mem_map.mp member
    rfl
  have isa : mpLocals ((isaRoutes (pciRoutes devices).2).map .irq) = [] := by
    refine none fun route member => ?_
    obtain ⟨irq, -, rfl⟩ := List.mem_map.mp member
    rfl
  have cpus : mpLocals ((List.range nrVcpus).map fun i => .cpu (mpCpu i)) = [] := by
    simp [mpLocals]
  have append (left right : List MpEntry)
      : mpLocals (left ++ right) = mpLocals left ++ mpLocals right :=
    List.filterMap_append
  unfold mpEntries
  rw [append, append, append, pci, isa]
  simp [mpLocals]

theorem mpEntries_image (range : nrVcpus ≤ mpIoapicId)
    : MpImage nrVcpus devices (mpEntries nrVcpus devices) := by
  have small {i : Nat} (inside : i ∈ List.range nrVcpus) : i < 254 := by
    have := List.mem_range.mp inside
    unfold mpIoapicId pcMaxVcpus at range
    omega
  refine ⟨?_, ?_, ?_, ?_, ?_, ?_, mpLocals_mpEntries devices, ?_⟩
  · rw [mpCpus_mpEntries, List.map_map]
    refine (List.map_congr_left fun i inside => ?_).trans (List.map_id _)
    have := small inside
    simp [mpCpu]
    omega
  · intro cpu member
    rw [mpCpus_mpEntries] at member
    obtain ⟨i, inside, rfl⟩ := List.mem_map.mp member
    have below := small inside
    by_cases first : i = 0
    · rw [first]
      decide
    · refine iff_of_false (by simp [mpCpu, first]) fun same => first ?_
      have number := congrArg BitVec.toNat same
      simp only [mpCpu, BitVec.toNat_ofNat, BitVec.ofNat_eq_ofNat] at number
      omega
  · simp [mpBuses, mpEntries, List.filterMap_append, List.filterMap_map]
  · refine ⟨⟨.ofNat 8 mpIoapicId, 0x11, 1, 0xfec00000⟩, ?_, ?_⟩
    · simp [mpIoapics, mpEntries, List.filterMap_append]
    · intro cpu member same
      rw [mpCpus_mpEntries] at member
      obtain ⟨i, inside, rfl⟩ := List.mem_map.mp member
      have below := small inside
      have number := congrArg BitVec.toNat same
      simp only [mpCpu, mpIoapicId, pcMaxVcpus, BitVec.toNat_ofNat] at number
      omega
  · rw [mpRoutes_pci, List.map_map]
    refine List.map_congr_left fun dev member => ?_
    simp only [Function.comp_apply, pciRoute_source (List.mem_filter.mp member).2]
    rfl
  · rw [mpRoutes_isa, isaRoutes_eq, List.map_map, mpRoutes_pci]
    obtain ⟨routes, used⟩ := pciRoutes_eq devices
    have same : ((List.range 16).filter fun irq =>
          decide (irq ≠ 2) && !(pciRoutes devices).2.getLsbD irq)
        = (List.range 16).filter fun irq => decide (irq ≠ 2
          ∧ ∀ route ∈ (devices.filter hasPin).map pciRoute, route.pin.toNat ≠ irq) := by
      refine List.filter_congr fun irq inside => ?_
      rw [Bool.decide_and]
      congr 1
      refine Bool.eq_iff_iff.mpr ?_
      rw [Bool.not_eq_true', decide_eq_true_iff, ← Bool.not_eq_true, used irq, routes]
      constructor
      · intro free route member same
        exact free ⟨List.mem_range.mp inside, route, member, same⟩
      · rintro free ⟨-, route, member, same⟩
        exact free route member same
    rw [same]
    refine List.map_congr_left fun irq member => ?_
    have below := List.mem_range.mp (List.mem_filter.mp member).1
    simp only [Function.comp_apply, isaRoute, BitVec.toNat_ofNat]
    rw [Nat.mod_eq_of_lt (by omega)]
  · have size := (mpEntries_size nrVcpus devices).1
    rw [mpRoutes_pci, mpRoutes_isa, List.length_map, ← List.countP_eq_length_filter]
    omega

end Image

/-! ### The contract -/

def mpReserved (nrVcpus : Nat) (devices : List PciDevice) : Nat :=
  16 + 44 + nrVcpus * 20 + 2 * 8 + 8 + (devices.countP hasPin + 16 + 1) * 8

variable {m : Machine} {ram after : Nat → Byte} {nrVcpus bus : Nat}

theorem pcBuildMptable_ok (built : pcBuildMptable nrVcpus bus m ram = (.ok (), after))
    : let devices := (m.buses bus).devices.map m.endpoints
      nrVcpus ≤ mpIoapicId
      ∧ mpReserved nrVcpus devices ≤ mpBiosSize
      ∧ after = writeBytes
          (writeBytes ram mpBase (List.replicate (mpReserved nrVcpus devices) 0)) mpBase
          (mpTable (mpEntries nrVcpus devices)) := by
  unfold pcBuildMptable at built
  split at built
  · cases built
  next range =>
    dsimp only at built
    split at built
    · cases built
    next room =>
      split at built
      · cases built
      next fp mapped =>
        obtain ⟨-, place, -⟩ := memMapChunk_sound (memMapRange_sound mapped)
        rw [place] at built
        exact ⟨by omega, Nat.le_of_not_lt room, (Prod.mk.inj built).2.symm⟩

theorem mpTable_length (entries : List MpEntry)
    : (mpTable entries).length = 16 + 44 + (entries.flatMap MpEntry.encode).length := by
  simp only [mpTable, List.length_append, mpFloat_length, mpHeader_length]

theorem mpTable_stored (memory : Nat → Byte) (base : Nat) (entries : List MpEntry)
    : let after := writeBytes memory base (mpTable entries)
      let body := entries.flatMap MpEntry.encode
      byteSum (readBytes after base 16) % 256 = 0
      ∧ byteSum (readBytes after (base + 16) (44 + body.length)) % 256 = 0
      ∧ readBytes after (base + 16 + 44) body.length = body
      ∧ readLe after ⟨base + 16 + 4, 2⟩ = (44 + body.length) % 65536
      ∧ readLe after ⟨base + 16 + 34, 2⟩ = entries.length % 65536 := by
  intro after body
  let float := mpFloat (checksum (mpFloat 0))
  let sum := checksum (mpHeader 0 body.length entries.length ++ body)
  let header := mpHeader sum body.length entries.length
  have stored : readBytes after base (mpTable entries).length = [] ++ (float ++ (header ++ body)) :=
    (readBytes_writeBytes memory base (mpTable entries)).trans (List.append_assoc ..)
  have pointer : readBytes after base 16 = float := by
    simpa [float] using readBytes_middle stored
  have table : readBytes after (base + 16) (44 + body.length) = header ++ body := by
    have inside : readBytes after base (mpTable entries).length
        = float ++ ((header ++ body) ++ []) := by simpa using stored
    simpa [float, header] using readBytes_middle inside
  have rest : readBytes after (base + 16 + 44) body.length = body := by
    have inside : readBytes after (base + 16) (44 + body.length) = header ++ (body ++ []) := by
      simpa using table
    simpa [header] using readBytes_middle inside
  refine ⟨?_, ?_, rest, ?_, ?_⟩
  · rw [pointer]
    exact mpFloat_sum
  · rw [table]
    exact mpHeader_sum body.length entries.length body
  · have inside : readBytes after (base + 16) (44 + body.length)
        = ascii "PCMP" ++ (toLe 2 (44 + body.length) ++ ([4, sum] ++ ascii "MODVM   "
          ++ ascii "MODVM PC    " ++ toLe 4 0 ++ toLe 2 0 ++ toLe 2 entries.length
          ++ toLe 4 0xfee00000 ++ toLe 2 0 ++ [0, 0] ++ body)) := by
      rw [table]
      simp [header, mpHeader]
    have field := readBytes_middle inside
    have place : (ascii "PCMP").length = 4 := by simp [ascii]
    rw [toLe_length, place] at field
    rw [readLe, field, leNat_toLe]
    rfl
  · have inside : readBytes after (base + 16) (44 + body.length)
        = (ascii "PCMP" ++ toLe 2 (44 + body.length) ++ [4, sum] ++ ascii "MODVM   "
          ++ ascii "MODVM PC    " ++ toLe 4 0 ++ toLe 2 0) ++ (toLe 2 entries.length
          ++ (toLe 4 0xfee00000 ++ toLe 2 0 ++ [0, 0] ++ body)) := by
      rw [table]
      simp [header, mpHeader]
    have field := readBytes_middle inside
    have place : (ascii "PCMP" ++ toLe 2 (44 + body.length) ++ [4, sum] ++ ascii "MODVM   "
        ++ ascii "MODVM PC    " ++ toLe 4 0 ++ toLe 2 0).length = 34 := by
      simp [ascii]
    rw [toLe_length, place] at field
    rw [readLe, field, leNat_toLe]
    rfl

/-- The header of a table that was built gives its length and the number of its entries, which stand
behind it. Witness: the table is shorter than 64 KiB, so neither field wraps.
-/
theorem pcBuildMptable_header (built : pcBuildMptable nrVcpus bus m ram = (.ok (), after))
    : let entries := mpEntries nrVcpus ((m.buses bus).devices.map m.endpoints)
      let body := entries.flatMap MpEntry.encode
      16 + 44 + body.length ≤ mpReserved nrVcpus ((m.buses bus).devices.map m.endpoints)
      ∧ readLe after ⟨0xf0000 + 16 + 4, 2⟩ = 44 + body.length
      ∧ readLe after ⟨0xf0000 + 16 + 34, 2⟩ = entries.length
      ∧ readBytes after (0xf0000 + 16 + 44) body.length = body := by
  intro entries body
  obtain ⟨-, room, rfl⟩ := pcBuildMptable_ok built
  obtain ⟨number, bytes⟩ : entries.length = _ ∧ body.length = _ :=
    mpEntries_size nrVcpus ((m.buses bus).devices.map m.endpoints)
  have emitted := isaRoutes_length (pciRoutes ((m.buses bus).devices.map m.endpoints)).2
  obtain ⟨-, -, stored, lengthField, countField⟩ := mpTable_stored
    (writeBytes ram mpBase (List.replicate (mpReserved nrVcpus
      ((m.buses bus).devices.map m.endpoints)) 0)) mpBase entries
  have limit : 16 + 44 + body.length
      ≤ mpReserved nrVcpus ((m.buses bus).devices.map m.endpoints) := by
    rw [mpReserved]
    omega
  unfold mpBiosSize at room
  refine ⟨limit, lengthField.trans (Nat.mod_eq_of_lt ?_), countField.trans (Nat.mod_eq_of_lt ?_),
    stored⟩
  · change 44 + body.length < 65536
    omega
  · omega

/-- A guest that walks the table in its memory finds the entries that were encoded, and ends at the
length in the header.
-/
theorem pcBuildMptable_walk (built : pcBuildMptable nrVcpus bus m ram = (.ok (), after))
    : mpWalk after (0xf0000 + 16 + 44) (readLe after ⟨0xf0000 + 16 + 34, 2⟩)
      = some (mpEntries nrVcpus ((m.buses bus).devices.map m.endpoints),
          0xf0000 + 16 + readLe after ⟨0xf0000 + 16 + 4, 2⟩) := by
  obtain ⟨-, length, count, stored⟩ := pcBuildMptable_header built
  rw [length, count, ← Nat.add_assoc]
  exact mpWalk_eq (mpEntries_fits nrVcpus _) stored

/-- The MP table decodes to what was encoded. A build that succeeds writes only to its reserved
space, at most 64 KiB at 0xf0000; both structures sum to zero; and a walk over the entries ends at
the length in the header and finds the processors, buses, I/O APIC, routes and NMI of the machine.
-/
theorem mp_table_decodes {nrVcpus bus : Nat} {m : Machine} {ram after : Nat → Byte}
    (built : pcBuildMptable nrVcpus bus m ram = (.ok (), after))
    : let devices := (m.buses bus).devices.map m.endpoints
      let length := readLe after ⟨0xf0000 + 16 + 4, 2⟩
      let count := readLe after ⟨0xf0000 + 16 + 34, 2⟩
      mpReserved nrVcpus devices ≤ 0x10000
      ∧ (∀ address, ¬ (Span.mk 0xf0000 (mpReserved nrVcpus devices)).Has address →
        after address = ram address)
      ∧ 16 + length ≤ mpReserved nrVcpus devices
      ∧ byteSum (readBytes after 0xf0000 16) % 256 = 0
      ∧ byteSum (readBytes after (0xf0000 + 16) length) % 256 = 0
      ∧ ∃ entries, mpWalk after (0xf0000 + 16 + 44) count = some (entries, 0xf0000 + 16 + length)
        ∧ MpImage nrVcpus devices entries := by
  intro devices length count
  obtain ⟨range, room, stored⟩ := pcBuildMptable_ok built
  obtain ⟨limit, lengthEq, -⟩ : _ ≤ mpReserved nrVcpus devices ∧ length = _ ∧ _ :=
    pcBuildMptable_header built
  obtain ⟨pointerSum, tableSum, -⟩ := mpTable_stored
    (writeBytes ram mpBase (List.replicate (mpReserved nrVcpus devices) 0)) mpBase
    (mpEntries nrVcpus devices)
  change after = writeBytes (writeBytes ram mpBase
    (List.replicate (mpReserved nrVcpus devices) 0)) mpBase (mpTable (mpEntries nrVcpus devices))
    at stored
  rw [← stored] at pointerSum tableSum
  refine ⟨room, fun address outside => ?_, ?_, pointerSum, ?_, mpEntries nrVcpus devices,
    pcBuildMptable_walk built, mpEntries_image devices range⟩
  · have within : (Span.mk mpBase (mpTable (mpEntries nrVcpus devices)).length).Within
        ⟨0xf0000, mpReserved nrVcpus devices⟩ := by
      rw [mpTable_length]
      exact ⟨Nat.le_refl _, Nat.add_le_add_left limit _⟩
    rw [stored, writeBytes_outside, writeBytes_outside]
    · simpa [mpBase] using outside
    · exact fun has => outside (within.has has)
  · omega
  · rw [lengthEq]
    exact tableSum

def smallBoard : Machine where
  state := .building
  stopRequested := false
  accel := none
  memSpace := ⟨[⟨0, 0x100000, 0⟩], 0x100000, 0x1000⟩
  ioMap := { regions := fun _ => [], nextHandle := 0 }
  devices := fun _ => ⟨true, true, ⟨[], false⟩⟩
  endpoints := fun endpoint =>
    ⟨some 0, some 0, if endpoint = 0 then 8 else 16, if endpoint = 0 then 1 else 0, false, false,
      fun _ => ⟨none, false⟩, fun _ => 11⟩
  buses := fun _ => ⟨[0, 1], some 0, 0, 0⟩

/-- The table for two processors of that machine. -/
theorem mp_table_decodes_small
    : ∃ after entries, pcBuildMptable 2 0 smallBoard (fun _ => 0) = (.ok (), after)
      ∧ MpImage 2 [smallBoard.endpoints 0, smallBoard.endpoints 1] entries := by
  have built : pcBuildMptable 2 0 smallBoard (fun _ => 0)
      = (.ok (), (pcBuildMptable 2 0 smallBoard fun _ => 0).2) := rfl
  obtain ⟨-, -, -, -, -, entries, -, image⟩ := mp_table_decodes built
  exact ⟨_, entries, built, image⟩

end Modvm.Board
