import Modvm.Core.Memory
import Modvm.Lib.Rows

/-! The E820 map that the Linux loader builds: an insertion sort inside a page with other fields. -/

namespace Modvm.Loader

open Modvm.Core Modvm.Lib

/-! ### Model -/

def memReserved : BitVec 32 := 4#32

def e2bigResult : Int := -7

def vmE820Ram : Nat := 1

def vmE820Reserved : Nat := 2

def bootParamE820Entries : Nat := 0x1e8

/-- The table at `BOOT_PARAM_E820_TABLE`, of packed `struct e820_entry`. -/
def bootParamE820Table : Table := ⟨0x2d0, 20⟩

def e820Max : Nat := 128

structure E820Entry where
  addr : Nat
  size : Nat
  type : Nat
deriving DecidableEq, Repr

namespace E820Entry

def encode (entry : E820Entry) : List Byte :=
  toLe 8 entry.addr ++ (toLe 8 entry.size ++ toLe 4 entry.type)

def decode (row : List Byte) : E820Entry where
  addr := leNat (row.take 8)
  size := leNat ((row.drop 8).take 8)
  type := leNat (row.drop 16)

def ofRegion (region : MemRegion) : E820Entry where
  addr := region.gpa
  size := region.size
  type := if region.flags &&& (memReserved ||| memReadonly) ≠ 0 then vmE820Reserved else vmE820Ram

end E820Entry

/-- The loop that makes room for an entry, from behind the last one: the index of the free place. -/
def e820Shift (addr : Nat) (page : Nat → Byte) : Nat → (Nat → Byte) × Nat
  | 0 => (page, 0)
  | index + 1 =>
      if (E820Entry.decode (bootParamE820Table.row page index)).addr > addr then
        e820Shift addr
          (bootParamE820Table.setRow page (index + 1) (bootParamE820Table.row page index)) index
      else (page, index + 1)

def e820Insert (page : Nat → Byte) (count : Nat) (region : MemRegion) : Nat → Byte :=
  let shifted := e820Shift region.gpa page count
  bootParamE820Table.setRow shifted.1 shifted.2 (E820Entry.ofRegion region).encode

/-- The loop over the regions; `none` if the table is full. -/
def e820Fill (count : Nat) (page : Nat → Byte) : List MemRegion → Option Nat × (Nat → Byte)
  | [] => (some count, page)
  | region :: rest =>
      if count = e820Max then (none, page)
      else e820Fill (count + 1) (e820Insert page count region) rest

def linuxX86E820TableBuild (space : MemSpace) (zeroPage : Nat → Byte) : Int × (Nat → Byte) :=
  match e820Fill 0 zeroPage space.regions with
  | (none, page) => (e2bigResult, page)
  | (some count, page) => (0, writeBytes page bootParamE820Entries [BitVec.ofNat 8 count])

def e820Entries (page : Nat → Byte) (count : Nat) : List E820Entry :=
  (bootParamE820Table.rows page count).map E820Entry.decode

/-! ### Entries as bytes -/

@[simp]
theorem encode_length (entry : E820Entry)
    : entry.encode.length = bootParamE820Table.width := by
  simp [E820Entry.encode, bootParamE820Table]

theorem decode_encode {entry : E820Entry} (addr : entry.addr < 2 ^ 64) (size : entry.size < 2 ^ 64)
    (type : entry.type < 2 ^ 32)
    : E820Entry.decode entry.encode = entry := by
  have first : entry.encode.take 8 = toLe 8 entry.addr := by
    rw [E820Entry.encode, List.take_left' (toLe_length ..)]
  have rest : entry.encode.drop 8 = toLe 8 entry.size ++ toLe 4 entry.type := by
    rw [E820Entry.encode, List.drop_left' (toLe_length ..)]
  have last : entry.encode.drop 16 = toLe 4 entry.type := by
    rw [show (16 : Nat) = 8 + 8 from rfl, ← List.drop_drop, rest,
      List.drop_left' (toLe_length ..)]
  have wide : (256 : Nat) ^ 8 = 2 ^ 64 := by decide
  have narrow : (256 : Nat) ^ 4 = 2 ^ 32 := by decide
  unfold E820Entry.decode
  rw [first, rest, last, List.take_left' (toLe_length ..), leNat_toLe, leNat_toLe, leNat_toLe,
    wide, narrow, Nat.mod_eq_of_lt addr, Nat.mod_eq_of_lt size, Nat.mod_eq_of_lt type]

theorem ofRegion_type (region : MemRegion)
    : (E820Entry.ofRegion region).type < 2 ^ 32 := by
  unfold E820Entry.ofRegion
  dsimp only
  split <;> decide

theorem decode_addr {region : MemRegion} (bounded : region.gpa + region.size ≤ uint64Max)
    : E820Entry.decode (E820Entry.ofRegion region).encode = E820Entry.ofRegion region := by
  unfold uint64Max at bounded
  have gpa : (E820Entry.ofRegion region).addr = region.gpa := rfl
  have size : (E820Entry.ofRegion region).size = region.size := rfl
  exact decode_encode (by omega) (by omega) (ofRegion_type region)

/-! ### One insertion -/

/-- A free place, rows below it unchanged, those behind it one further. -/
structure Shifted (addr : Nat) (page : Nat → Byte) (count : Nat) (result : (Nat → Byte) × Nat)
    : Prop where
  bounded : result.2 ≤ count
  below : ∀ j < result.2, bootParamE820Table.row result.1 j = bootParamE820Table.row page j
  moved : ∀ j, result.2 ≤ j → j < count →
    bootParamE820Table.row result.1 (j + 1) = bootParamE820Table.row page j
  above : ∀ j, count < j → bootParamE820Table.row result.1 j = bootParamE820Table.row page j
  greater : ∀ j, result.2 ≤ j → j < count →
    addr < (E820Entry.decode (bootParamE820Table.row page j)).addr
  stopped : ∀ j, result.2 = j + 1 →
    (E820Entry.decode (bootParamE820Table.row page j)).addr ≤ addr
  outside : ∀ address, ¬ (bootParamE820Table.span (count + 1)).Has address →
    result.1 address = page address

theorem e820Shift_shifted (addr : Nat) (page : Nat → Byte) (count : Nat)
    : Shifted addr page count (e820Shift addr page count) := by
  induction count generalizing page with
  | zero =>
    refine ⟨Nat.le_refl _, fun _ _ => rfl, ?_, fun _ _ => rfl, ?_, nofun, fun _ _ => rfl⟩
    · intro j _ none
      exact absurd none (Nat.not_lt_zero j)
    · intro j _ none
      exact absurd none (Nat.not_lt_zero j)
  | succ index ih =>
    rw [e820Shift]
    split
    next larger =>
      -- the last row is copied to the free place, and the loop goes on below it
      let last := bootParamE820Table.row page index
      let next := bootParamE820Table.setRow page (index + 1) last
      have fits : last.length = bootParamE820Table.width := Table.row_length page index
      have copy : bootParamE820Table.row next (index + 1) = last :=
        Table.row_setRow_self fits (index + 1)
      have kept {j : Nat} (other : j ≠ index + 1)
          : bootParamE820Table.row next j = bootParamE820Table.row page j :=
        Table.row_setRow_of_ne fits other
      change Shifted addr page (index + 1) (e820Shift addr next index)
      obtain ⟨bounded, below, moved, above, greater, stopped, outside⟩ := ih next
      refine ⟨by omega, ?_, ?_, ?_, ?_, ?_, ?_⟩
      · intro j before
        rw [below j before, kept (by omega)]
      · intro j behind inside
        rcases Nat.lt_or_eq_of_le (Nat.le_of_lt_succ inside) with lower | rfl
        · rw [moved j behind lower, kept (by omega)]
        · rw [above (j + 1) (Nat.lt_succ_self j), copy]
      · intro j beyond
        rw [above j (by omega), kept (by omega)]
      · intro j behind inside
        rcases Nat.lt_or_eq_of_le (Nat.le_of_lt_succ inside) with lower | rfl
        · rw [← kept (by omega : j ≠ index + 1)]
          exact greater j behind lower
        · exact larger
      · intro j here
        rw [← kept (by omega : j ≠ index + 1)]
        exact stopped j here
      · intro address away
        rw [outside address (Table.not_has_of_le (by omega) away)]
        exact Table.setRow_outside fits (by omega) away
    next smaller =>
      refine ⟨Nat.le_refl _, fun _ _ => rfl, ?_, fun _ _ => rfl, ?_, ?_, fun _ _ => rfl⟩
      · omega
      · omega
      · rintro j same
        obtain rfl := Nat.succ.inj same
        exact Nat.le_of_not_lt smaller

variable (page : Nat → Byte) (count : Nat) (region : MemRegion)

theorem e820Insert_rows
    : ∃ low high, bootParamE820Table.rows page count = low ++ high
      ∧ bootParamE820Table.rows (e820Insert page count region) (count + 1)
        = low ++ (E820Entry.ofRegion region).encode :: high
      ∧ (∀ row ∈ low.getLast?, (E820Entry.decode row).addr ≤ region.gpa)
      ∧ ∀ row ∈ high, region.gpa < (E820Entry.decode row).addr := by
  obtain ⟨bounded, below, moved, -, greater, stopped, -⟩ :=
    e820Shift_shifted region.gpa page count
  generalize shift : e820Shift region.gpa page count = result at *
  obtain ⟨next, index⟩ := result
  have fits := encode_length (E820Entry.ofRegion region)
  refine ⟨(bootParamE820Table.rows page count).take index,
    (bootParamE820Table.rows page count).drop index, (List.take_append_drop ..).symm, ?_, ?_, ?_⟩
  · unfold e820Insert
    rw [shift]
    refine Table.rows_insert bounded (fun j before => ?_) (Table.row_setRow_self fits index)
      fun j behind inside => ?_
    · rw [Table.row_setRow_of_ne fits (by omega), below j before]
    · rw [Table.row_setRow_of_ne fits (by omega), moved j behind inside]
  · intro row last
    cases index with
    | zero => cases last
    | succ j =>
      have here : row = bootParamE820Table.row page j := by
        rw [Option.mem_def, List.getLast?_eq_getElem?, List.length_take, Table.rows_length,
          Nat.min_eq_left bounded, Nat.add_sub_cancel,
          List.getElem?_take_of_lt (Nat.lt_succ_self j)] at last
        simpa [Table.rows, Nat.lt_of_succ_le bounded, eq_comm] using last
      rw [here]
      exact stopped j rfl
  · intro row member
    obtain ⟨j, inside, rfl⟩ := List.getElem_of_mem member
    rw [List.length_drop, Table.rows_length] at inside
    simp only [Table.rows, List.getElem_drop, List.getElem_map, List.getElem_range]
    exact greater (index + j) (by omega) (by omega)

theorem e820Insert_outside {address : Nat}
    (outside : ¬ (bootParamE820Table.span (count + 1)).Has address)
    : e820Insert page count region address = page address := by
  have shifted := e820Shift_shifted region.gpa page count
  unfold e820Insert
  rw [Table.setRow_outside (encode_length _) (Nat.lt_succ_of_le shifted.bounded) outside]
  exact shifted.outside address outside

/-! ### The whole table -/

/-- The first rows are the regions in the order of their addresses. -/
def Sorted (page : Nat → Byte) (regions : List MemRegion) : Prop :=
  ∃ sorted : List MemRegion, sorted.Perm regions
    ∧ sorted.Pairwise (fun left right => left.gpa < right.gpa)
    ∧ bootParamE820Table.rows page regions.length
      = sorted.map fun region => (E820Entry.ofRegion region).encode

variable {regions : List MemRegion} {space : MemSpace}

theorem Sorted.insert {page : Nat → Byte} (sorted : Sorted page regions)
    (bounded : ∀ reg ∈ regions, reg.gpa + reg.size ≤ uint64Max) {region : MemRegion}
    (new : ∀ reg ∈ regions, reg.gpa ≠ region.gpa)
    : Sorted (e820Insert page regions.length region) (regions ++ [region]) := by
  obtain ⟨order, perm, increasing, rows⟩ := sorted
  obtain ⟨low, high, split, inserted, last, greater⟩ :=
    e820Insert_rows page regions.length region
  -- the rows below and behind the place are those of two parts of the list
  obtain ⟨before, behind, rfl, rfl, rfl⟩ := List.map_eq_append_iff.mp (rows.symm.trans split)
  obtain ⟨firstSorted, lastSorted, across⟩ := List.pairwise_append.mp increasing
  have registered {reg : MemRegion} (member : reg ∈ before ++ behind) : reg ∈ regions :=
    perm.mem_iff.mp member
  have address {reg : MemRegion} (member : reg ∈ before ++ behind)
      : (E820Entry.decode (E820Entry.ofRegion reg).encode).addr = reg.gpa := by
    rw [decode_addr (bounded reg (registered member))]
    rfl
  have higher : ∀ reg ∈ behind, region.gpa < reg.gpa := by
    intro reg member
    have above := greater _ (List.mem_map_of_mem member)
    rwa [address (List.mem_append_right _ member)] at above
  have lower : ∀ reg ∈ before, reg.gpa < region.gpa := by
    rcases List.eq_nil_or_concat before with rfl | ⟨others, final, ends⟩
    · nofun
    · rw [List.concat_eq_append] at ends
      subst ends
      have place : final ∈ others ++ [final] := by simp
      have ends := last (E820Entry.ofRegion final).encode (by simp)
      rw [address (List.mem_append_left _ place)] at ends
      have below : final.gpa < region.gpa := Nat.lt_of_le_of_ne ends
        (new final (registered (List.mem_append_left _ place)))
      intro reg member
      rcases List.mem_append.mp member with other | here
      · have ordered := (List.pairwise_append.mp firstSorted).2.2 reg other final (by simp)
        exact ordered.trans below
      · rwa [List.mem_singleton.mp here]
  refine ⟨before ++ region :: behind, ?_, ?_, ?_⟩
  · refine List.perm_middle.trans ((perm.cons region).trans ?_)
    exact (List.perm_append_singleton region regions).symm
  · refine List.pairwise_append.mpr ⟨firstSorted, List.pairwise_cons.mpr ⟨higher, lastSorted⟩, ?_⟩
    intro left leftMember right rightMember
    rcases List.mem_cons.mp rightMember with rfl | member
    · exact lower left leftMember
    · exact across left leftMember right member
  · rw [List.length_append, List.length_singleton, inserted]
    simp

/-- The loop over the regions fills the table in order, or stops when it is full, by induction. -/
theorem e820Fill_spec {page : Nat → Byte} {done rest : List MemRegion} (sorted : Sorted page done)
    (bounded : ∀ reg ∈ done ++ rest, reg.gpa + reg.size ≤ uint64Max)
    (distinct : (done ++ rest).Pairwise fun left right => left.gpa ≠ right.gpa)
    (room : done.length ≤ e820Max)
    : ((done ++ rest).length ≤ e820Max →
        (e820Fill done.length page rest).1 = some (done ++ rest).length
        ∧ Sorted (e820Fill done.length page rest).2 (done ++ rest))
      ∧ (e820Max < (done ++ rest).length → (e820Fill done.length page rest).1 = none) := by
  induction rest generalizing page done with
  | nil =>
    rw [List.append_nil]
    exact ⟨fun _ => ⟨rfl, sorted⟩, fun larger => absurd room (Nat.not_le.mpr larger)⟩
  | cons region rest ih =>
    rw [e820Fill]
    by_cases full : done.length = e820Max
    · rw [if_pos full]
      refine ⟨fun fits => ?_, fun _ => rfl⟩
      simp only [List.length_append, List.length_cons] at fits
      omega
    · rw [if_neg full]
      have new : ∀ reg ∈ done, reg.gpa ≠ region.gpa := fun reg member =>
        (List.pairwise_append.mp distinct).2.2 reg member region List.mem_cons_self
      have next := sorted.insert
        (fun reg member => bounded reg (List.mem_append_left _ member)) new
      have same : done ++ region :: rest = (done ++ [region]) ++ rest := by simp
      have length : (done ++ [region]).length = done.length + 1 := by simp
      rw [same] at bounded distinct ⊢
      rw [← length]
      exact ih next bounded distinct (by omega)

theorem e820Fill_fits {count : Nat} {rest : List MemRegion} (room : count + rest.length ≤ e820Max)
    : (e820Fill count page rest).1 = some (count + rest.length) := by
  induction rest generalizing count page with
  | nil => rfl
  | cons region rest ih =>
    rw [List.length_cons] at room ⊢
    rw [e820Fill, if_neg (by omega), ih _ (by omega)]
    congr 1
    omega

theorem e820Fill_outside {count : Nat} (room : count ≤ e820Max) (page : Nat → Byte)
    (rest : List MemRegion) {n address : Nat} (wide : min (count + rest.length) e820Max ≤ n)
    (outside : ¬ (bootParamE820Table.span n).Has address)
    : (e820Fill count page rest).2 address = page address := by
  induction rest generalizing count page with
  | nil => rfl
  | cons region rest ih =>
    rw [List.length_cons] at wide
    rw [e820Fill]
    by_cases full : count = e820Max
    · rw [if_pos full]
    · rw [if_neg full, ih (by omega) _ (by omega)]
      refine e820Insert_outside page count region (Table.not_has_of_le ?_ outside)
      omega

/-! ### The contract -/

theorem distinct_gpa (formed : space.WellFormed)
    : space.regions.Pairwise fun left right => left.gpa ≠ right.gpa := by
  refine List.Pairwise.imp_of_mem ?_ formed.apart
  intro left right leftMember rightMember apart same
  have leftSize := formed.nonempty left leftMember
  have rightSize := formed.nonempty right rightMember
  simp only [Span.Apart, MemRegion.span] at apart
  omega

theorem sorted_unique {left right : List MemRegion} (perm : left.Perm right)
    (leftSorted : left.Pairwise fun a b => a.gpa < b.gpa)
    (rightSorted : right.Pairwise fun a b => a.gpa < b.gpa)
    : left = right := by
  refine perm.eq_of_pairwise ?_ leftSorted rightSorted
  intro a b _ _ below above
  exact absurd below (Nat.lt_asymm above)

theorem rows_count (bytes : List Byte) (one : bytes.length = 1)
    : bootParamE820Table.rows (writeBytes page bootParamE820Entries bytes) count
      = bootParamE820Table.rows page count := by
  refine List.map_congr_left fun i _ => readBytes_writeBytes_apart page (.inr ?_)
  simp only [bootParamE820Entries, Table.place, bootParamE820Table]
  omega

theorem fill_sorted (formed : space.WellFormed) (zeroPage : Nat → Byte)
    (perm : regions.Perm space.regions)
    : (regions.length ≤ e820Max →
        (e820Fill 0 zeroPage regions).1 = some regions.length
        ∧ Sorted (e820Fill 0 zeroPage regions).2 regions)
      ∧ (e820Max < regions.length → (e820Fill 0 zeroPage regions).1 = none) := by
  have bounded : ∀ reg ∈ [] ++ regions, reg.gpa + reg.size ≤ uint64Max := fun reg member =>
    formed.bounded reg (perm.mem_iff.mp member)
  have distinct : List.Pairwise (fun left right => left.gpa ≠ right.gpa) ([] ++ regions) :=
    (perm.pairwise_iff fun different => different.symm).mpr (distinct_gpa formed)
  exact e820Fill_spec ⟨[], .nil, .nil, rfl⟩ bounded distinct (Nat.zero_le _)

theorem fill_perm (formed : space.WellFormed) (zeroPage : Nat → Byte)
    (perm : regions.Perm space.regions) (fits : space.regions.length ≤ e820Max)
    : e820Fill 0 zeroPage regions = e820Fill 0 zeroPage space.regions := by
  obtain ⟨count, order, orderPerm, increasing, rows⟩ :=
    (fill_sorted formed zeroPage (List.Perm.refl _)).1 fits
  obtain ⟨otherCount, other, otherPerm, otherIncreasing, otherRows⟩ :=
    (fill_sorted formed zeroPage perm).1 (perm.length_eq ▸ fits)
  have same : other = order :=
    sorted_unique (otherPerm.trans (perm.trans orderPerm.symm)) otherIncreasing increasing
  refine Prod.ext (by rw [count, otherCount, perm.length_eq]) ?_
  refine Table.eq_of_rows (t := bootParamE820Table) (n := space.regions.length) ?_
    fun address outside => ?_
  · rw [rows, ← perm.length_eq, otherRows, same]
  · rw [e820Fill_outside (Nat.zero_le _) _ _ (by rw [perm.length_eq]; omega) outside,
      e820Fill_outside (Nat.zero_le _) _ _ (by omega) outside]

theorem Sorted.entries (formed : space.WellFormed) {page : Nat → Byte}
    (sorted : Sorted page space.regions)
    : (e820Entries page space.regions.length).Perm (space.regions.map E820Entry.ofRegion)
      ∧ (e820Entries page space.regions.length).Pairwise
        (fun left right => left.addr < right.addr)
      ∧ (e820Entries page space.regions.length).Pairwise
        (fun left right => left.addr + left.size ≤ right.addr) := by
  obtain ⟨order, perm, increasing, rows⟩ := sorted
  have decoded : e820Entries page space.regions.length = order.map E820Entry.ofRegion := by
    rw [e820Entries, rows, List.map_map]
    refine List.map_congr_left fun reg member => ?_
    exact decode_addr (formed.bounded reg (perm.mem_iff.mp member))
  rw [decoded]
  refine ⟨perm.map _, List.pairwise_map.mpr increasing, List.pairwise_map.mpr ?_⟩
  refine List.Pairwise.imp_of_mem ?_ increasing
  intro left right leftMember rightMember below
  have apart := Span.apart_of_pairwise formed.apart (perm.mem_iff.mp leftMember)
    (perm.mem_iff.mp rightMember) (by rintro rfl; exact Nat.lt_irrefl _ below)
  simp only [Span.Apart, MemRegion.span] at apart
  change left.gpa + left.size ≤ right.gpa
  omega

/-- The E820 map is a faithful sorted image of the RAM map. It is built exactly if there are at most
128 regions; then the entries are those of the regions, strictly rising and without overlap, and the
page is the same for every order of registration. Only the count and the table are written.
-/
theorem e820_table_sorted {space : MemSpace} (formed : space.WellFormed) (zeroPage : Nat → Byte)
    : ((linuxX86E820TableBuild space zeroPage).1 = 0 ↔ space.regions.length ≤ 128)
      ∧ (space.regions.length ≤ 128 →
        let page := (linuxX86E820TableBuild space zeroPage).2
        let entries := e820Entries page space.regions.length
        (page 0x1e8).toNat = space.regions.length
        ∧ entries.Perm (space.regions.map fun region =>
            ⟨region.gpa, region.size,
              if region.flags &&& (memReserved ||| memReadonly) ≠ 0 then 2 else 1⟩)
        ∧ entries.Pairwise (fun left right => left.addr < right.addr)
        ∧ entries.Pairwise (fun left right => left.addr + left.size ≤ right.addr)
        ∧ ∀ other : MemSpace, other.regions.Perm space.regions →
          linuxX86E820TableBuild other zeroPage = linuxX86E820TableBuild space zeroPage)
      ∧ ∀ address, address ≠ 0x1e8 → ¬ (Span.mk 0x2d0 (20 * 128)).Has address →
        (linuxX86E820TableBuild space zeroPage).2 address = zeroPage address := by
  have outside : ∀ address, ¬ (Span.mk 0x2d0 (20 * 128)).Has address →
      (e820Fill 0 zeroPage space.regions).2 address = zeroPage address := fun address away =>
    e820Fill_outside (Nat.zero_le _) _ _ (Nat.min_le_right _ _) away
  obtain ⟨fits, overflows⟩ := fill_sorted formed zeroPage (List.Perm.refl _)
  by_cases few : space.regions.length ≤ 128
  · obtain ⟨count, sorted⟩ := fits few
    have result : linuxX86E820TableBuild space zeroPage
        = (0, writeBytes (e820Fill 0 zeroPage space.regions).2 bootParamE820Entries
          [BitVec.ofNat 8 space.regions.length]) := by
      unfold linuxX86E820TableBuild
      generalize e820Fill 0 zeroPage space.regions = filled at count ⊢
      obtain ⟨n, page⟩ := filled
      obtain rfl : n = some space.regions.length := count
      rfl
    rw [result]
    obtain ⟨perm, increasing, apart⟩ := sorted.entries formed
    have entries : e820Entries (writeBytes (e820Fill 0 zeroPage space.regions).2
          bootParamE820Entries [BitVec.ofNat 8 space.regions.length]) space.regions.length
        = e820Entries (e820Fill 0 zeroPage space.regions).2 space.regions.length := by
      rw [e820Entries, rows_count _ _ _ rfl, e820Entries]
    refine ⟨iff_of_true rfl few, fun _ => ?_, fun address other away => ?_⟩
    · dsimp only
      rw [entries]
      refine ⟨?_, perm, increasing, apart, fun reordered same => ?_⟩
      · simp [writeBytes, bootParamE820Entries]
        omega
      · unfold linuxX86E820TableBuild at result ⊢
        rw [fill_perm formed zeroPage same few, result]
    · dsimp only
      rw [writeBytes_outside]
      · exact outside address away
      · rintro ⟨low, high⟩
        simp only [bootParamE820Entries, List.length_singleton] at low high
        omega
  · have result : (linuxX86E820TableBuild space zeroPage)
        = (e2bigResult, (e820Fill 0 zeroPage space.regions).2) := by
      unfold linuxX86E820TableBuild
      have none := overflows (Nat.lt_of_not_le few)
      generalize e820Fill 0 zeroPage space.regions = filled at none ⊢
      obtain ⟨n, page⟩ := filled
      obtain rfl : n = Option.none := none
      rfl
    rw [result]
    have failed : e2bigResult ≠ 0 := by decide
    refine ⟨iff_of_false failed few, fun fits => absurd fits few, fun address _ away => ?_⟩
    exact outside address away

/-- Three regions registered out of order, one of them reserved. -/
theorem e820_table_three
    : let space : MemSpace :=
        ⟨[⟨0x100000, 0x1000, 0⟩, ⟨0xf0000, 0x10000, memReserved⟩, ⟨0, 0xa0000, 0⟩], 0xb1000, 4096⟩
      (linuxX86E820TableBuild space fun _ => 0).1 = 0
      ∧ (e820Entries (linuxX86E820TableBuild space fun _ => 0).2 3).Perm
          [⟨0x100000, 0x1000, 1⟩, ⟨0xf0000, 0x10000, 2⟩, ⟨0, 0xa0000, 1⟩]
      ∧ e820Entries (linuxX86E820TableBuild space fun _ => 0).2 3
        = [⟨0, 0xa0000, 1⟩, ⟨0xf0000, 0x10000, 2⟩, ⟨0x100000, 0x1000, 1⟩]
      ∧ ∀ other : MemSpace, other.regions.Perm space.regions →
        linuxX86E820TableBuild other (fun _ => 0) = linuxX86E820TableBuild space fun _ => 0 := by
  have formed : MemSpace.WellFormed
      ⟨[⟨0x100000, 0x1000, 0⟩, ⟨0xf0000, 0x10000, memReserved⟩, ⟨0, 0xa0000, 0⟩], 0xb1000, 4096⟩ :=
    ⟨by decide, by decide, by decide, by decide⟩
  obtain ⟨built, sorted, -⟩ := e820_table_sorted formed fun _ => 0
  obtain ⟨-, entries, -, -, anyOrder⟩ := sorted (by decide)
  exact ⟨built.mpr (by decide), entries, by decide +kernel, anyOrder⟩

end Modvm.Loader
