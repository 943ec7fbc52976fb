import Modvm.Lib.ByteMemory

/-! Tables in byte memory: rows of one width, one after another. -/

namespace Modvm.Lib

/-- Where a table lies: its first row starts at `base`, and each row has `width` bytes. -/
structure Table where
  base : Nat
  width : Nat
deriving DecidableEq, Repr

namespace Table

variable (t : Table)

def place (i : Nat) : Nat := t.base + t.width * i

def row (memory : Nat → BitVec 8) (i : Nat) : List (BitVec 8) :=
  readBytes memory (t.place i) t.width

def setRow (memory : Nat → BitVec 8) (i : Nat) (bytes : List (BitVec 8)) : Nat → BitVec 8 :=
  writeBytes memory (t.place i) bytes

def rows (memory : Nat → BitVec 8) (n : Nat) : List (List (BitVec 8)) :=
  (List.range n).map (t.row memory)

def span (n : Nat) : Span := ⟨t.base, t.width * n⟩

variable {t} {memory : Nat → BitVec 8} {bytes : List (BitVec 8)}

@[simp]
theorem row_length (memory : Nat → BitVec 8) (i : Nat)
    : (t.row memory i).length = t.width :=
  readBytes_length ..

@[simp]
theorem rows_length (memory : Nat → BitVec 8) (n : Nat)
    : (t.rows memory n).length = n := by
  simp [rows]

theorem place_le {i j : Nat} (before : i < j)
    : t.place i + t.width ≤ t.place j := by
  have step : t.width * (i + 1) ≤ t.width * j := Nat.mul_le_mul_left _ before
  rw [Nat.mul_succ] at step
  unfold Table.place
  omega

theorem row_apart {i j : Nat} (different : i ≠ j)
    : (Span.mk (t.place i) t.width).Apart ⟨t.place j, t.width⟩ := by
  rcases Nat.lt_or_gt_of_ne different with before | behind
  · exact .inl (place_le before)
  · exact .inr (place_le behind)

theorem row_setRow_self (fits : bytes.length = t.width) (i : Nat)
    : t.row (t.setRow memory i bytes) i = bytes := by
  rw [row, ← fits]
  exact readBytes_writeBytes ..

theorem row_setRow_of_ne (fits : bytes.length = t.width) {i j : Nat} (different : j ≠ i)
    : t.row (t.setRow memory i bytes) j = t.row memory j := by
  refine readBytes_writeBytes_apart memory ?_
  rw [fits]
  exact row_apart different

theorem setRow_outside (fits : bytes.length = t.width) {i n : Nat} (inside : i < n)
    {address : Nat} (outside : ¬ (t.span n).Has address)
    : t.setRow memory i bytes address = memory address := by
  refine writeBytes_outside memory _ bytes fun has => outside ?_
  obtain ⟨low, high⟩ := has
  have last : t.place i + t.width ≤ t.place n := place_le inside
  simp only [Table.place] at low high last
  exact ⟨by simp only [span]; omega, by simp only [span]; omega⟩

theorem not_has_of_le {m n : Nat} (fewer : m ≤ n) {address : Nat}
    (outside : ¬ (t.span n).Has address)
    : ¬ (t.span m).Has address := by
  have shorter : t.width * m ≤ t.width * n := Nat.mul_le_mul_left _ fewer
  exact fun has => outside ⟨has.1, Nat.lt_of_lt_of_le has.2 (Nat.add_le_add_left shorter _)⟩

/-- Two memories that have the same first rows, and the same bytes outside of them, are the same. -/
theorem eq_of_rows {other : Nat → BitVec 8} {n : Nat}
    (same : t.rows memory n = t.rows other n)
    (rest : ∀ address, ¬ (t.span n).Has address → memory address = other address)
    : memory = other := by
  funext address
  by_cases has : (t.span n).Has address
  · obtain ⟨low, high⟩ := has
    simp only [span] at low high
    have positive : 0 < t.width := by
      by_contra zero
      rw [Nat.eq_zero_of_not_pos zero] at high
      omega
    -- the row of the address, and its place in the row
    have shift
        : address = t.place ((address - t.base) / t.width) + (address - t.base) % t.width := by
      have parts := Nat.div_add_mod (address - t.base) t.width
      unfold Table.place
      omega
    have index : (address - t.base) / t.width < n := by
      refine Nat.div_lt_of_lt_mul ?_
      omega
    have inRow := Nat.mod_lt (address - t.base) positive
    have row := List.map_inj_left.mp same _ (List.mem_range.mpr index)
    have byte := List.map_inj_left.mp row _ (List.mem_range.mpr inRow)
    rw [shift]
    exact byte
  · exact rest address has

theorem rows_insert {other : Nat → BitVec 8} {i n : Nat} (inside : i ≤ n)
    (low : ∀ j < i, t.row other j = t.row memory j) (new : t.row other i = bytes)
    (high : ∀ j, i ≤ j → j < n → t.row other (j + 1) = t.row memory j)
    : t.rows other (n + 1)
      = (t.rows memory n).take i ++ bytes :: (t.rows memory n).drop i := by
  refine List.ext_getElem (by simp; omega) fun k bound otherBound => ?_
  simp only [rows, List.getElem_map, List.getElem_range]
  rcases Nat.lt_trichotomy k i with before | rfl | behind
  · rw [List.getElem_append_left (by simp; omega)]
    simp only [List.getElem_take, List.getElem_map, List.getElem_range]
    exact low k before
  · rw [new]
    simp [inside]
  · obtain ⟨d, rfl⟩ : ∃ d, k = i + (d + 1) := ⟨k - i - 1, by omega⟩
    have moved := high (i + d) (by omega) (by simp at bound; omega)
    simpa [inside, Nat.add_assoc] using moved

end Table

end Modvm.Lib
