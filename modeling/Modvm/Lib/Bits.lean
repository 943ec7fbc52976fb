import Mathlib.Data.BitVec
import Mathlib.Order.Bounds.Basic
import Mathlib.Tactic.Common

/-! Single-bit tests, masks, powers of two, and words joined from bytes. -/

namespace Modvm.Lib

theorem and_twoPow_bne_zero {width : Nat} (word : BitVec width) {bit : Nat}
    (within : bit < width)
    : (word &&& BitVec.twoPow width bit != 0) = word.getLsbD bit := by
  rw [BitVec.and_twoPow]
  cases set : word.getLsbD bit with
  | false => simp
  | true =>
    have nonzero : BitVec.twoPow width bit ≠ 0 := by
      intro zero
      have bitSet := congrArg (fun word => word.getLsbD bit) zero
      simp [within] at bitSet
    simpa using nonzero

theorem and_not_mask {width : Nat} (word : BitVec width) (bits : Nat)
    : (word &&& ~~~ BitVec.ofNat width (2 ^ bits - 1)).toNat
      = word.toNat / 2 ^ bits * 2 ^ bits := by
  refine Nat.eq_of_testBit_eq fun i => ?_
  rw [← Nat.shiftRight_eq_div_pow, ← Nat.shiftLeft_eq]
  simp only [BitVec.testBit_toNat, BitVec.getLsbD_and, BitVec.getLsbD_not,
    BitVec.getLsbD_ofNat, Nat.testBit_shiftLeft,
    Nat.testBit_shiftRight]
  by_cases below : i < bits
  · simp [below]
  · have back : bits + (i - bits) = i := by omega
    by_cases inside : i < width
    · simp [below, inside, back]
      omega
    · simp [back, BitVec.getLsbD_of_ge word i (by omega)]

theorem roundUp_isLeast (base : Nat) {size : Nat} (positive : 0 < size)
    : IsLeast {place | size ∣ place ∧ base ≤ place} ((base + size - 1) / size * size) := by
  refine ⟨⟨Nat.dvd_mul_left .., ?_⟩, ?_⟩
  · have close := Nat.lt_div_mul_add (a := base + size - 1) positive
    omega
  · rintro place ⟨⟨count, rfl⟩, above⟩
    rw [Nat.mul_comm size count] at above ⊢
    refine Nat.mul_le_mul_right _ (Nat.lt_succ_iff.mp ?_)
    rw [Nat.div_lt_iff_lt_mul positive, Nat.succ_mul]
    omega

theorem roundUp_mask_isLeast {base size : Nat} (power : size.isPowerOfTwo)
    (below : base + size ≤ 2 ^ 64)
    : IsLeast {place | size ∣ place ∧ base ≤ place}
        (BitVec.ofNat 64 (base + size - 1) &&& ~~~ BitVec.ofNat 64 (size - 1)).toNat := by
  obtain ⟨bits, rfl⟩ := power
  have positive : 0 < 2 ^ bits := Nat.two_pow_pos bits
  rw [and_not_mask, BitVec.toNat_ofNat, Nat.mod_eq_of_lt (by omega)]
  exact roundUp_isLeast base positive

/-- `n & (n - 1)` has a bit, which no power of two allows. -/
def notPowerOfTwo (n : Nat) : Bool := n &&& (n - 1) != 0

theorem notPowerOfTwo_eq_false_iff {n : Nat} (positive : 0 < n)
    : notPowerOfTwo n = false ↔ n.isPowerOfTwo := by
  rw [← Nat.and_sub_one_eq_zero_iff_isPowerOfTwo (Nat.ne_of_gt positive)]
  simp [notPowerOfTwo]

/-- The word of the first `n` bytes, least significant first, as a loop collects it. -/
def joinBytes (width : Nat) (bytes : Nat → BitVec 8) (n : Nat) : BitVec width :=
  (List.range n).foldl (fun value i => value ||| (bytes i).setWidth width <<< (i * 8)) 0

theorem getLsbD_joinBytes (width : Nat) (bytes : Nat → BitVec 8) (n k : Nat)
    : (joinBytes width bytes n).getLsbD k
      = (decide (k < width) && decide (k < n * 8) && (bytes (k / 8)).getLsbD (k % 8)) := by
  induction n with
  | zero => simp [joinBytes]
  | succ n ih =>
    have step : joinBytes width bytes (n + 1)
        = joinBytes width bytes n ||| (bytes n).setWidth width <<< (n * 8) := by
      simp [joinBytes, List.range_succ]
    rw [step, BitVec.getLsbD_or, ih]
    by_cases inside : k < width
    · by_cases low : k < n * 8
      · have later : k < (n + 1) * 8 := by omega
        simp [low, later]
      · by_cases here : k < (n + 1) * 8
        · have byte : k / 8 = n := by omega
          have bit : k % 8 = k - n * 8 := by omega
          have fits : k - n * 8 < width := by omega
          simp [low, here, byte, bit, fits]
        · have past : (bytes n).getLsbD (k - n * 8) = false :=
            BitVec.getLsbD_of_ge _ _ (by omega)
          simp [low, here, past]
    · simp [inside]

theorem joinBytes_congr {width n : Nat} {left right : Nat → BitVec 8}
    (same : ∀ i < n, left i = right i)
    : joinBytes width left n = joinBytes width right n := by
  refine BitVec.eq_of_getLsbD_eq fun k _ => ?_
  rw [getLsbD_joinBytes, getLsbD_joinBytes]
  by_cases inside : k < n * 8
  · rw [same (k / 8) (by omega)]
  · simp [inside]

theorem joinBytes_word {width n : Nat} (word : BitVec width) (whole : width = n * 8)
    : joinBytes width (fun i => (word >>> (i * 8)).setWidth 8) n = word := by
  refine BitVec.eq_of_getLsbD_eq fun k inside => ?_
  have back : k / 8 * 8 + k % 8 = k := Nat.div_add_mod' k 8
  have bit : k % 8 < 8 := Nat.mod_lt k (by decide)
  rw [getLsbD_joinBytes, BitVec.getLsbD_setWidth, BitVec.getLsbD_ushiftRight, back]
  simp [inside, bit, ← whole]

theorem joinBytes_slice {width : Nat} (bytes : Nat → BitVec 8) {start n total : Nat}
    (within : start + n ≤ total) (whole : width = total * 8)
    : joinBytes width (fun i => bytes (start + i)) n
      = ((joinBytes width bytes total >>> (start * 8)).setWidth (n * 8)).setWidth width := by
  refine BitVec.eq_of_getLsbD_eq fun k inside => ?_
  have byte : (start * 8 + k) / 8 = start + k / 8 := by omega
  have bit : (start * 8 + k) % 8 = k % 8 := by omega
  rw [getLsbD_joinBytes, BitVec.getLsbD_setWidth, BitVec.getLsbD_setWidth,
    BitVec.getLsbD_ushiftRight, getLsbD_joinBytes, byte]
  by_cases low : k < n * 8
  · have early : start * 8 + k < total * 8 := by omega
    simp [low, early, whole]
  · simp [low]

end Modvm.Lib
