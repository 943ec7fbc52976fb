import Modvm.Lib.Bits
import Modvm.Lib.Span
import Mathlib.Data.List.GetD
import Mathlib.Data.Nat.ModEq

/-! Byte-addressed memory with bulk reads and writes, and little-endian numbers. -/

namespace Modvm.Lib

/-- The `n` bytes that start at `base`. -/
def readBytes (memory : Nat → BitVec 8) (base n : Nat) : List (BitVec 8) :=
  (List.range n).map fun i => memory (base + i)

/-- The memory after `bytes` were stored from `base` on. -/
def writeBytes (memory : Nat → BitVec 8) (base : Nat) (bytes : List (BitVec 8))
    : Nat → BitVec 8 :=
  fun address =>
    if base ≤ address then bytes.getD (address - base) (memory address) else memory address

/-- The number whose little-endian bytes are given. -/
def leNat : List (BitVec 8) → Nat
  | [] => 0
  | byte :: rest => byte.toNat + 256 * leNat rest

/-- The low `n` bytes of a number, least significant first. -/
def toLe : Nat → Nat → List (BitVec 8)
  | 0, _ => []
  | n + 1, value => BitVec.ofNat 8 value :: toLe n (value / 256)

@[simp]
theorem readBytes_length (memory : Nat → BitVec 8) (base n : Nat)
    : (readBytes memory base n).length = n := by
  simp [readBytes]

@[simp]
theorem toLe_length (n value : Nat)
    : (toLe n value).length = n := by
  induction n generalizing value with
  | zero => rfl
  | succ n ih => simp only [toLe, List.length_cons, ih]

variable {left right : Nat → BitVec 8} {bytes : List (BitVec 8)}

theorem readBytes_congr {base n : Nat}
    (same : ∀ address, (Span.mk base n).Has address → left address = right address)
    : readBytes left base n = readBytes right base n := by
  refine List.map_congr_left ?_
  intro i member
  exact same (base + i) ⟨Nat.le_add_right base i, by
    have := List.mem_range.mp member
    dsimp only
    omega⟩

theorem writeBytes_outside (memory : Nat → BitVec 8) (base : Nat) (bytes : List (BitVec 8))
    {address : Nat} (outside : ¬ (Span.mk base bytes.length).Has address)
    : writeBytes memory base bytes address = memory address := by
  unfold writeBytes
  split
  · have past : bytes.length ≤ address - base := by
      simp only [Span.Has] at outside
      omega
    rw [List.getD_eq_default _ _ past]
  · rfl

theorem writeBytes_congr {base : Nat}
    (same : ∀ address, ¬ (Span.mk base bytes.length).Has address → left address = right address)
    : writeBytes left base bytes = writeBytes right base bytes := by
  funext address
  by_cases inside : (Span.mk base bytes.length).Has address
  · have low : base ≤ address := inside.1
    have bound : address - base < bytes.length := by
      have := inside.2
      dsimp only at this
      omega
    unfold writeBytes
    rw [if_pos low, if_pos low, List.getD_eq_getElem _ _ bound, List.getD_eq_getElem _ _ bound]
  · rw [writeBytes_outside left base bytes inside, writeBytes_outside right base bytes inside,
      same address inside]

theorem readBytes_writeBytes_apart (memory : Nat → BitVec 8) {base n target : Nat}
    (apart : (Span.mk base n).Apart ⟨target, bytes.length⟩)
    : readBytes (writeBytes memory target bytes) base n = readBytes memory base n :=
  readBytes_congr fun _ member => writeBytes_outside memory target bytes (apart.not_has member)

theorem readBytes_writeBytes (memory : Nat → BitVec 8) (base : Nat) (bytes : List (BitVec 8))
    : readBytes (writeBytes memory base bytes) base bytes.length = bytes := by
  refine List.ext_getElem (readBytes_length ..) ?_
  intro i _ bound
  -- The address of the `i`th byte is `i` bytes behind the base.
  have shifted : base + i - base = i := by omega
  simp only [readBytes, List.getElem_map, List.getElem_range, writeBytes,
    Nat.le_add_right, if_true, shifted, List.getD_eq_getElem _ _ bound]

theorem leNat_lt (bytes : List (BitVec 8))
    : leNat bytes < 256 ^ bytes.length := by
  induction bytes with
  | nil => simp [leNat]
  | cons =>
    rw [leNat, List.length_cons]
    omega

theorem leNat_toLe (n value : Nat)
    : leNat (toLe n value) = value % 256 ^ n := by
  induction n generalizing value with
  | zero => simp [toLe, leNat, Nat.mod_one]
  | succ n ih =>
    rw [toLe, leNat, ih, Nat.pow_succ', Nat.mod_mul, BitVec.toNat_ofNat]

theorem leNat_readBytes_writeBytes (memory : Nat → BitVec 8) (base n value : Nat)
    : leNat (readBytes (writeBytes memory base (toLe n value)) base n) = value % 256 ^ n := by
  have back := readBytes_writeBytes memory base (toLe n value)
  rw [toLe_length] at back
  rw [back, leNat_toLe]

theorem toLe_mod (n value : Nat)
    : toLe n (value % 256 ^ n) = toLe n value := by
  induction n generalizing value with
  | zero => rfl
  | succ n ih =>
    have byte : BitVec.ofNat 8 (value % 256 ^ (n + 1)) = BitVec.ofNat 8 value := by
      refine BitVec.eq_of_toNat_eq ?_
      rw [BitVec.toNat_ofNat, BitVec.toNat_ofNat, Nat.pow_succ', Nat.mod_mul_right_mod]
    have rest : value % 256 ^ (n + 1) / 256 = value / 256 % 256 ^ n := by
      rw [Nat.pow_succ', Nat.mod_mul_right_div_self]
    rw [toLe, toLe, byte, rest, ih]

theorem toLe_add (m n value : Nat)
    : toLe (m + n) value = toLe m value ++ toLe n (value / 256 ^ m) := by
  induction m generalizing value with
  | zero => simp [toLe]
  | succ m ih =>
    rw [Nat.succ_add, toLe, toLe, ih, List.cons_append, Nat.div_div_eq_div_mul, Nat.pow_succ']

theorem writeBytes_append (memory : Nat → BitVec 8) (base : Nat) (low high : List (BitVec 8))
    : writeBytes memory base (low ++ high)
      = writeBytes (writeBytes memory base low) (base + low.length) high := by
  funext address
  unfold writeBytes
  by_cases above : base ≤ address
  · by_cases behind : base + low.length ≤ address
    · have past : low.length ≤ address - base := by omega
      rw [if_pos above, if_pos behind, if_pos above, List.getD_append_right _ _ _ _ past,
        List.getD_eq_default _ _ past, Nat.sub_sub]
    · rw [if_pos above, if_neg behind, if_pos above, List.getD_append _ _ _ _ (by omega)]
  · rw [if_neg above, if_neg (by omega), if_neg above]

theorem leNat_readBytes_lt (memory : Nat → BitVec 8) (base n : Nat)
    : leNat (readBytes memory base n) < 256 ^ n := by
  simpa only [readBytes_length] using leNat_lt (readBytes memory base n)

/-- Two memories hold the same bytes in a span. -/
def AgreeOn (left right : Nat → BitVec 8) (span : Span) : Prop :=
  ∀ address, span.Has address → left address = right address

theorem AgreeOn.mono {inner outer : Span} (same : AgreeOn left right outer)
    (within : inner.Within outer)
    : AgreeOn left right inner :=
  fun address member => same address (within.has member)

theorem AgreeOn.of_apart (memory : Nat → BitVec 8) {base : Nat} {span : Span}
    (apart : span.Apart ⟨base, bytes.length⟩)
    : AgreeOn (writeBytes memory base bytes) memory span :=
  fun _ member => writeBytes_outside memory base bytes (apart.not_has member)

/-- The little-endian number that fills a span. -/
def readLe (memory : Nat → BitVec 8) (span : Span) : Nat :=
  leNat (readBytes memory span.base span.size)

theorem readLe_congr {span : Span} (same : AgreeOn left right span)
    : readLe left span = readLe right span := by
  rw [readLe, readLe, readBytes_congr same]

theorem readLe_writeBytes (memory : Nat → BitVec 8) (base n value : Nat)
    : readLe (writeBytes memory base (toLe n value)) ⟨base, n⟩ = value % 256 ^ n :=
  leNat_readBytes_writeBytes memory base n value

theorem toLe_eq_map (n value : Nat)
    : toLe n value = (List.range n).map fun i => BitVec.ofNat 8 (value / 256 ^ i) := by
  induction n generalizing value with
  | zero => rfl
  | succ n ih =>
    rw [toLe, ih, List.range_succ_eq_map]
    simp [Nat.div_div_eq_div_mul, Nat.pow_succ, Nat.mul_comm]

theorem writeBytes_readBytes (memory : Nat → BitVec 8) (base n : Nat)
    : writeBytes memory base (readBytes memory base n) = memory := by
  funext address
  by_cases inside : (Span.mk base n).Has address
  · have low : base ≤ address := inside.1
    have bound : address - base < (readBytes memory base n).length := by
      have := inside.2
      simp only [readBytes_length] at *
      omega
    have back : base + (address - base) = address := by omega
    rw [writeBytes, if_pos low, List.getD_eq_getElem _ _ bound]
    simp only [readBytes, List.getElem_map, List.getElem_range, back]
  · rw [writeBytes_outside]
    rwa [readBytes_length]

theorem joinBytes_of_readBytes {width n : Nat} {memory : Nat → BitVec 8} {base value : Nat}
    (stored : readBytes memory base n = toLe n value) (whole : width = n * 8)
    : joinBytes width (fun i => memory (base + i)) n = BitVec.ofNat width value := by
  rw [toLe_eq_map] at stored
  have bytes := List.map_inj_left.mp stored
  refine BitVec.eq_of_getLsbD_eq fun k inside => ?_
  have byte : k / 8 < n := by omega
  have back : 8 * (k / 8) + k % 8 = k := Nat.div_add_mod k 8
  have bit : k % 8 < 8 := Nat.mod_lt k (by decide)
  rw [getLsbD_joinBytes, bytes _ (List.mem_range.mpr byte), BitVec.getLsbD_ofNat,
    BitVec.getLsbD_ofNat, show (256 : Nat) = 2 ^ 8 from rfl, ← Nat.pow_mul,
    Nat.testBit_div_two_pow, Nat.add_comm, back]
  simp [bit, ← whole]

end Modvm.Lib
