import Mathlib.Data.BitVec
import Mathlib.Logic.Function.Basic

/-! Sets of numbers kept in words of 64 bits. -/

namespace Modvm.Lib.WordSet

def has (words : Nat → BitVec 64) (n : Nat) : Bool := (words (n / 64)).getLsbD (n % 64)

/-- Add a number to the set, or take it away. -/
def put (words : Nat → BitVec 64) (n : Nat) (present : Bool) : Nat → BitVec 64 :=
  let bit := 1#64 <<< (n % 64)
  Function.update words (n / 64)
    (if present then words (n / 64) ||| bit else words (n / 64) &&& ~~~bit)

/-- Some number is in the first `count` words. -/
def any (count : Nat) (words : Nat → BitVec 64) : Bool :=
  (List.range count).any fun i => words i != 0

theorem has_put (words : Nat → BitVec 64) (n other : Nat) (present : Bool)
    : has (put words n present) other = if other = n then present else has words other := by
  have bit : (1#64 <<< (n % 64)).getLsbD (other % 64) = decide (other % 64 = n % 64) := by
    rw [← BitVec.twoPow_eq]
    have inside : n % 64 < 64 := Nat.mod_lt n (by decide)
    simp [inside, eq_comm]
  have inside : other % 64 < 64 := Nat.mod_lt other (by decide)
  unfold has put
  by_cases sameWord : other / 64 = n / 64
  · have same : other % 64 = n % 64 ↔ other = n := by omega
    rw [sameWord, Function.update_self]
    cases present with
    | true =>
      simp only [if_true]
      split <;> simp_all
    | false =>
      simp only [Bool.false_eq_true, if_false, BitVec.getLsbD_and, BitVec.getLsbD_not, bit]
      split <;> simp_all
  · have differ : other ≠ n := fun same => sameWord (congrArg (· / 64) same)
    rw [Function.update_of_ne sameWord, if_neg differ]

theorem any_iff (count : Nat) (words : Nat → BitVec 64)
    : any count words = true ↔ ∃ n < count * 64, has words n = true := by
  simp only [any, List.any_eq_true, List.mem_range, bne_iff_ne]
  constructor
  · rintro ⟨word, inside, nonzero⟩
    obtain ⟨bit, set⟩ : ∃ bit, (words word).getLsbD bit = true := by
      by_contra none
      refine nonzero (BitVec.eq_of_getLsbD_eq fun bit _ => ?_)
      simpa using fun set => none ⟨bit, set⟩
    have low : bit < 64 := BitVec.lt_of_getLsbD set
    refine ⟨word * 64 + bit, by omega, ?_⟩
    have quotient : (word * 64 + bit) / 64 = word := by omega
    have remainder : (word * 64 + bit) % 64 = bit := by omega
    rwa [has, quotient, remainder]
  · rintro ⟨n, inside, set⟩
    refine ⟨n / 64, by omega, ?_⟩
    intro zero
    rw [has, zero] at set
    simp at set

end Modvm.Lib.WordSet
