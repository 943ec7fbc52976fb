import Mathlib.Algebra.Order.BigOperators.Group.Finset
import Mathlib.Algebra.Ring.Nat
import Mathlib.Data.Fintype.Basic

/-! Call stacks of finitely many threads, with a cost for every frame. -/

namespace Modvm.Lib

open Function

variable {τ φ : Type*}

def stackCost (cost : φ → Nat) (stack : List φ) : Nat := (stack.map cost).sum

@[simp]
theorem stackCost_cons (cost : φ → Nat) (frame : φ) (stack : List φ)
    : stackCost cost (frame :: stack) = cost frame + stackCost cost stack := by
  simp [stackCost]

theorem stackCost_eq_zero {cost : φ → Nat} {stack : List φ}
    (free : ∀ frame ∈ stack, cost frame = 0)
    : stackCost cost stack = 0 := by
  induction stack with
  | nil => rfl
  | cons frame rest ih =>
    rw [stackCost_cons, free frame List.mem_cons_self,
      ih fun other member => free other (List.mem_cons_of_mem _ member)]

theorem cost_le_stackCost (cost : φ → Nat) {frame : φ} {stack : List φ}
    (member : frame ∈ stack)
    : cost frame ≤ stackCost cost stack := by
  induction stack with
  | nil => cases member
  | cons top rest ih =>
    rcases List.mem_cons.mp member with rfl | below
    · exact Nat.le_add_right _ _
    · exact Nat.le_trans (ih below) (Nat.le_add_left _ _)

variable [Fintype τ]

def totalCost (cost : φ → Nat) (calls : τ → List φ) : Nat := ∑ t, stackCost cost (calls t)

theorem totalCost_eq_zero {cost : φ → Nat} {calls : τ → List φ}
    (free : ∀ t, ∀ frame ∈ calls t, cost frame = 0)
    : totalCost cost calls = 0 :=
  Finset.sum_eq_zero fun t _ => stackCost_eq_zero (free t)

theorem stackCost_le_totalCost (cost : φ → Nat) (calls : τ → List φ) (t : τ)
    : stackCost cost (calls t) ≤ totalCost cost calls :=
  Finset.single_le_sum (f := fun t => stackCost cost (calls t)) (fun _ _ => Nat.zero_le _)
    (Finset.mem_univ t)

theorem totalCost_update [DecidableEq τ] (cost : φ → Nat) (calls : τ → List φ) (t : τ)
    (stack : List φ)
    : totalCost cost (update calls t stack) + stackCost cost (calls t)
      = totalCost cost calls + stackCost cost stack := by
  have others : ∑ u ∈ Finset.univ.erase t, stackCost cost (update calls t stack u)
      = ∑ u ∈ Finset.univ.erase t, stackCost cost (calls u) := by
    refine Finset.sum_congr rfl fun u member => ?_
    rw [update_of_ne (Finset.ne_of_mem_erase member)]
  have before := Finset.add_sum_erase Finset.univ (fun u => stackCost cost (calls u))
    (Finset.mem_univ t)
  have after := Finset.add_sum_erase Finset.univ
    (fun u => stackCost cost (update calls t stack u)) (Finset.mem_univ t)
  simp only [update_self] at after before
  rw [totalCost, totalCost]
  omega

end Modvm.Lib
