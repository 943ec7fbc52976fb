import Mathlib.Data.List.Nodup
import Mathlib.Data.List.Perm.Subperm
import Mathlib.Tactic.Common

/-! Walks along a deterministic link. A walk that ends never meets an element twice. -/

namespace Modvm.Lib

variable {α : Type*}

/-- Following the links from `start` visits `path`, whose last element has no link. -/
inductive Walk (follow : α → Option α) : α → List α → Prop
  | last {start} (ends : follow start = none) : Walk follow start [start]
  | step {start next path} (linked : follow start = some next) (rest : Walk follow next path)
    : Walk follow start (start :: path)

variable {follow : α → Option α} {start member : α} {path other : List α}

theorem Walk.unique (walk : Walk follow start path) (again : Walk follow start other)
    : path = other := by
  induction walk generalizing other with
  | last ends =>
    cases again with
    | last => rfl
    | step linked => simp [ends] at linked
  | step linked rest ih =>
    cases again with
    | last ends => simp [linked] at ends
    | step relinked again =>
      obtain rfl := Option.some.inj (linked.symm.trans relinked)
      rw [ih again]

theorem Walk.continues (walk : Walk follow start path) (visited : member ∈ path)
    : ∃ rest, Walk follow member rest ∧ rest.length ≤ path.length := by
  induction walk with
  | last ends =>
    obtain rfl := List.mem_singleton.mp visited
    exact ⟨_, .last ends, Nat.le_refl _⟩
  | step linked rest ih =>
    rcases List.mem_cons.mp visited with rfl | later
    · exact ⟨_, .step linked rest, Nat.le_refl _⟩
    · obtain ⟨tail, continued, shorter⟩ := ih later
      exact ⟨tail, continued, Nat.le_succ_of_le shorter⟩

/-- A walk that ends visits no element twice: its rest from a second visit would be shorter than
itself.
-/
theorem Walk.nodup (walk : Walk follow start path)
    : path.Nodup := by
  induction walk with
  | last => exact List.nodup_singleton _
  | step linked rest ih =>
    refine List.nodup_cons.mpr ⟨?_, ih⟩
    intro visited
    obtain ⟨tail, continued, shorter⟩ := rest.continues visited
    have same := continued.unique (.step linked rest)
    rw [same, List.length_cons] at shorter
    omega

theorem length_le_of_nodup {numbers : List Nat} {bound : Nat} (distinct : numbers.Nodup)
    (below : ∀ number ∈ numbers, number < bound)
    : numbers.length ≤ bound := by
  have subset : numbers ⊆ List.range bound :=
    fun number member => List.mem_range.mpr (below number member)
  simpa using (List.subperm_of_subset distinct subset).length_le

end Modvm.Lib
