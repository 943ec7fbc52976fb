import Mathlib.Data.List.Pairwise
import Mathlib.Tactic.Common

/-! Half-open address spans: membership, separation, and containment. -/

namespace Modvm.Lib

/-- The addresses from `base` up to, but not including, `base + size`. -/
structure Span where
  base : Nat
  size : Nat
deriving DecidableEq, Repr

namespace Span

def Has (span : Span) (address : Nat) : Prop :=
  span.base ≤ address ∧ address < span.base + span.size

instance (span : Span) (address : Nat) : Decidable (span.Has address) :=
  inferInstanceAs (Decidable (_ ∧ _))

/-- One span ends before the other starts. -/
def Apart (left right : Span) : Prop :=
  left.base + left.size ≤ right.base ∨ right.base + right.size ≤ left.base

instance (left right : Span) : Decidable (left.Apart right) :=
  inferInstanceAs (Decidable (_ ∨ _))

/-- The first span lies inside the second. -/
def Within (inner outer : Span) : Prop :=
  outer.base ≤ inner.base ∧ inner.base + inner.size ≤ outer.base + outer.size

instance (inner outer : Span) : Decidable (inner.Within outer) :=
  inferInstanceAs (Decidable (_ ∧ _))

theorem Apart.symm {left right : Span} (apart : left.Apart right)
    : right.Apart left :=
  Or.symm apart

theorem Apart.not_has {left right : Span} {address : Nat} (apart : left.Apart right)
    (member : left.Has address)
    : ¬ right.Has address := by
  unfold Apart Has at *
  omega

theorem Apart.mono {inner outer other : Span} (apart : outer.Apart other)
    (within : inner.Within outer)
    : inner.Apart other := by
  unfold Apart Within at *
  omega

theorem Within.trans {inner middle outer : Span} (first : inner.Within middle)
    (second : middle.Within outer)
    : inner.Within outer := by
  unfold Within at *
  omega

theorem Within.has {inner outer : Span} {address : Nat} (within : inner.Within outer)
    (member : inner.Has address)
    : outer.Has address := by
  unfold Within Has at *
  omega

/-- Different members of a pairwise apart list are apart. -/
theorem apart_of_pairwise {α : Type*} {span : α → Span} {items : List α}
    (pairwise : items.Pairwise fun left right => (span left).Apart (span right))
    {left right : α} (leftMember : left ∈ items) (rightMember : right ∈ items)
    (different : left ≠ right)
    : (span left).Apart (span right) := by
  have : Std.Symm fun left right => (span left).Apart (span right) :=
    ⟨fun _ _ apart => apart.symm⟩
  exact pairwise.forall leftMember rightMember different

end Span

/-- All addresses from one to another are covered. -/
def Filled (covered : Nat → Prop) (start reach : Nat) : Prop :=
  ∀ address, start ≤ address → address < reach → covered address

variable {covered : Nat → Prop} {start reach top : Nat}

theorem Filled.trans (first : Filled covered start reach) (second : Filled covered reach top)
    : Filled covered start top := by
  intro address above below
  rcases Nat.lt_or_ge address reach with early | late
  · exact first address above early
  · exact second address late below

/-- The run that begins at `start` ends at `top`. -/
structure IsReach (covered : Nat → Prop) (start top : Nat) : Prop where
  above : start ≤ top
  filled : Filled covered start top
  ends : ¬ covered top

theorem IsReach.extend (rest : IsReach covered reach top) (above : start ≤ reach)
    (filled : Filled covered start reach)
    : IsReach covered start top :=
  ⟨Nat.le_trans above rest.above, filled.trans rest.filled, rest.ends⟩

theorem IsReach.lt_iff (run : IsReach covered start top) {address : Nat}
    : address < top ↔ Filled covered start (address + 1) := by
  constructor
  · intro inside other low high
    exact run.filled other low (by omega)
  · intro filled
    by_contra beyond
    exact run.ends (filled top run.above (by omega))

theorem IsReach.le_of_filled (run : IsReach covered start top) (filled : Filled covered start reach)
    : reach ≤ top := by
  by_contra beyond
  exact run.ends (filled top run.above (Nat.not_le.mp beyond))

/-- A reach is unique. -/
theorem IsReach.unique {covered' : Nat → Prop} {top' : Nat} (run : IsReach covered start top)
    (other : IsReach covered' start top') (same : ∀ address, covered address ↔ covered' address)
    : top = top' := by
  refine Nat.le_antisymm (other.le_of_filled ?_) (run.le_of_filled ?_)
  · exact fun address above below => (same address).mp (run.filled address above below)
  · exact fun address above below => (same address).mpr (other.filled address above below)

end Modvm.Lib
