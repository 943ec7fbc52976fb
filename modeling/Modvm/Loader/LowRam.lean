import Modvm.Loader.E820

/-! Low RAM as the Linux loader sees it: from 1 MiB on, up to the first byte that is not usable. -/

namespace Modvm.Loader

open Modvm.Core Modvm.Lib

def kernelGpa : Nat := 0x100000

/-- The region is neither read-only nor reserved. -/
def usable (region : MemRegion) : Bool :=
  region.flags &&& (memReadonly ||| memReserved) == 0

/-- The body of the loop over the regions: the end of the interval, and whether it was extended. -/
def lowRamStep (state : Nat × Bool) (region : MemRegion) : Nat × Bool :=
  let last := gpaAdd region.gpa region.size
  if usable region = true ∧ region.gpa ≤ state.1 ∧ last > state.1 then (last, true) else state

def lowRamPass (regions : List MemRegion) (low : Nat) : Nat × Bool :=
  regions.foldl lowRamStep (low, false)

theorem lowRamPass_extended {regions : List MemRegion} {low : Nat}
    (extended : (lowRamPass regions low).2 = true)
    : low < (lowRamPass regions low).1 ∧ (lowRamPass regions low).1 < 2 ^ 64 := by
  have either : lowRamPass regions low = (low, false)
      ∨ low < (lowRamPass regions low).1 ∧ (lowRamPass regions low).1 < 2 ^ 64 := by
    refine List.foldlRecOn (motive := fun state => state = (low, false)
      ∨ low < state.1 ∧ state.1 < 2 ^ 64) _ _ (.inl rfl) ?_
    intro state before region _
    unfold lowRamStep
    dsimp only
    split
    next longer =>
      refine .inr ⟨?_, Nat.mod_lt _ (by decide)⟩
      rcases before with rfl | raised
      · exact longer.2.2
      · exact raised.1.trans longer.2.2
    · exact before
  rcases either with same | raised
  · rw [same] at extended
    cases extended
  · exact raised

/-- Passes over the regions until one extends nothing. -/
def lowRamLoop (regions : List MemRegion) (low : Nat) : Nat :=
  let next := lowRamPass regions low
  if _extended : next.2 = true then lowRamLoop regions next.1 else next.1
termination_by 2 ^ 64 - low
decreasing_by
  obtain ⟨raised, bounded⟩ := lowRamPass_extended _extended
  omega

/-- The end of the usable interval above 1 MiB, at most 4 GiB. -/
def lowRam (space : MemSpace) : Nat :=
  let low := lowRamLoop space.regions kernelGpa
  if low > 2 ^ 32 then 2 ^ 32 else low

def Usable (space : MemSpace) (address : Nat) : Prop :=
  ∃ region ∈ space.regions, region.span.Has address ∧ usable region = true

section
variable {space : MemSpace} {low : Nat}

theorem lowRamStep_eq {region : MemRegion} (bounded : region.gpa + region.size ≤ uint64Max)
    (state : Nat × Bool)
    : lowRamStep state region
      = if usable region = true ∧ region.span.Has state.1 then
          (region.gpa + region.size, true)
        else state := by
  have last : gpaAdd region.gpa region.size = region.gpa + region.size :=
    gpaAdd_eq (by unfold uint64Max at bounded; omega)
  unfold lowRamStep
  rw [last]
  rfl

theorem lowRamPass_filled (layout : space.Layout) (low : Nat)
    : low ≤ (lowRamPass space.regions low).1
      ∧ Filled (Usable space) low (lowRamPass space.regions low).1 := by
  refine List.foldlRecOn (motive := fun state : Nat × Bool =>
    low ≤ state.1 ∧ Filled (Usable space) low state.1) _ _ ⟨Nat.le_refl _, ?_⟩ ?_
  · intro address above below
    exact absurd above (Nat.not_le.mpr below)
  · intro state before region member
    rw [lowRamStep_eq (layout.bounded region member)]
    split
    next longer =>
      obtain ⟨free, here, inside⟩ := longer
      refine ⟨before.1.trans (Nat.le_of_lt inside), before.2.trans ?_⟩
      intro address above below
      exact ⟨region, member, ⟨here.trans above, below⟩, free⟩
    · exact before

/-- A pass that extends nothing found no usable region behind the interval, by induction on the
regions.
-/
theorem lowRamFold_stable {regions : List MemRegion}
    (bounded : ∀ region ∈ regions, region.gpa + region.size ≤ uint64Max) {state : Nat × Bool}
    (stable : (regions.foldl lowRamStep state).2 = false)
    : regions.foldl lowRamStep state = state
      ∧ ∀ region ∈ regions, ¬ (usable region = true ∧ region.span.Has state.1) := by
  induction regions generalizing state with
  | nil => exact ⟨rfl, nofun⟩
  | cons region rest ih =>
    obtain ⟨first, others⟩ := List.forall_mem_cons.mp bounded
    rw [List.foldl_cons] at stable ⊢
    obtain ⟨kept, later⟩ := ih others stable
    rw [kept] at stable ⊢
    rw [lowRamStep_eq first] at stable later ⊢
    split at stable
    · cases stable
    next other =>
      rw [if_neg other] at later ⊢
      exact ⟨rfl, List.forall_mem_cons.mpr ⟨other, later⟩⟩

theorem lowRamLoop_reach (layout : space.Layout) (low : Nat)
    : IsReach (Usable space) low (lowRamLoop space.regions low) := by
  induction low using lowRamLoop.induct space.regions with
  | case1 low next extended ih =>
    rw [lowRamLoop, dif_pos extended]
    obtain ⟨above, filled⟩ := lowRamPass_filled layout low
    exact ih.extend above filled
  | case2 low next stable =>
    rw [lowRamLoop]
    obtain ⟨same, none⟩ := lowRamFold_stable layout.bounded (Bool.eq_false_iff.mpr stable)
    have here : lowRamPass space.regions low = (low, false) := same
    rw [here]
    refine ⟨Nat.le_refl _, ?_, ?_⟩
    · intro address above below
      exact absurd above (Nat.not_le.mpr below)
    · rintro ⟨region, member, has, free⟩
      exact none region member ⟨free, has⟩

/-- The address is below 4 GiB, and all RAM from 1 MiB up to it is usable. -/
structure LowRam (space : MemSpace) (address : Nat) : Prop where
  above : kernelGpa ≤ address
  below : address < 2 ^ 32
  filled : Filled (Usable space) kernelGpa (address + 1)

theorem lowRam_iff (layout : space.Layout) {address : Nat}
    : LowRam space address ↔ kernelGpa ≤ address ∧ address < lowRam space := by
  have run := lowRamLoop_reach layout kernelGpa
  have capped : address < lowRam space
      ↔ address < 2 ^ 32 ∧ address < lowRamLoop space.regions kernelGpa := by
    unfold lowRam
    dsimp only
    split
    · omega
    · omega
  constructor
  · rintro ⟨above, below, filled⟩
    exact ⟨above, capped.mpr ⟨below, run.lt_iff.mpr filled⟩⟩
  · rintro ⟨above, inside⟩
    obtain ⟨below, found⟩ := capped.mp inside
    exact ⟨above, below, run.lt_iff.mp found⟩

theorem lowRam_le (space : MemSpace)
    : lowRam space ≤ 2 ^ 32 := by
  unfold lowRam
  dsimp only
  split
  · exact Nat.le_refl _
  · omega

def InLowRam (space : MemSpace) (span : Span) : Prop :=
  ∀ address, span.Has address → LowRam space address

theorem inLowRam_iff (layout : space.Layout) {base size : Nat} (positive : 0 < size)
    : InLowRam space ⟨base, size⟩ ↔ kernelGpa ≤ base ∧ base + size ≤ lowRam space := by
  constructor
  · intro inside
    obtain ⟨first, -⟩ := (lowRam_iff layout).mp (inside base ⟨Nat.le_refl _, by simpa⟩)
    obtain ⟨-, last⟩ := (lowRam_iff layout).mp
      (inside (base + size - 1) ⟨by dsimp only; omega, by dsimp only; omega⟩)
    exact ⟨first, by omega⟩
  · rintro ⟨above, below⟩ address ⟨low, high⟩
    dsimp only at low high
    exact (lowRam_iff layout).mpr ⟨by omega, by omega⟩

theorem LowRam.grants {address : Nat} (low : LowRam space address)
    : space.Grants true address := by
  obtain ⟨region, member, has, free⟩ := low.filled address low.above (Nat.lt_succ_self _)
  refine ⟨region, member, has, fun _ => ?_⟩
  have clear : region.flags &&& (memReadonly ||| memReserved) = 0 := by simpa [usable] using free
  have writable : region.flags &&& memReadonly = 0 := by
    have part : memReadonly = (memReadonly ||| memReserved) &&& memReadonly := by decide
    rw [part, ← BitVec.and_assoc, clear]
    exact BitVec.zero_and
  simp [MemRegion.isReadonly, writable]

end

end Modvm.Loader
