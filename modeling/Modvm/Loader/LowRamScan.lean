import Modvm.Core.Translation
import Modvm.Loader.LowRam

/-! The scan for low RAM as a search among the regions, each of which extends it at most once. -/

namespace Modvm.Loader

open Modvm.Core Modvm.Lib

variable {space : MemSpace} {start low : Nat}

def lowRamWithin (regions : List MemRegion) : Nat → Nat → Option Nat
  | 0, _ => none
  | passes + 1, low =>
      let next := lowRamPass regions low
      if next.2 = true then lowRamWithin regions passes next.1 else some next.1

def ahead (regions : List MemRegion) (low : Nat) : List MemRegion :=
  regions.filter fun region => low < region.gpa + region.size

theorem lowRamPass_ends (layout : space.Layout)
    (extended : (lowRamPass space.regions low).2 = true)
    : ∃ region ∈ ahead space.regions low,
      (lowRamPass space.regions low).1 = region.gpa + region.size := by
  have either : lowRamPass space.regions low = (low, false)
      ∨ ∃ region ∈ ahead space.regions low,
        (lowRamPass space.regions low).1 = region.gpa + region.size := by
    refine List.foldlRecOn (motive := fun state : Nat × Bool => state = (low, false)
      ∨ ∃ region ∈ ahead space.regions low, state.1 = region.gpa + region.size) _ _ (.inl rfl) ?_
    intro state before region member
    rw [lowRamStep_eq (layout.bounded region member)]
    split
    next longer =>
      obtain ⟨-, -, inside⟩ := longer
      have passed : low ≤ state.1 := by
        rcases before with rfl | ⟨earlier, found, same⟩
        · exact Nat.le_refl _
        · rw [same]
          exact Nat.le_of_lt (of_decide_eq_true (List.mem_filter.mp found).2)
      have behind : low < region.gpa + region.size := passed.trans_lt inside
      exact .inr ⟨region, List.mem_filter.mpr ⟨member, decide_eq_true behind⟩, rfl⟩
    · exact before
  rcases either with same | found
  · rw [same] at extended
    cases extended
  · exact found

theorem ahead_shrinks (layout : space.Layout)
    (extended : (lowRamPass space.regions low).2 = true)
    : (ahead space.regions (lowRamPass space.regions low).1).length
      < (ahead space.regions low).length := by
  obtain ⟨region, found, same⟩ := lowRamPass_ends layout extended
  have raised := (lowRamPass_extended extended).1
  have fewer : ahead space.regions (lowRamPass space.regions low).1
      = (ahead space.regions low).filter fun other =>
        (lowRamPass space.regions low).1 < other.gpa + other.size := by
    unfold ahead
    rw [List.filter_filter]
    refine List.filter_congr fun other _ => ?_
    rw [Bool.eq_iff_iff]
    simp only [Bool.and_eq_true, decide_eq_true_eq]
    omega
  rw [fewer]
  refine List.length_filter_lt_length_iff_exists.mpr ⟨region, found, ?_⟩
  simp [same]

theorem lowRamWithin_eq (layout : space.Layout) {passes : Nat}
    (enough : (ahead space.regions low).length < passes)
    : lowRamWithin space.regions passes low = some (lowRamLoop space.regions low) := by
  induction passes generalizing low with
  | zero => cases enough
  | succ passes ih =>
    rw [lowRamWithin, lowRamLoop]
    by_cases extended : (lowRamPass space.regions low).2 = true
    · have shrinks := ahead_shrinks layout extended
      rw [if_pos extended, dif_pos extended]
      exact ih (by omega)
    · rw [if_neg extended, dif_neg extended]

/-- A contiguous run of usable regions from `start`, by where it ends. -/
inductive UsableRun (regions : List MemRegion) (start : Nat) : Nat → Prop
  | first {region : MemRegion} (member : region ∈ regions) (free : usable region = true)
      (covers : region.span.Has start)
      : UsableRun regions start (region.gpa + region.size)
  | next {stop : Nat} {region : MemRegion} (run : UsableRun regions start stop)
      (member : region ∈ regions) (free : usable region = true) (adjoins : region.gpa = stop)
      : UsableRun regions start (region.gpa + region.size)

namespace UsableRun

variable {stop : Nat}

theorem filled (run : UsableRun space.regions start stop)
    : Filled (Usable space) start stop := by
  have own : ∀ {region : MemRegion}, region ∈ space.regions → usable region = true
      → Filled (Usable space) region.gpa (region.gpa + region.size) :=
    fun member free address above below => ⟨_, member, ⟨above, below⟩, free⟩
  induction run with
  | first member free covers =>
    exact fun address above below => own member free address (covers.1.trans above) below
  | next _ member free adjoins ih =>
    subst adjoins
    exact ih.trans (own member free)

theorem last (run : UsableRun space.regions start stop)
    : ∃ region ∈ space.regions, region.gpa + region.size = stop ∧ 0 < region.size := by
  induction run with
  | first member _ covers =>
    obtain ⟨low, high⟩ := covers
    dsimp only [MemRegion.span] at low high
    exact ⟨_, member, rfl, by omega⟩
  | @next _ region _ member _ adjoins ih =>
    rcases Nat.eq_zero_or_pos region.size with empty | positive
    · rw [empty, adjoins]
      exact ih
    · exact ⟨region, member, rfl, positive⟩

theorem adjoins (layout : space.Layout) (run : UsableRun space.regions start stop)
    {region : MemRegion} (member : region ∈ space.regions) (has : region.span.Has stop)
    : region.gpa = stop := by
  obtain ⟨last, known, ends, positive⟩ := run.last
  obtain ⟨low, high⟩ := has
  dsimp only [MemRegion.span] at low high
  by_contra before
  have here : region.span.Has (stop - 1) := by
    simp only [MemRegion.span, Span.Has]
    omega
  have there : last.span.Has (stop - 1) := by
    simp only [MemRegion.span, Span.Has]
    omega
  obtain rfl := layout.region_unique member known here there
  omega

end UsableRun

/-- The interval is empty or ends with a run. -/
abbrev EndsRun (regions : List MemRegion) (start low : Nat) : Prop :=
  low = start ∨ UsableRun regions start low

theorem lowRamPass_run (layout : space.Layout) (before : EndsRun space.regions start low)
    : EndsRun space.regions start (lowRamPass space.regions low).1 := by
  refine List.foldlRecOn (motive := fun state : Nat × Bool =>
    EndsRun space.regions start state.1) _ _ before ?_
  intro state before region member
  rw [lowRamStep_eq (layout.bounded region member)]
  split
  next longer =>
    obtain ⟨free, has⟩ := longer
    rcases before with same | run
    · exact .inr (.first member free (same ▸ has))
    · exact .inr (run.next member free (run.adjoins layout member has))
  · exact before

theorem lowRamLoop_run (layout : space.Layout) (before : EndsRun space.regions start low)
    : EndsRun space.regions start (lowRamLoop space.regions low) := by
  induction low using lowRamLoop.induct space.regions with
  | case1 low next extended ih =>
    rw [lowRamLoop, dif_pos extended]
    exact ih (lowRamPass_run layout before)
  | case2 low next stable =>
    rw [lowRamLoop, dif_neg stable]
    exact lowRamPass_run layout before

theorem lowRamLoop_isGreatest (layout : space.Layout) (covered : Usable space start)
    : IsGreatest {stop | UsableRun space.regions start stop}
      (lowRamLoop space.regions start) := by
  have reach := lowRamLoop_reach layout start
  refine ⟨?_, fun stop run => reach.le_of_filled run.filled⟩
  rcases lowRamLoop_run layout (.inl rfl) with same | run
  · rw [same] at reach
    exact absurd covered reach.ends
  · exact run

theorem lowRamLoop_none (layout : space.Layout) (uncovered : ¬ Usable space start)
    : lowRamLoop space.regions start = start := by
  refine (lowRamLoop_reach layout start).unique ⟨Nat.le_refl _, ?_, uncovered⟩ fun _ => Iff.rfl
  exact fun address above below => absurd above (Nat.not_le.mpr below)

theorem lowRamLoop_perm (layout : space.Layout) {other : MemSpace}
    (perm : other.regions.Perm space.regions)
    : lowRamLoop other.regions start = lowRamLoop space.regions start := by
  refine (lowRamLoop_reach (layout.perm perm) start).unique (lowRamLoop_reach layout start) ?_
  intro address
  simp only [Usable, perm.mem_iff]

/-- The scan for low RAM ends after at most one more pass than there are regions. It finds the end
of the longest contiguous run of usable regions that covers 1 MiB, or 1 MiB if none does, in any
order of the regions.
-/
theorem low_ram_scan (layout : space.Layout)
    : lowRamWithin space.regions (space.regions.length + 1) kernelGpa
        = some (lowRamLoop space.regions kernelGpa)
      ∧ lowRam space = min (lowRamLoop space.regions kernelGpa) (2 ^ 32)
      ∧ ((∃ region ∈ space.regions, region.span.Has kernelGpa ∧ usable region = true)
          → IsGreatest {stop | UsableRun space.regions kernelGpa stop}
            (lowRamLoop space.regions kernelGpa))
      ∧ ((¬ ∃ region ∈ space.regions, region.span.Has kernelGpa ∧ usable region = true)
          → lowRamLoop space.regions kernelGpa = kernelGpa)
      ∧ ∀ other : MemSpace, other.regions.Perm space.regions
          → lowRamLoop other.regions kernelGpa = lowRamLoop space.regions kernelGpa := by
  refine ⟨?_, ?_, lowRamLoop_isGreatest layout, lowRamLoop_none layout,
    fun other => lowRamLoop_perm layout⟩
  · exact lowRamWithin_eq layout (Nat.lt_succ_of_le (List.length_filter_le _ _))
  · unfold lowRam
    dsimp only
    split
    · omega
    · omega

def shuffledRam : MemSpace where
  regions := [⟨0x300000, 0x100000, 0⟩, ⟨0x400000, 0x1000, memReserved⟩, ⟨0x200000, 0x100000, 0⟩,
    ⟨0x80000, 0x180000, 0⟩]
  totalRam := 0x381000
  hostPageSize := 0x1000

/-- The scan takes in the three, and stops at the reserved one. -/
theorem low_ram_scan_shuffled
    : lowRam shuffledRam = 0x400000 := by
  have formed : shuffledRam.WellFormed := ⟨by decide, by decide, by decide, by decide⟩
  obtain ⟨ends, capped, -⟩ := low_ram_scan formed.layout
  have found : lowRamWithin shuffledRam.regions 5 kernelGpa = some 0x400000 := by decide
  rw [capped, ← Option.some.inj (found.symm.trans ends)]
  rfl

end Modvm.Loader
