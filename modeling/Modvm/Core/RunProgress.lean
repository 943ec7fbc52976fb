import Modvm.Core.RunOrder

/-! A machine that has to stop is never stuck: its threads can go on until `vm_run` has returned. -/

namespace Modvm.Core.Execution

open Modvm.Lib

variable {config : RunConfig} {s next after : VmRun} {t : Thread} {frame : Frame}
  {frames below : List Frame} {answer : Int}

/-- A bound on the steps that a frame has left with `n` processors, its calls included. -/
def Frame.rank (n : Nat) : Frame → Nat
  | .stopping | .callback | .finish => 1
  | .abort => 2
  | .kicking index => 2 + 2 * (n - index)
  | .kickFailed index _ => 3 + 2 * (n - (index + 1))
  | .locking => 3 + 2 * n
  | .requesting => 4 + 2 * n
  | .reporting _ => 5 + 2 * n
  | .failing _ => 6 + 2 * n
  | .vcpuRun => 6 + 2 * n
  | .vcpuCheck => 7 + 2 * n
  | .vcpuEntry => 8 + 2 * n
  | .join index => 2 + 2 * (n - index)
  | .joining index _ => 3 + 2 * (n - (index + 1))
  | .cleanup => 7 + 4 * n
  | .out _ => 13 + 6 * n
  | .dispatch => 14 + 6 * n
  | .spawned _ => 15 + 6 * n
  | .spawn index => 16 + 6 * n + 2 * (n - index)
  | .create index => 17 + 6 * n + 2 * (n - (index + 1))
  | .spawnLock => 17 + 8 * n
  | .boot => 18 + 8 * n
  | .powerOn => 19 + 8 * n
  | .schedule => 20 + 8 * n
  | .allocate => 21 + 8 * n
  | .start => 22 + 8 * n
  | .assemble => 23 + 8 * n

def stackRank (n : Nat) (stack : List Frame) : Nat := (stack.map (Frame.rank n)).sum

theorem frameStep_rank (stepped : frameStep config s t answer frame = some (after, frames))
    (stopped : frame = .dispatch → s.shared.io.stopped = true)
    : stackRank config.nrVcpus frames < frame.rank config.nrVcpus := by
  cases frame <;> simp only [frameStep] at stepped <;> (try split_ifs at stepped) <;>
    simp only [Option.some.injEq] at stepped <;> obtain ⟨rfl, rfl⟩ := stepped <;>
    simp only [stackRank, List.map_cons, List.map_nil, List.sum_cons, List.sum_nil, Frame.rank] <;>
    first | omega | exact absurd (stopped rfl) ‹_›

def Frame.Joins (s : VmRun) (frame : Frame) : Prop :=
  ∀ index handle, frame = .joining index (some handle) → s.calls (.vcpu handle) = []

theorem frameStep_enabled (config : RunConfig) (t : Thread)
    (free : frame.holds = true ∨ s.threadLock = none) (joins : frame.Joins s)
    : ∃ after frames, frameStep config s t 0 frame = some (after, frames) := by
  have lock : frame.holds = false → s.threadLock = none := by
    intro released
    exact free.resolve_left (by simp [released])
  cases frame with
  | locking => exact ⟨_, _, if_pos (lock rfl)⟩
  | vcpuEntry => exact ⟨_, _, if_pos (lock rfl)⟩
  | spawnLock => exact ⟨_, _, if_pos (lock rfl)⟩
  | joining index thread =>
    refine ⟨_, _, if_pos ?_⟩
    cases thread with
    | none => rfl
    | some handle => rw [Option.all_some, joins index handle rfl, List.isEmpty_nil]
  | join =>
    simp only [frameStep, lock rfl]
    split_ifs <;> exact ⟨_, _, rfl⟩
  | _ =>
    simp only [frameStep]
    (try split_ifs) <;> exact ⟨_, _, rfl⟩

theorem go_on (config : RunConfig) (top : s.calls t = frame :: below)
    (free : frame.holds = true ∨ s.threadLock = none)
    (joins : frame.Joins s) (stopped : frame = .dispatch → s.shared.io.stopped = true)
    : ∃ after frames, Step config s (t, .go 0) (after.goto t (frames ++ below))
      ∧ StackStep s t [frame] after frames
      ∧ stackRank config.nrVcpus (frames ++ below) < stackRank config.nrVcpus (s.calls t) := by
  obtain ⟨after, frames, taken⟩ := frameStep_enabled config t free joins
  refine ⟨after, frames, ?_, frameStep_stack taken, ?_⟩
  · simp only [Step, step, advance, top, taken, Option.map_some]
  · have fewer := frameStep_rank taken stopped
    simp only [stackRank, top, List.map_append, List.sum_append]
    exact Nat.add_lt_add_right fewer _

/-- Calls in progress lead from one state to the other, without failures or calls from outside. -/
def Goes (config : RunConfig) (s next : VmRun) : Prop :=
  ∃ acts, Run (Step config) s acts next ∧ ∀ act ∈ acts, ∃ t, act = (t, .go 0)

theorem Goes.refl : Goes config s s := ⟨[], .nil, by simp⟩

theorem Goes.trans (first : Goes config s after) (second : Goes config after next)
    : Goes config s next := by
  obtain ⟨some, run, quiet⟩ := first
  obtain ⟨more, further, still⟩ := second
  refine ⟨some ++ more, run.append further, ?_⟩
  intro act member
  exact (List.mem_append.mp member).elim (quiet act) (still act)

theorem Goes.single (stepped : Step config s (t, .go 0) next) : Goes config s next :=
  ⟨[(t, .go 0)], .single stepped, by simp⟩

theorem Goes.ordered (goes : Goes config s next) (ordered : Ordered s) : Ordered next := by
  obtain ⟨acts, run, -⟩ := goes
  exact run.invariant Ordered (fun _ _ _ before stepped => stepped.ordered before) ordered

/-- A thread that waits for no other goes on to its end, by induction on its steps left. -/
theorem runs_out (ordered : Ordered s) (helper : t ≠ .main)
    (free : ∀ u, s.threadLock = some u → u = t)
    : ∃ next, Goes config s next ∧ next.calls t = [] ∧ next.calls .main = s.calls .main
      ∧ next.threadLock = none ∧ Forward s.shared next.shared
      ∧ (s.Top t Frame.stops → next.shared.io.stopped = true) := by
  generalize left : stackRank config.nrVcpus (s.calls t) = rank
  induction rank using Nat.strong_induction_on generalizing s with
  | _ rank ih =>
    have holder : ∀ u, s.threadLock = some u → s.Top t Frame.holds := by
      intro u locked
      have here := free u locked
      exact here ▸ (ordered.lock u).mp locked
    cases top : s.calls t with
    | nil =>
      refine ⟨s, .refl, top, rfl, ?_, .refl _, ?_⟩
      · refine Option.eq_none_iff_forall_ne_some.mpr fun u locked => ?_
        have wrong := holder u locked
        rw [VmRun.Top, top] at wrong
        cases wrong
      · intro wrong
        rw [VmRun.Top, top] at wrong
        cases wrong
    | cons frame below =>
      have plain := ordered.helpers t helper
      rw [top, List.any_cons, Bool.or_eq_false_iff] at plain
      have unblocked : frame.holds = true ∨ s.threadLock = none := by
        cases locked : s.threadLock with
        | none => exact .inr rfl
        | some u =>
          have held := holder u locked
          rw [VmRun.Top, top] at held
          exact .inl held
      obtain ⟨after, frames, stepped, stack, fewer⟩ := go_on config top unblocked
        (by rintro index handle rfl; cases plain.1) (by rintro rfl; cases plain.1)
      have waiting := ordered.nested t
      rw [top, List.tail_cons] at waiting
      have own := after.goto_calls t (frames ++ below)
      have still : ∀ u, after.threadLock = some u → u = t := by
        intro u locked
        by_contra different
        have owner := stack.lock.owner (@Ordered.held s t below [frame] ordered top waiting)
        exact different (free u ((owner.2 u different).mp locked))
      obtain ⟨next, goes, done, main, lock, forward, stopped⟩ :=
        ih _ (left ▸ fewer) (stepped.ordered ordered) still (by rw [own])
      refine ⟨next, (Goes.single stepped).trans goes, done, ?_, lock,
        stack.change.forward.trans forward, ?_⟩
      · exact main.trans (stack.main (ordered.unborn _ le_rfl) (Ne.symm helper))
      · intro stops
        rw [VmRun.Top, top] at stops
        rcases stack.stopping stops with going | already
        · refine stopped ?_
          rw [VmRun.Top, own, head_append stops_leaf waiting]
          exact going
        · exact forward.stopped already

/-- `vm_run` was called: it has returned, or it is the outermost call of the main thread. -/
def VmRun.Underway (s : VmRun) : Prop :=
  s.shared.result.isSome = true
    ∨ (s.calls .main).getLast?.any (fun bottom => !bottom.assembles) = true

theorem VmRun.Underway.step (underway : s.Underway) (ordered : Ordered s)
    (top : s.calls .main = frame :: below) (stepped : StackStep s .main [frame] after frames)
    : (after.goto .main (frames ++ below)).Underway := by
  have own := after.goto_calls .main (frames ++ below)
  rcases underway with returned | called
  · exact .inl (stepped.change.forward.returned returned)
  · have shape := ordered.main.1
    rw [top] at shape called
    cases run : frame.isRun with
    | true =>
      -- A frame of `vm_run` gives way to others of it, or to its result.
      have bottom : below = [] := @runShape_bottom below [frame] shape (by simp [run])
      subst bottom
      rcases stepped.returns with more | plain | assembles | returned
      · refine .inr ?_
        rw [own, List.append_nil, List.getLast?_eq_some_getLast more]
        have member := List.getLast_mem more
        simp [List.any_eq_false.mp stepped.assembles _ member]
      · simp [run] at plain
      · simp at assembles called
        simp [assembles] at called
      · exact .inl returned
    | false =>
      have plain : [frame].any Frame.isRun = false := by simp [run]
      refine .inr ?_
      rw [own, (@runShape_exchange below [frame] frames shape (List.cons_ne_nil _ _) plain
        (stepped.helps plain).1).2]
      exact called

theorem releases (config : RunConfig) (ordered : Ordered s)
    (other : s.threadLock ≠ some .main)
    : ∃ next, Goes config s next ∧ next.calls .main = s.calls .main ∧ next.threadLock = none
      ∧ Forward s.shared next.shared := by
  cases locked : s.threadLock with
  | none => exact ⟨s, .refl, rfl, locked, .refl _⟩
  | some u =>
    have helper : u ≠ .main := fun same => other (same ▸ locked)
    obtain ⟨next, goes, -, main, lock, forward, -⟩ := runs_out ordered helper
      (fun v held => Option.some.inj (held.symm.trans locked))
    exact ⟨next, goes, main, lock, forward⟩

theorem unblocks (config : RunConfig) (ordered : Ordered s)
    (stops : s.shared.stopRequested = true ∨ s.shared.io.stopped = true)
    (top : s.calls .main = frame :: below)
    : ∃ next, Goes config s next ∧ next.calls .main = s.calls .main
      ∧ Forward s.shared next.shared ∧ (frame.holds = true ∨ next.threadLock = none)
      ∧ frame.Joins next ∧ (frame = .dispatch → next.shared.io.stopped = true) := by
  cases holds : frame.holds with
  | true =>
    refine ⟨s, .refl, rfl, .refl _, .inl rfl, ?_, ?_⟩
    · rintro _ _ rfl
      cases holds
    · rintro rfl
      cases holds
  | false =>
    have other : s.threadLock ≠ some .main := by
      rw [Ne, ordered.lock, VmRun.Top, top]
      simp [holds]
    obtain ⟨free, goes, main, lock, forward⟩ := releases config ordered other
    have order := goes.ordered ordered
    have idle : ∀ u v, free.threadLock = some v → v = u := by simp [lock]
    by_cases joining : ∃ index handle, frame = .joining index (some handle)
    · obtain ⟨index, handle, rfl⟩ := joining
      obtain ⟨next, more, done, same, lock, further, -⟩ := runs_out (t := .vcpu handle) order
        (fun wrong => by cases wrong) (idle _)
      refine ⟨next, goes.trans more, same.trans main, forward.trans further, .inr lock, ?_,
        fun wrong => by cases wrong⟩
      rintro _ _ same
      cases same
      exact done
    have joins : ∀ next, frame.Joins next := fun _ index handle same =>
      absurd ⟨index, handle, same⟩ joining
    by_cases stopped : free.shared.io.stopped = true
    · exact ⟨free, goes, main, forward, .inr lock, joins _, fun _ => stopped⟩
    by_cases dispatch : frame = .dispatch
    · subst dispatch
      have requested := stops.imp forward.requested forward.stopped
      obtain ⟨u, stops⟩ := (order.stop (requested.resolve_right stopped)).resolve_left stopped
      have helper : u ≠ .main := by
        rintro rfl
        rw [VmRun.Top, main, top] at stops
        cases stops
      obtain ⟨next, more, -, same, lock, further, reaches⟩ := runs_out order helper (idle u)
      exact ⟨next, goes.trans more, same.trans main, forward.trans further, .inr lock, joins _,
        fun _ => reaches stops⟩
    · exact ⟨free, goes, main, forward, .inr lock, joins _, fun same => absurd same dispatch⟩

/-- A machine that has to stop goes on until `vm_run` returns, by induction on the main thread's
steps left.
-/
theorem run_returns (ordered : Ordered s)
    (stops : s.shared.stopRequested = true ∨ s.shared.io.stopped = true) (underway : s.Underway)
    : ∃ next, Goes config s next ∧ next.shared.result.isSome = true := by
  generalize left : stackRank config.nrVcpus (s.calls .main) = rank
  induction rank using Nat.strong_induction_on generalizing s with
  | _ rank ih =>
    cases top : s.calls .main with
    | nil =>
      refine ⟨s, .refl, underway.resolve_right ?_⟩
      simp [top]
    | cons =>
      obtain ⟨ready, goes, main, forward, free, joins, stopped⟩ :=
        unblocks config ordered stops top
      have order := goes.ordered ordered
      have now := main.trans top
      obtain ⟨after, frames, stepped, stack, fewer⟩ := go_on config now free joins stopped
      have called : ready.Underway := by
        refine underway.imp forward.returned fun bottom => ?_
        rw [main]
        exact bottom
      obtain ⟨next, more, returned⟩ := ih _ (by rw [← left, ← main]; exact fewer)
        (stepped.ordered order)
        ((stops.imp forward.requested forward.stopped).imp stack.change.forward.requested
          stack.change.forward.stopped)
        (called.step order now stack) (by rw [VmRun.goto_calls])
      exact ⟨next, (goes.trans (.single stepped)).trans more, returned⟩

end Modvm.Core.Execution
