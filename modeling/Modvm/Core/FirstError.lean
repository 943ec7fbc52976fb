import Modvm.Core.RunProgress
import Modvm.Io.Flow

/-! The first error of a running machine is the one that is reported, recorded and returned. -/

namespace Modvm.Core.Execution

open Modvm.Lib

variable {config : RunConfig} {s next after : VmRun} {t u : Thread} {frame : Frame}
  {frames below : List Frame} {answer : Int}

/-! ### The I/O context -/

section IoContext

variable {τ : Type} {io later : Io.IoCtx τ}

def IoLatch.of (io : Io.IoCtx τ) : IoLatch := ⟨io.stopped, io.error⟩

def IoLatch.perform (latch : IoLatch) : Io.Op → IoLatch
  | .stop => latch.stop
  | .fail error => latch.fail error
  | _ => latch

variable [DecidableEq τ]

theorem ioCtxFail_latch (io : Io.IoCtx τ) (id : τ) (error : Int)
    : IoLatch.of (Io.ioCtxFail io id error) = (IoLatch.of io).fail error
      ∧ (Io.ioCtxFail io id error).calls id
        = if (IoLatch.of io).Reports error ∧ io.hasFatal then .fatal :: io.calls id
          else io.calls id := by
  unfold Io.ioCtxFail
  by_cases first : error < 0 ∧ io.error = 0 <;> cases io.hasFatal <;>
    simp [IoLatch.of, IoLatch.fail, IoLatch.Reports, first, Io.IoCtx.goto]

theorem latch_step {id : τ} {op : Io.Op} (taken : Io.Step io (id, op) later)
    : IoLatch.of later = (IoLatch.of io).perform op := by
  unfold Io.Step at taken
  cases op
  case advance =>
    obtain ⟨-, stopped, error⟩ := Io.advance_kept taken
    simp only [IoLatch.of, IoLatch.perform, stopped, error]
  all_goals
    simp only [Io.step, Io.call, Option.ite_none_right_eq_some, Option.some.injEq] at taken
  case create =>
    obtain ⟨-, -, rfl⟩ := taken
    unfold Io.ioBindingCreateLocked
    split
    · rfl
    split <;> rfl
  case post =>
    obtain ⟨-, rfl⟩ := taken
    unfold Io.ioBindingPost
    split <;> rfl
  case fail error =>
    obtain ⟨-, rfl⟩ := taken
    exact (ioCtxFail_latch io id error).1
  case close =>
    obtain ⟨-, -, rfl⟩ := taken
    rfl
  case put =>
    obtain ⟨-, -, rfl⟩ := taken
    rfl
  case setEnabled =>
    obtain ⟨-, -, rfl⟩ := taken
    rfl
  all_goals
    obtain ⟨-, rfl⟩ := taken
    rfl

end IoContext

/-! ### First errors -/

def firstError (errors : List Int) : Int := (errors.find? (· < 0)).getD 0

theorem firstError_concat (errors : List Int) (error : Int)
    : firstError (errors ++ [error])
      = if error < 0 ∧ firstError errors = 0 then error else firstError errors := by
  unfold firstError
  rw [List.find?_append]
  cases found : errors.find? (· < 0) with
  | none => by_cases negative : error < 0 <;> simp [negative]
  | some first =>
    have negative : first < 0 := by simpa using List.find?_some found
    simp [show ¬ first = 0 by omega]

theorem firstError_eq_zero (errors : List Int)
    : firstError errors = 0 ↔ ∀ error ∈ errors, 0 ≤ error := by
  unfold firstError
  cases found : errors.find? (· < 0) with
  | none => simpa using found
  | some first =>
    have negative : first < 0 := by simpa using List.find?_some found
    have member := List.mem_of_find?_eq_some found
    refine ⟨fun zero => ?_, fun every => ?_⟩
    · have : first = 0 := zero
      omega
    · have := every first member
      omega

theorem firstError_found {errors : List Int} {error : Int} (first : firstError errors = error)
    (negative : error < 0)
    : errors.find? (· < 0) = some error := by
  unfold firstError at first
  cases found : errors.find? (· < 0) with
  | none =>
    have : (0 : Int) = error := by simpa [found] using first
    omega
  | some => simpa [found] using first

/-- The latches hold the first errors that they were offered. -/
structure Latched (shared : Shared) : Prop where
  run : shared.runError = firstError shared.recorded
  io : shared.io.error = firstError shared.given

theorem Latched.change {shared later : Shared} (latched : Latched shared)
    (change : Change shared later)
    : Latched later := by
  obtain ⟨run, io⟩ := latched
  cases change with
  | record error =>
    refine ⟨?_, io⟩
    rw [Shared.record, firstError_concat, ← run]
    simp [error.2]
  | failIo =>
    refine ⟨run, ?_⟩
    rw [Shared.failIo, firstError_concat, ← io]
    rfl
  | _ => exact ⟨run, io⟩

/-! ### The fatal callback -/

def Frame.fatal : Frame → Option Errno
  | .failing error => some error
  | _ => none

def VmRun.pending (s : VmRun) (t : Thread) : Option Errno := (s.calls t).head?.bind Frame.fatal

def Frame.effect (ready : Bool) : Frame → Shared → Shared
  | .failing error => .callFatal error
  | .reporting error => .record error
  | .requesting => .requestStop
  | .kickFailed _ error => .record error
  | .stopping => .stopIo
  | .start => fun shared => if ready then shared else { shared with result := some einval }
  | .dispatch => fun shared => if shared.io.stopped then shared.observe else shared
  | .finish => .finish
  | _ => id

theorem frameStep_effect (stepped : frameStep config s t answer frame = some (after, frames))
    : after.shared = frame.effect (s.state = .ready) s.shared
      ∧ frames.head?.bind Frame.fatal = none := by
  cases frame <;> simp only [frameStep] at stepped <;> (try split_ifs at stepped) <;>
    simp only [Option.some.injEq] at stepped <;> obtain ⟨rfl, rfl⟩ := stepped <;>
    refine ⟨?_, rfl⟩ <;> first | rfl | simp_all [Frame.effect, VmRun.update]

theorem Frame.effect_fatals (frame : Frame) (ready : Bool) (shared : Shared)
    : (frame.effect ready shared).io.error = shared.io.error
      ∧ (frame.effect ready shared).fatals
        = shared.fatals ++ (frame.fatal.map Subtype.val).toList := by
  cases frame with
  | failing => exact ⟨rfl, rfl⟩
  | start => cases ready <;> exact ⟨rfl, (List.append_nil _).symm⟩
  | dispatch =>
    simp only [Frame.effect]
    split <;> exact ⟨rfl, (List.append_nil _).symm⟩
  | _ => exact ⟨rfl, (List.append_nil _).symm⟩

/-- At most one error was reported, the one in the I/O context, and at most one thread is about to
report it.
-/
structure ReportedOnce (s : VmRun) : Prop where
  pending : ∀ t error, s.pending t = some error
    → error = s.shared.io.error ∧ s.shared.fatals = []
  single : ∀ t u, (s.pending t).isSome → (s.pending u).isSome → t = u
  reported : ∀ error ∈ s.shared.fatals, error = s.shared.io.error ∧ error < 0
  once : s.shared.fatals.length ≤ 1

/-- How a step reports: nothing new, the callback, or latching an error to report. -/
inductive Reporting (s : VmRun) (t : Thread) (next : VmRun) : Prop
  | none (own : next.pending t = .none) (error : next.shared.io.error = s.shared.io.error)
    (fatals : next.shared.fatals = s.shared.fatals)
  | calls (error : Errno) (due : s.pending t = some error) (own : next.pending t = .none)
    (same : next.shared.io.error = s.shared.io.error)
    (fatals : next.shared.fatals = s.shared.fatals ++ [error.1])
  | latches (error : Errno) (first : s.shared.io.error = 0) (own : next.pending t = some error)
    (latched : next.shared.io.error = error) (fatals : next.shared.fatals = s.shared.fatals)

theorem fatal_leaf (waiting : below.all Frame.calls = true)
    : (frames ++ below).head?.bind Frame.fatal = frames.head?.bind Frame.fatal := by
  cases frames with
  | cons => rfl
  | nil =>
    cases below with
    | nil => rfl
    | cons first =>
      simp only [List.all_cons, Bool.and_eq_true] at waiting
      cases first <;> first | rfl | cases waiting.1

theorem Taken.reporting (ordered : Ordered s) (taken : Taken config s t next)
    : Reporting s t next := by
  cases taken with
  | @go _ frame below frames after top stepped =>
    obtain ⟨effect, none⟩ := frameStep_effect stepped
    have waiting := ordered.nested t
    rw [top, List.tail_cons] at waiting
    have own : (after.goto t (frames ++ below)).pending t = .none := by
      rw [VmRun.pending, VmRun.goto_calls, fatal_leaf waiting, none]
    obtain ⟨error, fatals⟩ := frame.effect_fatals (s.state = .ready) s.shared
    rw [← effect] at error fatals
    cases due : frame.fatal with
    | none =>
      rw [due] at fatals
      exact .none own error (fatals.trans (List.append_nil _))
    | some first =>
      rw [due] at fatals
      refine .calls first ?_ own error fatals
      rw [VmRun.pending, top]
      exact due
  | call request runs =>
    obtain ⟨waiting, -⟩ := clientRuns_waits runs (ordered.nested t)
    have own : (Execution.call s t request).pending t
        = (request.frames s.shared.io).head?.bind Frame.fatal := by
      rw [VmRun.pending, Execution.call, VmRun.goto_calls, fatal_leaf waiting]
    cases request with
    | fail error =>
      by_cases first : s.shared.io.Reports error
      · refine .latches ⟨error, first.1⟩ first.2 ?_ (if_pos first) rfl
        rw [own, Call.frames, dif_pos first]
        rfl
      · refine .none ?_ (if_neg first) rfl
        rw [own, Call.frames, dif_neg first]
        rfl
    | report error =>
      refine .none ?_ rfl rfl
      by_cases negative : error < 0 <;> simp [own, Call.frames, negative, Frame.fatal]
    | shutdown => exact .none own rfl rfl

theorem Taken.pending_other (ordered : Ordered s) (taken : Taken config s t next)
    (different : u ≠ t)
    : next.pending u = s.pending u := by
  obtain ⟨old, below, after, new, -, -, -, stepped, rfl⟩ := taken.stack ordered
  have elsewhere : (after.goto t (new ++ below)).calls u = after.calls u :=
    Function.update_of_ne different ..
  rw [VmRun.pending, VmRun.pending, elsewhere]
  rcases stepped.other (ordered.unborn _ le_rfl) u with same | ⟨entry, unborn, -⟩
  · rw [same]
  · rw [entry, unborn]
    rfl

theorem ReportedOnce.step (reported : ReportedOnce s) (ordered : Ordered s)
    (taken : Taken config s t next)
    : ReportedOnce next := by
  have others := fun u (different : u ≠ t) => taken.pending_other ordered different
  -- Unless this thread has to report, whoever has to report had to before.
  have before : next.pending t = .none → ∀ u error, next.pending u = some error
      → u ≠ t ∧ s.pending u = some error := by
    intro own u error due
    have different : u ≠ t := by
      rintro rfl
      simp [own] at due
    exact ⟨different, others u different ▸ due⟩
  have unique : next.pending t = .none
      → ∀ u v, (next.pending u).isSome → (next.pending v).isSome → u = v := by
    intro own u v one two
    obtain ⟨error, one⟩ := Option.isSome_iff_exists.mp one
    obtain ⟨error', two⟩ := Option.isSome_iff_exists.mp two
    refine reported.single u v ?_ ?_
    · simp [(before own u error one).2]
    · simp [(before own v error' two).2]
  cases taken.reporting ordered with
  | none own error fatals =>
    refine ⟨fun u first due => ?_, unique own, ?_, ?_⟩
    · rw [error, fatals]
      exact reported.pending u first (before own u first due).2
    · rw [error, fatals]
      exact reported.reported
    · rw [fatals]
      exact reported.once
  | calls error due own same fatals =>
    obtain ⟨latched, none⟩ := reported.pending t error due
    rw [none] at fatals
    refine ⟨fun u first later => ?_, unique own, ?_, ?_⟩
    · obtain ⟨different, earlier⟩ := before own u first later
      exact absurd (reported.single u t (by simp [earlier]) (by simp [due])) different
    · rw [fatals, same]
      intro only member
      rw [List.mem_singleton.mp member]
      exact ⟨latched, error.2⟩
    · rw [fatals]
      exact le_rfl
  | latches error first own latched fatals =>
    -- There was no error before, so nothing was reported and no thread has to.
    have quiet : s.shared.fatals = [] := by
      refine List.eq_nil_iff_forall_not_mem.mpr fun earlier member => ?_
      obtain ⟨same, negative⟩ := reported.reported earlier member
      omega
    have idle : ∀ u ≠ t, next.pending u = .none := by
      intro u different
      rw [others u different]
      refine Option.eq_none_iff_forall_ne_some.mpr fun earlier due => ?_
      have same := (reported.pending u earlier due).1
      omega
    have mine : ∀ u, (next.pending u).isSome → u = t := by
      intro u due
      by_contra different
      simp [idle u different] at due
    refine ⟨fun u later due => ?_, fun u v one two => ?_, ?_, ?_⟩
    · rw [mine u (by simp [due]), own] at due
      cases due
      exact ⟨latched.symm, fatals.trans quiet⟩
    · exact (mine u one).trans (mine v two).symm
    · simp [fatals, quiet]
    · simp [fatals, quiet]

/-! ### The result -/

/-- An error that the dispatch loop saw is recorded, or the main thread is about to record it. -/
def Carried (s : VmRun) : Prop :=
  ∀ error, s.shared.observed = some error → ∀ negative : error < 0, s.shared.runError ≠ 0
    ∨ s.calls .main = [.out error] ∨ s.calls .main = [.reporting ⟨error, negative⟩, .cleanup]

theorem Frame.effect_observed (frame : Frame) (ready : Bool) (shared : Shared)
    (other : frame ≠ .dispatch)
    : (frame.effect ready shared).observed = shared.observed := by
  cases frame with
  | dispatch => exact absurd rfl other
  | start => cases ready <;> rfl
  | _ => rfl

theorem Frame.effect_result (frame : Frame) (ready : Bool) (shared : Shared)
    (other : frame ≠ .start) (last : frame ≠ .finish)
    : (frame.effect ready shared).result = shared.result := by
  cases frame with
  | start => exact absurd rfl other
  | finish => exact absurd rfl last
  | dispatch =>
    simp only [Frame.effect]
    split <;> rfl
  | _ => rfl

theorem Call.effect_run (request : Call) (shared : Shared)
    : (request.effect shared).observed = shared.observed
      ∧ (request.effect shared).result = shared.result := by
  cases request <;> exact ⟨rfl, rfl⟩

theorem Ordered.run_frame (ordered : Ordered s) (top : s.calls t = frame :: below)
    (run : frame.isRun = true)
    : t = .main ∧ below = [] := by
  have here : t = .main := by
    by_contra helper
    have plain := ordered.helpers t helper
    simp [top, run] at plain
  subst here
  have shape := ordered.main.1
  rw [top] at shape
  exact ⟨rfl, @runShape_bottom below [frame] shape (by simp [run])⟩

theorem Carried.step (carried : Carried s) (ordered : Ordered s) (taken : Taken config s t next)
    : Carried next := by
  intro error seen negative
  have forward : Forward s.shared next.shared := by
    obtain ⟨old, below, after, new, -, -, -, stack, rfl⟩ := taken.stack ordered
    exact stack.change.forward
  have recorded : s.shared.runError ≠ 0 → next.shared.runError ≠ 0 :=
    fun nonzero => forward.latched nonzero ▸ nonzero
  cases taken with
  | call request runs =>
    rcases carried error ((request.effect_run s.shared).1 ▸ seen) negative with done | rest
    · exact .inl (recorded done)
    have different : .main ≠ t := by
      rintro rfl
      rcases rest with out | reporting
      · rw [out] at runs
        cases runs
      · rw [reporting] at runs
        cases runs
    have same : (Execution.call s t request).calls .main = s.calls .main :=
      Function.update_of_ne different ..
    rw [same]
    exact .inr rest
  | @go answer frame below frames after top stepped =>
    have effect := (frameStep_effect stepped).1
    have stack := frameStep_stack stepped
    by_cases dispatch : frame = .dispatch
    · subst dispatch
      obtain ⟨rfl, rfl⟩ := ordered.run_frame top rfl
      simp only [frameStep] at stepped
      split_ifs at stepped with stopped
      · cases stepped
        cases seen
        exact .inr (.inl (VmRun.goto_calls ..))
      · cases stepped
        rcases carried error seen negative with done | out | reporting
        · exact .inl (recorded done)
        · rw [top] at out
          cases out
        · rw [top] at reporting
          cases reporting
    have earlier : s.shared.observed = some error := by
      rw [← frame.effect_observed (s.state = .ready) s.shared dispatch, ← effect]
      exact seen
    rcases carried error earlier negative with done | rest
    · exact .inl (recorded done)
    by_cases here : .main = t
    · subst here
      rcases rest with out | reporting
      · rw [top] at out
        cases out
        simp only [frameStep, dif_pos negative] at stepped
        cases stepped
        exact .inr (.inr (VmRun.goto_calls ..))
      · rw [top] at reporting
        cases reporting
        refine .inl ?_
        change after.shared.runError ≠ 0
        rw [effect]
        simp only [Frame.effect, Shared.record]
        split_ifs <;> omega
    · rw [stack.main (ordered.unborn _ le_rfl) here]
      exact .inr rest

theorem Taken.result {result : Int} (ordered : Ordered s) (carried : Carried s)
    (taken : Taken config s t next) (before : s.shared.result = none)
    (returned : next.shared.result = some result)
    : result = s.shared.runError
      ∧ ∀ error, s.shared.observed = some error → error < 0 → s.shared.runError ≠ 0 := by
  cases taken with
  | call request =>
    have same : s.shared.result = some result := (request.effect_run s.shared).2 ▸ returned
    rw [before] at same
    cases same
  | @go answer frame below frames after top stepped =>
    have effect := (frameStep_effect stepped).1
    have changed : (frame.effect (s.state = .ready) s.shared).result = some result :=
      effect ▸ returned
    by_cases start : frame = .start
    · subst start
      obtain ⟨rfl, rfl⟩ := ordered.run_frame top rfl
      have ready := ordered.main.2 (by rw [top]; rfl)
      simp [Frame.effect, ready, before] at changed
    by_cases finish : frame = .finish
    · subst finish
      obtain ⟨rfl, rfl⟩ := ordered.run_frame top rfl
      refine ⟨(Option.some.inj changed).symm, fun error seen negative => ?_⟩
      rcases carried error seen negative with done | out | reporting
      · exact done
      · rw [top] at out
        cases out
      · rw [top] at reporting
        cases reporting
    · rw [frame.effect_result _ _ start finish, before] at changed
      cases changed

/-! ### Runs -/

structure Consistent (s : VmRun) : Prop where
  ordered : Ordered s
  latched : Latched s.shared
  reported : ReportedOnce s
  carried : Carried s

theorem Consistent.initial : Consistent .initial where
  ordered := .initial
  latched := ⟨rfl, rfl⟩
  reported := by
    have idle : ∀ t, VmRun.initial.pending t = none := fun t => by cases t <;> rfl
    refine ⟨fun t error due => ?_, fun t u due => ?_, fun error member => ?_, Nat.zero_le 1⟩
    · simp [idle] at due
    · simp [idle] at due
    · cases member
  carried error seen := by cases seen

theorem Consistent.step {act : Thread × Act} (consistent : Consistent s)
    (stepped : Step config s act next)
    : Consistent next := by
  obtain ⟨ordered, latched, reported, carried⟩ := consistent
  have taken := stepped.taken
  refine ⟨stepped.ordered ordered, ?_, reported.step ordered taken, carried.step ordered taken⟩
  obtain ⟨old, below, after, new, -, -, -, stack, rfl⟩ := taken.stack ordered
  exact latched.change stack.change

theorem Consistent.forward {acts : List (Thread × Act)} (consistent : Consistent s)
    (run : Run (Step config) s acts next)
    : Forward s.shared next.shared := by
  refine (run.invariant (fun later => Ordered later ∧ Forward s.shared later.shared) ?_
    ⟨consistent.ordered, .refl _⟩).2
  intro later act last held stepped
  refine ⟨stepped.ordered held.1, held.2.trans ?_⟩
  obtain ⟨old, below, after, new, -, -, -, stack, rfl⟩ := stepped.taken.stack held.1
  exact stack.change.forward

/-- For every interleaving: the fatal callback runs at most once, with the first negative error
given to `io_ctx_fail`; `run_error` is the first error recorded, and neither it nor a stop is taken
back; `vm_run` returns the first error recorded until then, zero only if there was none and the
dispatch loop saw none. Once a stop was requested, `vm_run` is never kept from returning.
-/
theorem first_error_wins {acts : List (Thread × Act)} (run : Run (Step config) .initial acts s)
    : (s.shared.fatals.length ≤ 1
        ∧ ∀ error ∈ s.shared.fatals, s.shared.given.find? (· < 0) = some error)
      ∧ s.shared.runError = firstError s.shared.recorded
      ∧ (∀ more later, Run (Step config) s more later → Forward s.shared later.shared)
      ∧ (∀ act next result, Step config s act next → s.shared.result = none
        → next.shared.result = some result
        → result = firstError s.shared.recorded
          ∧ (result = 0 → (∀ error ∈ s.shared.recorded, 0 ≤ error)
            ∧ ∀ error ∈ s.shared.observed, 0 ≤ error))
      ∧ (s.Underway → s.shared.stopRequested = true ∨ s.shared.io.stopped = true
        → ∃ next, Goes config s next ∧ next.shared.result.isSome = true) := by
  have consistent : Consistent s :=
    run.invariant Consistent (fun _ _ _ before stepped => before.step stepped) .initial
  obtain ⟨ordered, latched, reported, carried⟩ := consistent
  refine ⟨⟨reported.once, fun error member => ?_⟩, latched.run,
    fun more later further => Consistent.forward ⟨ordered, latched, reported, carried⟩ further,
    fun act next result stepped before returned => ?_,
    fun underway stops => run_returns ordered stops underway⟩
  · obtain ⟨same, negative⟩ := reported.reported error member
    rw [latched.io] at same
    exact firstError_found same.symm negative
  · obtain ⟨same, recorded⟩ := stepped.taken.result ordered carried before returned
    rw [latched.run] at same recorded
    refine ⟨same, fun zero => ⟨?_, fun error seen => ?_⟩⟩
    · exact (firstError_eq_zero _).mp (same ▸ zero)
    · by_contra negative
      exact recorded error seen (by omega) (same ▸ zero)

def oneVcpu : RunConfig := ⟨1, fun _ => true, true⟩

/-- A producer fails with -7; before its callback, the boot hook reports -28 and fails with -5. -/
def failingBoot : List (Thread × Act) :=
  List.replicate 5 (.main, .go 0)
    ++ [(.producer 0, .call (.fail (-7))), (.main, .call (.report (-28)))]
    ++ List.replicate 6 (.main, .go 0) ++ List.replicate 7 (.producer 0, .go 0)
    ++ [(.main, .go (-5))] ++ List.replicate 16 (.main, .go 0)

theorem first_error_wins_boot
    : ∃ s next, Run (Step oneVcpu) .initial failingBoot s ∧ Step oneVcpu s (.main, .go 0) next
      ∧ (s.shared.recorded = [-28, -7, -5] ∧ -28 = firstError s.shared.recorded)
      ∧ (s.shared.fatals = [-7] ∧ s.shared.given.find? (· < 0) = some (-7))
      ∧ Forward s.shared next.shared
      ∧ ∃ later, Goes oneVcpu s later ∧ later.shared.result.isSome = true := by
  obtain ⟨s, next, reached, last, recorded, fatals, before, returned, bottom, requested⟩
      : ∃ s next, failingBoot.foldlM (step oneVcpu) .initial = some s
        ∧ step oneVcpu s (.main, .go 0) = some next ∧ s.shared.recorded = [-28, -7, -5]
        ∧ s.shared.fatals = [-7] ∧ s.shared.result = none ∧ next.shared.result = some (-28)
        ∧ s.calls .main = [.finish] ∧ s.shared.stopRequested = true :=
    ⟨_, _, rfl, rfl, rfl, rfl, rfl, rfl, rfl, rfl⟩
  have run := Run.of_foldlM reached
  obtain ⟨⟨-, first⟩, -, forward, returns, progress⟩ := first_error_wins run
  refine ⟨s, next, run, last, ⟨recorded, (returns _ _ _ last before returned).1⟩,
    ⟨fatals, first _ (by simp [fatals])⟩, forward _ _ (.single last), progress ?_ (.inl requested)⟩
  exact .inr (by rw [bottom]; rfl)

end Modvm.Core.Execution
