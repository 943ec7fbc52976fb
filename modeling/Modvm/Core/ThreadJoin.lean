import Modvm.Core.RunOrder

/-! No processor thread outlives `vm_run`, however many were started and whoever stopped it. -/

namespace Modvm.Core.Execution

open Function Modvm.Lib

variable {config : RunConfig} {s next after : VmRun} {t : Thread} {frame : Frame}
  {below old new : List Frame}

/-- While `vm_run` is here, the handle at this index is empty: before a thread is created for it,
and after it was taken to be joined.
-/
def Frame.empties (index : Nat) : Frame → Bool
  | .assemble | .start | .allocate | .schedule | .powerOn | .boot | .spawnLock | .abort | .finish =>
      true
  | .spawn place | .create place => place ≤ index
  | .join place => index < place
  | .joining place _ => index ≤ place
  | _ => false

/-- What a step that replaces the frame on top of a stack, if it is one of a frame, does to the
handles and to the processor threads.
-/
inductive HandleStep (s : VmRun) (old : Option Frame) (after : VmRun) (new : List Frame) : Prop
  | same (handles : after.vcpuThreads = s.vcpuThreads) (calls : after.calls = s.calls)
    (count : after.created = s.created)
  | created (index : Nat) (here : old = some (.create index)) (next : new = [.spawn (index + 1)])
    (handles : after.vcpuThreads = update s.vcpuThreads index (some s.created))
    (calls : after.calls = update s.calls (.vcpu s.created) [.vcpuEntry])
    (count : after.created = s.created + 1)
  | taken (index : Nat) (here : old = some (.join index))
    (next : new = [.joining index (s.vcpuThreads index)])
    (handles : after.vcpuThreads = update s.vcpuThreads index none) (calls : after.calls = s.calls)
    (count : after.created = s.created)

/-- How `vm_run` itself goes on. -/
structure RunStep (config : RunConfig) (s : VmRun) (frame : Frame) (after : VmRun)
    (new : List Frame) : Prop where
  joined : ∀ index thread, frame = .joining index thread
    → thread.all (fun handle => (s.calls (.vcpu handle)).isEmpty) = true
  returns : new = [] → ∀ index, frame.empties index = true
  creates : ∀ index, new.getLast? = some (.create index) → index < config.nrVcpus
  empties : ∀ bottom ∈ new.getLast?, ∀ index < config.nrVcpus, bottom.empties index = true
    → after.vcpuThreads index = none
      ∨ frame.empties index = true ∧ after.vcpuThreads index = s.vcpuThreads index

theorem frameStep_handles {answer : Int}
    (stepped : frameStep config s t answer frame = some (after, new))
    : HandleStep s (some frame) after new
      ∧ (frame.isRun = true → RunStep config s frame after new) := by
  cases frame <;> simp only [frameStep] at stepped <;> (try split_ifs at stepped) <;>
    simp only [Option.some.injEq] at stepped <;> obtain ⟨rfl, rfl⟩ := stepped <;>
    refine ⟨by first | exact .same rfl rfl rfl | exact .created _ rfl rfl rfl rfl rfl
                     | exact .taken _ rfl rfl rfl rfl rfl, ?_⟩
  all_goals first
    | (intro wrong; cases wrong; done)
    | (refine fun _ => ⟨?_, ?_, ?_, ?_⟩ <;>
        simp_all [Frame.empties, VmRun.spawnVcpu, VmRun.goto] <;> grind)

/-- What holds in every reachable state: the handles that `vm_run` counts as empty are, and it has
still to join the threads that run.
-/
structure Joins (config : RunConfig) (s : VmRun) : Prop where
  ordered : Ordered s
  bound : ∀ index, (s.calls .main).getLast? = some (.create index) → index < config.nrVcpus
  empty : ∀ frame ∈ (s.calls .main).getLast?, ∀ index < config.nrVcpus,
    frame.empties index = true → s.vcpuThreads index = none
  awaited : ∀ handle, s.calls (.vcpu handle) ≠ [] → ∃ frame ∈ (s.calls .main).getLast?,
    (∃ index, frame = .joining index (some handle))
      ∨ ∃ index < config.nrVcpus, s.vcpuThreads index = some handle

theorem Joins.helper (joins : Joins config s) (top : s.calls t = old ++ below)
    (alive : (∃ id, t = .producer id) ∨ s.calls t ≠ []) (waiting : below.all Frame.calls = true)
    (step : StackStep s t old after new) (helps : old.any Frame.isRun = false)
    (handles : after.vcpuThreads = s.vcpuThreads) (calls : after.calls = s.calls)
    : Joins config (after.goto t (new ++ below)) := by
  have last : ((after.goto t (new ++ below)).calls .main).getLast?
      = (s.calls .main).getLast? := by
    by_cases here : t = .main
    · subst here
      have shape := joins.ordered.main.1
      have some := alive.resolve_left (by rintro ⟨_, wrong⟩; cases wrong)
      rw [top] at shape some
      rw [top]
      exact (runShape_exchange shape some helps (step.helps helps).1).2
    · rw [show (after.goto t (new ++ below)).calls .main = after.calls .main from
        update_of_ne (Ne.symm here) .., calls]
  refine ⟨joins.ordered.step top waiting alive step, ?_, ?_, fun handle runs => ?_⟩ <;> rw [last]
  · exact joins.bound
  · exact handles ▸ joins.empty
  · change ∃ frame ∈ _, _ ∨ ∃ index < _, after.vcpuThreads index = _
    rw [handles]
    refine joins.awaited handle fun ended => runs ?_
    by_cases here : .vcpu handle = t
    · subst here
      rcases alive with ⟨_, wrong⟩ | running
      · cases wrong
      · exact absurd ended running
    · rw [← ended, ← calls]
      exact update_of_ne here ..

theorem Joins.run (joins : Joins config s) (here : s.calls .main = [frame])
    (ordered : Ordered (after.goto .main new)) (step : HandleStep s (some frame) after new)
    (run : RunStep config s frame after new)
    : Joins config (after.goto .main new) := by
  obtain ⟨-, bound, empty, awaited⟩ := joins
  rw [here] at empty awaited
  have empty := empty frame rfl
  -- A thread that runs is not the one that was just joined, so it is still published.
  have kept : ∀ handle, s.calls (.vcpu handle) ≠ []
      → ∃ index < config.nrVcpus, s.vcpuThreads index = some handle
        ∧ frame.empties index = false := by
    intro handle runs
    obtain ⟨_, same, waits⟩ := awaited handle runs
    obtain rfl := Option.some.inj same
    rcases waits with ⟨index, rfl⟩ | ⟨index, inside, published⟩
    · have ended := run.joined index _ rfl
      rw [Option.all_some, List.isEmpty_iff] at ended
      exact absurd ended runs
    · refine ⟨index, inside, published, Bool.eq_false_iff.mpr fun clear => ?_⟩
      rw [empty index inside clear] at published
      cases published
  refine ⟨ordered, ?_, ?_, fun handle runs => ?_⟩ <;> rw [VmRun.goto_calls]
  · exact run.creates
  · intro bottom last index inside clear
    rcases run.empties bottom last index inside clear with now | ⟨before, same⟩
    · exact now
    · exact same.trans (empty index inside before)
  · change after.calls (.vcpu handle) ≠ [] at runs
    change ∃ frame ∈ _, _ ∨ ∃ index < _, after.vcpuThreads index = _
    cases step with
    | same handles calls =>
      rw [calls] at runs
      obtain ⟨index, inside, published, filled⟩ := kept handle runs
      cases last : new.getLast? with
      | none =>
        -- `vm_run` returns only from frames for which every handle is empty.
        rw [run.returns (List.getLast?_eq_none_iff.mp last) index] at filled
        cases filled
      | some bottom => exact ⟨bottom, rfl, .inr ⟨index, inside, handles ▸ published⟩⟩
    | created index create next handles calls =>
      cases create
      rw [next, handles]
      refine ⟨_, rfl, .inr ?_⟩
      by_cases fresh : handle = s.created
      · subst fresh
        exact ⟨index, bound index (by rw [here]; rfl), update_self ..⟩
      · rw [calls, update_of_ne (by simpa using fresh)] at runs
        obtain ⟨other, inside, published, filled⟩ := kept handle runs
        refine ⟨other, inside, ?_⟩
        rw [update_of_ne ?_, published]
        -- The handle of the new thread was empty, so it hides no other.
        rintro rfl
        simp [Frame.empties] at filled
    | taken index join next handles calls =>
      rw [calls] at runs
      obtain ⟨other, inside, published, -⟩ := kept handle runs
      rw [next, handles]
      refine ⟨_, rfl, ?_⟩
      by_cases chosen : other = index
      · exact .inl ⟨index, by rw [← chosen, published]; rfl⟩
      · exact .inr ⟨other, inside, by rw [update_of_ne chosen, published]⟩

theorem Joins.step {act : Thread × Act} (joins : Joins config s)
    (stepped : Step config s act next)
    : Joins config next := by
  obtain ⟨t, act⟩ := act
  have ordered := stepped.ordered joins.ordered
  have nested := joins.ordered.nested t
  cases stepped.taken with
  | call request runs =>
    obtain ⟨waiting, alive⟩ := clientRuns_waits runs nested
    exact joins.helper (List.nil_append _).symm alive waiting (call_stack s t request) rfl rfl rfl
  | @go _ frame below frames after top inner =>
    obtain ⟨handles, run⟩ := frameStep_handles inner
    rw [top] at nested
    cases kind : frame.isRun with
    | true =>
      have main : t = .main := by
        by_contra helper
        have clean := joins.ordered.helpers t helper
        simp [top, kind] at clean
      subst main
      have shape := joins.ordered.main.1
      rw [top] at shape
      obtain rfl := runShape_bottom (List.singleton_append ▸ shape) (by simp [kind])
      rw [List.append_nil] at ordered ⊢
      exact joins.run top ordered handles (run kind)
    | false =>
      cases handles with
      | same handles calls =>
        exact joins.helper top (.inr (top ▸ List.cons_ne_nil _ _)) nested (frameStep_stack inner)
          (by simp [kind]) handles calls
      | created index create =>
        cases create
        cases kind
      | taken index join =>
        cases join
        cases kind

/-- No processor thread outlives `vm_run`. In any reachable state of any interleaving, with any
failures of host, board and accelerator, a processor thread that still runs has its handle where
`vm_run` will find it, or `vm_run` is joining it; so `vm_run` has not come to its end.
-/
theorem vm_run_joins_threads {acts : List (Thread × Act)}
    (run : Run (Step config) .initial acts s) {handle : Nat} (runs : s.calls (.vcpu handle) ≠ [])
    : ∃ frame ∈ (s.calls .main).getLast?, frame ≠ .finish
      ∧ ((∃ index, frame = .joining index (some handle))
        ∨ ∃ index < config.nrVcpus, s.vcpuThreads index = some handle) := by
  have joins := run.invariant (Joins config) (fun _ _ _ joins stepped => joins.step stepped)
    ⟨.initial, by simp [VmRun.initial], fun _ _ _ _ _ => rfl, fun _ wrong => absurd rfl wrong⟩
  obtain ⟨frame, last, waits⟩ := joins.awaited handle runs
  refine ⟨frame, last, ?_, waits⟩
  rintro rfl
  rcases waits with ⟨_, wrong⟩ | ⟨index, inside, published⟩
  · cases wrong
  · rw [joins.empty .finish last index inside rfl] at published
    cases published

/-- The first processor has just been started. -/
theorem vm_run_joins_threads_started
    : ∃ s, Run (Step ⟨2, fun _ => true, false⟩) .initial (List.replicate 8 (.main, .go 0)) s
      ∧ s.calls (.vcpu 0) = [.vcpuEntry]
      ∧ ∃ frame ∈ (s.calls .main).getLast?, frame ≠ .finish
        ∧ ((∃ index, frame = .joining index (some 0))
          ∨ ∃ index < 2, s.vcpuThreads index = some 0) := by
  obtain ⟨s, reached, started⟩
      : ∃ s, (List.replicate 8 (.main, .go 0)).foldlM (step ⟨2, fun _ => true, false⟩) .initial
          = some s ∧ s.calls (.vcpu 0) = [.vcpuEntry] :=
    ⟨_, rfl, rfl⟩
  have run : Run (Step ⟨2, fun _ => true, false⟩) .initial _ s := Run.of_foldlM reached
  exact ⟨s, run, started, vm_run_joins_threads run (started ▸ List.cons_ne_nil _ _)⟩

end Modvm.Core.Execution
