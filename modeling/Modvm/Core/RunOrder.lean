import Modvm.Core.VmRun
import Mathlib.Tactic.SplitIfs

/-! The order of calls in a running machine, of its locks and of a requested stop. -/

namespace Modvm.Core.Execution

open Function Modvm.Lib

variable {config : RunConfig} {s next after : VmRun} {t u : Thread} {frame : Frame}
  {frames below old new : List Frame} {answer : Int}

/-! ### Changes of the shared state -/

/-- What a step can do to the shared state. The last case is `vm_run` of a machine that is not
ready.
-/
inductive Change (shared : Shared) : Shared → Prop
  | none : Change shared shared
  | record (error : Errno) : Change shared (shared.record error)
  | requestStop : Change shared shared.requestStop
  | stopIo : Change shared shared.stopIo
  | failIo (error : Int) : Change shared (shared.failIo error)
  | callFatal (error : Errno) : Change shared (shared.callFatal error)
  | observe : Change shared shared.observe
  | finish : Change shared shared.finish
  | refuse : Change shared { shared with result := some einval }

/-- What is never taken back: a stop, an error that was recorded, and a result. -/
structure Forward (shared later : Shared) : Prop where
  requested : shared.stopRequested = true → later.stopRequested = true
  stopped : shared.io.stopped = true → later.io.stopped = true
  latched : shared.runError ≠ 0 → later.runError = shared.runError
  returned : shared.result.isSome = true → later.result.isSome = true

theorem Forward.refl (shared : Shared) : Forward shared shared :=
  ⟨id, id, fun _ => rfl, id⟩

theorem Forward.trans {first second third : Shared} (one : Forward first second)
    (two : Forward second third)
    : Forward first third where
  requested requested := two.requested (one.requested requested)
  stopped stopped := two.stopped (one.stopped stopped)
  latched nonzero := by
    have same := one.latched nonzero
    rw [two.latched (same ▸ nonzero), same]
  returned returned := two.returned (one.returned returned)

/-- Errors are kept once latched, and stops are never taken back. -/
theorem Change.forward {shared later : Shared} (change : Change shared later)
    : Forward shared later := by
  cases change with
  | record => exact ⟨id, id, fun nonzero => if_neg nonzero, id⟩
  | requestStop => exact ⟨fun _ => rfl, id, fun _ => rfl, id⟩
  | stopIo => exact ⟨id, fun _ => rfl, fun _ => rfl, id⟩
  | failIo => exact ⟨id, fun _ => rfl, fun _ => rfl, id⟩
  | finish => exact ⟨id, id, fun _ => rfl, fun _ => rfl⟩
  | refuse => exact ⟨id, id, fun _ => rfl, fun _ => rfl⟩
  | none => exact .refl _
  | callFatal => exact ⟨id, id, fun _ => rfl, id⟩
  | observe => exact ⟨id, id, fun _ => rfl, id⟩

/-! ### Kinds of frames -/

def Frame.isRun : Frame → Bool
  | .failing _ | .reporting _ | .requesting | .locking | .kicking _ | .kickFailed _ _ | .stopping
  | .callback | .vcpuEntry | .vcpuCheck | .vcpuRun => false
  | _ => true

/-- The frames that call others, and so may be below another frame. -/
def Frame.calls : Frame → Bool
  | .assemble | .boot | .callback | .vcpuRun | .abort | .dispatch | .cleanup | .join _ => true
  | _ => false

def Frame.holds : Frame → Bool
  | .kicking _ | .kickFailed _ _ | .spawn _ | .create _ | .spawned _ => true
  | _ => false

/-- The frames of a stop request that has set the flag and not yet stopped the I/O context. -/
def Frame.stops : Frame → Bool
  | .locking | .kicking _ | .kickFailed _ _ | .stopping => true
  | _ => false

def Frame.assembles : Frame → Bool
  | .assemble => true
  | _ => false

/-- Frames of `vm_run` are at the end of the stack, where there is one unless it is empty. -/
def runShape (frames : List Frame) : Bool :=
  !frames.dropLast.any Frame.isRun && frames.getLast?.all Frame.isRun

/-- The thread lock before and after a step, and whether the frame on top holds it. -/
inductive LockStep (t : Thread)
    : Option Thread → (held : Bool) → Option Thread → (holds : Bool) → Prop
  | same (lock : Option Thread) (held : Bool) : LockStep t lock held lock held
  | taken : LockStep t none false (some t) true
  | returned (lock : Option Thread) : LockStep t lock true none false

/-- Only the thread that steps can take the lock or give it back. -/
theorem LockStep.owner {lock later : Option Thread} {held holds : Bool}
    (stepped : LockStep t lock held later holds) (before : held = true ↔ lock = some t)
    : (holds = true ↔ later = some t) ∧ ∀ u ≠ t, (later = some u ↔ lock = some u) := by
  cases stepped with
  | same => exact ⟨before, fun _ _ => Iff.rfl⟩
  | taken => exact ⟨by simp, fun u different => by simp [Ne.symm different]⟩
  | returned =>
    rw [before.mp rfl]
    exact ⟨by simp, fun u different => by simp [Ne.symm different]⟩

/-- What a step that replaces `old` frames on a stack by `new` ones does to stacks, lock and flags.
-/
structure StackStep (s : VmRun) (t : Thread) (old : List Frame) (after : VmRun)
    (new : List Frame) : Prop where
  nested : new.tail.all Frame.calls = true
  spawns : after.calls = s.calls ∧ after.created = s.created
    ∨ after.calls = (s.goto (.vcpu s.created) [.vcpuEntry]).calls ∧ after.created = s.created + 1
      ∧ old.head?.any Frame.holds = true
  helps : old.any Frame.isRun = false → new.any Frame.isRun = false ∧ after.state = s.state
  runs : old.any Frame.isRun = true → runShape new = true
  returns : new ≠ [] ∨ old.any Frame.isRun = false ∨ old.any Frame.assembles = true
    ∨ after.shared.result.isSome = true
  assembles : new.any Frame.assembles = false
  begins : new.getLast? = some .start → after.state = .ready
  lock : LockStep t s.threadLock (old.head?.any Frame.holds) after.threadLock
    (new.head?.any Frame.holds)
  flag : after.shared.stopRequested = s.shared.stopRequested ∨ new.head?.any Frame.stops = true
  stopping : old.head?.any Frame.stops = true
    → new.head?.any Frame.stops = true ∨ after.shared.io.stopped = true
  change : Change s.shared after.shared

/-- What any step of a frame does to the stacks, the lock and the threads, said once. -/
theorem frameStep_stack (stepped : frameStep config s t answer frame = some (after, frames))
    : StackStep s t [frame] after frames := by
  cases frame <;> simp only [frameStep] at stepped <;> (try split_ifs at stepped) <;>
    simp only [Option.some.injEq] at stepped <;> obtain ⟨rfl, rfl⟩ := stepped <;>
    exact ⟨rfl, by first | exact .inl ⟨rfl, rfl⟩ | exact .inr ⟨rfl, rfl, rfl⟩,
      by first | exact fun _ => ⟨rfl, rfl⟩ | exact fun wrong => (by cases wrong),
      by first | exact fun _ => rfl | exact fun wrong => (by cases wrong),
      by first | exact .inl (List.cons_ne_nil _ _) | exact .inr (.inl rfl)
               | exact .inr (.inr (.inl rfl)) | exact .inr (.inr (.inr rfl)),
      rfl, by first | exact fun _ => rfl | exact fun wrong => (by cases wrong),
      by first | exact .same _ _ | exact .returned _ | exact (‹s.threadLock = none› ▸ .taken),
      by first | exact .inl rfl | exact .inr rfl,
      by first | exact fun _ => .inl rfl | exact fun _ => .inr rfl
               | exact fun wrong => (by cases wrong),
      by first | exact .none | exact .record _ | exact .requestStop | exact .stopIo
               | exact .callFatal _ | exact .observe | exact .finish | exact .refuse⟩

/-- A call of a client puts its frames on the stack, and takes no lock. -/
theorem call_stack (s : VmRun) (t : Thread) (request : Call)
    : StackStep s t [] (s.update request.effect) (request.frames s.shared.io) := by
  cases request <;> simp only [Call.frames] <;> (try split_ifs) <;>
    refine ⟨rfl, .inl ⟨rfl, rfl⟩, fun _ => ⟨rfl, rfl⟩, fun wrong => (by cases wrong),
      .inr (.inl rfl), rfl, fun wrong => (by cases wrong), .same _ _, .inl rfl,
      fun wrong => (by cases wrong), ?_⟩
  all_goals first | exact .failIo _ | exact .none

/-! ### The order of calls -/

@[simp]
theorem VmRun.goto_calls (s : VmRun) (t : Thread) (stack : List Frame)
    : (s.goto t stack).calls t = stack :=
  update_self ..

/-- A kind of frame is on top of the stack of a thread. -/
def VmRun.Top (s : VmRun) (t : Thread) (kind : Frame → Bool) : Prop :=
  (s.calls t).head?.any kind = true

/-- What holds of the stacks in every reachable state: frames wait only below frames they called,
`vm_init` and `vm_run` are outermost in the main thread, threads to be created have no calls, the
lock is held in locked sections only, and a requested stop has reached the I/O context or is on its
way.
-/
structure Ordered (s : VmRun) : Prop where
  nested : ∀ t, (s.calls t).tail.all Frame.calls = true
  helpers : ∀ t ≠ .main, (s.calls t).any Frame.isRun = false
  main : runShape (s.calls .main) = true
    ∧ ((s.calls .main).getLast? = some .start → s.state = .ready)
  unborn : ∀ handle ≥ s.created, s.calls (.vcpu handle) = []
  lock : ∀ t, s.threadLock = some t ↔ s.Top t Frame.holds
  stop : s.shared.stopRequested = true
    → s.shared.io.stopped = true ∨ ∃ t, s.Top t Frame.stops

/-- A kind that no calling frame has is read off the frames that were put on top. -/
theorem head_append {kind : Frame → Bool} (leaf : ∀ frame, frame.calls = true → kind frame = false)
    (waiting : below.all Frame.calls = true)
    : (frames ++ below).head?.any kind = frames.head?.any kind := by
  cases frames with
  | cons => rfl
  | nil =>
    cases below with
    | nil => rfl
    | cons first =>
      simp only [List.all_cons, Bool.and_eq_true] at waiting
      exact leaf first waiting.1

theorem holds_leaf (frame : Frame) (calls : frame.calls = true) : frame.holds = false := by
  cases frame <;> first | rfl | cases calls

theorem stops_leaf (frame : Frame) (calls : frame.calls = true) : frame.stops = false := by
  cases frame <;> first | rfl | cases calls

theorem runShape_concat (upper : List Frame) (bottom : Frame)
    : runShape (upper ++ [bottom]) = (!upper.any Frame.isRun && bottom.isRun) := by
  simp [runShape]

/-- The frame of `vm_run` is the lowest of its thread. -/
theorem runShape_bottom {old : List Frame} (shape : runShape (old ++ below) = true)
    (run : old.any Frame.isRun = true)
    : below = [] := by
  rcases List.eq_nil_or_concat below with rfl | ⟨upper, bottom, rfl⟩
  · rfl
  · rw [List.concat_eq_append, ← List.append_assoc, runShape_concat, List.any_append, run] at shape
    cases shape

/-- Replacing frames above that of `vm_run` keeps it at the bottom. -/
theorem runShape_exchange (shape : runShape (old ++ below) = true)
    (alive : old ++ below ≠ []) (before : old.any Frame.isRun = false)
    (later : new.any Frame.isRun = false)
    : runShape (new ++ below) = true ∧ (new ++ below).getLast? = (old ++ below).getLast? := by
  rcases List.eq_nil_or_concat below with rfl | ⟨upper, bottom, rfl⟩
  · rw [List.append_nil] at shape alive
    rcases List.eq_nil_or_concat old with rfl | ⟨upper, bottom, rfl⟩
    · exact absurd rfl alive
    · rw [List.concat_eq_append] at shape before
      rw [runShape_concat, Bool.and_eq_true] at shape
      simp [shape.2] at before
  · simp only [List.concat_eq_append, ← List.append_assoc, runShape_concat, List.any_append, before,
      later] at shape ⊢
    exact ⟨shape, by simp⟩

/-- Another thread stays where it is, or is the new thread of a processor. -/
theorem StackStep.other (stepped : StackStep s t old after new)
    (unborn : s.calls (.vcpu s.created) = []) (u : Thread)
    : after.calls u = s.calls u
      ∨ after.calls u = [.vcpuEntry] ∧ s.calls u = [] ∧ u = .vcpu s.created
        ∧ after.created = s.created + 1 ∧ old.head?.any Frame.holds = true := by
  rcases stepped.spawns with ⟨same, -⟩ | ⟨spawned, counted, held⟩
  · exact .inl (by rw [same])
  · rw [spawned]
    by_cases here : u = .vcpu s.created
    · subst here
      exact .inr ⟨update_self .., unborn, rfl, counted, held⟩
    · exact .inl (update_of_ne here ..)

theorem StackStep.main {stack : List Frame} (stepped : StackStep s t old after new)
    (unborn : s.calls (.vcpu s.created) = []) (different : .main ≠ t)
    : (after.goto t stack).calls .main = s.calls .main := by
  refine (update_of_ne different ..).trans ?_
  rcases stepped.other unborn .main with same | ⟨-, -, wrong, -⟩
  · exact same
  · cases wrong

/-- The thread at a frame that holds the lock is the one that the lock names. -/
theorem Ordered.held (ordered : Ordered s) (top : s.calls t = old ++ below)
    (waiting : below.all Frame.calls = true)
    : old.head?.any Frame.holds = true ↔ s.threadLock = some t := by
  rw [ordered.lock, VmRun.Top, top, head_append holds_leaf waiting]

/-- One step keeps the order: the stacks stay nested, and the lock and the threads stay accounted
for.
-/
theorem Ordered.step (ordered : Ordered s)
    (top : s.calls t = old ++ below) (waiting : below.all Frame.calls = true)
    (alive : (∃ id, t = .producer id) ∨ s.calls t ≠ []) (stepped : StackStep s t old after new)
    : Ordered (after.goto t (new ++ below)) := by
  have own := after.goto_calls t (new ++ below)
  have elsewhere : ∀ u ≠ t, (after.goto t (new ++ below)).calls u = after.calls u :=
    fun u different => update_of_ne different ..
  have other := stepped.other (ordered.unborn s.created le_rfl)
  have tops : ∀ u (kind : Frame → Bool), kind .vcpuEntry = false
      → (after.calls u).head?.any kind = (s.calls u).head?.any kind := by
    intro u kind entryKind
    rcases other u with same | ⟨entry, unborn, -⟩
    · rw [same]
    · rw [entry, unborn]
      exact entryKind
  constructor
  · intro u
    by_cases here : u = t
    · rw [here, own]
      cases new with
      | nil =>
        refine List.all_eq_true.mpr fun frame member => ?_
        exact List.all_eq_true.mp waiting frame (List.mem_of_mem_tail member)
      | cons =>
        simpa only [List.cons_append, List.tail_cons, List.all_append, waiting, Bool.and_true]
          using stepped.nested
    · rw [elsewhere u here]
      rcases other u with same | ⟨entry, -⟩
      · rw [same]
        exact ordered.nested u
      · rw [entry]
        rfl
  · intro u helper
    by_cases here : u = t
    · have before := ordered.helpers u helper
      rw [here, top, List.any_append, Bool.or_eq_false_iff] at before
      rw [here, own, List.any_append, (stepped.helps before.1).1, before.2]
      rfl
    · rw [elsewhere u here]
      rcases other u with same | ⟨entry, -⟩
      · rw [same]
        exact ordered.helpers u helper
      · rw [entry]
        rfl
  · obtain ⟨shape, ready⟩ := ordered.main
    by_cases here : t = .main
    · subst here
      rw [own]
      rw [top] at shape ready
      cases run : old.any Frame.isRun with
      | true =>
        -- The step is one of `vm_run` itself, which has no frame below it.
        rw [runShape_bottom shape run, List.append_nil]
        exact ⟨stepped.runs run, stepped.begins⟩
      | false =>
        have nonempty : old ++ below ≠ [] := by
          rw [← top]
          exact alive.resolve_left (by rintro ⟨_, wrong⟩; cases wrong)
        obtain ⟨clean, unchanged⟩ := stepped.helps run
        obtain ⟨kept, last⟩ := runShape_exchange shape nonempty run clean
        rw [last]
        exact ⟨kept, fun starts => unchanged.trans (ready starts)⟩
    · have clean := ordered.helpers t here
      rw [top, List.any_append, Bool.or_eq_false_iff] at clean
      rw [stepped.main (ordered.unborn _ le_rfl) (Ne.symm here)]
      exact ⟨shape, fun starts => (stepped.helps clean.1).2.trans (ready starts)⟩
  · intro handle later
    have count : s.created ≤ after.created := by
      rcases stepped.spawns with ⟨-, same⟩ | ⟨-, more, -⟩ <;> omega
    have different : Thread.vcpu handle ≠ t := by
      rintro rfl
      rcases alive with ⟨_, wrong⟩ | running
      · cases wrong
      · exact running (ordered.unborn handle (le_trans count later))
    rw [elsewhere _ different]
    rcases other (.vcpu handle) with same | ⟨-, -, created, more, -⟩
    · rw [same]
      exact ordered.unborn handle (le_trans count later)
    · cases created
      have : after.created ≤ s.created := later
      omega
  · intro u
    obtain ⟨mine, theirs⟩ := stepped.lock.owner (ordered.held top waiting)
    change after.threadLock = some u ↔ _
    by_cases here : u = t
    · rw [here, VmRun.Top, own, head_append holds_leaf waiting, mine]
    · rw [theirs u here, ordered.lock, VmRun.Top, VmRun.Top, elsewhere u here, tops u _ rfl]
  · intro requested
    have going : (after.goto t (new ++ below)).Top t Frame.stops
        ↔ new.head?.any Frame.stops = true := by
      rw [VmRun.Top, own, head_append stops_leaf waiting]
    rcases stepped.flag with same | stops
    · rcases ordered.stop (same ▸ requested) with stopped | ⟨u, stops⟩
      · exact .inl (stepped.change.forward.stopped stopped)
      · by_cases here : u = t
        · rw [here, VmRun.Top, top, head_append stops_leaf waiting] at stops
          exact (stepped.stopping stops).symm.imp id fun still => ⟨t, going.mpr still⟩
        · refine .inr ⟨u, ?_⟩
          rw [VmRun.Top, elsewhere u here, tops u _ rfl]
          exact stops
    · exact .inr ⟨t, going.mpr stops⟩

/-! ### Runs -/

/-- A client acts in frames that call, or from outside. -/
theorem clientRuns_waits {stack : List Frame} (runs : clientRuns t stack = true)
    (nested : stack.tail.all Frame.calls = true)
    : stack.all Frame.calls = true ∧ ((∃ id, t = .producer id) ∨ stack ≠ []) := by
  cases stack with
  | nil =>
    cases t with
    | producer id => exact ⟨rfl, .inl ⟨id, rfl⟩⟩
    | main => cases runs
    | vcpu => cases runs
  | cons frame =>
    have waits : frame.calls = true := by
      cases frame <;> first | rfl | (cases t <;> cases runs)
    rw [List.all_cons, waits]
    exact ⟨nested, .inr (List.cons_ne_nil _ _)⟩

/-- A thread takes a step: its innermost call goes on, or client code makes a call. -/
inductive Taken (config : RunConfig) (s : VmRun) (t : Thread) : VmRun → Prop
  | go {answer : Int} {frame : Frame} {below frames : List Frame} {after : VmRun}
    (top : s.calls t = frame :: below)
    (stepped : frameStep config s t answer frame = some (after, frames))
    : Taken config s t (after.goto t (frames ++ below))
  | call (request : Call) (runs : clientRuns t (s.calls t) = true)
    : Taken config s t (call s t request)

/-- A step of the system is a step of the top frame, or a call. -/
theorem Step.taken {act : Act} (stepped : Step config s (t, act) next)
    : Taken config s t next := by
  cases act with
  | go =>
    simp only [Step, step, advance] at stepped
    cases top : s.calls t with
    | nil =>
      rw [top] at stepped
      cases stepped
    | cons =>
      rw [top] at stepped
      obtain ⟨⟨after, frames⟩, taken, rfl⟩ := Option.map_eq_some_iff.mp stepped
      exact .go top taken
  | call request =>
    obtain ⟨runs, same⟩ := Option.ite_none_right_eq_some.mp stepped
    cases same
    exact .call request runs

/-- Both are one `StackStep` on top of frames that wait. -/
theorem Taken.stack (ordered : Ordered s) (taken : Taken config s t next)
    : ∃ old below after new, s.calls t = old ++ below ∧ below.all Frame.calls = true
      ∧ ((∃ id, t = .producer id) ∨ s.calls t ≠ [])
      ∧ StackStep s t old after new ∧ next = after.goto t (new ++ below) := by
  cases taken with
  | @go _ frame below frames after top stepped =>
    have nested := ordered.nested t
    rw [top] at nested ⊢
    exact ⟨[frame], below, after, frames, rfl, nested, .inr (List.cons_ne_nil _ _),
      frameStep_stack stepped, rfl⟩
  | call request runs =>
    obtain ⟨waiting, alive⟩ := clientRuns_waits runs (ordered.nested t)
    exact ⟨[], s.calls t, _, _, rfl, waiting, alive, call_stack s t request, rfl⟩

/-- Every step keeps the order. -/
theorem Step.ordered {act : Thread × Act} (ordered : Ordered s) (stepped : Step config s act next)
    : Ordered next := by
  obtain ⟨old, below, after, new, top, waiting, alive, taken, rfl⟩ := stepped.taken.stack ordered
  exact ordered.step top waiting alive taken

theorem Ordered.initial : Ordered .initial where
  nested t := by cases t <;> rfl
  helpers t helper := by
    cases t with
    | main => exact absurd rfl helper
    | vcpu => rfl
    | producer => rfl
  main := ⟨rfl, fun wrong => by cases wrong⟩
  unborn _ _ := rfl
  lock t := by
    cases t <;> exact ⟨fun wrong => (by cases wrong), fun wrong => (by cases wrong)⟩
  stop wrong := by cases wrong

end Modvm.Core.Execution
