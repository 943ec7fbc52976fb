import Modvm.Core.DeviceTree
import Modvm.Lib.Forest

/-! Destroying a device, and failing to realize one, takes exactly its subtree. -/

namespace Modvm.Core.Tree

open Function Modvm.Util Modvm.Lib

variable {α σ : Type}

/-! ### What hooks can do -/

/-- The same device, up to the resources of a pool that is not freed. -/
structure Device.SameButResources (device next : Device α) : Prop where
  parent : next.parent = device.parent
  state : next.state = device.state
  ops : next.ops = device.ops
  priv : next.priv = device.priv
  freed : next.freed = device.freed
  releasing : next.resources.releasing = device.resources.releasing
  gone : device.freed = true → next.resources = device.resources

theorem Device.SameButResources.refl (device : Device α) : device.SameButResources device :=
  ⟨rfl, rfl, rfl, rfl, rfl, rfl, fun _ => rfl⟩

theorem Device.SameButResources.trans {first second third : Device α}
    (before : first.SameButResources second) (after : second.SameButResources third)
    : first.SameButResources third where
  parent := after.parent.trans before.parent
  state := after.state.trans before.state
  ops := after.ops.trans before.ops
  priv := after.priv.trans before.priv
  freed := after.freed.trans before.freed
  releasing := after.releasing.trans before.releasing
  gone := fun freed => (after.gone (before.freed.trans freed)).trans (before.gone freed)

/-- A step that adds events to the history and changes the pools of devices at most. -/
structure Quieted (m next : Machine α σ) (events : List (Event α)) : Prop where
  devices : next.devices = m.devices
  log : next.log = m.log ++ events
  same : ∀ dev, (m.device dev).SameButResources (next.device dev)

theorem Quieted.refl (m : Machine α σ) : Quieted m m [] :=
  ⟨rfl, (List.append_nil _).symm, fun _ => .refl _⟩

variable {second m : Machine α σ}

/-- Quiet steps compose, and their events are appended. -/
theorem Quieted.trans {first third : Machine α σ} {early late : List (Event α)}
    (before : Quieted first second early) (after : Quieted second third late)
    : Quieted first third (early ++ late) where
  devices := after.devices.trans before.devices
  log := by rw [after.log, before.log, List.append_assoc]
  same := fun dev => (before.same dev).trans (after.same dev)

/-- A pool may get other resources as long as its device lives and its release goes on or not as
before.
-/
theorem Quieted.setResources (m : Machine α σ) {dev : Nat} {pool : ResPool α}
    (alive : (m.device dev).freed = false)
    (phase : pool.releasing = (m.device dev).resources.releasing)
    : Quieted m (m.setResources dev pool) [] := by
  refine ⟨rfl, (List.append_nil _).symm, fun other => ?_⟩
  by_cases here : other = dev
  · subst here
    simp only [Machine.setResources, Machine.modify, update_self]
    exact ⟨rfl, rfl, rfl, rfl, rfl, phase, fun freed => by simp [alive] at freed⟩
  · simp only [Machine.setResources, Machine.modify, update_of_ne here]
    exact .refl _

/-- The resources that are left of a pool when only cancellations among `calls` took some away. -/
structure Dropped (calls : List (PoolCall α)) (dev : Nat) (before after : List (Option α))
    : Prop where
  order : after.Sublist before
  cancelled : ∃ removed : List α, before.Perm (after ++ removed.map some)
    ∧ ∀ action ∈ removed, .cancelAction dev action ∈ calls

variable {calls : List (PoolCall α)}

theorem Dropped.refl (dev : Nat) (resources : List (Option α))
    : Dropped calls dev resources resources :=
  ⟨.refl _, [], by simp, by simp⟩

/-- What both of two steps left is left of the first pool, and either cancelled the rest. -/
theorem Dropped.trans {dev : Nat} {first second third : List (Option α)}
    (before : Dropped calls dev first second) (after : Dropped calls dev second third)
    : Dropped calls dev first third := by
  obtain ⟨early, split, earlyCalls⟩ := before.cancelled
  obtain ⟨late, further, lateCalls⟩ := after.cancelled
  refine ⟨after.order.trans before.order, late ++ early, ?_, ?_⟩
  · calc first
        |>.Perm (second ++ early.map some) := split
      _ |>.Perm ((third ++ late.map some) ++ early.map some) := further.append_right _
      _ = third ++ (late ++ early).map some := by rw [List.map_append, List.append_assoc]
  · intro action member
    rcases List.mem_append.mp member with inLate | inEarly
    · exact lateCalls action inLate
    · exact earlyCalls action inEarly

/-- Erasing the node of an action is one cancellation, or none if there is no such node. -/
theorem Dropped.erase [DecidableEq α] {dev : Nat} {action : α}
    (called : .cancelAction dev action ∈ calls) (resources : List (Option α))
    : Dropped calls dev resources (resources.erase (some action)) := by
  refine ⟨List.erase_sublist, ?_⟩
  by_cases held : some action ∈ resources
  · refine ⟨[action], ?_, by simpa using called⟩
    exact (List.perm_cons_erase held).trans (List.perm_append_singleton _ _).symm
  · exact ⟨[], by simp [List.erase_of_not_mem held], by simp⟩

/-- What code of a device model does through its pool operations `calls`: a pool that is being
released loses at most what they cancel.
-/
structure Hooked (calls : List (PoolCall α)) (m next : Machine α σ) : Prop where
  devices : next.devices = m.devices
  log : next.log = m.log
  same : ∀ dev, (m.device dev).SameButResources (next.device dev)
  drops : ∀ dev, (m.device dev).resources.releasing = true
    → Dropped calls dev (m.device dev).resources.resources (next.device dev).resources.resources

theorem Hooked.refl (m : Machine α σ) : Hooked calls m m :=
  ⟨rfl, rfl, fun dev => .refl (m.device dev), fun dev _ => .refl dev _⟩

theorem Hooked.trans {first third : Machine α σ} (before : Hooked calls first second)
    (after : Hooked calls second third)
    : Hooked calls first third where
  devices := after.devices.trans before.devices
  log := after.log.trans before.log
  same := fun dev => (before.same dev).trans (after.same dev)
  drops := fun dev releasing =>
    (before.drops dev releasing).trans
      (after.drops dev ((before.same dev).releasing.trans releasing))

theorem Hooked.setResources (m : Machine α σ) {dev : Nat} {pool : ResPool α}
    (alive : (m.device dev).freed = false)
    (phase : pool.releasing = (m.device dev).resources.releasing)
    (left : pool.releasing = true
      → Dropped calls dev (m.device dev).resources.resources pool.resources)
    : Hooked calls m (m.setResources dev pool) := by
  refine ⟨rfl, rfl, (Quieted.setResources m alive phase).same, fun other releasing => ?_⟩
  by_cases here : other = dev
  · subst here
    simp only [Machine.setResources, Machine.modify, update_self]
    exact left (phase.trans releasing)
  · simp only [Machine.setResources, Machine.modify, update_of_ne here]
    exact .refl other _

theorem Hooked.quieted {next : Machine α σ} {event : Event α}
    (hooked : Hooked calls (m.record event) next)
    : Quieted m next [event] :=
  ⟨hooked.devices, hooked.log, hooked.same⟩

def Device.stopEvents (device : Device α) (dev : Nat) : List (Event α) :=
  match device.ops with
  | some ⟨true⟩ => [.stopped dev]
  | _ => []

/-! ### What a release runs -/

section Release
/-- The cleanups that the pool of a device holds, as they were added. -/
def Machine.held (m : Machine α σ) (dev : Nat) : List α :=
  (m.device dev).resources.resources.filterMap id

variable (hooks : Hooks α σ)

/-- A cleanup function that the release of a pool ran, between the histories `first` and `last`,
cancelled another cleanup of that pool. It was called in `state`.
-/
def Cancelled (dev : Nat) (first last : List (Event α)) (action : α) : Prop :=
  ∃ runner state, first <+: state.log ∧ state.log ++ [.ran dev runner] <+: last
    ∧ .cancelAction dev action ∈ (hooks.cleanup dev runner state).2

/-- What the release of a pool ran, from `start` until the history is `log`: the cleanups that the
pool held, from the last to the first, and all of them but those that one of them cancelled. A pool
that is being released takes nothing new and lets nothing be moved away.
-/
structure Release (dev : Nat) (start : Machine α σ) (log : List (Event α)) (actions : List α)
    : Prop where
  lastFirst : actions.Sublist (start.held dev).reverse
  complete : ∃ cancelled, (start.held dev).Perm (actions ++ cancelled)
    ∧ ∀ action ∈ cancelled, Cancelled hooks dev start.log log action

variable {hooks}

/-- Where no cleanup function cancels another of the pool, all of them run, last first. -/
theorem Release.reversed {dev : Nat} {start : Machine α σ} {log : List (Event α)}
    {actions : List α} (release : Release hooks dev start log actions)
    (alone : ∀ runner state action, .cancelAction dev action ∉ (hooks.cleanup dev runner state).2)
    : actions = (start.held dev).reverse := by
  obtain ⟨cancelled, split, calls⟩ := release.complete
  have none : cancelled = [] := by
    refine List.eq_nil_iff_forall_not_mem.mpr fun action member => ?_
    obtain ⟨runner, state, -, -, called⟩ := calls action member
    exact alone runner state action called
  refine release.lastFirst.eq_of_length ?_
  rw [List.length_reverse, split.length_eq, none, List.append_nil]

/-- The release of an empty pool runs nothing. -/
theorem Release.nil {dev : Nat} {start : Machine α σ}
    (empty : (start.device dev).resources.resources = []) (log : List (Event α))
    : Release hooks dev start log [] := by
  have held : start.held dev = [] := by rw [Machine.held, empty, List.filterMap_nil]
  exact ⟨List.nil_sublist _, [], by rw [held]; exact .refl _, by simp⟩

/-- The release depends on the pool and the history of the machine that it starts in alone. -/
theorem Release.congr {dev : Nat} {start other : Machine α σ} {log : List (Event α)}
    {actions : List α} (release : Release hooks dev start log actions)
    (held : other.held dev = start.held dev) (same : other.log = start.log)
    : Release hooks dev other log actions := by
  obtain ⟨order, cancelled, split, calls⟩ := release
  exact ⟨held ▸ order, cancelled, held ▸ split, same ▸ calls⟩

/-- A longer history shows the same release. -/
theorem Release.later {dev : Nat} {start : Machine α σ} {log longer : List (Event α)}
    {actions : List α} (release : Release hooks dev start log actions) (more : log <+: longer)
    : Release hooks dev start longer actions := by
  obtain ⟨order, cancelled, split, calls⟩ := release
  refine ⟨order, cancelled, split, fun action member => ?_⟩
  obtain ⟨runner, state, begun, ran, called⟩ := calls action member
  exact ⟨runner, state, begun, ran.trans more, called⟩

/-- A round of a release runs the last cleanup and may cancel others; the rest of the release is
that of the pool which is left.
-/
theorem Release.round {dev : Nat} {m before after : Machine α σ} {action : α}
    {log : List (Event α)} {actions : List α}
    (last : m.held dev = before.held dev ++ [action]) (same : before.log = m.log)
    (ran : after.log = before.log ++ [.ran dev action]) (goesOn : after.log <+: log)
    (left : Dropped (hooks.cleanup dev action before).2 dev
      (before.device dev).resources.resources (after.device dev).resources.resources)
    (rest : Release hooks dev after log actions)
    : Release hooks dev m log (action :: actions) := by
  obtain ⟨removed, split, removes⟩ := left.cancelled
  have kept : (before.held dev).Perm (after.held dev ++ removed) := by
    simpa [Machine.held] using split.filterMap id
  obtain ⟨order, cancelled, further, calls⟩ := rest
  refine ⟨?_, cancelled ++ removed, ?_, ?_⟩
  · rw [last, List.reverse_append]
    exact (order.trans (left.order.filterMap id).reverse).cons_cons action
  · calc m.held dev
        = before.held dev ++ [action] := last
      _ |>.Perm (action :: before.held dev) := List.perm_append_singleton _ _
      _ |>.Perm (action :: (after.held dev ++ removed)) := kept.cons action
      _ |>.Perm (action :: ((actions ++ cancelled) ++ removed)) :=
          (further.append_right removed).cons action
      _ = action :: actions ++ (cancelled ++ removed) := by simp
  · intro other member
    rcases List.mem_append.mp member with later | now
    · obtain ⟨runner, state, start, called⟩ := calls other later
      refine ⟨runner, state, .trans ?_ start, called⟩
      rw [ran, same]
      exact List.prefix_append _ _
    · exact ⟨action, before, same ▸ List.prefix_rfl, ran ▸ goesOn, removes other now⟩

end Release

section Hooks
variable [DecidableEq α]

/-- One pool operation, by its kind: additions and moves are refused by a pool that is being
released, so only a cancellation takes something from it.
-/
theorem PoolCall.apply_hooked {call : PoolCall α} (member : call ∈ calls) (m : Machine α σ)
    : Hooked calls m (call.apply m) := by
  cases call with
  | zalloc =>
    unfold PoolCall.apply
    dsimp only
    split
    · exact .refl m
    rename_i alive
    unfold resZalloc
    split
    · exact .refl m
    · rename_i accepted
      split at accepted
      · cases accepted
      rename_i open_
      cases accepted
      simp only [Bool.or_eq_true, not_or] at open_
      exact .setResources m (by simpa using alive) rfl (by simp [open_.1])
  | addAction =>
    unfold PoolCall.apply
    dsimp only
    split
    · exact .refl m
    rename_i alive
    unfold resAddAction
    split
    · exact .refl m
    · rename_i accepted
      split at accepted
      · cases accepted
      rename_i phase
      split at accepted
      · cases accepted
      split at accepted
      · cases accepted
      cases accepted
      exact .setResources m (by simpa using alive) rfl (by simp [phase])
  | transferAction src dst action =>
    unfold PoolCall.apply
    dsimp only
    split
    · exact .refl m
    rename_i alive
    split
    · exact .refl m
    rename_i phase
    split
    · exact .refl m
    rename_i moves
    simp only [Bool.or_eq_true, not_or, Bool.not_eq_true] at alive phase moves
    have apart : dst ≠ src := fun same => moves.2.1 same.symm
    let smaller : ResPool α := { (m.device src).resources with
      resources := (m.device src).resources.resources.erase (some action) }
    have unlinked : Hooked calls m (m.setResources src smaller) :=
      .setResources m alive.1 rfl fun releasing =>
        absurd (phase.1.symm.trans releasing) Bool.false_ne_true
    have other : (m.setResources src smaller).device dst = m.device dst := by
      simp only [Machine.setResources, Machine.modify, update_of_ne apart]
    refine unlinked.trans (.setResources _ ?_ ?_ fun releasing => ?_)
    · rw [other]
      exact alive.2
    · rw [other]
    · exact absurd (phase.2.symm.trans releasing) Bool.false_ne_true
  | cancelAction =>
    unfold PoolCall.apply
    dsimp only
    split
    · exact .refl m
    rename_i alive
    exact .setResources m (by simpa using alive) rfl fun _ => .erase member _

/-- A hook makes its pool operations one after the other. -/
theorem Machine.hook_hooked (m : Machine α σ) (effect : HookEffect α σ)
    : Hooked effect.2 m (m.hook effect) := by
  have start : Hooked effect.2 m { m with env := effect.1 } :=
    ⟨rfl, rfl, fun dev => .refl _, fun dev _ => .refl dev _⟩
  exact List.foldlRecOn (motive := Hooked effect.2 m) effect.2 _ start fun _ before call member =>
    before.trans (call.apply_hooked member _)

/-! ### Stop and release -/

variable (hooks : Hooks α σ)

/-- The stop hook is called once if there is one, and leaves the list alone. -/
theorem callStop_quieted (dev : Nat) (m : Machine α σ)
    : Quieted m (callStop hooks dev m) ((m.device dev).stopEvents dev) := by
  unfold callStop Device.stopEvents
  rcases (m.device dev).ops with _ | ⟨_ | _⟩
  · exact .refl m
  · exact .refl m
  · exact (Machine.hook_hooked (m.record (.stopped dev)) (hooks.stop dev m)).quieted

/-- The rounds of a release run the cleanups of the pool and empty it. Witness: induction on the
rounds, each of which takes one resource while none is added.
-/
theorem releaseLoop_releases (dev rounds : Nat) {m : Machine α σ}
    (alive : (m.device dev).freed = false)
    (releasing : (m.device dev).resources.releasing = true)
    (enough : (m.device dev).resources.resources.length ≤ rounds)
    : ∃ actions, Quieted m (releaseLoop hooks dev rounds m) (actions.map (.ran dev))
      ∧ Release hooks dev m (releaseLoop hooks dev rounds m).log actions
      ∧ ((releaseLoop hooks dev rounds m).device dev).resources.resources = [] := by
  induction rounds generalizing m with
  | zero =>
    have empty := List.length_eq_zero_iff.mp (Nat.le_zero.mp enough)
    exact ⟨[], .refl m, .nil empty _, empty⟩
  | succ rounds ih =>
    unfold releaseLoop
    split
    · rename_i found
      have empty := List.getLast?_eq_none_iff.mp found
      exact ⟨[], .refl m, .nil empty _, empty⟩
    rename_i resource found
    let rest : ResPool α := { (m.device dev).resources with
      resources := (m.device dev).resources.resources.dropLast }
    have taken : Quieted m (m.setResources dev rest) [] := .setResources m alive rfl
    have shorter : ((m.setResources dev rest).device dev).resources.resources.length
        ≤ rounds := by
      simp only [Machine.setResources, Machine.modify, update_self, rest,
        List.length_dropLast]
      omega
    have held : m.held dev = (m.setResources dev rest).held dev ++ resource.toList := by
      have split := List.dropLast_append_getLast? resource found
      simp only [Machine.held, Machine.setResources, Machine.modify, rest]
      rw [← split]
      cases resource <;> simp
    generalize m.setResources dev _ = next at taken shorter held ⊢
    have nextAlive := (taken.same dev).freed.trans alive
    have nextReleasing := (taken.same dev).releasing.trans releasing
    have sameLog : next.log = m.log := taken.log.trans (List.append_nil _)
    cases resource with
    | none =>
      obtain ⟨actions, quiet, release, empty⟩ := ih nextAlive nextReleasing shorter
      refine ⟨actions, taken.trans quiet, release.congr ?_ sameLog.symm, empty⟩
      simpa using held
    | some action =>
      have ran := Machine.hook_hooked (next.record (.ran dev action))
        (hooks.cleanup dev action next)
      have left := ran.drops dev nextReleasing
      obtain ⟨actions, quiet, release, empty⟩ := ih ((ran.same dev).freed.trans nextAlive)
        ((ran.same dev).releasing.trans nextReleasing)
        (Nat.le_trans left.order.length_le shorter)
      refine ⟨action :: actions, (taken.trans ran.quieted).trans quiet, ?_, empty⟩
      refine release.round held sameLog ran.log ?_ left
      rw [quiet.log]
      exact List.prefix_append _ _

/-- A release of a pool at rest runs its cleanups, and leaves it empty and at rest. -/
theorem resReleaseAll_releases (dev : Nat) {m : Machine α σ}
    (alive : (m.device dev).freed = false)
    (idle : (m.device dev).resources.releasing = false)
    : ∃ actions, Quieted m (resReleaseAll hooks dev m) (actions.map (.ran dev))
      ∧ Release hooks dev m (resReleaseAll hooks dev m).log actions
      ∧ ((resReleaseAll hooks dev m).device dev).resources.resources = [] := by
  let marked := m.setResources dev { (m.device dev).resources with releasing := true }
  have entry : marked.device dev
      = { m.device dev with resources := ⟨(m.device dev).resources.resources, true⟩ } := by
    simp only [marked, Machine.setResources, Machine.modify, update_self]
  obtain ⟨actions, loop, release, empty⟩ := releaseLoop_releases hooks dev
    (marked.device dev).resources.resources.length (m := marked)
    (by rw [entry]; exact alive) (by rw [entry]) (Nat.le_refl _)
  have result : resReleaseAll hooks dev m
      = (releaseLoop hooks dev (marked.device dev).resources.resources.length marked).modify dev
          fun device => { device with resources := { device.resources with releasing := false } }
      := by
    unfold resReleaseAll
    rw [idle]
    rfl
  have held : m.held dev = marked.held dev := by rw [Machine.held, Machine.held, entry]
  rw [result]
  generalize releaseLoop hooks dev _ marked = done at loop release empty ⊢
  refine ⟨actions, ⟨loop.devices, loop.log, fun other => ?_⟩, release.congr held rfl, ?_⟩
  · by_cases here : other = dev
    · subst here
      have same := loop.same other
      rw [entry] at same
      simp only [Machine.modify, update_self]
      exact ⟨same.parent, same.state, same.ops, same.priv, same.freed, idle.symm,
        fun freed => absurd (alive.symm.trans freed) Bool.false_ne_true⟩
    · have same := loop.same other
      simp only [marked, Machine.setResources, Machine.modify, update_of_ne here]
        at same ⊢
      exact same
  · simpa only [Machine.modify, update_self] using empty

/-! ### One device -/

/-- The device is being destroyed and is out of the list: what its stop hook is called in. -/
def Machine.unlink (m : Machine α σ) (dev : Nat) : Machine α σ :=
  { m.setState dev .destroying with devices := m.devices.erase dev }

/-- The history of the destruction of a device in `m`: its stop hook, then the cleanups that its
pool holds when the hook is done, then its memory. Which hook a device has is read from `device`.
-/
def Destruction (device : Nat → Device α) (m : Machine α σ) (dev : Nat) (events : List (Event α))
    : Prop :=
  ∃ actions : List α,
    events = (device dev).stopEvents dev ++ actions.map (.ran dev) ++ [.freed dev]
    ∧ Release hooks dev (callStop hooks dev (m.unlink dev)) (m.log ++ events) actions

/-- The histories of devices that are destroyed one after the other, each in the machine that the
ones before left.
-/
inductive Destructions (device : Nat → Device α)
    : Machine α σ → List Nat → List (List (Event α)) → Machine α σ → Prop
  | nil (m : Machine α σ) : Destructions device m [] [] m
  | cons {m next : Machine α σ} {dev : Nat} {order : List Nat} {events : List (Event α)}
      {parts : List (List (Event α))} (first : Destruction hooks device m dev events)
      (rest : Destructions device (destroySelf hooks dev m) order parts next)
      : Destructions device m (dev :: order) (events :: parts) next

/-- Devices were destroyed in an order, and nothing else happened to the list. -/
structure Torn (m next : Machine α σ) (order : List Nat) : Prop where
  devices : next.devices = m.devices.filter (· ∉ order)
  parents : ∀ dev, (next.device dev).parent = (m.device dev).parent
  others : ∀ dev ∉ order, (m.device dev).SameButResources (next.device dev)
  gone : ∀ dev ∈ order,
    (next.device dev).freed = true ∧ (next.device dev).resources.resources = []
  history : ∃ parts, Destructions hooks m.device m order parts next
    ∧ next.log = m.log ++ parts.flatten

def Machine.parent (m : Machine α σ) (dev : Nat) : Option Nat := (m.device dev).parent

/-- No listed device has been freed or is having its resources released. -/
def Machine.Idle (m : Machine α σ) : Prop :=
  ∀ dev ∈ m.devices, (m.device dev).freed = false ∧ (m.device dev).resources.releasing = false

/-- Destroying a device without its children takes it from the list, and runs its stop hook and
its cleanups. Witness: the calls of `destroySelf`, one after the other.
-/
theorem destroySelf_torn {dev : Nat} {m : Machine α σ} (nodup : m.devices.Nodup)
    (alive : (m.device dev).freed = false)
    (idle : (m.device dev).resources.releasing = false)
    : Torn hooks m (destroySelf hooks dev m) [dev] := by
  have entry : (m.unlink dev).device dev = { m.device dev with state := .destroying } := by
    simp only [Machine.unlink, Machine.setState, Machine.modify, update_self]
  have away : ∀ other, other ≠ dev → (m.unlink dev).device other = m.device other := by
    intro other different
    simp only [Machine.unlink, Machine.setState, Machine.modify, update_of_ne different]
  have stop := callStop_quieted hooks dev (m.unlink dev)
  rw [entry] at stop
  obtain ⟨actions, ran, release, empty⟩ := resReleaseAll_releases hooks dev
    ((stop.same dev).freed.trans (by rw [entry]; exact alive))
    ((stop.same dev).releasing.trans (by rw [entry]; exact idle))
  have quiet := stop.trans ran
  have result : destroySelf hooks dev m
      = ((resReleaseAll hooks dev (callStop hooks dev (m.unlink dev))).modify dev fun device =>
          { device with freed := true }).record (.freed dev) := rfl
  have log : (destroySelf hooks dev m).log = m.log
      ++ ((m.device dev).stopEvents dev ++ actions.map (.ran dev) ++ [.freed dev]) := by
    calc (destroySelf hooks dev m).log
      _ = (resReleaseAll hooks dev (callStop hooks dev (m.unlink dev))).log ++ [.freed dev] := rfl
      _ = m.log ++ ((m.device dev).stopEvents dev ++ actions.map (.ran dev)) ++ [.freed dev] := by
          rw [quiet.log]
          rfl
      _ = _ := List.append_assoc _ _ _
  have destruction : Destruction hooks m.device m dev _ := ⟨actions, rfl, by
    rw [← log]
    refine release.later ?_
    exact List.prefix_append _ _⟩
  refine ⟨?_, fun other => ?_, fun other outside => ?_, ?_,
    ⟨[_], .cons destruction (.nil _), by simpa only [List.flatten_singleton] using log⟩⟩
  · have erased : (destroySelf hooks dev m).devices = m.devices.erase dev := quiet.devices
    rw [erased, nodup.erase_eq_filter]
    refine List.filter_congr fun other _ => ?_
    rw [Bool.eq_iff_iff]
    simp
  · rw [result]
    by_cases here : other = dev
    · subst here
      have same := quiet.same other
      rw [entry] at same
      simpa only [Machine.record, Machine.modify, update_self] using same.parent
    · have same := quiet.same other
      rw [away other here] at same
      simpa only [Machine.record, Machine.modify, update_of_ne here] using same.parent
  · have here : other ≠ dev := by simpa using outside
    have same := quiet.same other
    rw [away other here] at same
    rw [result]
    simpa only [Machine.record, Machine.modify, update_of_ne here] using same
  · intro other member
    rw [List.mem_singleton] at member
    subst member
    rw [result]
    simpa only [Machine.record, Machine.modify, update_self, true_and] using empty

/-! ### Several devices -/

variable {hooks}

/-- What destructions record depends on which stop hooks the devices have alone, by induction on
the order.
-/
theorem Destructions.congr {device other : Nat → Device α} {m next : Machine α σ}
    {order : List Nat} {parts : List (List (Event α))}
    (same : ∀ dev ∈ order, (other dev).ops = (device dev).ops)
    (histories : Destructions hooks other m order parts next)
    : Destructions hooks device m order parts next := by
  induction histories with
  | nil m => exact .nil m
  | cons first _ ih =>
    rw [List.forall_mem_cons] at same
    refine .cons ?_ (ih same.2)
    unfold Destruction Device.stopEvents at *
    rwa [same.1] at first

/-- Destructions that follow others are one sequence of them, by induction on the first ones. -/
theorem Destructions.append {device : Nat → Device α} {first second third : Machine α σ}
    {early late : List Nat} {before after : List (List (Event α))}
    (start : Destructions hooks device first early before second)
    (rest : Destructions hooks device second late after third)
    : Destructions hooks device first (early ++ late) (before ++ after) third := by
  induction start with
  | nil => exact rest
  | cons head _ ih => exact .cons head (ih rest)

theorem Torn.refl (m : Machine α σ) : Torn hooks m m [] where
  devices := by simp
  parents := fun _ => rfl
  others := fun dev _ => .refl (m.device dev)
  gone := by simp
  history := ⟨[], .nil m, by simp⟩

/-- Two teardowns of different devices compose, and their histories are appended. -/
theorem Torn.trans {first second third : Machine α σ} {early late : List Nat}
    (before : Torn hooks first second early) (after : Torn hooks second third late)
    (disjoint : early.Disjoint late)
    : Torn hooks first third (early ++ late) := by
  refine ⟨?_, fun dev => (after.parents dev).trans (before.parents dev), ?_, ?_, ?_⟩
  · rw [after.devices, before.devices]
    simp [Bool.and_comm]
  · intro dev outside
    rw [List.mem_append, not_or] at outside
    exact (before.others dev outside.1).trans (after.others dev outside.2)
  · intro dev member
    by_cases inLate : dev ∈ late
    · exact after.gone dev inLate
    · -- A device that is already freed keeps its empty pool.
      have inEarly : dev ∈ early := (List.mem_append.mp member).resolve_right inLate
      obtain ⟨freed, empty⟩ := before.gone dev inEarly
      have same := after.others dev inLate
      exact ⟨same.freed.trans freed, by rw [same.gone freed, empty]⟩
  · obtain ⟨earlyParts, earlyShape, earlyLog⟩ := before.history
    obtain ⟨lateParts, lateShape, lateLog⟩ := after.history
    refine ⟨earlyParts ++ lateParts, earlyShape.append (lateShape.congr ?_), ?_⟩
    · intro dev inLate
      exact (before.others dev fun inEarly => disjoint inEarly inLate).ops
    · rw [lateLog, earlyLog, List.flatten_append, List.append_assoc]

/-- The devices that are left stay at rest. -/
theorem Torn.idle {m next : Machine α σ} {order : List Nat} (torn : Torn hooks m next order)
    (idle : m.Idle)
    : next.Idle := by
  intro dev member
  rw [torn.devices, List.mem_filter, decide_eq_true_eq] at member
  obtain ⟨freed, releasing⟩ := idle dev member.1
  have same := torn.others dev member.2
  exact ⟨same.freed.trans freed, same.releasing.trans releasing⟩

theorem Torn.parent_eq {m next : Machine α σ} {order : List Nat}
    (torn : Torn hooks m next order)
    : next.parent = m.parent :=
  funext torn.parents

end Hooks

def Machine.firstChild (m : Machine α σ) (dev : Nat) : Option Nat :=
  m.devices.find? fun child => (m.device child).parent == some dev

theorem Machine.firstChild_some {dev child : Nat} (found : m.firstChild dev = some child)
    : child ∈ m.devices ∧ m.parent child = some dev := by
  have pointer := List.find?_some found
  exact ⟨List.mem_of_find?_eq_some found, beq_iff_eq.mp pointer⟩

theorem Machine.firstChild_none {dev : Nat} (none : m.firstChild dev = none)
    : ∀ child ∈ m.devices, m.parent child ≠ some dev := by
  intro child member pointer
  exact List.find?_eq_none.mp none child member (beq_iff_eq.mpr pointer)

theorem Machine.setState_parent (m : Machine α σ) (dev : Nat) (state : DeviceState)
    : (m.setState dev state).parent = m.parent := by
  funext other
  by_cases here : other = dev
  · subst here
    simp only [Machine.parent, Machine.setState, Machine.modify, update_self]
  · simp only [Machine.parent, Machine.setState, Machine.modify, update_of_ne here]

theorem Machine.Idle.setState (idle : m.Idle) (dev : Nat) (state : DeviceState)
    : (m.setState dev state).Idle := by
  intro other member
  by_cases here : other = dev
  · subst here
    simpa only [Machine.setState, Machine.modify, update_self] using idle other member
  · simpa only [Machine.setState, Machine.modify, update_of_ne here]
      using idle other member

section Subtrees
variable [DecidableEq α] (hooks : Hooks α σ)

/-- With fuel for the descendants both functions return, and exactly the subtree, or all of it but
the root, is destroyed. By induction on the fuel.
-/
theorem destroy_subtree (fuel : Nat)
    : (∀ (m : Machine α σ) (dev : Nat),
        Forest m.parent m.devices → m.Idle → dev ∈ m.devices
        → 2 * countUnder m.parent m.devices dev + 2 ≤ fuel
        → ∃ next order, deviceDestroy hooks fuel dev m = some next
          ∧ ChildrenFirst m.parent m.devices
              (fun entry => entry = dev ∨ Under m.parent entry dev) order
          ∧ Torn hooks m next order)
      ∧ (∀ (m : Machine α σ) (dev : Nat),
          Forest m.parent m.devices → m.Idle
          → 2 * countUnder m.parent m.devices dev + 1 ≤ fuel
          → ∃ next order, deviceDestroyChildren hooks fuel dev m = some next
            ∧ ChildrenFirst m.parent m.devices (Under m.parent · dev) order
            ∧ Torn hooks m next order) := by
  induction fuel with
  | zero =>
    refine ⟨?_, ?_⟩
    · omega
    · omega
  | succ fuel ih =>
    obtain ⟨destroy, destroyChildren⟩ := ih
    refine ⟨?_, ?_⟩
    · intro m dev forest idle member enough
      obtain ⟨mid, order, children, below, torn⟩ :=
        destroyChildren m dev forest idle (by omega)
      have root := ChildrenFirst.root forest member below
      have kept : dev ∉ order := fun inside =>
        forest.acyclic dev member ((below.mem_iff dev).mp inside).2
      obtain ⟨alive, phase⟩ := idle dev member
      have same := torn.others dev kept
      have midNodup : mid.devices.Nodup := by
        rw [torn.devices]
        exact forest.nodup.filter _
      have last := destroySelf_torn hooks midNodup (same.freed.trans alive)
        (same.releasing.trans phase)
      refine ⟨destroySelf hooks dev mid, order ++ [dev], ?_, root, torn.trans last ?_⟩
      · rw [deviceDestroy, children, Option.map_some]
      · exact List.disjoint_singleton.mpr kept
    · intro m dev forest idle enough
      cases found : m.firstChild dev with
      | none =>
        refine ⟨m, [], ?_, .none forest (Machine.firstChild_none found), .refl m⟩
        unfold Machine.firstChild at found
        rw [deviceDestroyChildren, found]
      | some child =>
        obtain ⟨member, pointer⟩ := Machine.firstChild_some found
        have fewer := forest.countUnder_child member pointer
        obtain ⟨mid, first, destroyed, subtree, torn⟩ :=
          destroy m child forest idle member (by omega)
        have inFirst : child ∈ first := (subtree.mem_iff child).mpr ⟨member, .inl rfl⟩
        have less := countUnder_without member pointer inFirst
        have remaining : Forest mid.parent mid.devices := by
          rw [torn.parent_eq, torn.devices]
          exact forest.without subtree
        have bound : 2 * countUnder mid.parent mid.devices dev + 1 ≤ fuel := by
          rw [torn.parent_eq, torn.devices]
          omega
        obtain ⟨next, rest, children, below, later⟩ :=
          destroyChildren mid dev remaining (torn.idle idle) bound
        rw [torn.parent_eq, torn.devices] at below
        have both := ChildrenFirst.append (fun _ => Under.of_child pointer) subtree below
        refine ⟨next, first ++ rest, ?_, both, torn.trans later ?_⟩
        · unfold Machine.firstChild at found
          rw [deviceDestroyChildren, found]
          dsimp only
          rw [destroyed, Option.bind_some, children]
        · exact (List.nodup_append'.mp both.nodup).2.2

theorem deviceDestroy_subtree {m : Machine α σ} {dev fuel : Nat}
    (forest : Forest m.parent m.devices) (idle : m.Idle) (member : dev ∈ m.devices)
    (enough : 2 * m.devices.length ≤ fuel)
    : ∃ next order, deviceDestroy hooks fuel dev m = some next
      ∧ ChildrenFirst m.parent m.devices
          (fun entry => entry = dev ∨ Under m.parent entry dev) order
      ∧ Torn hooks m next order := by
  have bound := forest.countUnder_lt_length member
  exact (destroy_subtree hooks fuel).1 m dev forest idle member (by omega)

/-- What a failed realization leaves: no proper descendants, and the device listed without parent,
hooks and resources.
-/
structure Unrealized (hooks : Hooks α σ) (mid next : Machine α σ) (dev : Nat) (order : List Nat)
    : Prop where
  devices : next.devices = mid.devices.filter (· ∉ order)
  listed : dev ∈ next.devices
  state : (next.device dev).state = .failed
  parent : (next.device dev).parent = none
  ops : (next.device dev).ops = none
  priv : (next.device dev).priv = false
  resources : (next.device dev).resources = ⟨[], false⟩
  freed : (next.device dev).freed = false
  others : ∀ other ∉ order, other ≠ dev
    → (mid.device other).SameButResources (next.device other)
  gone : ∀ other ∈ order,
    (next.device other).freed = true ∧ (next.device other).resources.resources = []
  history : ∃ torn parts, ∃ actions : List α,
    Destructions hooks mid.device (mid.setState dev .failed) order parts torn
    ∧ Release hooks dev (callStop hooks dev torn) next.log actions
    ∧ next.log = mid.log ++ parts.flatten
        ++ ((mid.device dev).stopEvents dev ++ actions.map (.ran dev))

theorem unrealizeSelf_unrealized {mid torn : Machine α σ} {dev : Nat} {order : List Nat}
    (member : dev ∈ mid.devices) (idle : mid.Idle) (kept : dev ∉ order)
    (children : Torn hooks (mid.setState dev .failed) torn order)
    : Unrealized hooks mid (unrealizeSelf hooks dev torn) dev order := by
  have entry : (mid.setState dev .failed).device dev
      = { mid.device dev with state := .failed } := by
    simp only [Machine.setState, Machine.modify, update_self]
  have away : ∀ other, other ≠ dev → (mid.setState dev .failed).device other
      = mid.device other := by
    intro other different
    simp only [Machine.setState, Machine.modify, update_of_ne different]
  have before := children.others dev kept
  rw [entry] at before
  obtain ⟨alive, phase⟩ := idle dev member
  have stop := callStop_quieted hooks dev torn
  obtain ⟨actions, ran, release, empty⟩ := resReleaseAll_releases hooks dev
    ((stop.same dev).freed.trans (before.freed.trans alive))
    ((stop.same dev).releasing.trans (before.releasing.trans phase))
  have quiet := stop.trans ran
  unfold unrealizeSelf
  generalize resReleaseAll hooks dev (callStop hooks dev torn) = done at quiet release empty ⊢
  have same := before.trans (quiet.same dev)
  have devices : done.devices = mid.devices.filter (· ∉ order) :=
    quiet.devices.trans children.devices
  have stopped : (torn.device dev).stopEvents dev = (mid.device dev).stopEvents dev := by
    unfold Device.stopEvents
    rw [before.ops]
  refine { devices := devices, listed := ?_, state := ?_, parent := ?_, ops := ?_, priv := ?_,
           resources := ?_, freed := ?_, others := ?_, gone := ?_, history := ?_ }
  · simp only [Machine.modify, devices]
    simpa using And.intro member kept
  · simpa only [Machine.modify, update_self] using same.state
  · simp only [Machine.modify, update_self]
  · simp only [Machine.modify, update_self]
  · simp only [Machine.modify, update_self]
  · simp only [Machine.modify, update_self]
    have idlePool : (done.device dev).resources.releasing = false := same.releasing.trans phase
    rw [← empty, ← idlePool]
  · simpa only [Machine.modify, update_self] using same.freed.trans alive
  · intro other outside different
    simp only [Machine.modify, update_of_ne different]
    have earlier := children.others other outside
    rw [away other different] at earlier
    exact earlier.trans (quiet.same other)
  · intro other inside
    have different : other ≠ dev := fun here => kept (here ▸ inside)
    simp only [Machine.modify, update_of_ne different]
    obtain ⟨freed, none⟩ := children.gone other inside
    exact ⟨(quiet.same other).freed.trans freed, by rw [(quiet.same other).gone freed, none]⟩
  · obtain ⟨parts, shape, log⟩ := children.history
    refine ⟨torn, parts, actions, shape.congr fun other inside => ?_, release, ?_⟩
    · have different : other ≠ dev := fun here => kept (here ▸ inside)
      rw [away other different]
    · simp only [Machine.modify]
      rw [quiet.log, log, stopped]
      rfl

theorem deviceRealize_fails {m mid : Machine α σ} {dev fuel : Nat} {error : VmError}
    {realize : Machine α σ → Except VmError Unit × Machine α σ}
    (new : (m.device dev).state = .new) (hook : hooks.realize dev = some realize)
    (failed : realize (m.setState dev .initializing) = (.error error, mid))
    (forest : Forest mid.parent mid.devices) (idle : mid.Idle) (member : dev ∈ mid.devices)
    (enough : 2 * mid.devices.length ≤ fuel)
    : ∃ next order, deviceRealize hooks fuel dev m = some (.error error, next)
      ∧ ChildrenFirst mid.parent mid.devices (Under mid.parent · dev) order
      ∧ Unrealized hooks mid next dev order := by
  have same := mid.setState_parent dev .failed
  have marked : Forest (mid.setState dev .failed).parent (mid.setState dev .failed).devices := by
    rw [same]
    exact forest
  have bound := marked.countUnder_lt_length member
  have budget : 2 * (mid.setState dev .failed).devices.length ≤ fuel := enough
  obtain ⟨torn, order, children, below, gone⟩ :=
    (destroy_subtree hooks fuel).2 _ dev marked (idle.setState dev .failed) (by omega)
  rw [same] at below
  have kept : dev ∉ order := fun inside =>
    forest.acyclic dev member ((below.mem_iff dev).mp inside).2
  refine ⟨unrealizeSelf hooks dev torn, order, ?_, below,
    unrealizeSelf_unrealized hooks member idle kept gone⟩
  unfold deviceRealize
  rw [if_neg (not_not_intro new), hook]
  dsimp only
  rw [failed]
  dsimp only
  rw [children, Option.map_some]

/-- Teardown of device trees. Destroying a listed device returns, and destroys exactly the device
and its descendants, each once and children first. A realization that fails does so to the proper
descendants, and the device stays listed with nothing left to stop. Each device is stopped first,
and then the cleanups that its pool holds run: all of them, last first, where none cancels another.
-/
theorem device_tree_teardown
    : (∀ (m : Machine α σ) (dev fuel : Nat),
        Forest m.parent m.devices → m.Idle → dev ∈ m.devices → 2 * m.devices.length ≤ fuel
        → ∃ next order, deviceDestroy hooks fuel dev m = some next
          ∧ ChildrenFirst m.parent m.devices
              (fun entry => entry = dev ∨ Under m.parent entry dev) order
          ∧ Torn hooks m next order)
      ∧ (∀ (m mid : Machine α σ) (dev fuel : Nat) (error : VmError) (realize),
          (m.device dev).state = .new → hooks.realize dev = some realize
          → realize (m.setState dev .initializing) = (.error error, mid)
          → Forest mid.parent mid.devices → mid.Idle → dev ∈ mid.devices
          → 2 * mid.devices.length ≤ fuel
          → ∃ next order, deviceRealize hooks fuel dev m = some (.error error, next)
            ∧ ChildrenFirst mid.parent mid.devices (Under mid.parent · dev) order
            ∧ Unrealized hooks mid next dev order)
      ∧ (∀ (dev : Nat) (start : Machine α σ) (log : List (Event α)) (actions : List α),
          Release hooks dev start log actions
          → (∀ runner state action, .cancelAction dev action ∉ (hooks.cleanup dev runner state).2)
          → actions = (start.held dev).reverse) := by
  refine ⟨?_, ?_, fun dev start log actions release alone => release.reversed alone⟩
  · intro m dev fuel forest idle member enough
    exact deviceDestroy_subtree hooks forest idle member enough
  · intro m mid dev fuel error realize new hook failed forest idle member enough
    exact deviceRealize_fails hooks new hook failed forest idle member enough

end Subtrees

def nestedDevices : Machine Nat Unit where
  devices := [0, 1, 2, 3]
  device := fun dev =>
    { parent := if dev = 1 then some 0 else if dev = 2 then some 1 else none
      state := .new, ops := some ⟨true⟩, priv := true
      resources := ⟨[some dev, none, some (dev + 10)], false⟩, freed := false }
  env := ()
  log := []

def passiveHooks : Hooks Nat Unit where
  realize := fun _ => some fun m => (.error .eio, m)
  stop := fun _ _ => ((), [])
  cleanup := fun _ _ _ => ((), [])

theorem nestedDevices_forest : Forest nestedDevices.parent nestedDevices.devices := by
  have above : ∀ child parent, nestedDevices.parent child = some parent → parent < child := by
    intro child parent pointer
    simp only [nestedDevices, Machine.parent] at pointer
    split at pointer
    · cases pointer
      omega
    · split at pointer
      · cases pointer
        omega
      · cases pointer
  have below : ∀ entry top, Under nestedDevices.parent entry top → top < entry := by
    intro entry top under
    induction under with
    | single pointer => exact above _ _ pointer
    | tail _ pointer ih => exact Nat.lt_trans (above _ _ pointer) ih
  refine ⟨by decide, by decide, fun entry _ under => ?_⟩
  exact Nat.lt_irrefl entry (below entry entry under)

/-- Destroying the second device takes the third with it, and failing to realize the first takes
both. Each device is stopped before its two cleanups run, the later one first.
-/
theorem device_tree_teardown_nested
    : (∃ next order, deviceDestroy passiveHooks 8 1 nestedDevices = some next
        ∧ Torn passiveHooks nestedDevices next order ∧ (2 ∈ order ∧ 1 ∈ order ∧ 0 ∉ order)
        ∧ next.log = [.stopped 2, .ran 2 12, .ran 2 2, .freed 2,
            .stopped 1, .ran 1 11, .ran 1 1, .freed 1])
      ∧ ∃ next order, deviceRealize passiveHooks 8 0 nestedDevices = some (.error .eio, next)
        ∧ Unrealized passiveHooks (nestedDevices.setState 0 .initializing) next 0 order
        ∧ next.log = [.stopped 2, .ran 2 12, .ran 2 2, .freed 2,
            .stopped 1, .ran 1 11, .ran 1 1, .freed 1, .stopped 0, .ran 0 10, .ran 0 0]
        ∧ ∀ log actions, Release passiveHooks 0 (nestedDevices.setState 0 .failed) log actions
          → actions = [10, 0] := by
  have idle : nestedDevices.Idle := fun _ _ => ⟨rfl, rfl⟩
  obtain ⟨destroy, realize, reversed⟩ := device_tree_teardown passiveHooks
  refine ⟨?_, ?_⟩
  · obtain ⟨next, order, returned, subtree, torn⟩ :=
      destroy nestedDevices 1 8 nestedDevices_forest idle (by decide) (by decide)
    have acyclic := nestedDevices_forest.acyclic 0 (by decide)
    refine ⟨next, order, returned, torn, ⟨?_, ?_, ?_⟩, ?_⟩
    · exact (subtree.mem_iff 2).mpr ⟨by decide, .inr (.single rfl)⟩
    · exact (subtree.mem_iff 1).mpr ⟨by decide, .inl rfl⟩
    · intro inside
      rcases ((subtree.mem_iff 0).mp inside).2 with same | under
      · cases same
      · exact acyclic (.tail under rfl)
    · have log : (deviceDestroy passiveHooks 8 1 nestedDevices).map (·.log) = some _ := rfl
      rw [returned] at log
      exact Option.some.inj log
  · have started : Forest (nestedDevices.setState 0 .initializing).parent
        (nestedDevices.setState 0 .initializing).devices := by
      rw [nestedDevices.setState_parent]
      exact nestedDevices_forest
    obtain ⟨next, order, returned, -, unrealized⟩ := realize nestedDevices _ 0 8 .eio _ rfl rfl
      rfl started (idle.setState 0 .initializing) (by decide) (by decide)
    refine ⟨next, order, returned, unrealized, ?_, fun log actions release => ?_⟩
    · have log : (deviceRealize passiveHooks 8 0 nestedDevices).map (·.2.log) = some _ := rfl
      rw [returned] at log
      exact Option.some.inj log
    · exact reversed 0 _ log actions release fun _ _ _ => List.not_mem_nil

end Modvm.Core.Tree
