import Modvm.Io.Exclusion

/-! Delivery discipline: when a callback may start, what a pause, a close and a stop prevent, and
in which order the items of a binding run.
-/

namespace Modvm.Io

open Modvm.Lib

variable {τ : Type} [DecidableEq τ]

def postedItems (log : List Event) : List IoWork :=
  log.filterMap fun
    | .posted item => some item
    | _ => none

def startedItems (log : List Event) : List IoWork :=
  log.filterMap fun
    | .started item => some item
    | _ => none

def stream (b : Nat) (kind : WorkKind) (items : List IoWork) : List IoWork :=
  items.filter fun item => item.binding = b ∧ item.kind = kind

/-- The item that a thread took and has not yet delivered. -/
def delivers : List Frame → List IoWork
  | .delivering item :: _ => [item]
  | _ => []

/-- The item that the thread with the device lock took and has not yet delivered. -/
def IoCtx.inDelivery (io : IoCtx τ) : List IoWork :=
  match io.deviceLock with
  | none => []
  | some t => delivers (io.calls t)

/-- Of every binding, items of a kind are started in the order of their posts, and the others follow
in it.
-/
structure Ordered (io : IoCtx τ) : Prop where
  queue : io.work.Sublist (postedItems io.log)
  streams : ∀ b kind, (stream b kind (startedItems io.log ++ io.inDelivery ++ io.work)).Sublist
    (stream b kind (postedItems io.log))
  shut : ∀ b, .closed b ∈ io.log → b < io.created ∧ (io.scopes b).isOpen = false

@[simp]
theorem stream_append (b : Nat) (kind : WorkKind) (first second : List IoWork)
    : stream b kind (first ++ second) = stream b kind first ++ stream b kind second :=
  List.filter_append ..

variable {io next : IoCtx τ}

theorem Effect.inDelivery_eq {t : τ} (effect : Effect io t next)
    (lock : next.deviceLock = io.deviceLock)
    (same : delivers (next.calls t) = delivers (io.calls t))
    : next.inDelivery = io.inDelivery := by
  unfold IoCtx.inDelivery
  rw [lock]
  split
  · rfl
  next u _ =>
    by_cases here : u = t
    · subst here
      exact same
    · rw [effect.calls_of_ne here]

omit [DecidableEq τ] in
theorem stream_taken {before after : List IoWork} {item : IoWork} (b : Nat) (kind : WorkKind)
    (first : ∀ earlier ∈ before, ¬ runnable io earlier) (eligible : runnable io item)
    : stream b kind ([item] ++ (before ++ after)) = stream b kind (before ++ item :: after) := by
  have split : before ++ item :: after = before ++ ([item] ++ after) := rfl
  rw [split]
  simp only [stream_append]
  by_cases here : item.binding = b ∧ item.kind = kind
  · have none : stream b kind before = [] := by
      refine List.filter_eq_nil_iff.mpr fun earlier member same => first earlier member ?_
      simp only [decide_eq_true_eq] at same
      unfold runnable at eligible ⊢
      rw [same.1, same.2, ← here.1, ← here.2]
      exact eligible
    simp [none]
  · have none : stream b kind [item] = [] := by simp [stream, here]
    simp [none]

omit [DecidableEq τ] in
theorem Ordered.quiet (ordered : Ordered io) (delivery : next.inDelivery.Sublist io.inDelivery)
    (work : next.work.Sublist io.work) (started : startedItems next.log = startedItems io.log)
    (posted : postedItems next.log = postedItems io.log)
    (shut : ∀ b, .closed b ∈ next.log → b < next.created ∧ (next.scopes b).isOpen = false)
    : Ordered next := by
  refine ⟨posted ▸ work.trans ordered.queue, fun b kind => ?_, shut⟩
  rw [started, posted]
  refine List.Sublist.trans ?_ (ordered.streams b kind)
  exact (((List.Sublist.refl _).append delivery).append work).filter _

theorem Effect.shut {t : τ} (effect : Effect io t next) (ok : BindingsOk io) (ordered : Ordered io)
    : ∀ b, .closed b ∈ next.log → b < next.created ∧ (next.scopes b).isOpen = false := by
  have shut := ordered.shut
  have beyond := ok.beyond
  cases effect
  case unchanged => exact shut
  all_goals
    simp only [IoCtx.goto, IoCtx.record, IoCtx.setScope, ioBindingCloseLocked, dropReference]
  all_goals grind [noBinding]

theorem Shape.delivers_below {frame : Frame} {below : List Frame} (shape : Shape (frame :: below))
    : delivers below = [] := by
  unfold delivers
  split
  next item rest =>
    cases ((List.pairwise_cons.mp shape).1 _ List.mem_cons_self).2
  · rfl

theorem Effect.ordered {t : τ} (effect : Effect io t next) (ok : BindingsOk io)
    (exclusive : Exclusive io) (ordered : Ordered io)
    : Ordered next := by
  have shut := effect.shut ok ordered
  have same := effect.inDelivery_eq
  have idle : ∀ stack, clientRuns stack → delivers stack = [] := by
    intro stack client
    unfold delivers
    split
    · cases client
    · rfl
  have below : ∀ frame below, io.calls t = frame :: below → delivers below = [] :=
    fun frame below top => Shape.delivers_below (top ▸ exclusive.shape t)
  cases effect
  case unchanged => exact ordered
  case locked idleHere available =>
    refine ordered.quiet ?_ (.refl _) rfl rfl shut
    simp [IoCtx.inDelivery, idleHere, delivers]
  case unlocked idleHere holds => exact ordered.quiet (List.nil_sublist _) (.refl _) rfl rfl shut
  case runLocked rest top available =>
    refine ordered.quiet ?_ (.refl _) rfl rfl shut
    simp [IoCtx.inDelivery, IoCtx.goto, delivers]
  case runUnlocked rest top => exact ordered.quiet (List.nil_sublist _) (.refl _) rfl rfl shut
  case posted item rest top running accepted =>
    have nothing : delivers rest = delivers (io.calls t) := by
      rw [below _ _ top, top]
      rfl
    have kept := same rfl (by simpa [IoCtx.record, IoCtx.goto] using nothing)
    refine ⟨?_, fun b kind => ?_, shut⟩
    · simpa [IoCtx.record, IoCtx.goto, IoCtx.setScope, postedItems]
        using ordered.queue.append (.refl [item])
    · have old := (ordered.streams b kind).append (.refl (stream b kind [item]))
      rw [kept]
      simpa [IoCtx.record, IoCtx.goto, IoCtx.setScope, postedItems, startedItems] using old
  case taken item front after rest top running queue first eligible =>
    have holds := exclusive.holder t .locked (by simp [top]) rfl
    have nothing : io.inDelivery = [] := by simp [IoCtx.inDelivery, holds, top, delivers]
    refine ⟨?_, fun b kind => ?_, shut⟩
    · have smaller : (front ++ after).Sublist io.work := by simp [queue]
      simpa [IoCtx.record, IoCtx.goto, postedItems] using smaller.trans ordered.queue
    · have old := ordered.streams b kind
      rw [nothing, queue, List.append_nil, stream_append, ← stream_taken b kind first eligible,
        ← stream_append] at old
      simpa [IoCtx.record, IoCtx.goto, IoCtx.inDelivery, holds, delivers, postedItems,
        startedItems] using old
  case started item rest top isOpen =>
    have holds := exclusive.holder t (.delivering item) (by simp [top]) rfl
    have this : io.inDelivery = [item] := by simp [IoCtx.inDelivery, holds, top, delivers]
    refine ⟨?_, fun b kind => ?_, shut⟩
    · simpa [IoCtx.record, IoCtx.goto, postedItems] using ordered.queue
    · have old := ordered.streams b kind
      rw [this] at old
      simpa [IoCtx.record, IoCtx.goto, IoCtx.inDelivery, holds, delivers, postedItems,
        startedItems] using old
  case skipped item rest top closed =>
    have holds := exclusive.holder t (.delivering item) (by simp [top]) rfl
    refine ordered.quiet ?_ (.refl _) rfl rfl shut
    simp [IoCtx.inDelivery, IoCtx.goto, holds, delivers]
  case closed b client _ _ =>
    refine ordered.quiet (same rfl ?_ ▸ .refl _) List.filter_sublist ?_ ?_ shut
    · rw [idle _ client]
      simp [ioBindingCloseLocked, IoCtx.record, IoCtx.goto, delivers]
    · simp [ioBindingCloseLocked, IoCtx.record, IoCtx.goto, IoCtx.setScope, startedItems]
    · simp [ioBindingCloseLocked, IoCtx.record, IoCtx.goto, IoCtx.setScope, postedItems]
  case returned frame rest top callback =>
    have client : clientRuns (io.calls t) := by
      rw [top]
      cases frame <;> first | rfl | cases callback
    refine ordered.quiet (same rfl ?_ ▸ .refl _) (.refl _) rfl rfl shut
    simp [IoCtx.goto, below _ _ top, idle _ client]
  all_goals
    refine ordered.quiet (same rfl ?_ ▸ .refl _) ?_ ?_ ?_ shut
    all_goals
      simp only [IoCtx.goto, IoCtx.record, IoCtx.setScope, dropReference,
        postedItems, startedItems, Function.update_self]
    all_goals grind [delivers]

section Posts

variable [Fintype τ]

def Frame.posts (call : Nat) : Frame → Nat
  | .posting item => if item.call = call then 1 else 0
  | _ => 0

def PostedOnce (io : IoCtx τ) : Prop :=
  ∀ call, (postedItems io.log).countP (·.call = call) + totalCost (Frame.posts call) io.calls
    ≤ if call < io.posts then 1 else 0

theorem Effect.postedOnce {io next : IoCtx τ} {t : τ} (effect : Effect io t next)
    (once : PostedOnce io)
    : PostedOnce next := by
  intro call
  have before := once call
  have moved := effect.totalCost_eq (Frame.posts call)
  generalize totalCost _ io.calls = held at *
  cases effect
  all_goals
    simp [*, IoCtx.goto, IoCtx.record, IoCtx.setScope, ioBindingCloseLocked, dropReference,
      postedItems] at moved before ⊢
  all_goals grind [Frame.posts]

structure Reached (io : IoCtx τ) : Prop where
  ok : BindingsOk io
  exclusive : Exclusive io
  ordered : Ordered io
  once : PostedOnce io

theorem run_reached {hasFatal : Bool} {acts : List (τ × Op)} {io : IoCtx τ}
    (run : Run Step (ioCtxCreate hasFatal) acts io)
    : Reached io := by
  refine run.invariant Reached ?_ ⟨(balanced_ioCtxCreate hasFatal).ok, ?_, ?_, ?_⟩
  · rintro before ⟨t, op⟩ after ⟨ok, exclusive, ordered, once⟩ step
    have effect := Step.effect step
    exact ⟨effect.bindingsOk ok, effect.exclusive exclusive, effect.ordered ok exclusive ordered,
      effect.postedOnce once⟩
  · exact ⟨fun t => .nil, by simp [ioCtxCreate], by simp [ioCtxCreate]⟩
  · exact ⟨.slnil, fun b kind => .slnil, by simp [ioCtxCreate]⟩
  · intro call
    have idle : totalCost (Frame.posts call) (ioCtxCreate hasFatal : IoCtx τ).calls = 0 :=
      totalCost_eq_zero fun t frame member => by cases member
    rw [idle]
    exact Nat.zero_le _

end Posts

/-- The delivery discipline, for a step of thread `t`. -/
structure DeliveryDiscipline (io : IoCtx τ) (t : τ) (next : IoCtx τ) : Prop where
  /-- A callback starts only while its binding is open, was never closed, and, for data, is
  enabled. -/
  starts : ∀ item, next.log = io.log ++ [.started item] →
    (io.scopes item.binding).isOpen ∧ .closed item.binding ∉ io.log
    ∧ (item.kind = .data → (io.scopes item.binding).enabled)
  /-- While a callback runs, no other thread opens, closes, pauses or resumes a binding. -/
  undisturbed : ∀ u item, .run item ∈ io.calls u → u ≠ t → ∀ b,
    (next.scopes b).isOpen = (io.scopes b).isOpen
    ∧ (next.scopes b).enabled = (io.scopes b).enabled
  /-- An item is taken only before the stop, and overtakes only data of disabled bindings. -/
  takes : ∀ item, next.log = io.log ++ [.taken item] →
    io.stopped = false
    ∧ ∃ before after, io.work = before ++ item :: after ∧ next.work = before ++ after
      ∧ ∀ earlier ∈ before, earlier.kind = .data ∧ (io.scopes earlier.binding).enabled = false
  /-- The stop is final. -/
  stays : io.stopped → next.stopped
  /-- The queue is in the order of the posts. -/
  queue : next.work.Sublist (postedItems next.log)
  /-- The items of one kind of one binding are started in the order of their posts. -/
  order : ∀ b kind, (stream b kind (startedItems next.log)).Sublist
    (stream b kind (postedItems next.log))
  /-- Every post was queued at most once, so the orders are those of single items. -/
  distinct : ((postedItems next.log).map (·.call)).Nodup

theorem Effect.starts {t : τ} (effect : Effect io t next) (exclusive : Exclusive io)
    (ordered : Ordered io) {item : IoWork} (start : next.log = io.log ++ [.started item])
    : (io.scopes item.binding).isOpen ∧ .closed item.binding ∉ io.log
      ∧ (item.kind = .data → (io.scopes item.binding).enabled) := by
  cases effect
  case started other below top isOpen =>
    obtain rfl : other = item := by simpa [IoCtx.record, IoCtx.goto] using start
    refine ⟨isOpen, fun shut => ?_, fun data => ?_⟩
    · rw [(ordered.shut other.binding shut).2] at isOpen
      cases isOpen
    · have eligible := exclusive.eligible t other (by simp [top])
      simpa [runnable, data] using eligible
  all_goals
    simp [IoCtx.record, IoCtx.goto, IoCtx.setScope, ioBindingCloseLocked, dropReference] at start

theorem Effect.takes {t : τ} (effect : Effect io t next) {item : IoWork}
    (take : next.log = io.log ++ [.taken item])
    : io.stopped = false
      ∧ ∃ before after, io.work = before ++ item :: after ∧ next.work = before ++ after
        ∧ ∀ earlier ∈ before,
          earlier.kind = .data ∧ (io.scopes earlier.binding).enabled = false := by
  cases effect
  case taken other before after below top running queue first eligible =>
    obtain rfl : other = item := by simpa [IoCtx.record, IoCtx.goto] using take
    refine ⟨running, before, after, queue, rfl, fun earlier member => ?_⟩
    cases kind : earlier.kind <;> simp_all [runnable]
  all_goals
    simp [IoCtx.record, IoCtx.goto, IoCtx.setScope, ioBindingCloseLocked, dropReference] at take

theorem Effect.stays {t : τ} (effect : Effect io t next) (stopped : io.stopped)
    : next.stopped := by
  cases effect
  case stopped => rfl
  case failed => rfl
  all_goals exact stopped

/-- The delivery discipline holds at every step of every interleaving. -/
theorem delivery_disciplined [Fintype τ] {hasFatal : Bool} {acts : List (τ × Op)}
    {io next : IoCtx τ} {t : τ} {op : Op} (run : Run Step (ioCtxCreate hasFatal) acts io)
    (step : Step io (t, op) next)
    : DeliveryDiscipline io t next := by
  obtain ⟨-, exclusive, ordered, -⟩ := run_reached run
  have after := run_reached (run.snoc step)
  have effect := Step.effect step
  refine ⟨fun item => effect.starts exclusive ordered, ?_, fun item => effect.takes, effect.stays,
    after.ordered.queue, fun b kind => ?_, ?_⟩
  · intro u item running other b
    have holds := exclusive.holder u _ running rfl
    refine effect.scopes_of_not_holder ?_ b
    rw [holds]
    exact fun same => other (Option.some.inj same)
  · refine List.Sublist.trans ?_ (after.ordered.streams b kind)
    simp [List.append_assoc]
  · rw [List.nodup_iff_count_le_one]
    intro call
    have once := after.once call
    rw [List.count_eq_countP, List.countP_map]
    have same : (postedItems next.log).countP ((· == call) ∘ IoWork.call)
        = (postedItems next.log).countP (·.call = call) :=
      List.countP_congr fun item _ => by simp
    rw [same]
    split at once <;> omega

def pausedActs : List (Bool × Op) :=
  [(false, .lockDevice), (false, .create true), (false, .setEnabled 0 false),
    (false, .unlockDevice), (true, .post 0 .data true), (true, .advance),
    (true, .post 0 .control true), (true, .advance), (false, .run), (false, .advance),
    (false, .advance)]

def paused : IoCtx Bool := (pausedActs.foldlM step (ioCtxCreate false)).get (by decide)

def overtaken : IoCtx Bool := (step paused (false, .advance)).get (by decide)

/-- The control item overtakes the data item of the paused binding. -/
theorem delivery_disciplined_paused
    : DeliveryDiscipline paused false overtaken
      ∧ overtaken.log = paused.log ++ [.taken ⟨1, 0, .control⟩]
      ∧ paused.work = [⟨0, 0, .data⟩, ⟨1, 0, .control⟩] := by
  refine ⟨delivery_disciplined (Run.of_foldlM (Option.some_get _).symm)
    (Option.some_get _).symm, ?_⟩
  decide

end Modvm.Io
