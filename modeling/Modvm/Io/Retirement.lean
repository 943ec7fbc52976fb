import Mathlib.Data.Finset.Card
import Modvm.Io.Steps
import Modvm.Lib.Runs
import Modvm.Lib.Stacks

/-! Work is retired exactly once: balances of references, of posts and of bindings. -/

namespace Modvm.Io

open Function Modvm.Lib

variable {τ : Type} [DecidableEq τ]

/-- References to binding `b` that a call has yet to put: one for each item it took. -/
def Frame.references (b : Nat) : Frame → Nat
  | .closing other cancelled => if other = b then cancelled.length else 0
  | .closingPut other cancelled => if other = b then cancelled.length + 1 else 0
  | .delivering item => if item.binding = b then 1 else 0
  | .delivered item => if item.binding = b then 1 else 0
  | .retiring item => if item.binding = b then 1 else 0
  | _ => 0

def Frame.releases (call : Nat) : Frame → Nat
  | .posting item => if item.call = call then 1 else 0
  | .refused other => if other = call then 1 else 0
  | .closing _ cancelled => cancelled.countP (·.call = call)
  | .closingPut _ cancelled => cancelled.countP (·.call = call)
  | .delivering item => if item.call = call then 1 else 0
  | .delivered item => if item.call = call then 1 else 0
  | _ => 0

def Frame.frees (b : Nat) : Frame → Nat
  | .freeing other => if other = b then 1 else 0
  | _ => 0

namespace IoCtx

def queued (io : IoCtx τ) (b : Nat) : Nat := io.work.countP (·.binding = b)

/-- Whether the data of a post is in the queue. -/
def queuedPost (io : IoCtx τ) (call : Nat) : Nat := io.work.countP (·.call = call)

def released (io : IoCtx τ) (call : Nat) : Nat := io.log.count (.released call)

def freed (io : IoCtx τ) (b : Nat) : Nat := io.log.count (.freed b)

variable [Fintype τ]

def inHand (io : IoCtx τ) (b : Nat) : Nat := totalCost (Frame.references b) io.calls

/-- Threads that have yet to release the data of a post. -/
def postInHand (io : IoCtx τ) (call : Nat) : Nat := totalCost (Frame.releases call) io.calls

def beingFreed (io : IoCtx τ) (b : Nat) : Nat := totalCost (Frame.frees b) io.calls

/-- A binding's references are its owner's and those of its items. -/
def References (io : IoCtx τ) : Prop :=
  ∀ b, (io.scopes b).refs = (io.scopes b).owned.toNat + io.queued b + io.inHand b

/-- Every post so far was released once, or is in one place from where it will be. -/
def Releases (io : IoCtx τ) : Prop :=
  ∀ call, io.released call + io.queuedPost call + io.postInHand call
    = if call < io.posts then 1 else 0

/-- Every binding created so far was freed once, is about to be, or has references. -/
def Frees (io : IoCtx τ) : Prop :=
  ∀ b, io.freed b + io.beingFreed b + (if (io.scopes b).refs = 0 then 0 else 1)
    = if b < io.created then 1 else 0

end IoCtx

/-- No binding exists before its creation, an open one has its owner, a closed one nothing queued.
-/
structure BindingsOk (io : IoCtx τ) : Prop where
  beyond : ∀ b, io.created ≤ b → io.scopes b = noBinding
  owner : ∀ b, (io.scopes b).isOpen → (io.scopes b).owned
  drained : ∀ item ∈ io.work, (io.scopes item.binding).isOpen

variable {io next : IoCtx τ}

theorem Effect.calls_eq {t : τ} (effect : Effect io t next)
    : next.calls = update io.calls t (next.calls t) := by
  cases effect
  all_goals
    simp [IoCtx.goto, IoCtx.record, IoCtx.setScope, ioBindingCloseLocked, dropReference]

theorem Effect.totalCost_eq [Fintype τ] {t : τ} (effect : Effect io t next) (cost : Frame → Nat)
    : totalCost cost next.calls + stackCost cost (io.calls t)
      = totalCost cost io.calls + stackCost cost (next.calls t) := by
  have moved := totalCost_update cost io.calls t (next.calls t)
  rwa [← effect.calls_eq] at moved

theorem Effect.bindingsOk {t : τ} (effect : Effect io t next) (ok : BindingsOk io)
    : BindingsOk next := by
  have ⟨beyond, owner, drained⟩ := ok
  cases effect
  case unchanged => exact ok
  all_goals
    refine ⟨?_, ?_, ?_⟩ <;>
      simp only [IoCtx.goto, IoCtx.record, IoCtx.setScope, ioBindingCloseLocked, dropReference] <;>
      grind [noBinding]

theorem owes_of_callback {frame : Frame} (callback : clientRuns [frame]) (n : Nat)
    : frame.references n = 0 ∧ frame.releases n = 0 ∧ frame.frees n = 0 := by
  cases frame <;> first | exact ⟨rfl, rfl, rfl⟩ | cases callback

@[simp]
theorem stackCost_put (cost : Frame → Nat) (last : Prop) [Decidable last] (b : Nat)
    (below : List Frame)
    : stackCost cost (if last then .freeing b :: below else below)
      = (if last then cost (.freeing b) else 0) + stackCost cost below := by
  split <;> simp

theorem countP_filter_binding (work : List IoWork) (b closed : Nat)
    : (work.filter (·.binding ≠ closed)).countP (·.binding = b)
        + (if closed = b then (work.filter (·.binding = closed)).length else 0)
      = work.countP (·.binding = b) := by
  rw [List.countP_filter]
  split
  next same =>
    subst same
    rw [← List.countP_eq_length_filter]
    simp
  next differ =>
    refine List.countP_congr fun item _ => ?_
    simp only [Bool.and_eq_true, decide_eq_true_eq]
    exact ⟨And.left, fun same => ⟨same, fun other => differ (other ▸ same)⟩⟩

theorem countP_filter_call (work : List IoWork) (call closed : Nat)
    : (work.filter (·.binding ≠ closed)).countP (·.call = call)
        + (work.filter (·.binding = closed)).countP (·.call = call)
      = work.countP (·.call = call) := by
  induction work with
  | nil => rfl
  | cons item rest ih =>
    by_cases same : item.binding = closed
    · simp [same, List.countP_cons] at ih ⊢
      omega
    · simp [same, List.countP_cons] at ih ⊢
      omega

variable [Fintype τ]

theorem Effect.references {t : τ} (effect : Effect io t next) (ok : BindingsOk io)
    (balance : io.References)
    : next.References := by
  intro b
  have before := balance b
  have moved := effect.totalCost_eq (Frame.references b)
  unfold IoCtx.inHand at *
  generalize totalCost _ io.calls = held at *
  generalize totalCost _ next.calls = heldAfter at *
  clear balance
  cases effect
  all_goals
    simp [*, IoCtx.goto, IoCtx.record, IoCtx.setScope, ioBindingCloseLocked, dropReference,
      IoCtx.queued] at moved before ⊢
  case created =>
    -- the new binding had no references and no items
    have fresh := ok.beyond io.created (Nat.le_refl _)
    grind [noBinding]
  case closed other client holder owned =>
    have kept := countP_filter_binding io.work b other
    grind [Frame.references]
  case returned frame below top callback =>
    have free := owes_of_callback callback b
    omega
  all_goals grind [Frame.references]

theorem Effect.releases {t : τ} (effect : Effect io t next) (balance : io.Releases)
    : next.Releases := by
  intro call
  have before := balance call
  have moved := effect.totalCost_eq (Frame.releases call)
  unfold IoCtx.postInHand at *
  generalize totalCost _ io.calls = held at *
  generalize totalCost _ next.calls = heldAfter at *
  cases effect
  all_goals
    simp [*, IoCtx.goto, IoCtx.record, IoCtx.setScope, ioBindingCloseLocked, dropReference,
      IoCtx.queuedPost, IoCtx.released] at moved before ⊢
  case closed other client holder owned =>
    have kept := countP_filter_call io.work call other
    grind [Frame.releases]
  case returned frame below top callback =>
    have free := owes_of_callback callback call
    grind
  all_goals grind [Frame.releases]

theorem Effect.frees {t : τ} (effect : Effect io t next) (ok : BindingsOk io)
    (references : io.References) (balance : io.Frees)
    : next.Frees := by
  intro b
  have before := balance b
  have counted := references b
  have moved := effect.totalCost_eq (Frame.frees b)
  have part := stackCost_le_totalCost (Frame.references b) io.calls t
  unfold IoCtx.beingFreed IoCtx.inHand at *
  generalize totalCost (Frame.frees b) io.calls = held at *
  generalize totalCost _ next.calls = heldAfter at *
  clear balance references
  cases effect
  all_goals
    simp [*, IoCtx.goto, IoCtx.record, IoCtx.setScope, ioBindingCloseLocked, dropReference,
      IoCtx.freed] at moved before part ⊢
  case created =>
    have fresh := ok.beyond io.created (Nat.le_refl _)
    grind [noBinding]
  case returned frame below top callback =>
    have free := owes_of_callback callback b
    grind
  case posted item below top running accepted =>
    have owned := ok.owner item.binding accepted
    grind [Frame.frees]
  all_goals grind [Frame.frees, Frame.references]

omit [DecidableEq τ] in
theorem freeing_unreferenced {t : τ} {b : Nat} {below : List Frame} (frees : io.Frees)
    (top : io.calls t = .freeing b :: below)
    : b < io.created ∧ (io.scopes b).refs = 0 ∧ io.freed b = 0 := by
  have balance := frees b
  have part := stackCost_le_totalCost (Frame.frees b) io.calls t
  rw [top, stackCost_cons, Frame.frees] at part
  unfold IoCtx.beingFreed at balance
  grind

omit [DecidableEq τ] in
theorem closed_of_unreferenced (ok : BindingsOk io) (references : io.References) {b : Nat}
    (none : (io.scopes b).refs = 0)
    : (io.scopes b).isOpen = false := by
  have balance := references b
  have owner := ok.owner b
  grind

def remaining (created : Nat) (freed : Nat → Nat) : Finset Nat :=
  (Finset.range created).filter fun b => freed b = 0

theorem card_remaining_succ {created : Nat} {freed : Nat → Nat} (fresh : freed created = 0)
    : (remaining (created + 1) freed).card = (remaining created freed).card + 1 := by
  rw [remaining, Finset.range_add_one, Finset.filter_insert, if_pos fresh,
    Finset.card_insert_of_notMem (by simp)]
  rfl

theorem card_remaining_freed {created b : Nat} {freed after : Nat → Nat} (made : b < created)
    (once : freed b = 0) (gone : after b ≠ 0)
    (others : ∀ other, other ≠ b → after other = freed other)
    : (remaining created after).card = (remaining created freed).card - 1 := by
  have shrunk : remaining created after = (remaining created freed).erase b := by
    ext other
    by_cases here : other = b
    · simp [remaining, here, gone]
    · simp [remaining, here, others other here]
  rw [shrunk, Finset.card_erase_of_mem (by simp [remaining, made, once])]

/-- A binding's memory lasts from creation to freeing, `bindings` counts them, and none was freed
open.
-/
structure CountOk (io : IoCtx τ) : Prop where
  live : ∀ b, (io.scopes b).live ↔ b < io.created ∧ io.freed b = 0
  counted : io.bindings = (remaining io.created io.freed).card
  sane : io.bug = false

omit [DecidableEq τ] [Fintype τ] in
theorem CountOk.same (count : CountOk io) (bindings : next.bindings = io.bindings)
    (created : next.created = io.created) (bug : next.bug = io.bug) (freed : next.freed = io.freed)
    (live : ∀ b, (next.scopes b).live = (io.scopes b).live)
    : CountOk next where
  live b := by
    rw [live, created, freed]
    exact count.live b
  counted := by
    rw [bindings, created, freed]
    exact count.counted
  sane := bug ▸ count.sane

theorem Effect.countOk {t : τ} (effect : Effect io t next) (ok : BindingsOk io)
    (references : io.References) (frees : io.Frees) (count : CountOk io)
    : CountOk next := by
  cases effect
  case unchanged => exact count
  case created client holder =>
    have fresh : io.freed io.created = 0 := by
      have balance := frees io.created
      grind
    refine ⟨?_, ?_, count.sane⟩
    · intro b
      have old := count.live b
      simp only [IoCtx.setScope, IoCtx.freed, update_apply] at old fresh ⊢
      grind
    · exact (congrArg (· + 1) count.counted).trans (card_remaining_succ fresh).symm
  case freed b below top closed =>
    obtain ⟨made, -, once⟩ := freeing_unreferenced frees top
    refine ⟨?_, ?_, count.sane⟩
    · intro other
      have old := count.live other
      simp only [IoCtx.setScope, IoCtx.goto, IoCtx.record, IoCtx.freed, update_apply,
        List.count_append] at old once ⊢
      grind
    · refine (congrArg (· - 1) count.counted).trans (card_remaining_freed made once ?_ ?_).symm
      · simp [IoCtx.freed, IoCtx.record, List.count_append]
      · intro other differ
        simp [IoCtx.freed, IoCtx.record, IoCtx.goto, IoCtx.setScope, List.count_append,
          Ne.symm differ]
  case bugged b below top still =>
    obtain ⟨-, none, -⟩ := freeing_unreferenced frees top
    rw [closed_of_unreferenced ok references none] at still
    cases still
  all_goals
    refine count.same rfl rfl rfl ?_ ?_
    · funext b
      simp [IoCtx.freed, IoCtx.goto, IoCtx.record, IoCtx.setScope, ioBindingCloseLocked,
        dropReference]
    · simp only [IoCtx.goto, IoCtx.record, IoCtx.setScope, ioBindingCloseLocked, dropReference] <;>
        grind

structure Balanced (io : IoCtx τ) : Prop where
  ok : BindingsOk io
  references : io.References
  releases : io.Releases
  frees : io.Frees
  count : CountOk io

omit [DecidableEq τ] in
theorem balanced_ioCtxCreate (hasFatal : Bool) : Balanced (ioCtxCreate hasFatal : IoCtx τ) := by
  have idle : ∀ cost : Frame → Nat, totalCost cost (ioCtxCreate hasFatal : IoCtx τ).calls = 0 :=
    fun cost => totalCost_eq_zero fun t frame member => by cases member
  refine ⟨⟨fun b _ => rfl, fun b => id, by intro item member; cases member⟩, ?_, ?_, ?_, ?_⟩
  · intro b
    rw [IoCtx.inHand, idle]
    rfl
  · intro call
    rw [IoCtx.postInHand, idle]
    rfl
  · intro b
    rw [IoCtx.beingFreed, idle]
    rfl
  · exact ⟨fun b => by simp [ioCtxCreate, noBinding], rfl, rfl⟩

theorem run_balanced {hasFatal : Bool} {acts : List (τ × Op)}
    (run : Run Step (ioCtxCreate hasFatal) acts io)
    : Balanced io := by
  refine run.invariant Balanced ?_ (balanced_ioCtxCreate hasFatal)
  rintro before ⟨t, op⟩ after ⟨ok, references, releases, frees, count⟩ step
  have effect := Step.effect step
  exact ⟨effect.bindingsOk ok, effect.references ok references, effect.releases releases,
    effect.frees ok references frees, effect.countOk ok references frees count⟩

/-- The call has items to retire or a binding to free, perhaps below a callback. -/
def Frame.retires : Frame → Bool
  | .closing _ cancelled => !cancelled.isEmpty
  | .closingPut _ _ => true
  | .freeing _ => true
  | .delivering _ => true
  | .delivered _ => true
  | .retiring _ => true
  | _ => false

/-- All owners have put their bindings, and no item is between the queue and its retirement. -/
def Quiescent (io : IoCtx τ) : Prop :=
  (∀ b, (io.scopes b).owned = false) ∧ ∀ t, ∀ frame ∈ io.calls t, frame.retires = false

omit [DecidableEq τ] in
theorem Balanced.quiescent (balanced : Balanced io) (quiescent : Quiescent io)
    : io.work = [] ∧ io.bindings = 0 ∧ ∀ b < io.created, io.freed b = 1 := by
  obtain ⟨unowned, still⟩ := quiescent
  have closed : ∀ b, (io.scopes b).isOpen = false := by
    intro b
    have owner := balanced.ok.owner b
    grind
  have empty : io.work = [] := by
    refine List.eq_nil_iff_forall_not_mem.mpr fun item member => ?_
    have isOpen := balanced.ok.drained item member
    rw [closed] at isOpen
    cases isOpen
  have released : ∀ b, io.inHand b = 0 := fun b => totalCost_eq_zero fun t frame member => by
    have none := still t frame member
    cases frame <;> simp_all [Frame.retires, Frame.references]
  have settled : ∀ b, io.beingFreed b = 0 := fun b => totalCost_eq_zero fun t frame member => by
    have none := still t frame member
    cases frame <;> simp_all [Frame.retires, Frame.frees]
  have freed : ∀ b < io.created, io.freed b = 1 := by
    intro b made
    have unreferenced : (io.scopes b).refs = 0 := by
      rw [balanced.references b, unowned, IoCtx.queued, empty, released]
      rfl
    have frees := balanced.frees b
    rw [settled, if_pos unreferenced, if_pos made] at frees
    exact frees
  refine ⟨empty, ?_, freed⟩
  rw [balanced.count.counted, Finset.card_eq_zero, remaining, Finset.filter_eq_empty_iff]
  intro b made
  rw [freed b (Finset.mem_range.mp made)]
  exact Nat.one_ne_zero

/-- What exactly-once retirement means in a state of the context. -/
structure RetiredOnce (io : IoCtx τ) : Prop where
  /-- The release function of every post was called once, or its data is in one place from where
  it will be: the queue, or a call in progress. -/
  released : ∀ call < io.posts,
    io.released call + io.queuedPost call + io.postInHand call = 1
  /-- A binding has its owner's reference and one for every queued or running item. -/
  references : ∀ b, (io.scopes b).refs
    = (io.scopes b).owned.toNat + io.queued b + io.inHand b
  /-- A binding was freed once, or is about to be, or has references. -/
  freed : ∀ b < io.created,
    io.freed b + io.beingFreed b + (if (io.scopes b).refs = 0 then 0 else 1) = 1
  /-- A binding that was freed, or is about to be, is closed. -/
  closed : ∀ b, io.freed b + io.beingFreed b ≠ 0 → (io.scopes b).isOpen = false
  /-- The check in `io_binding_put` did not fire. -/
  sane : io.bug = false
  /-- A thread that owes a release, a put or a free goes on to it, and so does a producer whose
  binding is still there. -/
  goesOn : ∀ t frame below, io.calls t = frame :: below →
    (frame.retires ∨ (∃ call, frame = .refused call)
      ∨ ∃ item, frame = .posting item ∧ (io.scopes item.binding).live)
    → ∃ next, Step io (t, .advance) next
  /-- When all owners have put their bindings and no item is being retired, nothing remains, and
  the check in `io_ctx_destroy` passes. -/
  settled : Quiescent io →
    io.bindings = 0 ∧ io.work = [] ∧ ioCtxDestroyOk io
    ∧ (∀ b < io.created, io.freed b = 1)
    ∧ ∀ call < io.posts, io.postInHand call = 0 → io.released call = 1

/-- Work is retired exactly once, in every interleaving of any number of threads. -/
theorem work_retired_once {hasFatal : Bool} {acts : List (τ × Op)} {io : IoCtx τ}
    (run : Run Step (ioCtxCreate hasFatal) acts io)
    : RetiredOnce io := by
  have balanced := run_balanced run
  have released : ∀ call < io.posts,
      io.released call + io.queuedPost call + io.postInHand call = 1 := by
    intro call posted
    rw [balanced.releases call, if_pos posted]
  refine ⟨released, balanced.references, ?_, ?_, balanced.count.sane, ?_, ?_⟩
  · intro b made
    rw [balanced.frees b, if_pos made]
  · intro b gone
    refine closed_of_unreferenced balanced.ok balanced.references ?_
    have balance := balanced.frees b
    grind
  · intro t frame below top owes
    refine Option.isSome_iff_exists.mp ?_
    cases frame <;> simp_all [Frame.retires, step, advance]
    case closing b cancelled =>
      cases cancelled with
      | nil => cases owes rfl
      | cons => rfl
  · intro quiescent
    obtain ⟨empty, none, freed⟩ := balanced.quiescent quiescent
    refine ⟨none, empty, by simp [ioCtxDestroyOk, none, empty], freed, ?_⟩
    intro call posted free
    have balance := released call posted
    rw [IoCtx.queuedPost, empty, free] at balance
    exact balance

def closingCallback : List (Bool × Op) :=
  [(false, .lockDevice), (false, .create true), (false, .unlockDevice),
    (true, .post 0 .data true), (true, .advance), (true, .post 0 .control true), (true, .advance),
    (false, .run), (false, .advance), (false, .advance), (false, .advance), (false, .advance),
    (false, .close 0), (false, .advance), (false, .advance), (false, .advance), (false, .advance),
    (false, .put 0), (false, .advance), (false, .advance), (false, .advance), (false, .advance),
    (false, .advance), (false, .advance)]

def closedByCallback : IoCtx Bool :=
  (closingCallback.foldlM step (ioCtxCreate false)).get (by decide)

/-- Both items are retired and the binding is freed. -/
theorem work_retired_once_by_callback
    : RetiredOnce closedByCallback ∧ closedByCallback.released 0 = 1
      ∧ closedByCallback.released 1 = 1 ∧ closedByCallback.freed 0 = 1
      ∧ ioCtxDestroyOk closedByCallback := by
  refine ⟨work_retired_once (Run.of_foldlM (Option.some_get _).symm), ?_⟩
  decide

end Modvm.Io
