import Modvm.Io.Ctx

/-! What one step of a thread does, said once, with the conditions under which it is taken. -/

namespace Modvm.Io

variable {τ : Type} [DecidableEq τ]

/-- The effect of a step of thread `t`. The stack before a step is named where it matters. -/
inductive Effect (io : IoCtx τ) (t : τ) : IoCtx τ → Prop
  | unchanged : Effect io t io
  | locked (idle : io.calls t = []) (available : io.deviceLock = none)
    : Effect io t { io with deviceLock := some t }
  | unlocked (idle : io.calls t = []) (holder : io.deviceLock = some t)
    : Effect io t { io with deviceLock := none }
  | created (client : clientRuns (io.calls t)) (holder : io.deviceLock = some t)
    : Effect io t
        { io.setScope io.created ⟨1, true, true, true, true⟩ with
          bindings := io.bindings + 1
          created := io.created + 1 }
  | postFailed (client : clientRuns (io.calls t))
    : Effect io t
        (({ io with posts := io.posts + 1 }.goto t (.release io.posts :: io.calls t)).record
          (.released io.posts))
  | posting {b : Nat} {kind : WorkKind} (client : clientRuns (io.calls t))
    : Effect io t
        ({ io with posts := io.posts + 1 }.goto t
          (.posting ⟨io.posts, b, kind⟩ :: io.calls t))
  | closed {b : Nat} (client : clientRuns (io.calls t)) (holder : io.deviceLock = some t)
    (owned : (io.scopes b).owned)
    : Effect io t (ioBindingCloseLocked io t b)
  | ownerPut {b : Nat} (client : clientRuns (io.calls t)) (owned : (io.scopes b).owned)
    (closed : (io.scopes b).isOpen = false)
    : Effect io t (dropReference io t b { io.scopes b with owned := false } (io.calls t))
  | setEnabled {b : Nat} {enabled : Bool} (client : clientRuns (io.calls t))
    (holder : io.deviceLock = some t) (live : (io.scopes b).live)
    : Effect io t (io.setScope b { io.scopes b with enabled := enabled })
  | stopped {error : Int} (client : clientRuns (io.calls t))
    : Effect io t { io with error := error, stopped := true }
  | failed {error : Int} (client : clientRuns (io.calls t))
    : Effect io t
        ({ io with error := error, stopped := true }.goto t (.fatal :: io.calls t))
  | runCalled (idle : io.calls t = []) : Effect io t (io.goto t [.waiting])
  | returned {frame : Frame} {below : List Frame} (top : io.calls t = frame :: below)
    (callback : clientRuns [frame])
    : Effect io t (io.goto t below)
  | refused {item : IoWork} {below : List Frame} (top : io.calls t = .posting item :: below)
    : Effect io t (io.goto t (.refused item.call :: below))
  | posted {item : IoWork} {below : List Frame} (top : io.calls t = .posting item :: below)
    (running : io.stopped = false) (accepted : (io.scopes item.binding).isOpen)
    : Effect io t
        (({ io.setScope item.binding
              { io.scopes item.binding with refs := (io.scopes item.binding).refs + 1 } with
            work := io.work ++ [item] }.goto t below).record (.posted item))
  | refusalReleased {call : Nat} {below : List Frame} (top : io.calls t = .refused call :: below)
    : Effect io t ((io.goto t (.release call :: below)).record (.released call))
  | closeReturned {b : Nat} {below : List Frame} (top : io.calls t = .closing b [] :: below)
    : Effect io t (io.goto t below)
  | cancelReleased {b : Nat} {item : IoWork} {rest : List IoWork} {below : List Frame}
    (top : io.calls t = .closing b (item :: rest) :: below)
    : Effect io t
        ((io.goto t (.release item.call :: .closingPut b rest :: below)).record
          (.released item.call))
  | cancelPut {b : Nat} {rest : List IoWork} {below : List Frame}
    (top : io.calls t = .closingPut b rest :: below)
    : Effect io t (dropReference io t b (io.scopes b) (.closing b rest :: below))
  | bugged {b : Nat} {below : List Frame} (top : io.calls t = .freeing b :: below)
    (still : (io.scopes b).isOpen)
    : Effect io t { io with bug := true }
  | freed {b : Nat} {below : List Frame} (top : io.calls t = .freeing b :: below)
    (closed : (io.scopes b).isOpen = false)
    : Effect io t
        (({ io.setScope b { io.scopes b with live := false } with
            bindings := io.bindings - 1 }.goto t below).record (.freed b))
  | runReturned {below : List Frame} (top : io.calls t = .waiting :: below)
    : Effect io t (io.goto t below)
  | woken {below : List Frame} (top : io.calls t = .waiting :: below)
    : Effect io t (io.goto t (.ready :: below))
  | runLocked {below : List Frame} (top : io.calls t = .ready :: below)
    (available : io.deviceLock = none)
    : Effect io t ({ io with deviceLock := some t }.goto t (.locked :: below))
  | nothing {below : List Frame} (top : io.calls t = .locked :: below)
    : Effect io t (io.goto t (.unlocking :: below))
  | taken {item : IoWork} {before after : List IoWork} {below : List Frame}
    (top : io.calls t = .locked :: below) (running : io.stopped = false)
    (queue : io.work = before ++ item :: after) (first : ∀ earlier ∈ before, ¬ runnable io earlier)
    (eligible : runnable io item)
    : Effect io t
        (({ io with work := before ++ after }.goto t
          (.delivering item :: .unlocking :: below)).record (.taken item))
  | started {item : IoWork} {below : List Frame} (top : io.calls t = .delivering item :: below)
    (isOpen : (io.scopes item.binding).isOpen)
    : Effect io t
        ((io.goto t (.run item :: .delivered item :: below)).record (.started item))
  | skipped {item : IoWork} {below : List Frame} (top : io.calls t = .delivering item :: below)
    (closed : (io.scopes item.binding).isOpen = false)
    : Effect io t (io.goto t (.delivered item :: below))
  | released {item : IoWork} {below : List Frame} (top : io.calls t = .delivered item :: below)
    : Effect io t
        ((io.goto t (.release item.call :: .retiring item :: below)).record
          (.released item.call))
  | itemPut {item : IoWork} {below : List Frame} (top : io.calls t = .retiring item :: below)
    : Effect io t (dropReference io t item.binding (io.scopes item.binding) below)
  | runUnlocked {below : List Frame} (top : io.calls t = .unlocking :: below)
    : Effect io t ({ io with deviceLock := none }.goto t (.waiting :: below))

theorem take_effect {io : IoCtx τ} {t : τ} {below : List Frame}
    (top : io.calls t = .locked :: below)
    : Effect io t (take io t below) := by
  unfold take
  split
  · exact .nothing top
  next running =>
    split
    · exact .nothing top
    next item found =>
      obtain ⟨eligible, before, after, queue, first⟩ := List.find?_eq_some_iff_append.mp found
      have erased : io.work.eraseP (runnable io) = before ++ after := by
        rw [queue, List.eraseP_append_right _ fun b member => by simpa using first b member,
          List.eraseP_cons_of_pos eligible]
      rw [erased]
      exact .taken top (by simpa using running) queue
        (fun earlier member => by simpa using first earlier member) eligible

theorem advance_effect {io next : IoCtx τ} {t : τ} (taken : advance io t = some next)
    : Effect io t next := by
  unfold advance at taken
  split at taken
  case h_1 top => cases taken; exact .returned top rfl
  case h_2 top => cases taken; exact .returned top rfl
  case h_3 top => cases taken; exact .returned top rfl
  case h_4 item below top =>
    split at taken
    · cases taken
      unfold enqueue
      dsimp only
      split
      · exact .refused top
      next accepted =>
        simp only [Bool.or_eq_true, Bool.not_eq_true', not_or, Bool.not_eq_true,
          Bool.not_eq_false] at accepted
        exact .posted top accepted.1 accepted.2
    · cases taken
  case h_5 top => cases taken; exact .refusalReleased top
  case h_6 top => cases taken; exact .closeReturned top
  case h_7 top => cases taken; exact .cancelReleased top
  case h_8 top => cases taken; exact .cancelPut top
  case h_9 b below top =>
    cases taken
    unfold freeBinding
    split
    next still => exact .bugged top still
    next closed => exact .freed top (by simpa using closed)
  case h_10 below top =>
    unfold await at taken
    split at taken
    · cases taken
      exact .runReturned top
    split at taken
    · cases taken
      exact .woken top
    · cases taken
  case h_11 below top =>
    split at taken
    next available =>
      cases taken
      exact .runLocked top available
    · cases taken
  case h_12 top => cases taken; exact take_effect top
  case h_13 top => cases taken; exact .runUnlocked top
  case h_14 item below top =>
    cases taken
    unfold deliver
    split
    next isOpen => exact .started top isOpen
    next closed => exact .skipped top (by simpa using closed)
  case h_15 top => cases taken; exact .released top
  case h_16 top => cases taken; exact .itemPut top
  case h_17 => cases taken

theorem call_effect {io next : IoCtx τ} {t : τ} {op : Op} (client : clientRuns (io.calls t))
    (taken : call io t op = some next)
    : Effect io t next := by
  cases op <;> simp only [call, Option.ite_none_right_eq_some, Option.some.injEq] at taken
  case create allocated =>
    obtain ⟨holder, rfl⟩ := taken
    unfold ioBindingCreateLocked
    split
    · exact .unchanged
    split
    · exact .unchanged
    · exact .created client holder
  case post b kind allocated =>
    subst taken
    unfold ioBindingPost
    split
    · exact .postFailed client
    · exact .posting client
  case close b =>
    obtain ⟨⟨holder, owned⟩, rfl⟩ := taken
    exact .closed client holder owned
  case put b =>
    obtain ⟨⟨owned, closed⟩, rfl⟩ := taken
    exact .ownerPut client owned closed
  case setEnabled b enabled =>
    obtain ⟨⟨holder, live⟩, rfl⟩ := taken
    exact .setEnabled client holder live
  case stop =>
    subst taken
    exact .stopped client
  case fail error =>
    subst taken
    unfold ioCtxFail
    dsimp only
    split
    · exact .failed client
    · exact .stopped client
  all_goals cases taken

theorem Step.effect {io next : IoCtx τ} {t : τ} {op : Op} (taken : Step io (t, op) next)
    : Effect io t next := by
  unfold Step step at taken
  split at taken
  case h_1 same =>
    cases same
    exact advance_effect taken
  case h_2 same =>
    cases same
    obtain ⟨⟨idle, available⟩, rfl⟩ := Option.ite_none_right_eq_some.mp taken |>.imp_right
      Option.some.inj
    exact .locked idle available
  case h_3 same =>
    cases same
    obtain ⟨⟨idle, holder⟩, rfl⟩ := Option.ite_none_right_eq_some.mp taken |>.imp_right
      Option.some.inj
    exact .unlocked idle holder
  case h_4 same =>
    cases same
    obtain ⟨idle, rfl⟩ := Option.ite_none_right_eq_some.mp taken |>.imp_right Option.some.inj
    exact .runCalled idle
  case h_5 same =>
    cases same
    obtain ⟨client, called⟩ := Option.ite_none_right_eq_some.mp taken
    exact call_effect client called

end Modvm.Io
