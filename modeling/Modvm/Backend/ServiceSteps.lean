import Modvm.Backend.Polling
import Modvm.Backend.Token

/-! The steps of the service thread, and those under the lock of the service, keep a backend in
order.
-/

namespace Modvm.Backend

open Modvm.Host Modvm.Lib
open Modvm.Io hiding Event Step

variable {ρ τ : Type}

structure Recorded (binding : Option Nat) (bound : List Nat) (log : List Event) : Prop where
  fresh : FreshCalls log
  late : NoLateCalls log
  destroyed : ∀ b, .destroyed b ∈ log → b ∈ bound ∧ binding ≠ some b

structure World.Ok (svc : τ) (w : World ρ τ) : Prop where
  placed : Placed svc w.io w.binding w.bound w.phase
  serves : Serves w.service w.binding w.log
  recorded : Recorded w.binding w.bound w.log
  tokens : ∀ b, w.binding = some b → ∀ t, w.tokens svc b t ≤ 1

/-- Updates of other sources leave source 0 alone, by induction. -/
theorem updates_apart (s : Service Op) {masks : List (Nat × Mask)}
    (apart : ∀ update ∈ masks, update.1 ≠ 0)
    : (masks.foldl (fun s (source, mask) => hostPosixServiceUpdateLocked s source mask) s).sources 0
      = s.sources 0 := by
  induction masks generalizing s with
  | nil => rfl
  | cons update rest ih =>
    rw [List.foldl_cons, ih _ fun other member => apart other (List.mem_cons_of_mem _ member)]
    exact update_source_of_ne s (apart update List.mem_cons_self).symm _

/-- Updates only change sources. -/
theorem updates_keep (s : Service Op) (masks : List (Nat × Mask))
    : let after := masks.foldl
        (fun s (source, mask) => hostPosixServiceUpdateLocked s source mask) s
      after.pc = s.pc ∧ after.count = s.count ∧ after.stopped = s.stopped := by
  induction masks generalizing s with
  | nil => exact ⟨rfl, rfl, rfl⟩
  | cons update rest ih => exact ih _

/-- Source 0 is disarmed by the updates, unless there are none. -/
theorem updates_disarm (s : Service Op) {masks : List (Nat × Mask)}
    (disarms : ∀ update ∈ masks, update = (0, .none))
    : let after := masks.foldl
        (fun s (source, mask) => hostPosixServiceUpdateLocked s source mask) s
      (masks = [] ∧ after = s) ∨ (after.sources 0).events = .none := by
  induction masks generalizing s with
  | nil => exact .inl ⟨rfl, rfl⟩
  | cons update rest ih =>
    obtain rfl := disarms update List.mem_cons_self
    rcases ih (hostPosixServiceUpdateLocked s 0 .none)
      fun other member => disarms other (List.mem_cons_of_mem _ member) with ⟨rfl, -⟩ | disarmed
    · simp
    · exact .inr disarmed

/-- A submission posts at most one data item. -/
theorem ioReceiverSubmit_makes (b limit : Nat) (bytes : List Byte) (memory : Memory)
    : scripted b (ioReceiverSubmit b limit bytes memory) ≤ 1 := by
  unfold ioReceiverSubmit
  split
  · exact Nat.zero_le _
  split
  · simp [scripted, Op.makes]
  split <;> simp [scripted, Op.makes]

/-- A notification posts no data. -/
theorem ioReceiverNotify_makes (b other : Nat) (error : Int) (memory : Memory)
    : scripted other (ioReceiverNotify b error memory) = 0 := by
  unfold ioReceiverNotify
  dsimp only
  split
  · simp [scripted, Op.makes]
  split <;> simp [scripted, Op.makes]

/-- All posts go to the binding of the receiver. -/
theorem Post.script_posts (b limit : Nat) (memory : Memory) (post : Post)
    : ∀ op ∈ post.script b limit memory, ∀ other kind allocated,
        op = .post other kind allocated → other = b := by
  cases post with
  | submit bytes =>
    change ∀ op ∈ ioReceiverSubmit b limit bytes memory, _
    unfold ioReceiverSubmit
    split
    · nofun
    split
    · simp
    split <;> simp +contextual
  | notify error =>
    change ∀ op ∈ ioReceiverNotify b error memory, _
    unfold ioReceiverNotify
    dsimp only
    split
    · simp
    split <;> simp +contextual

theorem script_posts (w : World ρ τ) (memory : Memory) (post : Option Post)
    : ∀ op ∈ w.script memory post, ∀ b kind allocated, op = .post b kind allocated →
        w.binding = some b := by
  unfold World.script
  split
  next bound =>
    intro op member b kind allocated same
    rw [bound, Post.script_posts _ _ _ _ op member b kind allocated same]
  · nofun

/-- Only a submission puts an item under way. -/
theorem script_makes (w : World ρ τ) (memory : Memory) (post : Option Post) {b : Nat}
    (current : w.binding = some b)
    : scripted b (w.script memory post) ≤ 1
      ∧ ((∀ bytes, post ≠ some (.submit bytes)) →
          scripted b (w.script memory post) = 0) := by
  unfold World.script
  rw [current]
  cases post with
  | none => exact ⟨Nat.zero_le _, fun _ => rfl⟩
  | some posted =>
    cases posted with
    | submit bytes =>
      exact ⟨ioReceiverSubmit_makes b w.limit bytes memory, fun none => absurd rfl (none bytes)⟩
    | notify error =>
      have silent := ioReceiverNotify_makes b b error memory
      exact ⟨silent.le.trans (Nat.zero_le _), fun _ => silent⟩

section Service
variable {svc : τ} {w : World ρ τ}

section

variable (ok : w.Ok svc)
include ok

/-- The service moves on: nothing is posted on the way. -/
theorem goto_ok {pc : ServicePc Op} (bound : w.binding = none → pc = .ended)
    (posts : ∀ op ∈ pc.script, ∀ b kind allocated, op = .post b kind allocated →
      w.binding = some b) (silent : ∀ b, w.binding = some b → scripted b pc.script = 0)
    (polled : Polled (w.service.sources 0) w.log pc)
    : (w.goto pc).Ok svc := by
  refine ⟨ok.placed, ⟨bound, ok.serves.sources, ok.serves.reads, posts, polled⟩, ok.recorded,
    fun b current u => ?_⟩
  have before := ok.tokens b current u
  have none := silent b current
  unfold World.tokens at before ⊢
  change (w.service.sources 0).events.read.toNat + scripted b pc.script
    + stackCost (Frame.submits b) (w.io.calls svc) + w.io.waiting b
    + owed b (w.phase u) (w.io.calls u) ≤ 1
  omega

/-- A move to a place without a script. -/
theorem move_ok {pc : ServicePc Op} (bound : w.binding ≠ none) (silent : pc.script = [])
    (polled : Polled (w.service.sources 0) w.log pc)
    : (w.goto pc).Ok svc :=
  goto_ok ok (fun none => absurd none bound) (by simp [silent])
    (fun b _ => by simp [silent, scripted]) polled

theorem World.Ok.bound (running : w.service.pc ≠ .ended) : w.binding ≠ none :=
  fun none => running (ok.serves.ended none)

/-- A snapshot records which sources are armed, and their revisions. -/
theorem snapshot_ok (top : w.service.pc = .top) : w.snapshot.Ok svc := by
  have bound := ok.bound (by rw [top]; nofun)
  unfold World.snapshot Service.snapshot
  by_cases stopped : w.service.stopped
  · rw [if_pos stopped, if_pos stopped]
    exact move_ok ok bound rfl trivial
  · rw [if_neg stopped, if_neg stopped]
    obtain ⟨others, listed, rest⟩ := fds_first (ok.serves.sources bound)
    have moved : (w.goto .top).Ok svc := move_ok ok bound rfl trivial
    refine ⟨ok.placed, ⟨fun none => absurd none bound, ok.serves.sources, ok.serves.reads,
      nofun, ?_⟩, ⟨?_, ?_, ?_⟩, moved.tokens⟩
    · refine ⟨w.armed 0, (w.service.sources 0).revision, others, listed, rest, w.log, [], rfl,
        nofun, .inl ⟨nofun, rfl, fun armed => ?_⟩⟩
      simpa [World.armed, ok.serves.reads] using armed
    · exact ok.recorded.fresh.append (by simp)
    · exact ok.recorded.late.append (by simp) (by simp)
    · simpa using ok.recorded.destroyed

/-- A failed `poll` leads to a notification. -/
theorem pollFailed_ok {fds : List PollFd} (error : Int) (memory : Memory)
    (polling : w.service.pc = .polling fds)
    : (w.pollFailed error memory).Ok svc := by
  have bound := ok.bound (by rw [polling]; nofun)
  unfold World.pollFailed
  split
  · exact move_ok ok bound rfl trivial
  · refine goto_ok ok (fun none => absurd none bound) (script_posts w memory _) ?_ trivial
    intro b current
    exact (script_makes w memory _ current).2 nofun

/-- The reports of `poll` are about the snapshot. -/
theorem polled_ok {fds : List PollFd} (revents : Nat → Revents)
    (polling : w.service.pc = .polling fds)
    : (w.goto (.scanning (poll fds revents))).Ok svc := by
  have bound := ok.bound (by rw [polling]; nofun)
  have polled := ok.serves.polled
  rw [polling] at polled
  obtain ⟨enabled, version, others, rfl, rest, linked⟩ := polled
  obtain ⟨reported, reports, listed, apart, zero⟩ := poll_first rest revents
  refine move_ok ok bound rfl (.inr ⟨enabled, version, reported, reports, ?_, apart, zero, linked⟩)
  exact listed

end

variable {report : Report} {rest : List Report}

section

variable (ok : w.Ok svc) (scanning : w.service.pc = .scanning (report :: rest))
include ok scanning

/-- Source 0 is reported first, if at all. -/
theorem scanning_rest
    : ∀ other ∈ rest, other.source ≠ 0 := by
  have polled := ok.serves.polled
  rw [scanning] at polled
  rcases polled with passed | ⟨_, _, _, others, shape, apart, -⟩
  · exact fun other member => passed other (List.mem_cons_of_mem _ member)
  · obtain ⟨-, rfl⟩ := List.cons.inj shape
    exact apart

/-- A current report of source 0 means that it is armed since the snapshot. -/
theorem current_armed (reported : report.revents ≠ .zero) (current : w.service.current report)
    (read : report.source = 0)
    : (w.service.sources 0).events.read = true
      ∧ ∃ earlier later, w.log = earlier ++ .snapshot true :: later ∧ .updated 0 ∉ later
        ∧ ∀ other, .snapshot other ∉ later := by
  have polled := ok.serves.polled
  rw [scanning] at polled
  rcases polled with passed | ⟨enabled, version, revents, others, shape, -, zero, linked⟩
  · exact absurd read (passed report List.mem_cons_self)
  · obtain ⟨rfl, -⟩ := List.cons.inj shape
    have same : version = (w.service.sources 0).revision := by
      simpa [Service.current] using (Bool.and_eq_true_iff.mp current).2
    refine linked.current same ?_
    by_contra off
    exact reported (zero (by simpa using off))

/-- The call is recorded behind the snapshot, with no update of its source in between. -/
theorem called_recorded (reported : report.revents ≠ .zero) (current : w.service.current report)
    (masks : List (Nat × Mask))
    : Recorded w.binding w.bound
        (w.log ++ [.called w.binding report.source (w.armed report.source)]
          ++ masks.map fun (source, _) => .updated source) := by
  have bound := ok.bound (by rw [scanning]; nofun)
  have fresh : FreshCalls
      (w.log ++ [.called w.binding report.source (w.armed report.source)]) := by
    intro before after binding armed same
    rcases split_append same with ⟨later, old, -⟩ | ⟨front, rfl, new⟩
    · exact ok.recorded.fresh before later binding armed old
    · -- the new callback
      cases front with
      | cons => simp at new
      | nil =>
        obtain ⟨same, -⟩ := List.cons.inj new
        obtain ⟨-, read, rfl⟩ := Event.called.inj same
        obtain ⟨on, earlier, later, old, unchanged, alone⟩ :=
          current_armed ok scanning reported current read
        refine ⟨by simp [World.armed, read, on], earlier, later, by simp [old], unchanged, alone⟩
  refine ⟨fresh.append (by simp), ?_, ?_⟩
  · refine (ok.recorded.late.append (by simp) ?_).append (by simp) (by simp)
    intro b gone binding source armed member
    obtain ⟨rfl, -⟩ := Event.called.inj (List.mem_singleton.mp member)
    obtain ⟨now, same⟩ := Option.ne_none_iff_exists'.mp bound
    refine ⟨now, same, ?_⟩
    rintro rfl
    exact (ok.recorded.destroyed now gone).2 same
  · simpa using ok.recorded.destroyed

end

variable {b : Nat} (native : Native ρ)

/-- The read callback submits only as it disarms: the token passes from the source to the script. -/
theorem rx_token (s : Service Op) (events : Ready) (host : HostIo) (memory : Memory)
    (current : w.binding = some b) (armed : (s.sources 0).events.read = true)
    (reads : (s.sources 0).events.write = false)
    : let reaction := native.rx w.ctx events host
      let after := reaction.updates.foldl
        (fun s (source, mask) => hostPosixServiceUpdateLocked s source mask) s
      (after.sources 0).events.write = false
        ∧ (after.sources 0).events.read.toNat + scripted b (w.script memory reaction.post)
          ≤ (s.sources 0).events.read.toNat := by
  intro reaction after
  have ⟨once, unsubmitted⟩ := script_makes w memory reaction.post current
  rcases updates_disarm s (native.rxDisarms w.ctx events host) with ⟨none, same⟩ | disarmed
  · -- nothing is updated, so nothing is submitted
    have silent : ∀ bytes, reaction.post ≠ some (.submit bytes) := by
      intro bytes submits
      have updated := native.rxSubmits w.ctx events host bytes submits
      rw [none] at updated
      cases updated
    change after = s at same
    rw [same, unsubmitted silent]
    exact ⟨reads, Nat.le_refl _⟩
  · rw [disarmed, armed]
    exact ⟨rfl, by simpa [Mask.none] using once⟩

/-- The write callback leaves the token alone. -/
theorem tx_token (s : Service Op) (host : HostIo) (memory : Memory) (current : w.binding = some b)
    : let reaction := native.tx w.ctx host
      let after := reaction.updates.foldl
        (fun s (source, mask) => hostPosixServiceUpdateLocked s source mask) s
      after.sources 0 = s.sources 0 ∧ scripted b (w.script memory reaction.post) = 0 := by
  intro reaction after
  refine ⟨updates_apart s (native.txApart w.ctx host), ?_⟩
  exact (script_makes w memory reaction.post current).2 (native.txSilent w.ctx host)

/-- The invariant over a callback, from what `rx` and `tx` do with the token. -/
theorem called_ok (ok : w.Ok svc) (host : HostIo) (memory : Memory)
    (scanning : w.service.pc = .scanning (report :: rest)) (reported : report.revents ≠ .zero)
    (upToDate : w.service.current report)
    : (w.call native report rest host memory).Ok svc := by
  have bound := ok.bound (by rw [scanning]; nofun)
  obtain ⟨b, current⟩ := Option.ne_none_iff_exists'.mp bound
  unfold World.call
  generalize reacts : (if report.source = 0 then native.rx w.ctx report.revents.ready host
    else native.tx w.ctx host) = reaction
  let after := reaction.updates.foldl
    (fun s (source, mask) => hostPosixServiceUpdateLocked s source mask) w.service
  have token : (after.sources 0).events.write = false
      ∧ (after.sources 0).events.read.toNat + scripted b (w.script memory reaction.post)
        ≤ (w.service.sources 0).events.read.toNat := by
    by_cases read : report.source = 0
    · rw [if_pos read] at reacts
      subst reacts
      have armed := (current_armed ok scanning reported upToDate read).1
      exact rx_token native w.service report.revents.ready host memory current armed
        ok.serves.reads
    · rw [if_neg read] at reacts
      subst reacts
      obtain ⟨same, silent⟩ := tx_token native w.service host memory current
      rw [same, silent]
      exact ⟨ok.serves.reads, Nat.le_refl _⟩
  obtain ⟨-, count, -⟩ := updates_keep w.service reaction.updates
  refine ⟨ok.placed, ⟨fun none => absurd none bound, fun _ => ?_, token.1,
    script_posts w memory reaction.post, scanning_rest ok scanning⟩,
    called_recorded ok scanning reported upToDate reaction.updates, fun other now u => ?_⟩
  · change 0 < after.count
    rw [count]
    exact ok.serves.sources bound
  · obtain rfl : b = other := Option.some.inj (current.symm.trans now)
    have before := ok.tokens b current u
    unfold World.tokens at before ⊢
    change (after.sources 0).events.read.toNat + scripted b (w.script memory reaction.post)
      + stackCost (Frame.submits b) (w.io.calls svc) + w.io.waiting b
      + owed b (w.phase u) (w.io.calls u) ≤ 1
    omega

/-- A write keeps the invariant: it updates source 1 only. -/
theorem wrote_ok (ok : w.Ok svc) (len : Nat) (host : HostIo)
    : ({ w with ctx := (native.write w.ctx len host).1 }.updates
        (native.write w.ctx len host).2).Ok svc := by
  have apart := native.writeApart w.ctx len host
  have same := updates_apart w.service apart
  obtain ⟨pc, count, -⟩ := updates_keep w.service (native.write w.ctx len host).2
  have updated : .updated 0 ∉ (native.write w.ctx len host).2.map
      fun (source, _) => Event.updated source := by
    intro member
    obtain ⟨update, inside, named⟩ := List.mem_map.mp member
    exact apart update inside (Event.updated.inj named)
  refine ⟨ok.placed, ⟨?_, ?_, ?_, ?_, ?_⟩, ⟨?_, ?_, ?_⟩, fun b current u => ?_⟩
  · exact fun none => pc.trans (ok.serves.ended none)
  · exact fun bound => count ▸ ok.serves.sources bound
  · exact same ▸ ok.serves.reads
  · exact pc ▸ ok.serves.posts
  · exact same ▸ pc ▸ ok.serves.polled.append updated (by simp)
  · exact ok.recorded.fresh.append (by simp)
  · exact ok.recorded.late.append (by simp) (by simp)
  · simpa [World.updates] using ok.recorded.destroyed
  · have before := ok.tokens b current u
    unfold World.tokens at before ⊢
    simp only [World.updates]
    rw [same, pc]
    exact before

theorem stopped_ok (ok : w.Ok svc)
    : World.Ok svc { w with service := { w.service with stopped := true } } :=
  ⟨ok.placed, ⟨ok.serves.ended, ok.serves.sources, ok.serves.reads, ok.serves.posts,
    ok.serves.polled⟩, ok.recorded, ok.tokens⟩

/-- An ended service with a closed binding owns nothing of it. -/
theorem destroyed_ok (ok : w.Ok svc) (bound : w.binding = some b)
    (closed : (w.io.scopes b).isOpen = false) (joined : w.service.pc = .ended)
    : World.Ok svc
        { w with
          binding := none
          ctx := native.unbind w.ctx
          log := w.log ++ [.destroyed b] } := by
  refine ⟨?_, ⟨fun _ => joined, fun some => absurd rfl some, ok.serves.reads, ?_, ?_⟩,
    ⟨ok.recorded.fresh.append (by simp), ok.recorded.late.destroyed b, ?_⟩, nofun⟩
  · refine { ok.placed with current := ?_, member := nofun, silent := nofun }
    intro other member isOpen
    -- only the current binding could be open
    obtain rfl : b = other :=
      Option.some.inj (bound.symm.trans (ok.placed.current other member isOpen))
    rw [closed] at isOpen
    cases isOpen
  · rw [joined]
    nofun
  · rw [joined]
    trivial
  · intro other member
    refine ⟨?_, nofun⟩
    rcases List.mem_append.mp member with old | new
    · exact (ok.recorded.destroyed other old).1
    · obtain rfl := Event.destroyed.inj (List.mem_singleton.mp new)
      exact ok.placed.member other bound

/-- Whoever consumes an item holds the token: no other place has it. -/
theorem consuming_token (ok : w.Ok svc) {t : τ} {item : IoWork} {below : List Frame}
    (top : w.io.calls t = .run item :: below) (receives : w.Receives item)
    (phase : w.phase t = .consuming)
    : w.binding = some item.binding
      ∧ (w.service.sources 0).events.read = false
      ∧ scripted item.binding w.service.pc.script = 0
      ∧ stackCost (Frame.submits item.binding) (w.io.calls svc) = 0
      ∧ w.io.waiting item.binding = 0
      ∧ stackCost (Frame.delivers item.binding) below = 0 := by
  have isOpen := ok.placed.consuming t item below phase top
  have current := ok.placed.current item.binding receives.2 isOpen
  have token := ok.tokens item.binding current t
  have early : w.phase t ≠ .finished := by rw [phase]; nofun
  have held : Frame.delivers item.binding (.run item) = 1 := by
    simp [Frame.delivers, IoWork.isData, receives.1]
  unfold World.tokens at token
  rw [owed_of_ne early, top, stackCost_cons] at token
  refine ⟨current, ?_, by omega, by omega, by omega, by omega⟩
  cases read : (w.service.sources 0).events.read with
  | false => rfl
  | true =>
    rw [read, Bool.toNat_true] at token
    omega

end Service

end Modvm.Backend
