import Modvm.Backend.ServiceSteps

/-! A native backend has at most one delivery in flight. -/

namespace Modvm.Backend

open Function Modvm.Host Modvm.Lib
open Modvm.Io hiding Event Step

variable {ρ τ : Type}

section Steps
variable [DecidableEq τ] {native : Native ρ} {svc : τ} {w : World ρ τ}

theorem io_ok (ok : w.Ok svc) {t : τ} {op : Op} {next : IoCtx τ} (outside : w.Outside svc t op)
    (moves : Io.Step w.io (t, op) next)
    : World.Ok svc { w with io := next } := by
  have postable : Postable svc w.io w.bound t op := fun b kind allocated same =>
    ⟨(outside.posts b kind allocated same).1,
      fun data _ => (outside.posts b kind allocated same).2 data⟩
  have kept : update w.phase t .receiving = w.phase := by
    rw [← outside.client, update_eq_self]
  have placed := ok.placed.step moves postable
  rw [kept] at placed
  refine ⟨placed, ok.serves, ok.recorded, fun b current u => ?_⟩
  have none : op.makes b = 0 := by
    unfold Op.makes
    split
    next other allocated =>
      refine if_neg ?_
      rintro rfl
      exact (outside.posts other .data allocated rfl).2 rfl (ok.placed.member other current)
    · rfl
  have flow := ok.placed.flow moves postable current outside.client u
  have before := ok.tokens b current u
  unfold World.tokens at before ⊢
  dsimp only
  omega

theorem post_ok (ok : w.Ok svc) {op : Op} {next : IoCtx τ} {pc : ServicePc Op}
    (script : w.service.pc.script = op :: pc.script) (idle : w.io.calls svc = [])
    (moves : Io.Step w.io (svc, op) next) (bound : w.binding ≠ none)
    (polled : Polled (w.service.sources 0) w.log pc)
    : World.Ok svc ({ w with io := next }.goto pc) := by
  have client : w.phase svc = .receiving := by
    by_contra late
    obtain ⟨item, below, top, -⟩ := ok.placed.innermost svc late
    rw [idle] at top
    cases top
  have postable : Postable svc w.io w.bound svc op := fun b kind allocated same =>
    have current := ok.serves.posts op (script ▸ List.mem_cons_self) b kind allocated same
    ⟨ok.placed.created b (ok.placed.member b current), fun _ other => absurd rfl other⟩
  have kept : update w.phase svc .receiving = w.phase := by
    rw [← client, update_eq_self]
  have placed := ok.placed.step moves postable
  rw [kept] at placed
  refine ⟨placed, ⟨fun none => absurd none bound, ok.serves.sources, ok.serves.reads, ?_, polled⟩,
    ok.recorded, fun b current u => ?_⟩
  · intro later member
    exact ok.serves.posts later (script ▸ List.mem_cons_of_mem _ member)
  · have flow := ok.placed.flow moves postable current client u
    have before := ok.tokens b current u
    have spent : scripted b w.service.pc.script = op.makes b + scripted b pc.script := by
      simp [script, scripted]
    unfold World.tokens at before ⊢
    change (w.service.sources 0).events.read.toNat + scripted b pc.script
      + stackCost (Frame.submits b) (next.calls svc) + next.waiting b
      + owed b (w.phase u) (next.calls u) ≤ 1
    omega

variable {item : IoWork} {next : IoCtx τ} {t : τ} {below : List Frame}

theorem Placed.setPhase {io : IoCtx τ} {binding : Option Nat} {bound : List Nat}
    {phases : τ → Phase} (placed : Placed svc io binding bound phases)
    (top : io.calls t = .run item :: below) (data : item.kind = .data)
    (member : item.binding ∈ bound) {phase : Phase}
    (consuming : phase = .consuming → (io.scopes item.binding).isOpen)
    : Placed svc io binding bound (update phases t phase) := by
  refine { placed with innermost := ?_, consuming := ?_ }
  · intro u late
    by_cases here : u = t
    · subst here
      exact ⟨item, below, top, data, member⟩
    · rw [update_of_ne here] at late
      exact placed.innermost u late
  · intro u other rest late found
    by_cases here : u = t
    · subst here
      rw [update_self] at late
      obtain ⟨same, -⟩ := List.cons.inj (top.symm.trans found)
      obtain rfl := Frame.run.inj same
      exact consuming late
    · rw [update_of_ne here] at late
      exact placed.consuming u other rest late found

section

variable (ok : w.Ok svc) (top : w.io.calls t = .run item :: below)
include ok top

theorem setPhase_ok (receives : w.Receives item) (early : w.phase t ≠ .finished) {phase : Phase}
    (consuming : phase = .consuming → (w.io.scopes item.binding).isOpen)
    : (w.setPhase t phase).Ok svc := by
  refine ⟨ok.placed.setPhase top receives.1 receives.2 consuming, ok.serves, ok.recorded,
    fun b current u => ?_⟩
  have before := ok.tokens b current u
  refine Nat.le_trans (Nat.add_le_add_left ?_ _) before
  change owed b (update w.phase t phase u) (w.io.calls u)
    ≤ owed b (w.phase u) (w.io.calls u)
  by_cases here : u = t
  · subst here
    rw [update_self, owed_of_ne early]
    exact owed_le b phase _
  · rw [update_of_ne here]

theorem consumed_ok (receives : w.Receives item) (phase : w.phase t = .consuming)
    : ((w.updates (native.consumed w.ctx)).setPhase t .finished).Ok svc := by
  have early : w.phase t ≠ .finished := by simp [phase]
  rcases native.consumedArms w.ctx with none | arms
  · have same : w.updates [] = w := by simp [World.updates]
    rw [none, same]
    exact setPhase_ok ok top receives early (by simp)
  rw [arms]
  obtain ⟨current, disarmed, unscripted, unposted, unqueued, rest⟩ :=
    consuming_token ok top receives phase
  have armed : ((w.updates [(0, .readOnly)]).service.sources 0)
      = ⟨.readOnly, (w.service.sources 0).revision + 1⟩ := update_source_self ..
  refine ⟨ok.placed.setPhase top receives.1 receives.2 (by simp), ⟨ok.serves.ended,
    ok.serves.sources, ?_, ok.serves.posts, ?_⟩, ⟨?_, ?_, ?_⟩, fun b now u => ?_⟩
  · rfl
  · exact ok.serves.polled.arm disarmed
  · exact ok.recorded.fresh.append (by simp)
  · exact ok.recorded.late.append (by simp) (by simp)
  · simpa [World.updates, World.setPhase] using ok.recorded.destroyed
  · obtain rfl : item.binding = b := Option.some.inj (current.symm.trans now)
    change (((w.updates [(0, .readOnly)]).service.sources 0)).events.read.toNat
      + scripted item.binding w.service.pc.script
      + stackCost (Frame.submits item.binding) (w.io.calls svc) + w.io.waiting item.binding
      + owed item.binding (update w.phase t .finished u) (w.io.calls u) ≤ 1
    have released
        : owed item.binding (update w.phase t .finished u) (w.io.calls u) = 0 := by
      by_cases here : u = t
      · subst here
        rw [update_self, top]
        exact rest
      · -- the delivering thread has the device lock, so no other thread has an item
        have holds := ok.placed.exclusive.holder t (.run item) (by simp [top]) rfl
        have without : w.io.deviceLock ≠ some u := by
          rw [holds]
          exact fun same => here (Option.some.inj same).symm
        exact Nat.le_zero.mp
          ((owed_le _ _ _).trans (ok.placed.exclusive.delivers_eq_zero without _).le)
    rw [unscripted, unposted, unqueued, released]
    exact Nat.le_refl 1

theorem delivered_ok (phase : w.phase t = .finished) (moves : Io.Step w.io (t, .advance) next)
    : ({ w with io := next }.setPhase t .receiving).Ok svc := by
  have popped : next = w.io.goto t below := by
    have taken : advance w.io t = some next := moves
    rw [advance, top] at taken
    exact (Option.some.inj taken).symm
  refine ⟨ok.placed.step moves (fun _ _ _ same => by cases same), ok.serves, ok.recorded,
    fun b current u => ?_⟩
  have before := ok.tokens b current u
  subst popped
  have submits : ∀ v, stackCost (Frame.submits b) ((w.io.goto t below).calls v)
      = stackCost (Frame.submits b) (w.io.calls v) := by
    intro v
    by_cases here : v = t
    · subst here
      simp [IoCtx.goto, top, Frame.submits]
    · simp [IoCtx.goto, here]
  have hands : owed b (update w.phase t .receiving u) ((w.io.goto t below).calls u)
      = owed b (w.phase u) (w.io.calls u) := by
    by_cases here : u = t
    · subst here
      simp [IoCtx.goto, top, phase, owed]
    · simp [IoCtx.goto, here]
  unfold World.tokens at before ⊢
  simp only [World.setPhase]
  rw [submits, hands]
  exact before

end

theorem bound_ok (ok : w.Ok svc) (limit : Nat) (client : w.Client t)
    (holder : w.io.deviceLock = some t) (unbound : w.binding = none)
    (running : w.io.stopped = false)
    : (w.bind native limit).Ok svc := by
  have moves : Io.Step w.io (t, .create true) (ioBindingCreateLocked w.io true) := by
    simp [Io.Step, Io.step, Io.call, client.1, holder]
  have kept : update w.phase t .receiving = w.phase := by
    rw [← client.2, update_eq_self]
  have placed := ok.placed.step moves fun _ _ _ same => by cases same
  rw [kept] at placed
  have created : (ioBindingCreateLocked w.io true).created = w.io.created + 1 := by
    simp [ioBindingCreateLocked, running]
  have calls : (ioBindingCreateLocked w.io true).calls = w.io.calls := by
    simp [ioBindingCreateLocked, running, IoCtx.setScope]
  have work : (ioBindingCreateLocked w.io true).work = w.io.work := by
    simp [ioBindingCreateLocked, running, IoCtx.setScope]
  obtain ⟨unqueued, unheld⟩ := ok.placed.fresh w.io.created (Nat.le_refl _)
  obtain ⟨others, reads⟩ := native.reads
  refine ⟨{ placed with created := ?_, current := ?_, member := ?_, silent := ?_, innermost := ?_ },
    ⟨fun none => (by cases none), fun _ => ?_, ?_, fun _ posted => (by cases posted), trivial⟩,
    ⟨ok.recorded.fresh, ok.recorded.late, ?_⟩, fun b current u => ?_⟩
  · intro b member
    change b < (ioBindingCreateLocked w.io true).created
    rw [created]
    rcases List.mem_cons.mp member with rfl | old
    · exact Nat.lt_succ_self _
    · exact Nat.lt_succ_of_lt (ok.placed.created b old)
  · intro b member isOpen
    rcases List.mem_cons.mp member with rfl | old
    · rfl
    · cases unbound.symm.trans (placed.current b old isOpen)
  · intro b current
    obtain rfl := Option.some.inj current
    exact List.mem_cons_self
  · intro b current u _
    obtain rfl := Option.some.inj current
    change stackCost _ ((ioBindingCreateLocked w.io true).calls u) = 0
    rw [calls]
    exact (unheld u).1
  · intro u late
    obtain ⟨item, below, top, data, member⟩ := placed.innermost u late
    exact ⟨item, below, top, data, List.mem_cons_of_mem _ member⟩
  · change 0 < native.masks.length
    simp [reads]
  · change ((native.masks[0]?).getD Mask.none).write = false
    simp [reads, Mask.readOnly]
  · intro b gone
    have member := (ok.recorded.destroyed b gone).1
    refine ⟨List.mem_cons_of_mem _ member, fun same => ?_⟩
    obtain rfl := Option.some.inj same
    exact Nat.lt_irrefl _ (ok.placed.created _ member)
  · obtain rfl := Option.some.inj current
    change ((native.masks[0]?).getD Mask.none).read.toNat + 0
      + stackCost (Frame.submits w.io.created) ((ioBindingCreateLocked w.io true).calls svc)
      + (ioBindingCreateLocked w.io true).work.countP (·.isData w.io.created)
      + owed w.io.created (w.phase u) ((ioBindingCreateLocked w.io true).calls u) ≤ 1
    have hands := (owed_le w.io.created (w.phase u) (w.io.calls u)).trans (unheld u).2.le
    have queued : w.io.work.countP (·.isData w.io.created) = 0 := unqueued
    have posting := (unheld svc).1
    rw [calls, work]
    have armed := Bool.toNat_le ((native.masks[0]?).getD Mask.none).read
    omega

theorem Step.ok {next : World ρ τ} (step : Step native svc w next) (ok : w.Ok svc)
    : next.Ok svc := by
  cases step with
  | io outside moves => exact io_ok ok outside moves
  | bound limit client holder other unbound running =>
    exact bound_ok ok limit client holder unbound running
  | received top receives phase =>
    exact setPhase_ok ok top receives (by rw [phase]; nofun) nofun
  | tested top receives phase =>
    refine setPhase_ok ok top receives (by rw [phase]; nofun) fun consuming => ?_
    by_contra closed
    rw [if_neg closed] at consuming
    cases consuming
  | consumed top receives phase => exact consumed_ok ok top receives phase
  | delivered top receives phase moves => exact delivered_ok ok top phase moves
  | wrote len host => exact wrote_ok native ok len host
  | snapshot top => exact snapshot_ok ok top
  | interrupted polling => exact move_ok ok (ok.bound (by rw [polling]; nofun)) rfl trivial
  | pollFailed error memory polling => exact pollFailed_ok ok error memory polling
  | polled revents polling => exact polled_ok ok revents polling
  | passed scanning =>
    exact move_ok ok (ok.bound (by rw [scanning]; nofun)) rfl
      (.inl (scanning_rest ok scanning))
  | called host memory scanning reported current =>
    exact called_ok native ok host memory scanning reported current
  | scanned scanning => exact move_ok ok (ok.bound (by rw [scanning]; nofun)) rfl trivial
  | posted calling idle moves =>
    have polled := ok.serves.polled
    rw [calling] at polled
    exact post_ok ok (by rw [calling]; rfl) idle moves (ok.bound (by rw [calling]; nofun)) polled
  | returned calling =>
    have polled := ok.serves.polled
    rw [calling] at polled
    exact move_ok ok (ok.bound (by rw [calling]; nofun)) rfl (.inl polled)
  | reported failing idle moves =>
    exact post_ok ok (by rw [failing]; rfl) idle moves (ok.bound (by rw [failing]; nofun))
      trivial
  | failed failing => exact move_ok ok (ok.bound (by rw [failing]; nofun)) rfl trivial
  | stopped => exact stopped_ok ok
  | destroyed client holder bound closed joined =>
    exact destroyed_ok native ok bound closed joined

end Steps

/-- The items that a call has in its hands and will not have passed on before it goes on. -/
def Frame.holds : Frame → List IoWork
  | .posting item => [item]
  | .delivering item => [item]
  | .closing _ items => items
  | .closingPut _ items => items
  | _ => []

/-- An item that the receiver does not have yet. -/
def World.Undelivered (w : World ρ τ) (item : IoWork) : Prop :=
  item ∈ w.io.work
  ∨ (∃ t, ∃ frame ∈ w.io.calls t, item ∈ Frame.holds frame)
  ∨ ∃ t, .run item ∈ w.io.calls t ∧ w.phase t = .receiving

theorem holds_counts {frame : Frame} {item : IoWork} {b : Nat} (held : item ∈ Frame.holds frame)
    (data : item.isData b)
    : 1 ≤ frame.submits b + frame.delivers b ∧ ∀ other, frame ≠ .run other := by
  have listed (items : List IoWork) (member : item ∈ items) : 1 ≤ items.countP (·.isData b) :=
    List.countP_pos_iff.mpr ⟨item, member, data⟩
  cases frame with
  | posting =>
    obtain rfl := List.mem_singleton.mp held
    simp [Frame.submits, data]
  | delivering =>
    obtain rfl := List.mem_singleton.mp held
    simp [Frame.delivers, data]
  | closing other items =>
    exact ⟨by simpa [Frame.submits, Frame.delivers] using listed items held, by simp⟩
  | closingPut other items =>
    exact ⟨by simpa [Frame.submits, Frame.delivers] using listed items held, by simp⟩
  | _ => cases held

/-- A native backend between two steps. -/
structure OneInFlight (w : World ρ τ) : Prop where
  /-- While the read source is armed, the receiver has had all data of the binding. -/
  alone : ∀ b, w.binding = some b → (w.service.sources 0).events.read = true →
    ∀ item, w.Undelivered item → item.kind = .data → item.binding ≠ b
  /-- At most one data item of the binding is queued at any time. -/
  bounded : ∀ b, w.binding = some b →
    w.io.work.countP (fun item => item.binding = b && item.kind = .data) ≤ 1
  /-- Read callbacks are made for armed sources with an unchanged mask. -/
  fresh : FreshCalls w.log
  /-- No callback is made after the destruction of its service. -/
  late : NoLateCalls w.log

theorem World.Ok.alone {svc : τ} {w : World ρ τ} (ok : w.Ok svc) {b : Nat}
    (current : w.binding = some b) (armed : (w.service.sources 0).events.read = true)
    {item : IoWork} (undelivered : w.Undelivered item)
    : item.isData b = false := by
  by_contra data
  rw [Bool.not_eq_false] at data
  have token (t : τ) : stackCost (Frame.submits b) (w.io.calls svc) = 0 ∧ w.io.waiting b = 0
      ∧ owed b (w.phase t) (w.io.calls t) = 0 := by
    have one := ok.tokens b current t
    rw [World.tokens, armed, Bool.toNat_true] at one
    exact ⟨by omega, by omega, by omega⟩
  rcases undelivered with queued | ⟨t, frame, member, held⟩ | ⟨t, running, receiving⟩
  · have some : 0 < w.io.waiting b := List.countP_pos_iff.mpr ⟨item, queued, data⟩
    have none := (token svc).2.1
    omega
  · obtain ⟨counts, apart⟩ := holds_counts held data
    have unposted : frame.submits b = 0 := by
      refine Nat.le_zero.mp ((cost_le_stackCost (Frame.submits b) member).trans ?_)
      by_cases mine : t = svc
      · subst mine
        exact (token t).1.le
      · exact (ok.placed.silent b current t mine).le
    have inHand : frame ∈ if w.phase t = .finished then (w.io.calls t).tail else w.io.calls t := by
      split
      next finished =>
        -- the innermost call is the delivery itself
        obtain ⟨other, below, top, -⟩ := ok.placed.innermost t (by rw [finished]; nofun)
        rw [top] at member ⊢
        exact (List.mem_cons.mp member).resolve_left (apart other)
      · exact member
    have free := (cost_le_stackCost (Frame.delivers b) inHand).trans (token t).2.2.le
    omega
  · have free := (token t).2.2
    rw [owed_of_ne (by rw [receiving]; nofun)] at free
    have cost := cost_le_stackCost (Frame.delivers b) running
    simp only [Frame.delivers, data, if_true] at cost
    omega

theorem World.Ok.oneInFlight {svc : τ} {w : World ρ τ} (ok : w.Ok svc) : OneInFlight w := by
  refine ⟨?_, ?_, ok.recorded.fresh, ok.recorded.late⟩
  · intro b current armed item undelivered data same
    have foreign := ok.alone current armed undelivered
    simp [IoWork.isData, data, same] at foreign
  · intro b current
    have token := ok.tokens b current svc
    unfold World.tokens at token
    change w.io.waiting b ≤ 1
    omega

theorem init_ok (svc : τ) (hasFatal : Bool) (ctx : ρ)
    : (World.init hasFatal ctx : World ρ τ).Ok svc := by
  have exclusive : Exclusive (ioCtxCreate hasFatal : IoCtx τ) :=
    ⟨fun _ => List.Pairwise.nil, fun _ => nofun, fun _ _ => nofun⟩
  refine ⟨⟨exclusive, nofun, nofun, nofun, fun _ _ => ⟨rfl, fun _ => ⟨rfl, rfl⟩⟩, nofun,
    fun _ late => absurd rfl late, nofun⟩, ⟨fun _ => rfl, fun some => absurd rfl some, rfl, nofun,
    trivial⟩, ⟨?_, ?_, nofun⟩, nofun⟩
  · intro before after binding armed same
    cases before <;> cases same
  · intro before after b same
    cases before <;> cases same

theorem run_ok [DecidableEq τ] {native : Native ρ} {svc : τ} {start w : World ρ τ}
    (run : Relation.ReflTransGen (Step native svc) start w) (ok : start.Ok svc)
    : w.Ok svc := by
  induction run with
  | refl => exact ok
  | tail _ step before => exact step.ok before

/-- Over every interleaving of the service thread, updates, deliveries, pauses, closes and unbinds,
the console and the TAP backend have at most one delivery in flight.
-/
theorem one_receive_in_flight [DecidableEq τ] (svc : τ) (hasFatal : Bool)
    : (∀ (ctx : CharPosixCtx) (w : World CharPosixCtx τ),
        Relation.ReflTransGen (Step charPosix svc) (World.init hasFatal ctx) w → OneInFlight w)
      ∧ ∀ w : World Unit τ,
          Relation.ReflTransGen (Step netLinux svc) (World.init hasFatal ()) w → OneInFlight w :=
  ⟨fun ctx _ run => (run_ok run (init_ok svc hasFatal ctx)).oneInFlight,
    fun _ run => (run_ok run (init_ok svc hasFatal ())).oneInFlight⟩

/-- A backend whose read callback submits what it reads can have an item in flight: bound to a
receiver and polled once, it leaves the item in the queue and its source disarmed.
-/
theorem Native.reaches_flight (native : Native ρ) (ctx : ρ) (limit : Nat) (host : HostIo)
    {bytes : List Byte}
    (submits : (native.rx (native.bind limit ctx) ⟨true, false, false⟩ host).post
      = some (.submit bytes))
    (sized : ¬ (bytes = [] ∨ bytes.length > limit))
    : ∃ w : World ρ Bool,
        Relation.ReflTransGen (Step native false) (World.init false ctx) w
        ∧ w.io.work = [⟨0, 0, .data⟩] ∧ w.armed 0 = false := by
  let reaction := native.rx (native.bind limit ctx) ⟨true, false, false⟩ host
  have script : ∀ w : World ρ Bool, w.binding = some 0 → w.limit = limit →
      w.script ⟨true, true⟩ reaction.post = [.post 0 .data true] := by
    intro w bound limited
    simp [World.script, bound, limited, reaction, submits, Post.script, ioReceiverSubmit, sized]
  have disarmed : ∀ w : World ρ Bool, (w.updates reaction.updates).armed 0 = false := by
    rw [native.rxSubmits _ _ _ _ submits]
    simp [World.updates, World.armed, Mask.none]
  obtain ⟨rest, reports⟩ : ∃ rest, poll (hostPosixServiceCreate (ω := Op) native.masks).fds
      (fun _ => ⟨true, false, false, false, false⟩)
      = ⟨0, 0, ⟨true, false, false, false, false⟩⟩ :: rest := by
    obtain ⟨others, masks⟩ := native.reads
    simp [masks, poll, Service.fds, hostPosixServiceCreate, List.range_succ_eq_map,
      Mask.readOnly]
  -- the run: a client binds, the service polls, calls the backend and posts what it submits
  have locked : Step native false (World.init false ctx) _ :=
    @Step.io _ _ _ _ _ _ true .lockDevice _
      ⟨by simp, by simp, by simp, rfl, fun _ _ top => by cases top⟩ rfl
  have bound := (Relation.ReflTransGen.single locked).tail
    (.bound (t := true) limit ⟨rfl, rfl⟩ rfl (by simp) rfl rfl)
  have polled := (bound.tail (.snapshot rfl)).tail
    (.polled (fun _ => ⟨true, false, false, false, false⟩) rfl)
  have called := polled.tail
    (.called host ⟨true, true⟩ (congrArg ServicePc.scanning reports) (by decide) rfl)
  have posted := called.tail
    (.posted (congrArg (ServicePc.calling · rest) (script _ rfl rfl)) rfl rfl)
  have queued := posted.tail (@Step.io _ _ _ _ _ _ false .advance _
    ⟨fun _ empty => (by cases empty), by simp, by simp, rfl, fun _ _ top => by cases top⟩ rfl)
  exact ⟨_, queued, rfl, disarmed _⟩

/-- Both backends reach a state with an item in flight, where the bound holds. -/
theorem one_receive_in_flight_queued
    : (∃ w : World CharPosixCtx Bool, w.io.work = [⟨0, 0, .data⟩] ∧ w.armed 0 = false
        ∧ OneInFlight w)
      ∧ ∃ w : World Unit Bool, w.io.work = [⟨0, 0, .data⟩] ∧ w.armed 0 = false
        ∧ OneInFlight w := by
  obtain ⟨console, typed, waiting, off⟩ := charPosix.reaches_flight ⟨0, 0, false, false⟩
    64 ⟨.bytes [0], []⟩ rfl (by decide)
  obtain ⟨tap, received, queued, disarmed⟩ := netLinux.reaches_flight ()
    Virtio.netMaxFrameSize ⟨.bytes [0], []⟩ rfl (by decide)
  obtain ⟨consoles, taps⟩ := one_receive_in_flight (τ := Bool) false false
  exact ⟨⟨console, waiting, off, consoles _ console typed⟩,
    ⟨tap, queued, disarmed, taps tap received⟩⟩

end Modvm.Backend
