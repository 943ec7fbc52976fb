import Modvm.Lib.Runs
import Modvm.Virtio.Frontend

/-! Every frontend lives one life, and while it lives exactly one pool holds its cleanup. -/

namespace Modvm.Virtio.Frontend

open Function Modvm.Util Modvm.Lib

/-! ### One frontend -/

/-- All that concerns one frontend: its fields, its history, and how often each pool holds its
cleanup.
-/
structure View where
  vdev : Vdev
  life : List Life
  held : PoolId → Nat

def World.view (w : World) (v : Nat) : View where
  vdev := w.vdevs v
  life := w.history v
  held := fun p => (w.pools p).resources.count (some v)

@[simp]
theorem World.view_vdev (w : World) (v : Nat) : (w.view v).vdev = w.vdevs v := rfl

/-- The life that the fields of a frontend tell. -/
def Vdev.told (vdev : Vdev) : List Life :=
  [.allocated]
  ++ (if vdev.parentDev.isSome then [.adopted] else [])
  ++ (if vdev.state = .new then []
      else .realizeCalled :: (List.range vdev.nrVqs).map .queueCreated ++ [.realizeReturned])
  ++ (if vdev.state = .stopped ∧ vdev.stopHook = true then [.stopped] else [])
  ++ (if vdev.freed then
        (List.range vdev.nrVqs).map .queueDestroyed ++ [.privateReleased, .freed]
      else [])

/-- The history of a frontend fits its fields. -/
structure View.Coherent (view : View) : Prop where
  life : view.life = view.vdev.told
  settled : view.vdev.state ≠ .initializing
  bare : view.vdev.state = .new → view.vdev.nrVqs = 0
  adopted : view.vdev.state ≠ .new → view.vdev.parentDev.isSome = true
  ended : view.vdev.freed = true → view.vdev.state = .new ∨ view.vdev.state = .stopped

/-- While a frontend lives, its owner holds its cleanup once and no other pool does. -/
structure View.Ok (view : View) : Prop extends view.Coherent where
  held : ∀ p, view.held p
    = if view.vdev.freed = false ∧ p = view.vdev.owner then 1 else 0

structure View.Absent (view : View) : Prop where
  life : view.life = []
  held : ∀ p, view.held p = 0

structure World.Ok (w : World) : Prop where
  present : ∀ v < w.next, (w.view v).Ok
  absent : ∀ v, w.next ≤ v → (w.view v).Absent

section Views
variable (w : World) (v : Nat) (vdev : Vdev) (events : List Life)

theorem view_act_self
    : (w.act v vdev events).view v
      = { w.view v with vdev := vdev, life := (w.view v).life ++ events } := by
  have mine : (events.map fun event => (v, event)).filterMap
      (fun entry => if entry.1 = v then some entry.2 else none) = events := by
    induction events with
    | nil => rfl
    | cons event rest ih =>
      rw [List.map_cons, List.filterMap_cons, if_pos rfl, ih]
  unfold World.view World.history World.act
  simp only [update_self, List.filterMap_append, mine]

theorem view_act_other {other : Nat} (different : other ≠ v)
    : (w.act v vdev events).view other = w.view other := by
  have foreign : (events.map fun event => (v, event)).filterMap
      (fun entry => if entry.1 = other then some entry.2 else none) = [] := by
    rw [List.filterMap_eq_nil_iff]
    intro entry member
    obtain ⟨event, -, rfl⟩ := List.mem_map.mp member
    exact if_neg different.symm
  unfold World.view World.history World.act
  simp only [update_of_ne different, List.filterMap_append, foreign, List.append_nil]

theorem view_setPool {p : PoolId} {pool : ResPool Nat}
    (same : pool.resources.count (some v) = (w.pools p).resources.count (some v))
    : (w.setPool p pool).view v = w.view v := by
  have held : (fun q => ((w.setPool p pool).pools q).resources.count (some v))
      = fun q => (w.pools q).resources.count (some v) := by
    funext q
    by_cases here : q = p
    · subst here
      simpa only [World.setPool, update_self] using same
    · simp only [World.setPool, update_of_ne here]
  unfold World.view
  rw [held]
  rfl

theorem view_setResources_self (p : PoolId) (resources : List (Option Nat))
    : (w.setResources p resources).view v
      = { w.view v with
          held := update (w.view v).held p (resources.count (some v)) } := by
  have held : (fun q => ((w.setResources p resources).pools q).resources.count (some v))
      = update (w.view v).held p (resources.count (some v)) := by
    funext q
    by_cases here : q = p
    · subst here
      simp only [World.setResources, World.setPool, update_self]
    · simp only [World.setResources, World.setPool, update_of_ne here, World.view]
  unfold World.view at held ⊢
  rw [held]
  rfl

end Views

/-! ### The whole world -/

section Frames
variable {w next : World} {v : Nat}

theorem World.Ok.replace (ok : w.Ok) (allocated : v < w.next) (count : next.next = w.next)
    (others : ∀ other, other ≠ v → next.view other = w.view other) (mine : (next.view v).Ok)
    : next.Ok := by
  refine ⟨fun other below => ?_, fun other above => ?_⟩
  · by_cases here : other = v
    · subst here
      exact mine
    · rw [others other here]
      exact ok.present other (by omega)
  · rw [others other (by omega)]
    exact ok.absent other (by omega)

theorem World.Ok.same (ok : w.Ok) (count : next.next = w.next)
    (views : ∀ other, next.view other = w.view other)
    : next.Ok := by
  refine ⟨fun other below => ?_, fun other above => ?_⟩
  · rw [views other]
    exact ok.present other (by omega)
  · rw [views other]
    exact ok.absent other (by omega)

end Frames

/-! ### Stop and cleanup -/

def View.stop (view : View) : View :=
  if view.vdev.state ≠ .active ∧ view.vdev.state ≠ .initializing then view
  else
    { view with
      vdev := { view.vdev with state := .stopped }
      life := view.life ++ if view.vdev.stopHook then [.stopped] else [] }

section Stop
variable (v : Nat) (w : World)

theorem view_stop_self : (virtioDeviceStop v w).view v = (w.view v).stop := by
  have state : (w.view v).vdev = w.vdevs v := rfl
  unfold virtioDeviceStop View.stop
  dsimp only
  rw [state]
  split
  · rfl
  · exact view_act_self w v _ _

theorem view_stop_other {other : Nat} (different : other ≠ v)
    : (virtioDeviceStop v w).view other = w.view other := by
  unfold virtioDeviceStop
  dsimp only
  split
  · rfl
  · exact view_act_other w v _ _ different

theorem stop_next : (virtioDeviceStop v w).next = w.next := by
  unfold virtioDeviceStop
  dsimp only
  split <;> rfl

theorem view_cleanup_self
    : (virtioCleanup v w).view v
      = { (w.view v).stop with
          vdev := { (w.view v).stop.vdev with freed := true }
          life := (w.view v).stop.life
            ++ ((List.range (w.view v).stop.vdev.nrVqs).map .queueDestroyed
              ++ [.privateReleased, .freed]) } := by
  have stopped := view_stop_self v w
  have fields : (virtioDeviceStop v w).vdevs v = (w.view v).stop.vdev := by
    rw [← stopped]
    rfl
  unfold virtioCleanup
  rw [view_act_self, stopped, fields]

theorem view_cleanup_other {other : Nat} (different : other ≠ v)
    : (virtioCleanup v w).view other = w.view other := by
  unfold virtioCleanup
  rw [view_act_other _ _ _ _ different, view_stop_other v w different]

theorem cleanup_next : (virtioCleanup v w).next = w.next := stop_next v w

end Stop

theorem View.Coherent.stop {view : View} (coherent : view.Coherent)
    : view.stop.Coherent
      ∧ (view.stop.vdev.state = .new ∨ view.stop.vdev.state = .stopped)
      ∧ view.stop.vdev.freed = view.vdev.freed
      ∧ view.stop.held = view.held := by
  unfold View.stop
  split
  · rename_i quiet
    refine ⟨coherent, ?_, rfl, rfl⟩
    rcases state : view.vdev.state with _ | _ | _ | _
    · exact .inl rfl
    · exact absurd state coherent.settled
    · exact absurd state quiet.1
    · exact .inr rfl
  · rename_i running
    have active : view.vdev.state = .active := by
      rcases state : view.vdev.state with _ | _ | _ | _
      · simp [state] at running
      · exact absurd state coherent.settled
      · rfl
      · simp [state] at running
    have alive : view.vdev.freed = false := by
      by_contra freed
      rcases coherent.ended (by simpa using freed) with new | stopped
      · rw [active] at new
        cases new
      · rw [active] at stopped
        cases stopped
    have parent := coherent.adopted (by rw [active]; decide)
    refine ⟨⟨?_, nofun, nofun, fun _ => parent, fun _ => .inr rfl⟩, .inr rfl, rfl, rfl⟩
    rw [coherent.life]
    simp [Vdev.told, active, alive]

theorem cleanup_ok {v : Nat} {w : World} (coherent : (w.view v).Coherent)
    (alive : (w.vdevs v).freed = false) (unlinked : ∀ p, (w.view v).held p = 0)
    : ((virtioCleanup v w).view v).Ok := by
  obtain ⟨after, state, freed, held⟩ := coherent.stop
  rw [view_cleanup_self]
  have notFreed : (w.view v).stop.vdev.freed = false := freed.trans alive
  refine ⟨⟨?_, after.settled, after.bare, after.adopted, fun _ => state⟩, fun p => ?_⟩
  · rw [after.life]
    simp [Vdev.told, notFreed]
  · rw [held, unlinked p]
    simp

/-! ### The calls -/

section Calls
variable {w : World} {v : Nat}

theorem stop_ok (ok : w.Ok) (live : w.Live v) : (virtioDeviceStop v w).Ok := by
  have before := ok.present v live.1
  obtain ⟨after, -, freed, held⟩ := before.toCoherent.stop
  refine ok.replace live.1 (stop_next v w) (fun other => view_stop_other v w) ?_
  rw [view_stop_self]
  have owner : (w.view v).stop.vdev.owner = (w.view v).vdev.owner := by
    unfold View.stop
    split <;> rfl
  refine ⟨after, fun p => ?_⟩
  rw [held, freed, owner]
  exact before.held p

theorem addQueue_ok (ok : w.Ok) (live : w.Live v) (created : Bool)
    : virtioDeviceAddQueue v created w = (.error .einval, w) :=
  if_pos (.inl (ok.present v live.1).settled)

theorem World.Ok.held (ok : w.Ok) (live : w.Live v) (p : PoolId)
    : (w.pools p).resources.count (some v) = if p = (w.vdevs v).owner then 1 else 0 := by
  have held : (w.pools p).resources.count (some v)
      = if (w.vdevs v).freed = false ∧ p = (w.vdevs v).owner then 1 else 0 :=
    (ok.present v live.1).held p
  simpa only [live.2, true_and] using held

theorem World.Ok.of_held (ok : w.Ok) {p : PoolId} (member : some v ∈ (w.pools p).resources)
    : w.Live v ∧ p = (w.vdevs v).owner := by
  have positive : 0 < (w.pools p).resources.count (some v) := List.count_pos_iff.mpr member
  have allocated : v < w.next := by
    by_contra unknown
    have none : (w.pools p).resources.count (some v) = 0 :=
      (ok.absent v (Nat.le_of_not_lt unknown)).held p
    omega
  have held : (w.pools p).resources.count (some v)
      = if (w.vdevs v).freed = false ∧ p = (w.vdevs v).owner then 1 else 0 :=
    (ok.present v allocated).held p
  split at held
  · rename_i owned
    exact ⟨⟨allocated, owned.1⟩, owned.2⟩
  · omega

theorem unlink_cleanup_ok (ok : w.Ok) (live : w.Live v) {resources : List (Option Nat)}
    (unlinked : resources.count (some v) = 0)
    (others : ∀ other, other ≠ v → resources.count (some other)
      = (w.pools (w.vdevs v).owner).resources.count (some other))
    : (virtioCleanup v (w.setResources (w.vdevs v).owner resources)).Ok := by
  have before := ok.present v live.1
  have mine := view_setResources_self w v (w.vdevs v).owner resources
  rw [unlinked] at mine
  refine ok.replace live.1 (cleanup_next v _) ?_ (cleanup_ok ?_ live.2 ?_)
  · intro other different
    rw [view_cleanup_other v _ different]
    exact view_setPool w other (others other different)
  · exact ⟨before.life, before.settled, before.bare, before.adopted, before.ended⟩
  · intro p
    rw [mine]
    dsimp only
    by_cases here : p = (w.vdevs v).owner
    · rw [here, update_self]
    · rw [update_of_ne here]
      exact (ok.held live p).trans (if_neg here)

theorem destroy_ok (ok : w.Ok) (live : w.Live v) : (virtioDeviceDestroy v w).2.Ok := by
  unfold virtioDeviceDestroy
  dsimp only
  split
  · exact ok
  split
  · exact ok
  refine unlink_cleanup_ok ok live ?_ ?_
  · rw [List.count_erase_self, ok.held live, if_pos rfl]
  · intro other different
    exact List.count_erase_of_ne (by simpa using different)

theorem releaseRound_ok (ok : w.Ok) (p : PoolId) : (releaseRound p w).Ok := by
  unfold releaseRound
  split
  · exact ok
  rename_i resource last
  have split := List.dropLast_append_getLast? resource last
  have counts : ∀ entry, (w.pools p).resources.count entry
      = (w.pools p).resources.dropLast.count entry + [resource].count entry := by
    intro entry
    rw [← List.count_append, split]
  cases resource with
  | none =>
    refine ok.same rfl fun other => view_setPool w other ?_
    simp [counts (some other)]
  | some v =>
    obtain ⟨live, owned⟩ := ok.of_held (List.mem_of_getLast? last)
    subst owned
    refine unlink_cleanup_ok ok live ?_ ?_
    · have once := counts (some v)
      rw [ok.held live, if_pos rfl, List.count_singleton_self] at once
      omega
    · intro other different
      have same := counts (some other)
      rw [List.count_singleton, if_neg (by simpa using different.symm)] at same
      exact same.symm

theorem resTransferAction_moves {src dst : PoolId} {next : World} (apart : src ≠ dst)
    (done : resTransferAction src dst v w = .ok next)
    : some v ∉ (w.pools dst).resources
      ∧ next = (w.setResources src ((w.pools src).resources.erase (some v))).setResources dst
          ((w.pools dst).resources ++ [some v]) := by
  unfold resTransferAction at done
  split at done
  · cases done
  split at done
  · cases done
  split at done
  · cases done
  · rename_i absent
    cases done
    exact ⟨absent, rfl⟩

theorem view_transfer {src dst : PoolId} {next : World} (apart : src ≠ dst)
    (held : (w.pools src).resources.count (some v) = 1)
    (done : resTransferAction src dst v w = .ok next)
    : next.next = w.next
      ∧ next.view v
        = { w.view v with
            held := update (update (w.view v).held src 0) dst 1 }
      ∧ ∀ other, other ≠ v → next.view other = w.view other := by
  obtain ⟨absent, rfl⟩ := resTransferAction_moves apart done
  refine ⟨rfl, ?_, fun other different => ?_⟩
  · have gone : ((w.pools src).resources.erase (some v)).count (some v) = 0 := by
      rw [List.count_erase_self, held]
    have arrived : ((w.pools dst).resources ++ [some v]).count (some v) = 1 := by
      rw [List.count_append, List.count_eq_zero.mpr absent, List.count_singleton_self]
    rw [view_setResources_self, view_setResources_self, gone, arrived]
  · have foreign : some other ≠ some v := by simpa using different
    have kept : (w.setResources src ((w.pools src).resources.erase (some v))).pools dst
        = w.pools dst := by
      simp only [World.setResources, World.setPool, update_of_ne apart.symm]
    refine (view_setPool _ other ?_).trans (view_setPool w other ?_)
    · rw [kept]
      rw [List.count_append, List.count_singleton, if_neg (by simpa using foreign.symm),
        Nat.add_zero]
    · exact List.count_erase_of_ne foreign

theorem adopt_ok (ok : w.Ok) (live : w.Live v) (dev : Nat) (ctx : Option Nat) (valid : Bool)
    : (virtioDeviceAdopt dev ctx valid v w).2.Ok := by
  unfold virtioDeviceAdopt
  dsimp only
  split
  · exact ok
  rename_i accepted
  simp only [Bool.or_eq_true, not_or, Bool.not_eq_true, bne_eq_false_iff_eq] at accepted
  obtain ⟨⟨⟨-, orphan⟩, new⟩, home⟩ := accepted
  have apart : (w.vdevs v).owner ≠ .device dev := by
    intro same
    rw [same] at home
    cases ctx <;> simp at home
  split
  · exact ok
  rename_i moved done
  have before := ok.present v live.1
  have held := ok.held live
  obtain ⟨count, mine, others⟩ :=
    view_transfer apart ((held (w.vdevs v).owner).trans (if_pos rfl)) done
  refine ok.replace live.1 count ?_ ?_
  · intro other different
    rw [view_act_other _ _ _ _ different]
    exact others other different
  · rw [view_act_self, mine]
    have unparented : (w.vdevs v).parentDev = none := by simpa using orphan
    refine ⟨⟨?_, before.settled, before.bare, fun _ => rfl, before.ended⟩, fun p => ?_⟩
    · rw [before.life]
      simp [Vdev.told, unparented, new, live.2]
    · dsimp only
      rw [live.2]
      by_cases here : p = .device dev
      · rw [here, update_self, if_pos ⟨rfl, rfl⟩]
      · rw [update_of_ne here, if_neg fun both => here both.2]
        by_cases left : p = (w.vdevs v).owner
        · rw [left, update_self]
        · rw [update_of_ne left]
          exact (held p).trans (if_neg left)

end Calls

/-! ### Realization -/

/-- A frontend in the middle of its realize hook, which found it as `start` and has added some
queues.
-/
structure Realizing (start view : View) (queues : Nat) : Prop where
  vdev : view.vdev = { start.vdev with state := .initializing, nrVqs := queues }
  life : view.life
    = start.life ++ .realizeCalled :: (List.range queues).map .queueCreated
  held : view.held = start.held

section Realize
variable {w : World} {v : Nat}

/-- A hook adds queues one after the other, by induction on what it asks for. -/
theorem addQueues_realizing {start : View} {queues : Nat} (asked : List Bool)
    (realizing : Realizing start (w.view v) queues)
    : (addQueues v asked w).next = w.next
      ∧ (∃ more, Realizing start ((addQueues v asked w).view v) more)
      ∧ ∀ other, other ≠ v → (addQueues v asked w).view other = w.view other := by
  induction asked generalizing w queues with
  | nil => exact ⟨rfl, ⟨queues, realizing⟩, fun _ _ => rfl⟩
  | cons created rest ih =>
    rw [addQueues, List.foldl_cons]
    have fields : w.vdevs v = { start.vdev with state := .initializing, nrVqs := queues } :=
      realizing.vdev
    unfold virtioDeviceAddQueue
    dsimp only
    split
    · exact ih realizing
    split
    · exact ih realizing
    · have mine := view_act_self w v
      have grown : Realizing start ((w.act v
          { w.vdevs v with nrVqs := (w.vdevs v).nrVqs + 1 }
          [.queueCreated (w.vdevs v).nrVqs]).view v) (queues + 1) := by
        rw [mine, fields]
        refine ⟨rfl, ?_, realizing.held⟩
        rw [realizing.life, List.range_succ, List.map_append, List.append_assoc]
        rfl
      obtain ⟨next, later, others⟩ := ih grown
      refine ⟨next, later, fun other different => ?_⟩
      exact (others other different).trans (view_act_other w v _ _ different)

theorem Realizing.settled {start view : View} {queues : Nat} {state : VirtioDeviceState}
    (realizing : Realizing start view queues) (before : start.Ok)
    (new : start.vdev.state = .new) (parent : start.vdev.parentDev.isSome = true)
    (alive : start.vdev.freed = false) (final : state = .active ∨ state = .stopped)
    : ({ view with
          vdev := { view.vdev with state := state }
          life := view.life ++ [.realizeReturned]
            ++ if state = .stopped ∧ view.vdev.stopHook = true then [.stopped] else [] }
        : View).Ok := by
  obtain ⟨vdev, life, held⟩ := realizing
  have told : start.life = [.allocated, .adopted] := by
    rw [before.life]
    simp [Vdev.told, new, parent, alive]
  have realized : state ≠ .new := by
    rcases final with rfl | rfl <;> decide
  have settled : state ≠ .initializing := by
    rcases final with rfl | rfl <;> decide
  refine ⟨⟨?_, settled, fun again => absurd again realized, fun _ => ?_, fun freed => ?_⟩,
    fun p => ?_⟩
  · rw [life, vdev, told]
    simp [Vdev.told, parent, alive, realized]
  · rw [vdev]
    exact parent
  · rw [vdev] at freed
    exact absurd (alive.symm.trans freed) Bool.false_ne_true
  · rw [held, before.held p, vdev]

theorem realize_ok (ok : w.Ok) (live : w.Live v) (hook : RealizeHook)
    : (virtioDeviceRealize hook v w).2.Ok := by
  unfold virtioDeviceRealize
  dsimp only
  split
  · exact ok
  rename_i accepted
  rw [not_or, not_not] at accepted
  obtain ⟨new, adopted⟩ := accepted
  have before := ok.present v live.1
  have parent : (w.view v).vdev.parentDev.isSome = true := Option.ne_none_iff_isSome.mp adopted
  have started : Realizing (w.view v) ((w.act v { w.vdevs v with state := .initializing }
      [.realizeCalled]).view v) 0 := by
    rw [view_act_self]
    refine ⟨?_, rfl, rfl⟩
    have bare : (w.vdevs v).nrVqs = 0 := before.bare new
    rw [← bare]
    rfl
  obtain ⟨count, ⟨queues, realizing⟩, others⟩ := addQueues_realizing hook.queues started
  have away : ∀ other, other ≠ v → (addQueues v hook.queues (w.act v
      { w.vdevs v with state := .initializing } [.realizeCalled])).view other = w.view other :=
    fun other different => (others other different).trans (view_act_other w v _ _ different)
  generalize addQueues v hook.queues _ = after at count realizing away ⊢
  have running : (after.vdevs v).state = .initializing :=
    congrArg Vdev.state realizing.vdev
  split
  · refine ok.replace live.1 ((stop_next v _).trans count) ?_ ?_
    · intro other different
      rw [view_stop_other v _ different, view_act_other _ _ _ _ different]
      exact away other different
    · have stopped := realizing.settled before new parent live.2 (.inr rfl)
      rw [view_stop_self, view_act_self]
      unfold View.stop
      rw [if_neg fun quiet => quiet.2 running]
      simpa only [World.view_vdev, true_and] using stopped
  · refine ok.replace live.1 count ?_ ?_
    · intro other different
      rw [view_act_other _ _ _ _ different, view_act_other _ _ _ _ different]
      exact away other different
    · have active := realizing.settled before new parent live.2 (.inl rfl)
      rw [view_act_self, view_act_self]
      simpa [World.act] using active

end Realize

/-! ### Allocation and other uses of pools -/

section Others
variable {w : World}

theorem created_view (ok : w.Ok) (vdev : Vdev)
    : ({ w.act w.next vdev [.allocated] with next := w.next + 1 } : World).view w.next
      = ⟨vdev, [.allocated], fun _ => 0⟩ := by
  have unknown := ok.absent w.next (Nat.le_refl _)
  have mine := view_act_self w w.next vdev [.allocated]
  have held : (w.view w.next).held = fun _ => 0 := funext unknown.held
  dsimp only at mine
  rw [unknown.life, held] at mine
  exact mine

theorem World.Ok.grow {next : World} (ok : w.Ok) (count : next.next = w.next + 1)
    (others : ∀ other, other ≠ w.next → next.view other = w.view other)
    (mine : (next.view w.next).Ok)
    : next.Ok := by
  refine ⟨fun other below => ?_, fun other above => ?_⟩
  · by_cases here : other = w.next
    · rw [here]
      exact mine
    · rw [others other here]
      exact ok.present other (by omega)
  · rw [others other (by omega)]
    exact ok.absent other (by omega)

theorem alloc_ok (ok : w.Ok) (call : AllocCall) : (virtioDeviceAlloc call w).2.Ok := by
  unfold virtioDeviceAlloc
  split
  · exact ok
  rename_i ctx _
  split
  · exact ok
  dsimp only
  let vdev : Vdev := ⟨.new, .vm ctx, none, call.stopHook, 0, false⟩
  let created : World := { w.act w.next vdev [.allocated] with next := w.next + 1 }
  have mine : created.view w.next = ⟨vdev, [.allocated], fun _ => 0⟩ := created_view ok vdev
  have others : ∀ other, other ≠ w.next → created.view other = w.view other :=
    fun other different => view_act_other w w.next vdev [.allocated] different
  have unheld : ∀ p, (w.pools p).resources.count (some w.next) = 0 :=
    (ok.absent w.next (Nat.le_refl _)).held
  have unknown : some w.next ∉ (w.pools (.vm ctx)).resources :=
    List.count_eq_zero.mp (unheld (.vm ctx))
  have coherent : (created.view w.next).Coherent := by
    rw [mine]
    exact ⟨rfl, nofun, fun _ => rfl, fun realized => absurd rfl realized, nofun⟩
  have reset : (virtioCleanup w.next created).Ok := by
    refine ok.grow (cleanup_next _ created) ?_ (cleanup_ok coherent ?_ ?_)
    · intro other different
      exact (view_cleanup_other _ created different).trans (others other different)
    · exact congrArg (fun view => view.vdev.freed) mine
    · intro p
      rw [mine]
  rcases resAddAction_cases call.node w.next (w.pools (.vm ctx)) with
    answer | ⟨known, -⟩ | answer | answer
  · rw [answer]
    exact reset
  · exact absurd known unknown
  · rw [answer]
    exact reset
  · rw [answer]
    have once : ((w.pools (.vm ctx)).resources ++ [some w.next]).count (some w.next) = 1 := by
      rw [List.count_append, unheld, List.count_singleton_self]
    have now := view_setResources_self created w.next (.vm ctx)
      ((w.pools (.vm ctx)).resources ++ [some w.next])
    rw [once, mine] at now
    refine ok.grow rfl ?_ ?_
    · intro other different
      refine (view_setPool created other ?_).trans (others other different)
      have foreign : some w.next ≠ some other := by simpa using different.symm
      change ((w.pools (.vm ctx)).resources ++ [some w.next]).count (some other)
        = (w.pools (.vm ctx)).resources.count (some other)
      rw [List.count_append, List.count_singleton, if_neg (by simpa using foreign), Nat.add_zero]
    · change ((created.setResources (.vm ctx) _).view w.next).Ok
      rw [now]
      rw [mine] at coherent
      refine ⟨⟨coherent.life, coherent.settled, coherent.bare, coherent.adopted,
        coherent.ended⟩, fun p => ?_⟩
      by_cases here : p = .vm ctx
      · subst here
        simp [vdev]
      · simp [vdev, here]

theorem setPool_ok (ok : w.Ok) {p : PoolId} {pool : ResPool Nat}
    (same : ∀ v, pool.resources.count (some v) = (w.pools p).resources.count (some v))
    : (w.setPool p pool).Ok :=
  ok.same rfl fun v => view_setPool w v (same v)

theorem Step.ok {op : Op} {next : World} (step : Step w op next) (ok : w.Ok) : next.Ok := by
  obtain ⟨allowed, rfl⟩ := step
  cases op with
  | alloc call => exact alloc_ok ok call
  | adopt dev ctx valid => exact adopt_ok ok allowed dev ctx valid
  | realize hook => exact realize_ok ok allowed hook
  | addQueue v created =>
    change (virtioDeviceAddQueue v created w).2.Ok
    rw [addQueue_ok ok allowed created]
    exact ok
  | stop => exact stop_ok ok allowed
  | destroy => exact destroy_ok ok allowed
  | beginRelease => exact setPool_ok ok fun _ => rfl
  | releaseRound p => exact releaseRound_ok ok p
  | endRelease => exact setPool_ok ok fun _ => rfl
  | addOther p allocated =>
    change ((resZalloc allocated (w.pools p)).elim w (w.setPool p)).Ok
    unfold resZalloc
    split
    · exact ok
    · exact setPool_ok ok fun v => by simp
  | cancelOther =>
    refine setPool_ok ok fun v => ?_
    exact List.count_erase_of_ne (nofun : some v ≠ none)

theorem init_ok (vdevs : Nat → Vdev) : (World.init vdevs).Ok :=
  ⟨nofun, fun _ _ => ⟨rfl, fun _ => rfl⟩⟩

theorem run_ok {vdevs : Nat → Vdev} {ops : List Op}
    (run : Run Step (World.init vdevs) ops w)
    : w.Ok :=
  run.invariant World.Ok (fun _ _ _ ok step => Step.ok step ok) (init_ok vdevs)

end Others

/-! ### One life -/

/-- The place of an event in the life of a frontend. -/
def Life.phase : Life → Nat
  | .allocated => 0
  | .adopted => 1
  | .realizeCalled => 2
  | .queueCreated _ => 3
  | .realizeReturned => 4
  | .stopped => 5
  | .queueDestroyed _ => 6
  | .privateReleased => 7
  | .freed => 8

/-- A history goes through the phases in order, and no event happens twice. -/
def Ordered (life : List Life) : Prop :=
  life.Pairwise fun earlier later => earlier.phase ≤ later.phase ∧ earlier ≠ later

theorem Ordered.append {life rest : List Life} (bound : Nat) (first : Ordered life)
    (second : Ordered rest) (below : ∀ event ∈ life, event.phase < bound)
    (above : ∀ event ∈ rest, bound ≤ event.phase)
    : Ordered (life ++ rest) := by
  refine List.pairwise_append.mpr ⟨first, second, fun earlier before later after => ?_⟩
  have increasing : earlier.phase < later.phase :=
    Nat.lt_of_lt_of_le (below earlier before) (above later after)
  refine ⟨increasing.le, ?_⟩
  rintro rfl
  exact Nat.lt_irrefl _ increasing

theorem Ordered.each {event : Nat → Life} (injective : Injective event)
    (flat : ∀ i j, (event i).phase ≤ (event j).phase) (queues : Nat)
    : Ordered ((List.range queues).map event) :=
  List.pairwise_map.mpr
    (List.nodup_range.imp fun different => ⟨flat _ _, fun same => different (injective same)⟩)

def fullLife (queues : Nat) : List Life :=
  [.allocated] ++ [.adopted]
  ++ (.realizeCalled :: (List.range queues).map .queueCreated ++ [.realizeReturned])
  ++ [.stopped]
  ++ ((List.range queues).map .queueDestroyed ++ [.privateReleased, .freed])

/-- What the fields of a frontend say about an event. -/
def Vdev.Shows (vdev : Vdev) : Life → Prop
  | .allocated => True
  | .adopted => vdev.parentDev.isSome = true
  | .realizeCalled | .realizeReturned => vdev.state ≠ .new
  | .queueCreated index => vdev.state ≠ .new ∧ index < vdev.nrVqs
  | .stopped => vdev.state = .stopped ∧ vdev.stopHook = true
  | .queueDestroyed index => vdev.freed = true ∧ index < vdev.nrVqs
  | .privateReleased | .freed => vdev.freed = true

theorem mem_told (vdev : Vdev) (event : Life) : event ∈ vdev.told ↔ vdev.Shows event := by
  unfold Vdev.told
  cases event <;> simp [Vdev.Shows]

theorem told_sublist (vdev : Vdev) : vdev.told.Sublist (fullLife vdev.nrVqs) := by
  refine .append (.append (.append (.append (.refl _) ?_) ?_) ?_) ?_
  · split
    · exact .refl _
    · exact List.nil_sublist _
  · split
    · exact List.nil_sublist _
    · exact .refl _
  · split
    · exact .refl _
    · exact List.nil_sublist _
  · split
    · exact .refl _
    · exact List.nil_sublist _

theorem fullLife_ordered (queues : Nat) : Ordered (fullLife queues) := by
  have single (event : Life) : Ordered [event] := List.pairwise_singleton _ _
  have created : Ordered ((List.range queues).map .queueCreated) :=
    .each (fun _ _ => Life.queueCreated.inj) (fun _ _ => le_refl _) queues
  have destroyed : Ordered ((List.range queues).map .queueDestroyed) :=
    .each (fun _ _ => Life.queueDestroyed.inj) (fun _ _ => le_refl _) queues
  have realizing
      : Ordered ([.realizeCalled] ++ (List.range queues).map .queueCreated ++ [.realizeReturned]) :=
    .append 4 (.append 3 (single _) created (by simp [Life.phase]) (by simp [Life.phase]))
      (single _) (by simp [Life.phase]) (by simp [Life.phase])
  have releasing
      : Ordered ((List.range queues).map .queueDestroyed ++ ([.privateReleased] ++ [.freed])) :=
    .append 7 destroyed
      (.append 8 (single _) (single _) (by simp [Life.phase]) (by simp [Life.phase]))
      (by simp [Life.phase]) (by simp [Life.phase])
  have started : Ordered ([.allocated] ++ [.adopted]) :=
    .append 1 (single _) (single _) (by simp [Life.phase]) (by simp [Life.phase])
  refine .append 6 (.append 5 (.append 2 started realizing ?_ ?_) (single .stopped) ?_ ?_)
    releasing ?_ ?_ <;> simp [Life.phase, or_imp, forall_and]

/-! ### The contract -/

/-- One life of a frontend: every event at most once, from allocation, adoption and realize to the
stop and the releases.
-/
structure OneLife (stopHook : Bool) (life : List Life) : Prop where
  ordered : Ordered life
  realizeAdopted : Life.realizeCalled ∈ life → Life.adopted ∈ life
  queueRealized : ∀ index, Life.queueCreated index ∈ life
    → Life.realizeCalled ∈ life ∧ Life.realizeReturned ∈ life
  stopRealized : Life.stopped ∈ life → stopHook = true ∧ Life.realizeCalled ∈ life
  stopBeforeFree : Life.freed ∈ life → stopHook = true → Life.realizeCalled ∈ life
    → Life.stopped ∈ life
  queueReleased : ∀ index, Life.queueDestroyed index ∈ life
    ↔ Life.freed ∈ life ∧ Life.queueCreated index ∈ life
  privateReleased : Life.privateReleased ∈ life ↔ Life.freed ∈ life

theorem View.Coherent.oneLife {view : View} (coherent : view.Coherent)
    : OneLife view.vdev.stopHook view.life := by
  rw [coherent.life]
  constructor
  · exact (fullLife_ordered _).sublist (told_sublist _)
  all_goals simp only [mem_told, Vdev.Shows]
  · exact coherent.adopted
  · rintro index ⟨realized, -⟩
    exact ⟨realized, realized⟩
  · rintro ⟨stopped, hook⟩
    refine ⟨hook, ?_⟩
    rw [stopped]
    nofun
  · intro freed hook realized
    exact ⟨(coherent.ended freed).resolve_left realized, hook⟩
  · intro index
    constructor
    · rintro ⟨freed, bound⟩
      refine ⟨freed, ?_, bound⟩
      intro new
      rw [coherent.bare new] at bound
      exact Nat.not_lt_zero _ bound
    · rintro ⟨freed, -, bound⟩
      exact ⟨freed, bound⟩

/-- Each frontend lives one life: its stop hook runs once before it is freed if realize was called,
and never otherwise; the stop precedes every release; every queue and the frontend are released
once, and until then one pool holds the cleanup once; queues are only added during realize, called
at most once and after adoption.
-/
theorem virtio_frontend_lifecycle (vdevs : Nat → Vdev) (ops : List Op) (w : World)
    (run : Run Step (World.init vdevs) ops w) (v : Nat) (allocated : v < w.next)
    : OneLife (w.vdevs v).stopHook (w.history v)
      ∧ (Life.freed ∉ w.history v →
          ∃ owner, ∀ p, (w.pools p).resources.count (some v) = if p = owner then 1 else 0)
      ∧ (Life.freed ∈ w.history v → ∀ p, some v ∉ (w.pools p).resources) := by
  have ok : (w.view v).Ok := (run_ok run).present v allocated
  have freed : Life.freed ∈ w.history v ↔ (w.vdevs v).freed = true := by
    rw [show w.history v = (w.vdevs v).told from ok.life, mem_told]
    rfl
  refine ⟨ok.oneLife, ?_, ?_⟩
  · intro alive
    rw [freed] at alive
    refine ⟨(w.vdevs v).owner, fun p => (ok.held p).trans ?_⟩
    simp only [World.view_vdev, alive, true_and]
  · intro dead p
    rw [freed] at dead
    refine List.count_eq_zero.mp ((ok.held p).trans ?_)
    simp [dead]

/-- A frontend is allocated, adopted and realized with two queues, and its device is released. -/
def servedOps : List Op :=
  [.alloc ⟨some 0, true, true, true, true⟩, .adopt 1 (some 0) true 0,
    .realize ⟨[true, true], .ok ()⟩ 0, .beginRelease (.device 1), .releaseRound (.device 1)]

def blankVdevs (_ : Nat) : Vdev := ⟨.new, .vm 0, none, false, 0, false⟩

def servedWorld : World :=
  servedOps.foldl (fun w op => op.perform w) (World.init blankVdevs)

theorem virtio_frontend_lifecycle_served
    : servedWorld.history 0
        = [.allocated, .adopted, .realizeCalled, .queueCreated 0, .queueCreated 1,
            .realizeReturned, .stopped, .queueDestroyed 0, .queueDestroyed 1, .privateReleased,
            .freed]
      ∧ OneLife true (servedWorld.history 0)
      ∧ ∀ p, some 0 ∉ (servedWorld.pools p).resources := by
  have history : servedWorld.history 0
      = [.allocated, .adopted, .realizeCalled, .queueCreated 0, .queueCreated 1,
          .realizeReturned, .stopped, .queueDestroyed 0, .queueDestroyed 1, .privateReleased,
          .freed] := by decide
  have run : Run Step (World.init blankVdevs) servedOps servedWorld := by
    have one : Run Step (World.init blankVdevs) (servedOps.take 1) _ := .single ⟨trivial, rfl⟩
    have two : Run Step _ (servedOps.take 2) _ := one.snoc ⟨⟨by decide, rfl⟩, rfl⟩
    have three : Run Step _ (servedOps.take 3) _ := two.snoc ⟨⟨by decide, rfl⟩, rfl⟩
    have four : Run Step _ (servedOps.take 4) _ := three.snoc ⟨rfl, rfl⟩
    exact four.snoc ⟨rfl, rfl⟩
  obtain ⟨life, -, gone⟩ := virtio_frontend_lifecycle blankVdevs servedOps servedWorld run 0
    (by decide)
  exact ⟨history, life, gone (by decide)⟩

end Modvm.Virtio.Frontend
