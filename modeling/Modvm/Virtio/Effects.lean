import Modvm.Virtio.Virtqueue
import Mathlib.Logic.Relation

/-! What the virtqueue operations can do to the world, one access at a time. -/

namespace Modvm.Virtio

open Function Modvm.Core Modvm.Lib

variable {D F T : Type}

/-- A read of guest memory, or a snapshot in the storage of the queue. -/
inductive Fetch (env : Env D) (q : Nat) : World D F T → World D F T → Prop
  | load (w : World D F T) (gpa n : Nat) : Fetch env q w (w.load env q gpa n).2
  | keep (w : World D F T) (slot : Nat) (buf : VirtqueueBuf)
    : Fetch env q w (w.recordBuf q slot buf)

abbrev Fetches (env : Env D) (q : Nat) : World D F T → World D F T → Prop :=
  Relation.ReflTransGen (Fetch env q)

/-- The activity is a request to the host backend. -/
def Activity.IsBackend : Activity → Prop
  | .backendRead => True
  | .backendWrite => True
  | .backendFlush => True
  | .load _ => False
  | .store _ => False
  | .push _ _ => False

/-- An access to guest memory, or a change of the frontend, among `allowed` activities and as
`keeps` permits.
-/
inductive Transfer (env : Env D) (q : Nat) (allowed : Activity → Prop) (keeps : F → F → Prop)
    : World D F T → World D F T → Prop
  | load (w : World D F T) (gpa n : Nat) (ok : allowed (.load ⟨gpa, n⟩))
    : Transfer env q allowed keeps w (w.load env q gpa n).2
  | store (w : World D F T) (gpa : Nat) (bytes : List Byte)
    (ok : allowed (.store ⟨gpa, bytes.length⟩))
    : Transfer env q allowed keeps w (w.store env q gpa bytes)
  | backend (w : World D F T) (activity : Activity) (frontend : F)
    (kind : activity.IsBackend) (ok : allowed activity) (kept : keeps w.frontend frontend)
    : Transfer env q allowed keeps w ({ w with frontend := frontend }.record q activity)
  | frontend (w : World D F T) (frontend : F) (kept : keeps w.frontend frontend)
    : Transfer env q allowed keeps w { w with frontend := frontend }

abbrev Transfers (env : Env D) (q : Nat) (allowed : Activity → Prop) (keeps : F → F → Prop)
    : World D F T → World D F T → Prop :=
  Relation.ReflTransGen (Transfer env q allowed keeps)

variable {env : Env D} {keeps : F → F → Prop} {next w : World D F T} {q : Nat}
  {allowed : Activity → Prop}

theorem Transfers.mono {few many : Activity → Prop} {fewer : F → F → Prop}
    (more : ∀ activity, few activity → many activity)
    (looser : ∀ before after, fewer before after → keeps before after)
    (steps : Transfers env q few fewer w next)
    : Transfers env q many keeps w next := by
  refine Relation.ReflTransGen.mono ?_ _ _ steps
  intro _ _ step
  cases step with
  | load gpa n ok => exact .load _ gpa n (more _ ok)
  | store gpa bytes ok => exact .store _ gpa bytes (more _ ok)
  | backend activity frontend kind ok kept =>
    exact .backend _ activity frontend kind (more _ ok) (looser _ _ kept)
  | frontend frontend kept => exact .frontend _ frontend (looser _ _ kept)

theorem Transfers.frontend (refl : ∀ frontend, keeps frontend frontend)
    (trans : ∀ first second third, keeps first second → keeps second third → keeps first third)
    (steps : Transfers env q allowed keeps w next)
    : keeps w.frontend next.frontend := by
  induction steps with
  | refl => exact refl _
  | tail _ step ih =>
    cases step with
    | load => exact ih
    | store => exact ih
    | backend activity frontend kind ok kept => exact trans _ _ _ ih kept
    | frontend frontend kept => exact trans _ _ _ ih kept

theorem Transfers.frame (steps : Transfers env q allowed keeps w next)
    : next.vdev = w.vdev ∧ next.transport = w.transport := by
  induction steps with
  | refl => exact ⟨rfl, rfl⟩
  | tail _ step ih => cases step <;> exact ih

theorem Transfers.bufs (steps : Transfers env q allowed keeps w next) (chain : VirtqueueChain)
    : chain.bufs next = chain.bufs w := by
  simp only [VirtqueueChain.bufs, World.queue, steps.frame.1]

/-- All accesses are of the queue served and of the kinds allowed. -/
theorem Transfers.log (steps : Transfers env q allowed keeps w next)
    : ∃ events, next.log = w.log ++ events
        ∧ ∀ event ∈ events,
            event.queue = q ∧ allowed event.activity ∧ event.during = w.vdev := by
  induction steps with
  | refl => exact ⟨[], by simp, by simp⟩
  | @tail middle _ first step ih =>
    obtain ⟨events, log, all⟩ := ih
    have same := (Transfers.frame first).1
    have extend : ∀ activity, allowed activity
        → ∀ event ∈ events ++ [(⟨q, activity, middle.vdev⟩ : Event)],
            event.queue = q ∧ allowed event.activity ∧ event.during = w.vdev := by
      intro activity ok event member
      rcases List.mem_append.mp member with old | new
      · exact all event old
      · obtain rfl := List.mem_singleton.mp new
        exact ⟨rfl, ok, same⟩
    cases step with
    | load gpa n ok =>
      exact ⟨_, by rw [World.load_log, log, List.append_assoc], extend _ ok⟩
    | store gpa bytes ok =>
      exact ⟨_, by rw [World.store_log, log, List.append_assoc], extend _ ok⟩
    | backend activity frontend kind ok =>
      refine ⟨events ++ [⟨q, activity, middle.vdev⟩], ?_, extend _ ok⟩
      simp only [World.record, log, List.append_assoc]
    | frontend => exact ⟨events, log, all⟩

/-- Two devices that differ at most in the snapshot storage of queue `q`. -/
def VirtioDevice.SameButBufs (q : Nat) (left right : VirtioDevice) : Prop :=
  ∃ bufs, right
    = { left with vqs := update left.vqs q { left.vqs q with bufs := bufs } }

theorem VirtioDevice.SameButBufs.refl (q : Nat) (vdev : VirtioDevice)
    : vdev.SameButBufs q vdev :=
  ⟨(vdev.vqs q).bufs, by rw [update_eq_self]⟩

theorem VirtioDevice.SameButBufs.queue {left right : VirtioDevice} (same : left.SameButBufs q right)
    (p : Nat)
    : ∃ bufs, right.vqs p = { left.vqs p with bufs := bufs } := by
  obtain ⟨bufs, rfl⟩ := same
  by_cases here : p = q
  · subst here
    exact ⟨bufs, update_self ..⟩
  · exact ⟨(left.vqs p).bufs, update_of_ne here ..⟩

theorem VirtioDevice.SameButBufs.rest {left right : VirtioDevice} (same : left.SameButBufs q right)
    : right.state = left.state
      ∧ right.status = left.status
      ∧ right.driverFeatures = left.driverFeatures
      ∧ right.deviceId = left.deviceId
      ∧ right.nrVqs = left.nrVqs := by
  obtain ⟨bufs, rfl⟩ := same
  exact ⟨rfl, rfl, rfl, rfl, rfl⟩

theorem VirtioDevice.SameButBufs.keep {vdev : VirtioDevice} (same : vdev.SameButBufs q w.vdev)
    (slot : Nat) (buf : VirtqueueBuf)
    : vdev.SameButBufs q (w.recordBuf q slot buf).vdev := by
  obtain ⟨bufs, same⟩ := same
  refine ⟨update bufs slot buf, ?_⟩
  simp [World.recordBuf, World.setQueue, World.queue, same]

theorem Fetches.frame (steps : Fetches env q w next)
    : w.vdev.SameButBufs q next.vdev
      ∧ next.frontend = w.frontend
      ∧ next.transport = w.transport := by
  induction steps with
  | refl => exact ⟨.refl q _, rfl, rfl⟩
  | tail _ step ih =>
    obtain ⟨same, frontend, transport⟩ := ih
    cases step with
    | load => exact ⟨same, frontend, transport⟩
    | keep slot buf => exact ⟨same.keep slot buf, frontend, transport⟩

/-- A walk of the ring only loads. -/
theorem Fetches.log (steps : Fetches env q w next)
    : ∃ events, next.log = w.log ++ events
        ∧ ∀ event ∈ events,
            event.queue = q
            ∧ (∃ span, event.activity = .load span)
            ∧ w.vdev.SameButBufs q event.during := by
  induction steps with
  | refl => exact ⟨[], by simp, by simp⟩
  | tail first step ih =>
    obtain ⟨events, log, all⟩ := ih
    cases step with
    | keep => exact ⟨events, log, all⟩
    | load =>
      refine ⟨_, by rw [World.load_log, log, List.append_assoc], ?_⟩
      intro event member
      rcases List.mem_append.mp member with old | new
      · exact all event old
      · obtain rfl := List.mem_singleton.mp new
        exact ⟨rfl, ⟨_, rfl⟩, (Fetches.frame first).1⟩

theorem popDesc_fetches (ram : RamMap) (env : Env D) (q : Nat) (chain : VirtqueueChain)
    (writable : Bool) (index : Nat) (w : World D F T)
    : Fetches env q w (popDesc ram env q chain writable index w).2 := by
  have fetched : Fetches env q w
      (w.load env q (ringGpa (w.queue q).descTable + 16 * index) 16).2 :=
    .single (.load w _ 16)
  unfold popDesc
  dsimp only
  split
  · exact fetched
  · split
    · exact fetched
    · split
      · exact fetched.tail (.keep _ _ _)
      · exact fetched.tail (.keep _ _ _)

/-- By induction on the room that is left. -/
theorem popWalk_fetches (ram : RamMap) (env : Env D) (q room : Nat) (chain : VirtqueueChain)
    (writable : Bool) (index : Nat) (w : World D F T)
    : Fetches env q w (popWalk ram env q room chain writable index w).2 := by
  induction room generalizing chain writable index w with
  | zero =>
    unfold popWalk
    split <;> exact .refl
  | succ room ih =>
    unfold popWalk
    split
    · exact .refl
    · have first := popDesc_fetches ram env q chain writable index w
      split
      · rename_i stopped
        simpa only [stopped] using first
      · rename_i stopped
        simpa only [stopped] using first
      · rename_i more
        rw [more] at first
        exact first.trans (ih ..)

end Modvm.Virtio
