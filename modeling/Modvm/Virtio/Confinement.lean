import Modvm.Lib.Runs
import Modvm.Virtio.Chain

/-! Confinement of a popped chain, whatever the guest writes to its memory and whenever. -/

namespace Modvm.Virtio

open Modvm.Core Modvm.Lib

variable {D F T : Type}

/-- Operations on the queues of a device, and arbitrary activity of the guest. -/
inductive QueueOp (D : Type) where
  | guest (change : Guest D → Guest D)
  | setSize (q size : Nat)
  | setAddrs (q descGpa availGpa usedGpa : Nat)
  | disable (q : Nat)
  | reset (q : Nat)
  | pop (q : Nat)
  | push (q descIdx len : Nat)
  | read (chain : VirtqueueChain) (offset : Nat) (data : List Byte)
  | write (chain : VirtqueueChain) (offset : Nat) (data : List Byte)

/-- Store the new queue of a successful configuration. -/
def World.configure (w : World D F T) (q : Nat) (result : Except VmError Virtqueue)
    : World D F T :=
  match result with
  | .ok vq => w.setQueue q vq
  | .error _ => w

def queueStep (ram : RamMap) (env : Env D) (w : World D F T) : QueueOp D → World D F T
  | .guest change => { w with guest := change w.guest }
  | .setSize q size => w.configure q (virtqueueSetSize (w.queue q) size)
  | .setAddrs q descGpa availGpa usedGpa =>
      w.configure q (virtqueueSetAddrs ram (w.queue q) descGpa availGpa usedGpa)
  | .disable q => w.setQueue q (virtqueueDisable (w.queue q))
  | .reset q => w.setQueue q (virtqueueReset (w.queue q))
  | .pop q => (virtqueuePop ram env q w).2
  | .push q descIdx len => virtqueuePush env q descIdx len w
  | .read chain offset data => (virtqueueRead ram env chain offset data w).2.2
  | .write chain offset data => (virtqueueWrite ram env chain offset data w).2

def QueueStep (ram : RamMap) (env : Env D) (w : World D F T) (op : QueueOp D)
    (next : World D F T) : Prop :=
  next = queueStep ram env w op

/-- The operation ends the loan of the buffers of queue `q`: it pops or resets that queue. -/
def QueueOp.Reuses (q : Nat) : QueueOp D → Prop
  | .pop other => other = q
  | .reset other => other = q
  | .guest _ => False
  | .setSize _ _ => False
  | .setAddrs _ _ _ _ => False
  | .disable _ => False
  | .push _ _ _ => False
  | .read _ _ _ => False
  | .write _ _ _ => False

theorem Fetches.bufs_other {env : Env D} {q p : Nat} {w next : World D F T}
    (different : q ≠ p) (steps : Fetches env p w next)
    : (next.queue q).bufs = (w.queue q).bufs := by
  obtain ⟨⟨bufs, same⟩, -⟩ := steps.frame
  simp only [World.queue, same, Function.update_of_ne different]

theorem copyLoop_vdev (ram : RamMap) (env : Env D) (chain : VirtqueueChain) (write : Bool)
    (fuel offset : Nat) (done rest : List Byte) (w : World D F T)
    : (copyLoop ram env chain write fuel offset done rest w).2.2.vdev = w.vdev := by
  induction fuel generalizing offset done rest w with
  | zero => rfl
  | succ fuel ih =>
    unfold copyLoop
    split
    · rfl
    · split
      · rfl
      · dsimp only
        split
        · rfl
        · split
          · rw [ih, World.store_vdev]
          · rw [ih, World.load_vdev]

theorem virtqueueCopy_vdev (ram : RamMap) (env : Env D) (chain : VirtqueueChain)
    (write : Bool) (offset : Nat) (data : List Byte) (w : World D F T)
    : (virtqueueCopy ram env chain write offset data w).2.2.vdev = w.vdev := by
  unfold virtqueueCopy
  dsimp only
  split
  · rfl
  · exact copyLoop_vdev ..

theorem bufs_configure {w : World D F T} {q p : Nat} {result : Except VmError Virtqueue}
    (kept : ∀ vq, result = .ok vq → vq.bufs = (w.queue p).bufs)
    : ((w.configure p result).queue q).bufs = (w.queue q).bufs := by
  cases result with
  | error => rfl
  | ok vq => exact bufs_setQueue (kept vq rfl)

theorem queueStep_bufs {ram : RamMap} {env : Env D} {q : Nat} {op : QueueOp D}
    (w : World D F T) (borrowed : ¬ op.Reuses q)
    : ((queueStep ram env w op).queue q).bufs = (w.queue q).bufs := by
  cases op with
  | guest => rfl
  | setSize =>
    refine bufs_configure ?_
    intro vq set
    unfold virtqueueSetSize at set
    split at set
    · cases set
    · rw [← Except.ok.inj set]
  | setAddrs =>
    refine bufs_configure ?_
    intro vq set
    unfold virtqueueSetAddrs at set
    dsimp only at set
    split at set
    · cases set
    · split at set
      · rw [← Except.ok.inj set]
      · cases set
  | disable => exact bufs_setQueue rfl
  | reset => exact bufs_setQueue rfl
  | push =>
    dsimp only [queueStep, virtqueuePush]
    split
    · rfl
    · exact bufs_setQueue rfl
  | read =>
    simp only [queueStep, virtqueueRead, World.queue, virtqueueCopy_vdev]
  | write =>
    simp only [queueStep, virtqueueWrite, World.queue, virtqueueCopy_vdev]
  | pop p =>
    have different : q ≠ p := fun same => borrowed same.symm
    have outcome := virtqueuePop_outcome ram env p w
    simp only [queueStep]
    generalize virtqueuePop ram env p w = result at outcome
    cases outcome with
    | disabled => rfl
    | stuck => rfl
    | empty live fetched => exact fetched.bufs_other different
    | fails error live fetched =>
      exact (breakQueue_bufs ..).trans (fetched.bufs_other different)
    | chain live fetched =>
      exact (advanceAvail_bufs ..).trans (fetched.bufs_other different)

theorem borrowed_bufs {ram : RamMap} {env : Env D} {q : Nat} {w later : World D F T}
    {ops : List (QueueOp D)} (run : Run (QueueStep ram env) w ops later)
    (borrowed : ∀ op ∈ ops, ¬ op.Reuses q)
    : (later.queue q).bufs = (w.queue q).bufs := by
  induction run with
  | nil => rfl
  | snoc _ step ih =>
    rw [step, queueStep_bufs _ (borrowed _ (by simp))]
    exact ih fun op member => borrowed op (List.mem_append_left _ member)

/-- A popped chain, under any activity of the guest, has 1 to `queue_size` buffers, no readable one
after a writable one, exact totals, and only bytes of RAM that permit the access. Until its queue is
popped again or reset, every access within its capacity succeeds and touches only recorded buffers
of its direction. Witness: later accesses use the recorded snapshot.
-/
theorem popped_chain_confined (ram : RamMap) (env : Env D) (q : Nat) (w w' : World D F T)
    (chain : VirtqueueChain) (popped : virtqueuePop ram env q w = (.ok (some chain), w'))
    : (1 ≤ chain.nrBufs ∧ chain.nrBufs ≤ (w.queue q).queueSize)
      ∧ (chain.bufs w').length = chain.nrBufs
      ∧ (chain.bufs w').Pairwise
          (fun first second => first.isWrite = true → second.isWrite = true)
      ∧ chain.readable = total false (chain.bufs w')
      ∧ chain.writable = total true (chain.bufs w')
      ∧ (∀ buf ∈ chain.bufs w', ∀ addr, buf.gpa ≤ addr → addr < buf.gpa + buf.len
          → ∃ reg ∈ ram.space.regions,
              reg.span.Has addr ∧ (buf.isWrite = true → reg.isReadonly = false))
      ∧ ∀ ops later, Run (QueueStep ram env) w' ops later
          → (∀ op ∈ ops, ¬ op.Reuses q)
          → (∀ write offset, offset < chain.capacity write
              → ∃ hva chunk, virtqueueMap ram chain write offset later = some (hva, chunk)
                  ∧ 0 < chunk
                  ∧ Covers (chain.bufs w') write ⟨hva.gpa, chunk⟩)
            ∧ (∀ (accessEnv : Env D) offset data, offset + data.length ≤ chain.readable
              → ∃ bytes next, virtqueueRead ram accessEnv chain offset data later
                    = (none, bytes, next)
                  ∧ bytes.length = data.length
                  ∧ ∃ events, next.log = later.log ++ events
                      ∧ ∀ event ∈ events, Touches (chain.bufs w') false event.activity)
            ∧ (∀ (accessEnv : Env D) offset data, offset + data.length ≤ chain.writable
              → ∃ next, virtqueueWrite ram accessEnv chain offset data later = (none, next)
                  ∧ ∃ events, next.log = later.log ++ events
                      ∧ ∀ event ∈ events, Touches (chain.bufs w') true event.activity) := by
  obtain ⟨formed, owner, nonempty, fits⟩ := virtqueuePop_chain popped
  refine ⟨⟨nonempty, fits⟩, formed.count, formed.ordered, formed.readable, formed.writable,
    ?_, ?_⟩
  · intro buf member addr above below
    exact formed.granted buf member addr ⟨above, below⟩
  intro ops later run borrowed
  have same : chain.bufs later = chain.bufs w' := by
    simp only [VirtqueueChain.bufs, owner, borrowed_bufs run borrowed]
  have laterFormed : ChainFormed ram.space chain (chain.bufs later) := same ▸ formed
  rw [← same]
  refine ⟨?_, ?_, ?_⟩
  · intro write offset inside
    obtain ⟨hva, chunk, mapped, positive, -, covered⟩ := virtqueueMap_covers laterFormed inside
    exact ⟨hva, chunk, mapped, positive, covered⟩
  · intro accessEnv offset data inside
    obtain ⟨ok, length, steps⟩ := @virtqueueCopy_inside _ _ _ _ accessEnv _ _ laterFormed _ _ _
      (show offset + data.length ≤ chain.capacity false from inside)
    obtain ⟨events, log, all⟩ := steps.log
    exact ⟨_, _, Prod.ext ok rfl, length, events, log, fun event member => (all event member).2.1⟩
  · intro accessEnv offset data inside
    obtain ⟨ok, -, steps⟩ := @virtqueueCopy_inside _ _ _ _ accessEnv _ _ laterFormed _ _ _
      (show offset + data.length ≤ chain.capacity true from inside)
    obtain ⟨events, log, all⟩ := steps.log
    exact ⟨_, Prod.ext ok rfl, events, log, fun event member => (all event member).2.1⟩

def demoRam : RamMap where
  space := ⟨[⟨0, 0x10000, 0⟩], 0x10000, 0x1000⟩
  formed := ⟨by decide, by decide, by decide, by decide⟩

def demoMemory : Nat → Byte :=
  writeBytes
    (writeBytes (fun _ => 0) 0x1000 (toLe 8 0x4000 ++ toLe 4 16 ++ toLe 2 2 ++ toLe 2 0))
    0x2002 (toLe 2 1)

def demoQueue : Option Virtqueue := do
  let vq ← virtqueueCreate true 4
  (virtqueueSetAddrs demoRam vq 0x1000 0x2000 0x3000).toOption

def demoWorld : World Unit Unit Unit :=
  ⟨⟨demoMemory, ()⟩, 0,
    ⟨.active, 2, 0x0f#8, 0, fun _ => demoQueue.getD (virtqueueReset default), 1⟩, (), (), []⟩

def stillGuest : Env Unit := fun _ guest => guest

/-- The queue hands out a chain with one writable buffer of sixteen bytes. -/
theorem popped_chain_confined_demo
    : demoQueue.isSome = true
      ∧ (virtqueuePop demoRam stillGuest 0 demoWorld).1 = .ok (some ⟨0, 1, 0, 0, 16⟩)
      ∧ 16 = total true ((⟨0, 1, 0, 0, 16⟩ : VirtqueueChain).bufs
          (virtqueuePop demoRam stillGuest 0 demoWorld).2) := by
  have popped : (virtqueuePop demoRam stillGuest 0 demoWorld).1
      = .ok (some ⟨0, 1, 0, 0, 16⟩) := by decide +kernel
  refine ⟨by decide +kernel, popped, ?_⟩
  have paired : virtqueuePop demoRam stillGuest 0 demoWorld
      = (.ok (some ⟨0, 1, 0, 0, 16⟩), (virtqueuePop demoRam stillGuest 0 demoWorld).2) := by
    rw [← popped]
  exact (popped_chain_confined demoRam stillGuest 0 demoWorld _ _ paired).2.2.2.2.1

end Modvm.Virtio
