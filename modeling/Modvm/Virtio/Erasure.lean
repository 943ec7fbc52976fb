import Modvm.Virtio.Models

/-! A device without its transport: handlers report to the transport but never ask it. -/

namespace Modvm.Virtio

open Modvm.Core Modvm.Lib

variable {D F T S : Type}

def World.core (w : World D F T) : World D F Unit :=
  ⟨w.guest, w.clock, w.vdev, w.frontend, (), w.log⟩

/-- The outcome of an operation without the transport. -/
abbrev eraseTransport {α : Type} (outcome : α × World D F T) : α × World D F Unit :=
  (outcome.1, outcome.2.core)

@[simp]
theorem World.core_queue (w : World D F T) (q : Nat)
    : w.core.queue q = w.queue q := rfl

@[simp]
theorem World.core_load (env : Env D) (q gpa n : Nat) (w : World D F T)
    : w.core.load env q gpa n = eraseTransport (w.load env q gpa n) := rfl

@[simp]
theorem World.core_loadLe (env : Env D) (q gpa n : Nat) (w : World D F T)
    : w.core.loadLe env q gpa n = eraseTransport (w.loadLe env q gpa n) := rfl

@[simp]
theorem World.core_store (env : Env D) (q gpa : Nat) (bytes : List Byte) (w : World D F T)
    : w.core.store env q gpa bytes = (w.store env q gpa bytes).core := rfl

variable (ram : RamMap) (env : Env D) (chain : VirtqueueChain) (write : Bool) (offset : Nat)
  (w : World D F T) (q : Nat)

@[simp]
theorem virtqueueMap_core
    : virtqueueMap ram chain write offset w.core = virtqueueMap ram chain write offset w := rfl

theorem popDesc_core (chain : VirtqueueChain) (writable : Bool) (index : Nat) (w : World D F T)
    : popDesc ram env q chain writable index w.core
      = eraseTransport (popDesc ram env q chain writable index w) := by
  unfold popDesc
  rw [World.core_queue, World.core_load]
  dsimp only
  split_ifs <;> rfl

theorem popWalk_core (q room : Nat) (chain : VirtqueueChain) (writable : Bool) (index : Nat)
    (w : World D F T)
    : popWalk ram env q room chain writable index w.core
      = eraseTransport (popWalk ram env q room chain writable index w) := by
  induction room generalizing chain writable index w with
  | zero =>
    unfold popWalk
    rw [World.core_queue]
    split_ifs <;> rfl
  | succ room ih =>
    unfold popWalk
    rw [World.core_queue, popDesc_core]
    split_ifs
    · rfl
    · rcases popDesc ram env q chain writable index w with ⟨_ | ⟨chain, writable, _ | next⟩, w⟩
      · rfl
      · rfl
      · exact ih chain writable next w

theorem virtqueuePop_core (w : World D F T)
    : virtqueuePop ram env q w.core = eraseTransport (virtqueuePop ram env q w) := by
  simp only [virtqueuePop, World.core_queue, World.core_loadLe, popWalk_core]
  split_ifs
  · rfl
  · rfl
  · rfl
  · rfl
  · generalize popWalk ram env q _ _ _ _ _ = walked
    rcases walked with ⟨_ | chain, after⟩
    · rfl
    · rfl

theorem copyLoop_core (fuel offset : Nat) (done rest : List Byte) (w : World D F T)
    : copyLoop ram env chain write fuel offset done rest w.core
      = Prod.map id eraseTransport (copyLoop ram env chain write fuel offset done rest w) := by
  induction fuel generalizing offset done rest w with
  | zero => rfl
  | succ fuel ih =>
    simp only [copyLoop, virtqueueMap_core, World.core_load, World.core_store]
    generalize virtqueueMap ram chain write offset w = found
    rcases found with _ | ⟨hva, mapped⟩
    · split_ifs <;> rfl
    · dsimp only
      generalize (if mapped > rest.length then rest.length else mapped) = chunk
      split_ifs
      · rfl
      · rfl
      · exact ih ..
      · exact ih ..

theorem virtqueueCopy_core (data : List Byte) (w : World D F T)
    : virtqueueCopy ram env chain write offset data w.core
      = Prod.map id eraseTransport (virtqueueCopy ram env chain write offset data w) := by
  unfold virtqueueCopy
  dsimp only
  split_ifs
  · rfl
  · exact copyLoop_core ..

theorem virtqueueWrite_core (data : List Byte) (w : World D F T)
    : virtqueueWrite ram env chain offset data w.core
      = eraseTransport (virtqueueWrite ram env chain offset data w) := by
  simp only [virtqueueWrite, virtqueueCopy_core]
  rfl

theorem virtqueuePush_core (q descIdx len : Nat) (w : World D F T)
    : virtqueuePush env q descIdx len w.core = (virtqueuePush env q descIdx len w).core := by
  have elem : writeUsedElem env q descIdx len w.core = (writeUsedElem env q descIdx len w).core :=
    rfl
  have index : ∀ w : World D F T, w.core.advanceUsed q = (w.advanceUsed q).core := fun _ => rfl
  have published : ∀ w : World D F T, publishUsed env q w.core = (publishUsed env q w).core :=
    fun _ => rfl
  unfold virtqueuePush
  dsimp only
  rw [World.core_queue, elem, index]
  split_ifs <;> rfl

theorem virtioDeviceFail_core [VirtioTransport T]
    : virtioDeviceFail w.core = (virtioDeviceFail w).core := by
  unfold virtioDeviceFail
  dsimp only
  split_ifs <;> rfl

/-- A body that does the same behind a transport as without one. -/
def BodyErases (body : ServeBody D F T) (core : ServeBody D F Unit) : Prop :=
  ∀ chain w, core chain w.core = eraseTransport (body chain w)

section

variable {body : ServeBody D F T} {core : ServeBody D F Unit} (same : BodyErases body core)
  (ram : RamMap) (env : Env D) (q fuel : Nat)
include same

/-- The loop of a handler does not depend on the transport, by induction on the chains served. -/
theorem serveLoop_core [VirtioTransport T] (needIrq : Bool) (w : World D F T)
    : serveLoop ram env q core fuel needIrq w.core
      = eraseTransport (serveLoop ram env q body fuel needIrq w) := by
  induction fuel generalizing needIrq w with
  | zero => rfl
  | succ fuel ih =>
    unfold serveLoop
    rw [virtqueuePop_core]
    rcases virtqueuePop ram env q w with ⟨_ | _ | chain, after⟩
    · simp only [virtioDeviceFail_core]
    · rfl
    · dsimp only
      rw [same]
      rcases body chain after with ⟨_ | len, served⟩
      · simp only [virtioDeviceFail_core]
      · dsimp only
        rw [virtqueuePush_core, ih]

theorem serveQueue_core [VirtioTransport T] (w : World D F T)
    : serveQueue ram env q core fuel w.core = (serveQueue ram env q body fuel w).core := by
  unfold serveQueue
  rw [serveLoop_core same]
  rcases serveLoop ram env q body fuel false w with ⟨_ | _ | _, after⟩
  · rfl
  · rfl
  · rfl

end

theorem respond_core (status : Byte) (len : Nat) (w : World D F T)
    : respond ram env chain status len w.core
      = eraseTransport (respond ram env chain status len w) := by
  unfold respond
  rw [virtqueueWrite_core]
  rcases virtqueueWrite ram env chain (chain.writable - 1) [status] w with ⟨_ | error, after⟩
  · rfl
  · rfl

section Blk

variable (backend : BlockBackend S)

theorem blkChunk_core (backend : BlockBackend S) (env : Env D) (q : Nat) (hva : Hva)
    (chunk offset : Nat) (input : Bool) (w : World D (VirtioBlkCtx S) T)
    : (if input then blkBackendRead backend env q hva chunk offset w.core
        else blkBackendWrite backend env q hva chunk offset w.core)
      = eraseTransport
        (if input then blkBackendRead backend env q hva chunk offset w
          else blkBackendWrite backend env q hva chunk offset w) := by
  cases input with
  | true => rfl
  | false => rfl

variable (ram : RamMap) (env : Env D) (chain : VirtqueueChain)

theorem blkTransfer_core (input : Bool) (total offset fuel done written : Nat)
    (w : World D (VirtioBlkCtx S) T)
    : blkTransfer backend ram env chain input total offset fuel done written w.core
      = Prod.map id eraseTransport
        (blkTransfer backend ram env chain input total offset fuel done written w) := by
  induction fuel generalizing done written w with
  | zero => rfl
  | succ fuel ih =>
    unfold blkTransfer
    rw [virtqueueMap_core]
    by_cases more : done < total
    · rw [if_pos more, if_pos more]
      rcases virtqueueMap ram chain input (done + if input then 0 else 16) w
        with _ | ⟨hva, mapped⟩
      · rfl
      · dsimp only
        generalize (if mapped > total - done then total - done else mapped) = chunk
        rw [blkChunk_core]
        generalize (if input then blkBackendRead backend env chain.queue hva chunk _ w
          else _) = moved
        obtain ⟨n, after⟩ := moved
        generalize (if n > 0 ∧ input = true then _ else written) = counted
        split_ifs
        · rfl
        · rfl
        · exact ih ..
    · rw [if_neg more, if_neg more]
      rfl

theorem blkDispatch_core (type sector total : Nat) (input : Bool) (w : World D (VirtioBlkCtx S) T)
    : blkDispatch backend ram env chain type sector total input w.core
      = Prod.map id eraseTransport
        (blkDispatch backend ram env chain type sector total input w) := by
  have flushed : blkFlush backend chain.queue w.core
      = eraseTransport (blkFlush backend chain.queue w) := by
    unfold blkFlush
    cases backend.flush with
    | none => rfl
    | some => rfl
  have frontend : w.core.frontend = w.frontend := rfl
  unfold blkDispatch
  rw [flushed, virtqueueWrite_core, frontend]
  dsimp only
  rw [blkTransfer_core]
  split_ifs
  · rfl
  · rfl
  · rfl
  · rfl
  · rfl
  · rfl
  · rcases virtqueueWrite ram env chain 0 blkId w with ⟨_ | error, after⟩
    · rfl
    · rfl
  · rfl

theorem blkProcess_core (w : World D (VirtioBlkCtx S) T)
    : blkProcess backend ram env chain w.core
      = Prod.map id eraseTransport (blkProcess backend ram env chain w) := by
  unfold blkProcess virtqueueRead
  rw [virtqueueCopy_core]
  rcases virtqueueCopy ram env chain false 0 (List.replicate 16 0) w
    with ⟨_ | error, hdr, after⟩
  · dsimp only [Prod.map, id]
    rw [blkDispatch_core]
    generalize (if (leNat (hdr.take 4) == 0 || leNat (hdr.take 4) == 8) = true then _ else _)
      = total
    split_ifs
    · rfl
    · rfl
  · rfl

theorem blkRequest_core
    : BodyErases (blkRequest backend ram env : ServeBody D (VirtioBlkCtx S) T)
        (blkRequest backend ram env) := by
  intro chain w
  unfold blkRequest
  split_ifs
  · rfl
  · rw [blkProcess_core]
    exact respond_core ..

end Blk

section Net

theorem netCtrlCommand_core (ram : RamMap) (env : Env D) (chain : VirtqueueChain)
    (w : World D (VirtioNetCtx S) T)
    : netCtrlCommand ram env chain w.core = eraseTransport (netCtrlCommand ram env chain w) := by
  have features : w.core.vdev = w.vdev := rfl
  unfold netCtrlCommand virtqueueRead
  rw [features, virtqueueCopy_core]
  by_cases negotiated : (!hasBit w.vdev.driverFeatures virtioNetFCtrlMacAddr) = true
  · rw [if_pos negotiated, if_pos negotiated]
  · rw [if_neg negotiated, if_neg negotiated]
    rcases virtqueueCopy ram env chain false 0 [0, 0] w with ⟨_ | error, ctrl, after⟩
    · have address : after.core.frontend = after.frontend := rfl
      dsimp only [Prod.map, id]
      rw [virtqueueCopy_core]
      by_cases command : ctrl = [1, 1] ∧ chain.readable = 2 + 6
      · rw [if_pos command, if_pos command]
        rfl
      · rw [if_neg command, if_neg command]
    · rfl

theorem netCtrl_core (ram : RamMap) (env : Env D)
    : BodyErases (netCtrl ram env : ServeBody D (VirtioNetCtx S) T) (netCtrl ram env) := by
  intro chain w
  unfold netCtrl
  split_ifs
  · rfl
  · rw [netCtrlCommand_core]
    exact respond_core ..

theorem netTransmit_core (backend : NetBackend S) (ram : RamMap) (env : Env D)
    : BodyErases (netTransmit backend ram env : ServeBody D (VirtioNetCtx S) T)
        (netTransmit backend ram env) := by
  intro chain w
  unfold netTransmit virtqueueRead
  rw [virtqueueCopy_core]
  rcases virtqueueCopy ram env chain false 12 (List.replicate (chain.readable - 12) 0) w
    with ⟨_ | error, frame, after⟩
  · split_ifs <;> rfl
  · split_ifs <;> rfl

end Net

/-- A device model without its transport: same features, same reset, same handlers. -/
structure Erases (ops : VirtioDeviceOps D F T) (core : VirtioDeviceOps D F Unit) : Prop where
  features : core.getFeatures = ops.getFeatures
  reset : core.reset = ops.reset
  notify : ∀ ram env fuel q w,
    core.notifyQueue ram env fuel q w.core = (ops.notifyQueue ram env fuel q w).core

theorem virtioBlkOps_erases [VirtioTransport T] (backend : BlockBackend S)
    : Erases (virtioBlkOps backend : VirtioDeviceOps D (VirtioBlkCtx S) T)
        (virtioBlkOps backend) := by
  refine ⟨rfl, rfl, ?_⟩
  intro ram env fuel q w
  have core : w.core.vdev = w.vdev := rfl
  simp only [virtioBlkOps, virtioBlkNotifyQueue, core]
  split_ifs
  · rfl
  · exact serveQueue_core (blkRequest_core backend ram env) ram env q fuel w

theorem virtioNetOps_erases [VirtioTransport T] (backend : NetBackend S)
    : Erases (virtioNetOps backend : VirtioDeviceOps D (VirtioNetCtx S) T)
        (virtioNetOps backend) := by
  refine ⟨rfl, rfl, ?_⟩
  intro ram env fuel q w
  have core : w.core.vdev = w.vdev := rfl
  simp only [virtioNetOps, virtioNetNotifyQueue, core]
  split_ifs
  · rfl
  · rfl
  · exact serveQueue_core (netCtrl_core ram env) ram env q fuel w
  · exact serveQueue_core (netTransmit_core backend ram env) ram env q fuel w

end Modvm.Virtio
