import Modvm.Virtio.Chain
import Modvm.Virtio.Negotiation

/-! Serving a queue: what the loop of any handler can do to the world. -/

namespace Modvm.Virtio

open Modvm.Core Modvm.Lib

variable {D F T : Type}

/-- How a handler processes a chain: the length to report, or `none` to give up. -/
abbrev ServeBody (D F T : Type) := VirtqueueChain → World D F T → Option Nat × World D F T

/-- Answer in the last writable byte; without one, give the device up. -/
def respond (ram : RamMap) (env : Env D) (chain : VirtqueueChain) (status : Byte) (len : Nat)
    (w : World D F T)
    : Option Nat × World D F T :=
  match virtqueueWrite ram env chain (chain.writable - 1) [status] w with
  | (some _, w) => (none, w)
  | (none, w) => (some len, w)

/-- The loop of a handler: whether an interrupt is due, or `none` if busy after `fuel` chains. -/
def serveLoop [VirtioTransport T] (ram : RamMap) (env : Env D) (q : Nat)
    (body : ServeBody D F T)
    : (fuel : Nat) → (needIrq : Bool) → World D F T → Option Bool × World D F T
  | 0, _, w => (none, w)
  | fuel + 1, needIrq, w =>
      match virtqueuePop ram env q w with
      | (.error _, w) => (some needIrq, virtioDeviceFail w)
      | (.ok none, w) => (some needIrq, w)
      | (.ok (some chain), w) =>
          match body chain w with
          -- The chain is not returned, so the driver has to reset the device.
          | (none, w) => (some needIrq, virtioDeviceFail w)
          | (some len, w) =>
              serveLoop ram env q body fuel true (virtqueuePush env q chain.head len w)

def World.notifyQueue [VirtioTransport T] (w : World D F T) : World D F T :=
  { w with transport := VirtioTransport.notifyQueue w.transport }

/-- Serve a queue until it is empty, then interrupt the guest if a chain was returned. -/
def serveQueue [VirtioTransport T] (ram : RamMap) (env : Env D) (q : Nat)
    (body : ServeBody D F T) (fuel : Nat) (w : World D F T)
    : World D F T :=
  match serveLoop ram env q body fuel false w with
  | (some true, w) => w.notifyQueue
  | (some false, w) => w
  | (none, w) => w

/-- What serving a chain may do: access its buffers as they permit, and ask the backend. -/
def Serves (bufs : List VirtqueueBuf) : Activity → Prop
  | .load span => Covers bufs false span
  | .store span => Covers bufs true span
  | .push _ _ => False
  | .backendRead => True
  | .backendWrite => True
  | .backendFlush => True

theorem Touches.serves {bufs : List VirtqueueBuf} {write : Bool} {activity : Activity}
    (touched : Touches bufs write activity)
    : Serves bufs activity := by
  cases activity with
  | load => exact touched.2
  | store => exact touched.2
  | push => exact touched
  | backendRead => trivial
  | backendWrite => trivial
  | backendFlush => trivial

variable {chain : VirtqueueChain} {keeps : F → F → Prop} {ram : RamMap} {w : World D F T}
  {body : ServeBody D F T}

section

variable (env : Env D) (refl : ∀ frontend, keeps frontend frontend)
  (formed : ChainFormed ram.space chain (chain.bufs w))
include refl formed

theorem virtqueueCopy_serves (write : Bool) (offset : Nat) (data : List Byte)
    : Transfers env chain.queue (Serves (chain.bufs w)) keeps w
        (virtqueueCopy ram env chain write offset data w).2.2 := by
  refine (virtqueueCopy_transfers env formed write offset data).mono ?_ ?_
  · intro activity touched
    exact touched.serves
  · rintro frontend _ rfl
    exact refl frontend

theorem virtqueueWrite_serves (offset : Nat) (data : List Byte)
    : Transfers env chain.queue (Serves (chain.bufs w)) keeps w
        (virtqueueWrite ram env chain offset data w).2 :=
  virtqueueCopy_serves env refl formed true offset data

end

theorem respond_serves {env : Env D} (refl : ∀ frontend, keeps frontend frontend)
    {processed : World D F T} (formed : ChainFormed ram.space chain (chain.bufs w))
    (room : chain.writable ≠ 0)
    (before : Transfers env chain.queue (Serves (chain.bufs w)) keeps w processed) (status : Byte)
    (len : Nat)
    : (respond ram env chain status len processed).1 = some len
      ∧ Transfers env chain.queue (Serves (chain.bufs w)) keeps w
          (respond ram env chain status len processed).2 := by
  have same := before.bufs chain
  have still : ChainFormed ram.space chain (chain.bufs processed) := same ▸ formed
  have inside : chain.writable - 1 + 1 ≤ chain.capacity true := by
    simp only [VirtqueueChain.capacity, if_true]
    omega
  obtain ⟨written, -⟩ := @virtqueueCopy_inside _ _ _ _ env _ _ still true _ [status] inside
  have copied := virtqueueWrite_serves env refl still (chain.writable - 1) [status]
  rw [same] at copied
  have ok : (virtqueueWrite ram env chain (chain.writable - 1) [status] processed).1 = none :=
    written
  unfold respond
  split
  · rename_i failed
    rw [failed] at ok
    cases ok
  · rename_i done
    rw [done] at copied
    exact ⟨rfl, before.trans copied⟩

/-- The steps of a handler on queue `q`, each in a ready device. -/
inductive SessionStep [VirtioTransport T] (ram : RamMap) (env : Env D) (q : Nat)
    (keeps : F → F → Prop)
    : World D F T → World D F T → Prop
  | quiet {w after : World D F T} (ready : virtioDeviceReady w.vdev = true)
    (popped : virtqueuePop ram env q w = (.ok none, after))
    : SessionStep ram env q keeps w after
  | breaks {w after : World D F T} {error : VmError}
    (ready : virtioDeviceReady w.vdev = true)
    (popped : virtqueuePop ram env q w = (.error error, after))
    : SessionStep ram env q keeps w (virtioDeviceFail after)
  | serves {w after served : World D F T} {chain : VirtqueueChain} (len : Nat)
    (ready : virtioDeviceReady w.vdev = true)
    (popped : virtqueuePop ram env q w = (.ok (some chain), after))
    (transfers : Transfers env q (Serves (chain.bufs after)) keeps after served)
    : SessionStep ram env q keeps w (virtqueuePush env q chain.head len served)
  | drops {w after served : World D F T} {chain : VirtqueueChain}
    (ready : virtioDeviceReady w.vdev = true)
    (popped : virtqueuePop ram env q w = (.ok (some chain), after))
    (unanswerable : chain.writable = 0)
    (transfers : Transfers env q (Serves (chain.bufs after)) keeps after served)
    : SessionStep ram env q keeps w (virtioDeviceFail served)
  | notify (w : World D F T) : SessionStep ram env q keeps w w.notifyQueue

abbrev Session [VirtioTransport T] (ram : RamMap) (env : Env D) (q : Nat)
    (keeps : F → F → Prop)
    : World D F T → World D F T → Prop :=
  Relation.ReflTransGen (SessionStep ram env q keeps)

/-- A body whose accesses stay inside the chain, and that gives up only without room for an answer.
-/
structure BodyServes (ram : RamMap) (env : Env D) (keeps : F → F → Prop)
    (body : ServeBody D F T) : Prop where
  transfers : ∀ chain w, ChainFormed ram.space chain (chain.bufs w)
    → Transfers env chain.queue (Serves (chain.bufs w)) keeps w (body chain w).2
  givesUp : ∀ chain w, ChainFormed ram.space chain (chain.bufs w)
    → (body chain w).1 = none → chain.writable = 0

theorem BodyServes.of_respond {ram : RamMap} {env : Env D} {keeps : F → F → Prop}
    (refl : ∀ frontend, keeps frontend frontend) {body : ServeBody D F T}
    (process : VirtqueueChain → World D F T → Byte × Nat × World D F T)
    (shape : ∀ chain w, body chain w
      = if chain.writable = 0 then (none, w)
        else respond ram env chain (process chain w).1 (process chain w).2.1
          (process chain w).2.2)
    (served : ∀ chain w, ChainFormed ram.space chain (chain.bufs w)
      → Transfers env chain.queue (Serves (chain.bufs w)) keeps w (process chain w).2.2)
    : BodyServes ram env keeps body := by
  constructor
  · intro chain w formed
    rw [shape]
    split
    · exact .refl
    · rename_i room
      exact (respond_serves refl formed room (served chain w formed) _ _).2
  · intro chain w formed gaveUp
    by_contra room
    rw [shape, if_neg room,
      (respond_serves refl formed room (served chain w formed) _ _).1] at gaveUp
    cases gaveUp

theorem ready_congr {left right : VirtioDevice} (state : right.state = left.state)
    (status : right.status = left.status)
    : virtioDeviceReady right = virtioDeviceReady left := by
  simp only [virtioDeviceReady, state, status]

theorem virtqueuePop_protocol (ram : RamMap) (env : Env D) (q : Nat) (w : World D F T)
    : (virtqueuePop ram env q w).2.vdev.state = w.vdev.state
      ∧ (virtqueuePop ram env q w).2.vdev.status = w.vdev.status
      ∧ (virtqueuePop ram env q w).2.frontend = w.frontend
      ∧ (virtqueuePop ram env q w).2.transport = w.transport := by
  have fetch : ∀ next : World D F T, Fetches env q w next
      → next.vdev.state = w.vdev.state ∧ next.vdev.status = w.vdev.status
        ∧ next.frontend = w.frontend ∧ next.transport = w.transport := by
    intro next fetched
    obtain ⟨same, frontend, transport⟩ := fetched.frame
    exact ⟨same.rest.1, same.rest.2.1, frontend, transport⟩
  have outcome := virtqueuePop_outcome ram env q w
  generalize virtqueuePop ram env q w = result at outcome
  cases outcome with
  | disabled => exact ⟨rfl, rfl, rfl, rfl⟩
  | stuck => exact ⟨rfl, rfl, rfl, rfl⟩
  | empty live fetched => exact fetch _ fetched
  | @fails next _ _ fetched => exact fetch next fetched
  | @chain next _ _ fetched => exact fetch next fetched

theorem virtqueuePush_protocol (env : Env D) (q descIdx len : Nat) (w : World D F T)
    : (virtqueuePush env q descIdx len w).vdev.state = w.vdev.state
      ∧ (virtqueuePush env q descIdx len w).vdev.status = w.vdev.status
      ∧ (virtqueuePush env q descIdx len w).frontend = w.frontend
      ∧ (virtqueuePush env q descIdx len w).transport = w.transport := by
  unfold virtqueuePush
  dsimp only
  split <;> exact ⟨rfl, rfl, rfl, rfl⟩

/-- The loop of a handler is a session. Witness: induction on the chains; readiness survives a push.
-/
theorem serveLoop_session [VirtioTransport T] {env : Env D} (spec : BodyServes ram env keeps body)
    {q fuel : Nat} {needIrq : Bool} (ready : virtioDeviceReady w.vdev = true)
    : Session ram env q keeps w (serveLoop ram env q body fuel needIrq w).2 := by
  induction fuel generalizing needIrq w with
  | zero => exact .refl
  | succ fuel ih =>
    unfold serveLoop
    split
    · rename_i popped
      exact .single (.breaks ready popped)
    · rename_i popped
      exact .single (.quiet ready popped)
    · rename_i chain after popped
      obtain ⟨formed, owner, -⟩ := virtqueuePop_chain popped
      have transfers := spec.transfers chain after formed
      rw [owner] at transfers
      split
      · rename_i served dropped
        rw [dropped] at transfers
        exact .single (.drops ready popped
          (spec.givesUp chain after formed (by rw [dropped])) transfers)
      · rename_i len served answered
        rw [answered] at transfers
        have step := SessionStep.serves len ready popped transfers
        -- The next round needs a ready device again: neither pop nor push touch the status.
        have popState := virtqueuePop_protocol ram env q w
        rw [popped] at popState
        have same : served.vdev = after.vdev := transfers.frame.1
        have pushState := virtqueuePush_protocol env q chain.head len served
        refine .head step (ih ?_)
        rw [ready_congr pushState.1 pushState.2.1, same,
          ready_congr popState.1 popState.2.1, ready]

theorem serveQueue_session [VirtioTransport T] {env : Env D} (spec : BodyServes ram env keeps body)
    {q : Nat} (fuel : Nat) (ready : virtioDeviceReady w.vdev = true)
    : Session ram env q keeps w (serveQueue ram env q body fuel w) := by
  have loop : Session ram env q keeps w (serveLoop ram env q body fuel false w).2 :=
    serveLoop_session spec ready
  unfold serveQueue
  split
  · rename_i served finished
    rw [finished] at loop
    exact loop.tail (.notify served)
  · rename_i finished
    rwa [finished] at loop
  · rename_i finished
    rwa [finished] at loop

end Modvm.Virtio
