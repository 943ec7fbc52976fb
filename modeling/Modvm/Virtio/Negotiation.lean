import Modvm.Lib.Runs
import Modvm.Virtio.Device
import Mathlib.Tactic.IntervalCases

/-! The negotiation state machine between a driver and the device core. -/

namespace Modvm.Virtio

open Modvm.Core Modvm.Lib

variable {D F T : Type}

inductive NegotiationOp where
  | setStatus (status : BitVec 8)
  | setFeatures (selector value : BitVec 32)
  | fail

def negotiationStep [VirtioTransport T] (ops : VirtioDeviceOps D F T) (w : World D F T)
    : NegotiationOp → World D F T
  | .setStatus status => virtioDeviceSetStatus ops status w
  | .setFeatures selector value => virtioDeviceSetFeatures selector.toNat value w
  | .fail => virtioDeviceFail w

def NegotiationStep [VirtioTransport T] (ops : VirtioDeviceOps D F T) (w : World D F T)
    (op : NegotiationOp) (next : World D F T) : Prop :=
  next = negotiationStep ops w op

structure Negotiated (offered : BitVec 64) (vdev : VirtioDevice) : Prop where
  active : vdev.state = .active
  driverOk : hasBit vdev.status virtioStatusDriverOk = true
    → hasBit vdev.status virtioStatusFeaturesOk = true
  featuresOk : hasBit vdev.status virtioStatusFeaturesOk = true
    → hasBit vdev.status virtioStatusDriver = true
  driver : hasBit vdev.status virtioStatusDriver = true
    → hasBit vdev.status virtioStatusAcknowledge = true
  accepted : hasBit vdev.status virtioStatusFeaturesOk = true
    → featuresAccepted offered vdev.driverFeatures = true

theorem getLsbD_dropUnless (keep : Bool) (mask status : BitVec 8) (bit : Nat)
    : (dropUnless keep mask status).getLsbD bit
      = (status.getLsbD bit && (keep || !mask.getLsbD bit)) := by
  cases keep with
  | true => simp [dropUnless]
  | false =>
    by_cases within : bit < 8
    · simp [dropUnless, within]
    · simp [dropUnless, BitVec.getLsbD_of_ge status bit (Nat.le_of_not_lt within)]

theorem acceptStatus_bits (offered features : BitVec 64) (old request : BitVec 8)
    : let status := acceptStatus offered features old request
      status.getLsbD 0 = (request.getLsbD 0 || old.getLsbD 0)
      ∧ status.getLsbD 1 = (status.getLsbD 0 && (request.getLsbD 1 || old.getLsbD 1))
      ∧ status.getLsbD 3 = (status.getLsbD 1 && (request.getLsbD 3 || old.getLsbD 3)
        && (old.getLsbD 3 || featuresAccepted offered features))
      ∧ status.getLsbD 2 = (status.getLsbD 3 && (request.getLsbD 2 || old.getLsbD 2))
      ∧ status.getLsbD 4 = old.getLsbD 4
      ∧ status.getLsbD 5 = old.getLsbD 5
      ∧ status.getLsbD 6 = old.getLsbD 6
      ∧ status.getLsbD 7 = (request.getLsbD 7 || old.getLsbD 7) := by
  simp only [acceptStatus, hasBit_acknowledge, hasBit_driver, hasBit_featuresOk,
    getLsbD_dropUnless, BitVec.getLsbD_or, BitVec.getLsbD_and]
  simp only [virtioStatusAcknowledge, virtioStatusDriver, virtioStatusDriverOk,
    virtioStatusFeaturesOk, virtioStatusFailed, BitVec.getLsbD_twoPow]
  grind

theorem virtioDeviceSetStatus_zero (ops : VirtioDeviceOps D F T) (w : World D F T)
    : (virtioDeviceSetStatus ops 0 w).vdev = resetDevice w.vdev := by
  unfold virtioDeviceSetStatus
  rw [if_pos rfl]
  split <;> rfl

theorem virtioDeviceSetStatus_nonzero (ops : VirtioDeviceOps D F T) {status : BitVec 8}
    (nonzero : status ≠ 0) (w : World D F T)
    : virtioDeviceSetStatus ops status w
      = w.setStatus (acceptStatus (ops.getFeatures w.frontend) w.vdev.driverFeatures
        w.vdev.status status) := by
  unfold virtioDeviceSetStatus
  rw [if_neg nonzero]

theorem virtioDeviceFail_vdev [VirtioTransport T] (w : World D F T)
    : (virtioDeviceFail w).vdev
      = { w.vdev with status := w.vdev.status ||| virtioStatusNeedsReset } := by
  unfold virtioDeviceFail
  dsimp only
  split <;> rfl

theorem virtioDeviceFail_rest [VirtioTransport T] (w : World D F T)
    : (virtioDeviceFail w).guest = w.guest
      ∧ (virtioDeviceFail w).frontend = w.frontend
      ∧ (virtioDeviceFail w).log = w.log := by
  unfold virtioDeviceFail
  dsimp only
  split <;> exact ⟨rfl, rfl, rfl⟩

variable {w : World D F T}

theorem virtioDeviceSetFeatures_locked (selector : Nat) (value : BitVec 32)
    (locked : hasBit w.vdev.status virtioStatusFeaturesOk = true)
    : virtioDeviceSetFeatures selector value w = w := by
  unfold virtioDeviceSetFeatures
  rw [if_pos (by simp [locked])]

theorem virtioDeviceSetFeatures_status (selector : Nat) (value : BitVec 32) (w : World D F T)
    : (virtioDeviceSetFeatures selector value w).vdev.status = w.vdev.status
      ∧ (virtioDeviceSetFeatures selector value w).vdev.state = w.vdev.state := by
  unfold virtioDeviceSetFeatures
  split <;> exact ⟨rfl, rfl⟩

theorem failed_bits (status : BitVec 8)
    : (∀ bit, bit ≠ 6
        → (status ||| virtioStatusNeedsReset).getLsbD bit = status.getLsbD bit)
      ∧ (status ||| virtioStatusNeedsReset).getLsbD 6 = true := by
  constructor
  · intro bit other
    simp [virtioStatusNeedsReset, Ne.symm other]
  · simp [virtioStatusNeedsReset]

variable {offered : BitVec 64} (ops : VirtioDeviceOps D F T)

theorem Negotiated.step [VirtioTransport T] {ops : VirtioDeviceOps D F T}
    (constant : ∀ frontend, ops.getFeatures frontend = offered) (before : Negotiated offered w.vdev)
    (op : NegotiationOp)
    : Negotiated offered (negotiationStep ops w op).vdev := by
  obtain ⟨active, driverOk, featuresOk, driver, accepted⟩ := before
  cases op with
  | setStatus status =>
    dsimp only [negotiationStep]
    by_cases zero : status = 0
    · subst zero
      rw [virtioDeviceSetStatus_zero]
      constructor <;> simp [resetDevice, active]
    · rw [virtioDeviceSetStatus_nonzero ops zero]
      obtain ⟨b0, b1, b3, b2, -⟩ :=
        acceptStatus_bits offered w.vdev.driverFeatures w.vdev.status status
      simp only [hasBit_featuresOk] at accepted
      refine ⟨active, ?_, ?_, ?_, ?_⟩
      all_goals
        simp only [World.setStatus, hasBit_driverOk, hasBit_featuresOk, hasBit_driver,
          hasBit_acknowledge]
        grind
  | setFeatures selector value =>
    dsimp only [negotiationStep]
    obtain ⟨sameStatus, sameState⟩ :=
      virtioDeviceSetFeatures_status selector.toNat value w
    refine ⟨sameState.trans active, ?_, ?_, ?_, ?_⟩
    all_goals rw [sameStatus]
    · exact driverOk
    · exact featuresOk
    · exact driver
    · intro locked
      rw [virtioDeviceSetFeatures_locked _ _ locked]
      exact accepted locked
  | fail =>
    dsimp only [negotiationStep]
    obtain ⟨same, -⟩ := failed_bits w.vdev.status
    rw [virtioDeviceFail_vdev]
    simp only [hasBit_driverOk, hasBit_featuresOk, hasBit_driver, hasBit_acknowledge]
      at driverOk featuresOk driver accepted
    refine ⟨active, ?_, ?_, ?_, ?_⟩
    all_goals
      simp only [hasBit_driverOk, hasBit_featuresOk, hasBit_driver, hasBit_acknowledge,
        same 0 (by decide), same 1 (by decide), same 2 (by decide), same 3 (by decide)]
      assumption

/-- A non-zero status write keeps every bit. Witness: the predecessors of an old bit are old. -/
theorem acceptStatus_keeps {vdev : VirtioDevice} (before : Negotiated offered vdev)
    (request : BitVec 8)
    : (∀ bit, vdev.status.getLsbD bit = true
        → (acceptStatus offered vdev.driverFeatures vdev.status request).getLsbD bit = true)
      ∧ (acceptStatus offered vdev.driverFeatures vdev.status request).getLsbD 6
        = vdev.status.getLsbD 6 := by
  obtain ⟨-, driverOk, featuresOk, driver, -⟩ := before
  simp only [hasBit_driverOk, hasBit_featuresOk, hasBit_driver, hasBit_acknowledge]
    at driverOk featuresOk driver
  obtain ⟨b0, b1, b3, b2, b4, b5, b6, b7⟩ :=
    acceptStatus_bits offered vdev.driverFeatures vdev.status request
  refine ⟨?_, b6⟩
  intro bit set
  -- A set bit is one of the eight, and each of them has its own rule.
  have within : bit < 8 := by
    by_contra outside
    rw [BitVec.getLsbD_of_ge vdev.status bit (Nat.le_of_not_lt outside)] at set
    cases set
  interval_cases bit <;> grind

theorem negotiationStep_features [VirtioTransport T]
    (locked : hasBit w.vdev.status virtioStatusFeaturesOk = true) {op : NegotiationOp}
    (notReset : op ≠ .setStatus 0)
    : (negotiationStep ops w op).vdev.driverFeatures = w.vdev.driverFeatures := by
  cases op with
  | setStatus request =>
    have nonzero : request ≠ 0 := fun zero => notReset (by rw [zero])
    simp only [negotiationStep, virtioDeviceSetStatus_nonzero ops nonzero]
    rfl
  | setFeatures =>
    simp only [negotiationStep, virtioDeviceSetFeatures_locked _ _ locked]
  | fail => simp only [negotiationStep, virtioDeviceFail_vdev]

theorem Negotiated.status_kept [VirtioTransport T] {ops : VirtioDeviceOps D F T}
    (constant : ∀ frontend, ops.getFeatures frontend = offered) (before : Negotiated offered w.vdev)
    {op : NegotiationOp} (notReset : op ≠ .setStatus 0) {bit : Nat}
    (set : w.vdev.status.getLsbD bit = true)
    : (negotiationStep ops w op).vdev.status.getLsbD bit = true := by
  cases op with
  | setStatus request =>
    have nonzero : request ≠ 0 := fun zero => notReset (by rw [zero])
    simp only [negotiationStep, virtioDeviceSetStatus_nonzero ops nonzero, constant]
    exact (acceptStatus_keeps before request).1 bit set
  | setFeatures =>
    simp only [negotiationStep, (virtioDeviceSetFeatures_status ..).1, set]
  | fail =>
    simp only [negotiationStep, virtioDeviceFail_vdev, BitVec.getLsbD_or, set, Bool.true_or]

theorem Negotiated.fresh (offered : BitVec 64) {vdev : VirtioDevice}
    (active : vdev.state = .active) (status : vdev.status = 0)
    : Negotiated offered vdev := by
  constructor <;> simp [active, status]

/-- In every state that an active device reaches by status and feature writes and failures,
`DRIVER_OK`, `FEATURES_OK`, `DRIVER` and `ACKNOWLEDGE` imply one another in this order, and accepted
features have `VERSION_1` and nothing unoffered. From there only a reset changes accepted features,
a non-zero status write clears no bit and does not set `NEEDS_RESET`, and only zero clears
`NEEDS_RESET` or `FAILED`.
-/
theorem negotiation_state_machine [VirtioTransport T] (ops : VirtioDeviceOps D F T)
    (offered : BitVec 64) (constant : ∀ frontend, ops.getFeatures frontend = offered)
    (start w : World D F T) (labels : List NegotiationOp)
    (active : start.vdev.state = .active) (status : start.vdev.status = 0)
    (run : Run (NegotiationStep ops) start labels w)
    : (hasBit w.vdev.status virtioStatusDriverOk = true
        → hasBit w.vdev.status virtioStatusFeaturesOk = true)
      ∧ (hasBit w.vdev.status virtioStatusFeaturesOk = true
        → hasBit w.vdev.status virtioStatusDriver = true)
      ∧ (hasBit w.vdev.status virtioStatusDriver = true
        → hasBit w.vdev.status virtioStatusAcknowledge = true)
      ∧ (hasBit w.vdev.status virtioStatusFeaturesOk = true
        → hasBit w.vdev.driverFeatures virtioFVersion1 = true
          ∧ w.vdev.driverFeatures &&& ~~~(offered ||| virtioFVersion1) = 0)
      ∧ ∀ op next, NegotiationStep ops w op next
          → (hasBit w.vdev.status virtioStatusFeaturesOk = true
              → op ≠ .setStatus 0
              → next.vdev.driverFeatures = w.vdev.driverFeatures)
            ∧ (∀ request, op = .setStatus request → request ≠ 0
              → (∀ bit, w.vdev.status.getLsbD bit = true
                  → next.vdev.status.getLsbD bit = true)
                ∧ (hasBit next.vdev.status virtioStatusNeedsReset = true
                  → hasBit w.vdev.status virtioStatusNeedsReset = true))
            ∧ (∀ mask, mask = virtioStatusNeedsReset ∨ mask = virtioStatusFailed
              → hasBit w.vdev.status mask = true
              → hasBit next.vdev.status mask = false
              → op = .setStatus 0) := by
  have formed : Negotiated offered w.vdev :=
    run.invariant (fun w => Negotiated offered w.vdev)
      (fun _ op _ before step => step ▸ before.step constant op)
      (.fresh offered active status)
  refine ⟨formed.driverOk, formed.featuresOk, formed.driver, ?_, ?_⟩
  · intro set
    have accepted := formed.accepted set
    simp only [featuresAccepted, Bool.and_eq_true] at accepted
    refine ⟨accepted.1, ?_⟩
    simpa [hasBit] using accepted.2
  intro op next step
  subst step
  refine ⟨fun locked notReset => negotiationStep_features ops locked notReset, ?_, ?_⟩
  · rintro request rfl nonzero
    have notReset : NegotiationOp.setStatus request ≠ .setStatus 0 := by simpa using nonzero
    refine ⟨fun bit => formed.status_kept constant notReset, ?_⟩
    simp only [negotiationStep, virtioDeviceSetStatus_nonzero ops nonzero, constant,
      World.setStatus, hasBit_needsReset]
    intro set
    rwa [(acceptStatus_keeps formed request).2] at set
  · intro mask either set cleared
    by_contra notReset
    rcases either with rfl | rfl
    · rw [hasBit_needsReset] at set cleared
      rw [formed.status_kept constant notReset set] at cleared
      cases cleared
    · rw [hasBit_failed] at set cleared
      rw [formed.status_kept constant notReset set] at cleared
      cases cleared

def plainOps : VirtioDeviceOps Unit Unit Unit where
  getFeatures _ := 0
  reset := none
  readConfig := none
  writeConfig := none
  notifyQueue _ _ _ _ w := w
  rxCb := none

def plainWorld : World Unit Unit Unit :=
  ⟨⟨fun _ => 0, ()⟩, 0, ⟨.active, 0, 0, 0, fun _ => default, 0⟩, (), (), []⟩

/-- The driver acknowledges the device, announces itself, selects `VERSION_1`, and is
accepted.
-/
def plainHandshake : List NegotiationOp :=
  [.setStatus 0x03, .setFeatures 1 1, .setStatus 0x0f]

/-- The handshake ends with `DRIVER_OK`, and the guarantees apply there. -/
theorem negotiation_state_machine_handshake
    : ∃ w, Run (NegotiationStep plainOps) plainWorld plainHandshake w
        ∧ hasBit w.vdev.status virtioStatusDriverOk = true
        ∧ hasBit w.vdev.driverFeatures virtioFVersion1 = true := by
  have run : Run (NegotiationStep plainOps) plainWorld plainHandshake
      (negotiationStep plainOps (negotiationStep plainOps
        (negotiationStep plainOps plainWorld (.setStatus 0x03)) (.setFeatures 1 1))
        (.setStatus 0x0f)) :=
    ((Run.single rfl).append (Run.single rfl)).append (Run.single rfl)
  refine ⟨_, run, by decide, ?_⟩
  exact ((negotiation_state_machine plainOps 0 (fun _ => rfl) plainWorld _ _ rfl rfl
    run).2.2.2.1 (by decide)).1

end Modvm.Virtio
