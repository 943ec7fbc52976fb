import Modvm.Hw.ConfigSpace
import Modvm.Hw.PioBridge

/-! The interrupt lines that endpoints share. -/

namespace Modvm.Hw

open Modvm.Core Modvm.Lib Modvm.Util
open Function (update update_apply update_of_ne update_self)

/-- The endpoint's pin is routed to the line, and it asserts an interrupt that is enabled. -/
def PciDevice.asserts (line : Fin 4) (dev : PciDevice) : Bool :=
  decide (1 ≤ dev.interruptPin.toNat ∧ dev.interruptPin.toNat ≤ 4)
    && decide ((pciSlot dev.devfn + dev.interruptPin.toNat - 1) % 4 = line.val)
    && dev.irqLevel && !dev.intxDisabled

def PciDevice.Drives (bus : Nat) (line : Fin 4) (dev : PciDevice) : Prop :=
  dev.bus = some bus ∧ dev.asserts line = true

/-- A line with an interrupt was last driven to whether an endpoint asserts it; others were not
driven.
-/
def PioBridge.Follows (bridge : PioBridge) : Prop :=
  ∀ line, bridge.level line
    = ((bridge.pirq line).isSome && WordSet.any 4 (bridge.asserted line))

structure Lines (p : Platform) : Prop where
  bits : ∀ bus line devfn, WordSet.has ((p.bridges bus).asserted line) devfn = true
    ↔ ∃ endpoint, (p.machine.endpoints endpoint).Drives bus line
      ∧ (p.machine.endpoints endpoint).devfn.toNat = devfn
  follows : ∀ bus, (p.bridges bus).Follows

theorem PciDevice.asserts_congr {dev next : PciDevice} (line : Fin 4)
    (pin : next.interruptPin = dev.interruptPin) (devfn : next.devfn = dev.devfn)
    (irq : next.irqLevel = dev.irqLevel) (command : next.configSpace 5 = dev.configSpace 5)
    : next.asserts line = dev.asserts line := by
  unfold PciDevice.asserts PciDevice.intxDisabled
  rw [pin, devfn, irq, command]

theorem PciDevice.asserts_low {dev : PciDevice} (line : Fin 4) (low : dev.irqLevel = false)
    : dev.asserts line = false := by
  simp [PciDevice.asserts, low]

theorem PciDevice.asserts_iff {dev : PciDevice} (line : Fin 4)
    : dev.asserts line = true
      ↔ (¬ (dev.interruptPin.toNat = 0 ∨ dev.interruptPin.toNat > 4) ∧ line = dev.pirqIdx)
        ∧ (dev.irqLevel && !dev.intxDisabled) = true := by
  have wired : (1 ≤ dev.interruptPin.toNat ∧ dev.interruptPin.toNat ≤ 4)
      ↔ ¬ (dev.interruptPin.toNat = 0 ∨ dev.interruptPin.toNat > 4) := by omega
  have routed : (pciSlot dev.devfn + dev.interruptPin.toNat - 1) % 4 = line.val
      ↔ line = dev.pirqIdx := by
    rw [Fin.ext_iff]
    exact eq_comm
  simp only [PciDevice.asserts, Bool.and_eq_true, decide_eq_true_eq, wired, routed, and_assoc]

theorem pioBridgeSetIrqCb_has (dev : PciDevice) (level : Bool) (bridge : PioBridge)
    (line : Fin 4) (devfn : Nat)
    : WordSet.has ((pioBridgeSetIrqCb dev level bridge).asserted line) devfn
      = if (¬ (dev.interruptPin.toNat = 0 ∨ dev.interruptPin.toNat > 4) ∧ line = dev.pirqIdx)
          ∧ devfn = dev.devfn.toNat then level
        else WordSet.has (bridge.asserted line) devfn := by
  have updated : WordSet.has (update bridge.asserted dev.pirqIdx
      (WordSet.put (bridge.asserted dev.pirqIdx) dev.devfn.toNat level) line) devfn
      = if line = dev.pirqIdx ∧ devfn = dev.devfn.toNat then level
        else WordSet.has (bridge.asserted line) devfn := by
    by_cases here : line = dev.pirqIdx
    · subst here
      rw [update_self, WordSet.has_put]
      simp
    · rw [update_of_ne here, if_neg fun both => here both.1]
  unfold pioBridgeSetIrqCb
  split
  next unwired => rw [if_neg fun all => all.1.1 unwired]
  next wired =>
    simp only [wired, not_false_eq_true, true_and]
    split
    · exact updated
    · exact updated

theorem pioBridgeSetIrqCb_pirq (dev : PciDevice) (level : Bool) (bridge : PioBridge)
    : (pioBridgeSetIrqCb dev level bridge).pirq = bridge.pirq := by
  unfold pioBridgeSetIrqCb
  split
  · rfl
  · dsimp only
    split
    · rfl
    · rfl

theorem PioBridge.level_request (bridge : PioBridge) (asserted : Fin 4 → Nat → BitVec 64)
    (request : IrqRequest) (line : Fin 4)
    : ({ bridge with asserted := asserted, requests := request :: bridge.requests }
        : PioBridge).level line
      = if line = request.line then request.level else bridge.level line := by
  unfold PioBridge.level
  by_cases here : line = request.line
  · subst here
    simp
  · have other : (request.line == line) = false := by simpa using Ne.symm here
    simp [here, other]

theorem PioBridge.Follows.setIrqCb {bridge : PioBridge} (follows : bridge.Follows)
    (dev : PciDevice) (level : Bool)
    : (pioBridgeSetIrqCb dev level bridge).Follows := by
  intro line
  have before := follows line
  unfold pioBridgeSetIrqCb
  split
  · exact before
  dsimp only
  by_cases here : line = dev.pirqIdx
  · subst here
    split
    next unconnected =>
      rw [unconnected] at before ⊢
      exact before
    next irq connected =>
      rw [PioBridge.level_request, connected]
      simp
  · have kept : update bridge.asserted dev.pirqIdx
        (WordSet.put (bridge.asserted dev.pirqIdx) dev.devfn.toNat level) line
        = bridge.asserted line := update_of_ne here _ _
    split
    · exact before.trans (by rw [← kept])
    · rw [PioBridge.level_request, if_neg here]
      exact before.trans (by rw [← kept])

namespace Lines

variable {p : Platform} {next : Machine}

theorem silent (lines : Lines p)
    (same : ∀ endpoint bus line, (next.endpoints endpoint).Drives bus line
      ↔ (p.machine.endpoints endpoint).Drives bus line)
    (devfn : ∀ endpoint bus line, (p.machine.endpoints endpoint).Drives bus line →
      (next.endpoints endpoint).devfn = (p.machine.endpoints endpoint).devfn)
    : Lines { p with machine := next } := by
  refine ⟨fun bus line number => ?_, lines.follows⟩
  refine (lines.bits bus line number).trans (exists_congr fun endpoint => ?_)
  rw [same]
  refine and_congr_right fun drives => ?_
  rw [devfn endpoint bus line drives]

section

variable (lines : Lines p) {endpoint : Nat} {dev : PciDevice}
  (endpoints : next.endpoints = update p.machine.endpoints endpoint dev)
include lines endpoints

theorem update_idle (before : ∀ bus line, ¬ (p.machine.endpoints endpoint).Drives bus line)
    (after : ∀ bus line, ¬ dev.Drives bus line)
    : Lines { p with machine := next } := by
  refine lines.silent (fun other bus line => ?_) fun other bus line drives => ?_
  · rw [endpoints, update_apply]
    split
    next here => rw [here]; exact iff_of_false (after bus line) (before bus line)
    · exact Iff.rfl
  · rw [endpoints, update_apply]
    split
    next here => exact absurd (here ▸ drives) (before bus line)
    · rfl

theorem update_same (bus : dev.bus = (p.machine.endpoints endpoint).bus)
    (pin : dev.interruptPin = (p.machine.endpoints endpoint).interruptPin)
    (devfn : dev.devfn = (p.machine.endpoints endpoint).devfn)
    (irq : dev.irqLevel = (p.machine.endpoints endpoint).irqLevel)
    (command : dev.configSpace 5 = (p.machine.endpoints endpoint).configSpace 5)
    : Lines { p with machine := next } := by
  refine lines.silent (fun other where_ line => ?_) fun other _ line _ => ?_
  · rw [endpoints, update_apply]
    split
    next here =>
      unfold PciDevice.Drives
      rw [here, bus, PciDevice.asserts_congr line pin devfn irq command]
    · exact Iff.rfl
  · rw [endpoints, update_apply]
    split
    next here => rw [devfn, here]
    · rfl

end

theorem signal (lines : Lines p) {endpoint bus : Nat} {dev : PciDevice}
    (devfns : ∀ other, (p.machine.endpoints other).bus = some bus →
      (p.machine.endpoints other).devfn = (p.machine.endpoints endpoint).devfn → other = endpoint)
    (endpoints : next.endpoints = update p.machine.endpoints endpoint dev)
    (there : (p.machine.endpoints endpoint).bus = some bus) (stays : dev.bus = some bus)
    (pin : dev.interruptPin = (p.machine.endpoints endpoint).interruptPin)
    (devfn : dev.devfn = (p.machine.endpoints endpoint).devfn)
    (forwarded : dev.forwarded = (dev.irqLevel && !dev.intxDisabled))
    : Lines (Platform.signal endpoint { p with machine := next }) := by
  have this : next.endpoints endpoint = dev := by rw [endpoints, update_self]
  have others : ∀ other, other ≠ endpoint →
      next.endpoints other = p.machine.endpoints other :=
    fun other elsewhere => by rw [endpoints, update_of_ne elsewhere]
  have index : dev.pirqIdx = (p.machine.endpoints endpoint).pirqIdx := by
    unfold PciDevice.pirqIdx
    rw [pin, devfn]
  unfold Platform.signal
  simp only [this, stays]
  refine ⟨fun where_ line number => ?_, fun where_ => ?_⟩
  · dsimp only
    have old := lines.bits where_ line number
    by_cases here : where_ = bus
    · subst here
      rw [update_self, pioBridgeSetIrqCb_has]
      split
      next mine =>
        obtain ⟨routed, number_eq⟩ := mine
        constructor
        · intro high
          have asserts : dev.asserts line = true :=
            (PciDevice.asserts_iff line).mpr ⟨routed, forwarded ▸ high⟩
          exact ⟨endpoint, by rw [this]; exact ⟨stays, asserts⟩, by rw [this, number_eq]⟩
        · rintro ⟨other, drives, same⟩
          by_cases same_endpoint : other = endpoint
          · subst same_endpoint
            rw [this] at drives
            exact forwarded.trans ((PciDevice.asserts_iff line).mp drives.2).2
          · rw [others other same_endpoint] at drives same
            refine absurd (devfns other drives.1 ?_) same_endpoint
            rw [← devfn]
            exact BitVec.eq_of_toNat_eq (same.trans number_eq)
      next notMine =>
        rw [old]
        refine exists_congr fun other => ?_
        by_cases same_endpoint : other = endpoint
        · subst same_endpoint
          -- neither version of the endpoint drives this line under this number
          rw [this]
          constructor
          · rintro ⟨drives, same⟩
            have routed := ((PciDevice.asserts_iff line).mp drives.2).1
            rw [← index, ← pin] at routed
            exact absurd ⟨routed, by rw [devfn, same]⟩ notMine
          · rintro ⟨drives, same⟩
            exact absurd ⟨((PciDevice.asserts_iff line).mp drives.2).1, same.symm⟩ notMine
        · rw [others other same_endpoint]
    · rw [update_of_ne here, old]
      refine exists_congr fun other => ?_
      by_cases same_endpoint : other = endpoint
      · subst same_endpoint
        rw [this]
        have elsewhere : some bus ≠ some where_ := fun same => here (Option.some.inj same).symm
        simp [PciDevice.Drives, there, stays, elsewhere]
      · rw [others other same_endpoint]
  · dsimp only
    by_cases here : where_ = bus
    · subst here
      rw [update_self]
      exact (lines.follows where_).setIrqCb dev dev.forwarded
    · rw [update_of_ne here]
      exact lines.follows where_

theorem not_drives_of_detached {dev : PciDevice} (detached : dev.bus = none) (bus : Nat)
    (line : Fin 4)
    : ¬ dev.Drives bus line := by
  intro drives
  rw [drives.1] at detached
  cases detached

variable {pools : Nat → List (Option Cleanup)}

theorem setIrq (lines : Lines p) (top : Topology pools p.machine) (endpoint : Nat) (level : Bool)
    : Lines (p.setIrq endpoint level) := by
  have remains := pciDeviceSetIrq_remains level (p.machine.endpoints endpoint)
  unfold Platform.setIrq
  cases there : (p.machine.endpoints endpoint).bus with
  | none =>
    have detached := remains.bus.trans there
    have quiet : Lines { p with
        machine := p.machine.setEndpoint endpoint
          (pciDeviceSetIrq level (p.machine.endpoints endpoint)) } :=
      lines.update_idle rfl (not_drives_of_detached there) (not_drives_of_detached detached)
    unfold Platform.signal
    simp only [Machine.setEndpoint, update_self, detached]
    exact quiet
  | some bus =>
    refine lines.signal (fun other on same => top.devfns bus other endpoint on there same) rfl
      there (remains.bus.trans there) remains.pin (remains.devfn (by rw [there]; rfl)) ?_
    unfold pciDeviceSetIrq
    rw [there]
    rfl

theorem effect {signalled : Option Nat} (lines : Lines p)
    (top : Topology p.machine.pools p.machine) (effect : BusEffect p.machine signalled next)
    : Lines (Platform.signalAny signalled { p with machine := next }) := by
  cases effect with
  | quiet => exact lines.silent (fun _ _ _ => Iff.rfl) fun _ _ _ _ => rfl
  | prepared detached stays =>
    exact lines.update_idle rfl (not_drives_of_detached detached)
      (not_drives_of_detached (stays.bus.trans detached))
  | attached detached _ _ _ _ _ _ _ irq =>
    refine lines.update_idle rfl (not_drives_of_detached detached) fun bus line drives => ?_
    have low := irq.trans (top.idle _ detached).1
    rw [PciDevice.Drives, PciDevice.asserts_low line low] at drives
    cases drives.2
  | barAdded =>
    exact lines.update_same rfl rfl rfl rfl rfl (PciDevice.setBarBytes_other _ _ (by omega))
  | barProbed => exact lines.update_same rfl rfl rfl rfl rfl rfl
  | barMoved =>
    exact lines.update_same rfl rfl rfl rfl rfl (PciDevice.setBarBytes_other _ _ (by omega))
  | @headerWritten endpoint offset val size attached =>
    have remains := PciDevice.writeHeader_remains attached offset val size
    obtain ⟨bus, there⟩ := Option.isSome_iff_exists.mp attached
    have endpoints := pciWriteHeader_endpoints endpoint offset val size p.machine
    by_cases command : offset < 6 ∧ offset + size > 4
    · rw [if_pos command]
      refine lines.signal (fun other on same => top.devfns bus other endpoint on there same)
        endpoints there (remains.bus.trans there) remains.pin (remains.devfn attached) ?_
      unfold PciDevice.writeHeader pciDeviceSetIrq
      simp only [if_pos command, there]
      rfl
    · rw [if_neg command]
      have ⟨config, _⟩ := (p.machine.endpoints endpoint).writeHeader_fields offset val size
      refine lines.update_same endpoints remains.bus remains.pin (remains.devfn attached) ?_ ?_
      · unfold PciDevice.writeHeader
        rw [if_neg command]
      · rw [config, headerBytes, if_neg (by omega)]
  | irqSet => exact lines.setIrq top _ _

theorem unregister (lines : Lines p) (top : Topology pools p.machine) (endpoint : Nat)
    : Lines (p.unregister endpoint) := by
  have lowered := lines.setIrq top endpoint false
  have machine : (p.setIrq endpoint false).machine = p.machine.setEndpoint endpoint
      (pciDeviceSetIrq false (p.machine.endpoints endpoint)) := Platform.signal_machine _ _
  have removed : (pciUnregister endpoint p.machine).endpoints
      = update (p.setIrq endpoint false).machine.endpoints endpoint
        (p.machine.endpoints endpoint).removed := by
    rw [machine, pciUnregister_endpoints]
    simp [Machine.setEndpoint]
  refine lowered.update_idle removed ?_ (not_drives_of_detached rfl)
  intro bus line drives
  rw [machine] at drives
  simp only [Machine.setEndpoint, update_self] at drives
  have there := (pciDeviceSetIrq_bus false (p.machine.endpoints endpoint)).symm.trans drives.1
  have low := (pciDeviceSetIrq_false (Option.isSome_of_eq_some there)).1
  rw [PciDevice.Drives, PciDevice.asserts_low line low] at drives
  cases drives.2

theorem releaseLoop {owner : Nat} {actions : List (Option Cleanup)} (lines : Lines p)
    (top : Topology (update pools owner actions) p.machine)
    : Lines (resRelease Platform.runCleanup actions p) := by
  induction actions generalizing p with
  | nil => exact lines
  | cons action rest ih =>
    have after := top.releaseStep
    cases action with
    | none => exact ih lines after
    | some cleanup =>
      cases cleanup with
      | ioRegionUnregister =>
        exact ih (lines.silent (fun _ _ _ => Iff.rfl) fun _ _ _ _ => rfl) after
      | pciUnregister endpoint => exact ih (lines.unregister top endpoint) after

theorem apply (lines : Lines p) (ordered : p.machine.Ordered) (op : BusOp)
    : Lines (p.apply op) := by
  rcases op.remove_or with ⟨owner, rfl⟩ | stays
  · unfold Platform.apply Platform.releaseResources
    dsimp only
    split
    · exact lines
    · exact (lines.releaseLoop (ordered.topology.reversed owner)).silent (fun _ _ _ => Iff.rfl)
        fun _ _ _ _ => rfl
  · have after := lines.effect ordered.topology (ordered.effect stays)
    unfold Platform.apply
    split
    next owner => exact absurd rfl (stays owner)
    · exact after

end Lines

theorem Platform.signal_pirq (endpoint : Nat) (p : Platform) (bus : Nat)
    : ((p.signal endpoint).bridges bus).pirq = (p.bridges bus).pirq := by
  unfold Platform.signal
  dsimp only
  split
  · rfl
  · dsimp only
    rw [update_apply]
    split
    next here => rw [pioBridgeSetIrqCb_pirq, here]
    · rfl

theorem Platform.apply_pirq (p : Platform) (op : BusOp) (bus : Nat)
    : ((p.apply op).bridges bus).pirq = (p.bridges bus).pirq := by
  unfold Platform.apply
  split
  · unfold Platform.releaseResources
    split
    · rfl
    · refine resRelease_keeps
        (fun state : Platform => (state.bridges bus).pirq = (p.bridges bus).pirq) ?_ _ rfl
      intro cleanup state same
      cases cleanup with
      | ioRegionUnregister => exact same
      | pciUnregister => exact (Platform.signal_pirq _ _ bus).trans same
  · unfold Platform.signalAny
    split
    · rfl
    · exact Platform.signal_pirq _ _ bus

theorem Platform.run_pirq (start : Platform) (ops : List BusOp) (bus : Nat)
    : ((ops.foldl Platform.apply start).bridges bus).pirq = (start.bridges bus).pirq :=
  List.foldlRecOn
    (motive := fun p : Platform => (p.bridges bus).pirq = (start.bridges bus).pirq) ops _ rfl
    fun p same op _ => (p.apply_pirq op bus).trans same

structure Platform.Fresh (p : Platform) : Prop where
  machine : p.machine.Fresh
  asserted : ∀ bus line word, (p.bridges bus).asserted line word = 0
  requests : ∀ bus, (p.bridges bus).requests = []

theorem Platform.Fresh.lines {p : Platform} (fresh : p.Fresh) : Lines p where
  bits bus line devfn := by
    refine iff_of_false ?_ ?_
    · simp [WordSet.has, fresh.asserted]
    · rintro ⟨endpoint, drives, -⟩
      exact Lines.not_drives_of_detached (fresh.machine.detached endpoint) bus line drives
  follows bus line := by
    have empty : WordSet.any 4 ((p.bridges bus).asserted line) = false := by
      simp [WordSet.any, fresh.asserted]
    rw [empty, Bool.and_false, PioBridge.level, fresh.requests]
    rfl

theorem Platform.Fresh.run {start : Platform} (fresh : start.Fresh) (ops : List BusOp)
    : (ops.foldl Platform.apply start).machine.Ordered
      ∧ Lines (ops.foldl Platform.apply start) := by
  refine List.foldlRecOn (motive := fun p : Platform => p.machine.Ordered ∧ Lines p) ops _
    ⟨fresh.machine.ordered, fresh.lines⟩ ?_
  intro p before op _
  rw [Platform.apply_machine]
  exact ⟨before.1.apply op, before.2.apply before.1 op⟩

/-- From a fresh platform, whatever endpoints, host and guest do: the level last driven on a line is
the disjunction, over the endpoints on the bus routed to it, of whether they assert an enabled
interrupt. A line without an interrupt is never driven.
-/
theorem shared_lines (start : Platform) (fresh : start.Fresh) (ops : List BusOp) (bus : Nat)
    (line : Fin 4)
    : ((ops.foldl Platform.apply start).bridges bus).level line
      = (((start.bridges bus).pirq line).isSome
        && ((ops.foldl Platform.apply start).machine.buses bus).devices.any fun endpoint =>
          ((ops.foldl Platform.apply start).machine.endpoints endpoint).asserts line) := by
  have wiring := Platform.run_pirq start ops bus
  obtain ⟨ordered, lines⟩ := fresh.run ops
  generalize ops.foldl Platform.apply start = p at *
  rw [lines.follows bus line, wiring]
  congr 1
  rw [Bool.eq_iff_iff, WordSet.any_iff, List.any_eq_true]
  constructor
  · rintro ⟨devfn, -, set⟩
    obtain ⟨endpoint, ⟨on, asserts⟩, -⟩ := (lines.bits bus line devfn).mp set
    exact ⟨endpoint, (ordered.topology.listed bus endpoint).mpr on, asserts⟩
  · rintro ⟨endpoint, member, asserts⟩
    have on := (ordered.topology.listed bus endpoint).mp member
    refine ⟨(p.machine.endpoints endpoint).devfn.toNat,
      (p.machine.endpoints endpoint).devfn.isLt, ?_⟩
    exact (lines.bits bus line _).mpr ⟨endpoint, ⟨on, asserts⟩, rfl⟩

def sharedLine : Platform where
  machine := { busMachine with
    endpoints := fun endpoint =>
      { busMachine.endpoints endpoint with devfn := .ofNat 8 ((4 * endpoint + 1) * 8) } }
  bridges := fun _ => ⟨fun line => some line.val, fun _ _ => 0, []⟩

/-- Two endpoints assert; one owner is removed, and the guest masks the other for a while. -/
def sharedLineOps : List BusOp :=
  [.registerEndpoint true (some 0) (some 0), .registerEndpoint true (some 0) (some 1),
    .setIrq 0 true, .setIrq 1 true, .remove 1,
    .writeConfig (some 0) 40 4 0x0400 2, .writeConfig (some 0) 40 5 0 1]

/-- The disjunction on that run, where five requests were made and the line is high again. -/
theorem shared_lines_of_two
    : sharedLine.Fresh
      ∧ ((sharedLineOps.foldl Platform.apply sharedLine).bridges 0).requests.map IrqRequest.level
        = [true, false, true, true, true]
      ∧ ((sharedLineOps.foldl Platform.apply sharedLine).bridges 0).level 1 = true
      ∧ ((sharedLineOps.foldl Platform.apply sharedLine).bridges 0).level 1
        = (((sharedLine.bridges 0).pirq 1).isSome
          && ((sharedLineOps.foldl Platform.apply sharedLine).machine.buses 0).devices.any
            fun endpoint =>
              ((sharedLineOps.foldl Platform.apply sharedLine).machine.endpoints endpoint).asserts
                1) := by
  have fresh : sharedLine.Fresh :=
    ⟨⟨fun _ => rfl, fun _ => rfl, fun _ => rfl, fun _ _ _ => rfl, fun _ _ => nofun,
      fun _ _ => nofun, fun _ _ => nofun⟩, fun _ _ _ => rfl, fun _ => rfl⟩
  refine ⟨fresh, ?_, ?_, shared_lines sharedLine fresh sharedLineOps 0 1⟩
  · decide +kernel
  · decide +kernel

end Modvm.Hw
