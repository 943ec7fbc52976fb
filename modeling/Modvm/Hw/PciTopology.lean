import Modvm.Hw.PciEffects

/-! Which endpoints are on which bus, as lists, pointers and scheduled removals agree on it. -/

namespace Modvm.Hw

open Modvm.Core Modvm.Lib Modvm.Util
open Function (update update_apply)

structure Topology (pools : Nat → List (Option Cleanup)) (m : Machine) : Prop where
  listed : ∀ bus endpoint, endpoint ∈ (m.buses bus).devices
    ↔ (m.endpoints endpoint).bus = some bus
  nodup : ∀ bus, (m.buses bus).devices.Nodup
  devfns : ∀ bus left right, (m.endpoints left).bus = some bus →
    (m.endpoints right).bus = some bus →
    (m.endpoints left).devfn = (m.endpoints right).devfn → left = right
  scheduled : ∀ endpoint, (m.endpoints endpoint).bus.isSome →
    ∃ owner, (m.endpoints endpoint).owner = some owner
      ∧ some (.pciUnregister endpoint) ∈ pools owner
  owner : ∀ owner endpoint, some (.pciUnregister endpoint) ∈ pools owner →
    (m.endpoints endpoint).owner = some owner
  pins : ∀ endpoint, (m.endpoints endpoint).bus.isSome →
    (m.endpoints endpoint).interruptPin.toNat ≤ 4
    ∧ (m.endpoints endpoint).configSpace pciInterruptPin = (m.endpoints endpoint).interruptPin
  idle : ∀ endpoint, (m.endpoints endpoint).bus = none →
    (m.endpoints endpoint).irqLevel = false
    ∧ ∀ index < 6, ((m.endpoints endpoint).bars index).region = none

structure PciDevice.Remains (dev next : PciDevice) : Prop where
  bus : next.bus = dev.bus
  owner : next.owner = dev.owner
  devfn : dev.bus.isSome → next.devfn = dev.devfn
  pin : next.interruptPin = dev.interruptPin
  pinByte : dev.bus.isSome → next.configSpace pciInterruptPin = dev.configSpace pciInterruptPin
  idle : dev.bus = none → next.irqLevel = dev.irqLevel
    ∧ ∀ index, (next.bars index).region = (dev.bars index).region

theorem PciDevice.Remains.refl (dev : PciDevice) : dev.Remains dev :=
  ⟨rfl, rfl, fun _ => rfl, rfl, fun _ => rfl, fun _ => ⟨rfl, fun _ => rfl⟩⟩

theorem PciDevice.setBarBytes_other (dev : PciDevice) {index off : Nat} (base : Nat)
    (outside : off < 0x10 + index * 4 ∨ 0x14 + index * 4 ≤ off)
    : (dev.setBarBytes index base).configSpace off = dev.configSpace off := by
  refine writeBytes_outside _ _ _ ?_
  simp only [Span.Has, toLe_length]
  omega

theorem pciDeviceSetIrq_remains (level : Bool) (dev : PciDevice)
    : dev.Remains (pciDeviceSetIrq level dev) := by
  unfold pciDeviceSetIrq
  split
  · exact .refl dev
  next attached =>
    exact ⟨rfl, rfl, fun _ => rfl, rfl, fun _ => rfl, by simp [attached]⟩

/-- The guest's header writes move no endpoint. -/
theorem PciDevice.writeHeader_remains {dev : PciDevice} (attached : dev.bus.isSome)
    (offset : Nat) (val : BitVec 32) (size : Nat)
    : dev.Remains (dev.writeHeader offset val size) := by
  have pinByte : headerBytes dev.configSpace offset val size pciInterruptPin
      = dev.configSpace pciInterruptPin := by
    unfold headerBytes headerByte
    split
    · simp [pciInterruptPin, pciInterruptLine]
    · rfl
  have written : dev.Remains
      { dev with configSpace := headerBytes dev.configSpace offset val size } :=
    ⟨rfl, rfl, fun _ => rfl, rfl, fun _ => pinByte, fun detached => by simp [detached] at attached⟩
  unfold PciDevice.writeHeader
  split
  · obtain ⟨bus, owner, devfn, pin, byte, -⟩ := pciDeviceSetIrq_remains dev.irqLevel
      { dev with configSpace := headerBytes dev.configSpace offset val size }
    exact ⟨bus, owner, devfn, pin, fun there => (byte there).trans pinByte,
      fun detached => by simp [detached] at attached⟩
  · exact written

def PciDevice.removed (dev : PciDevice) : PciDevice :=
  { pciDeviceSetIrq false dev with
    bus := none
    bars := fun index =>
      if index < 6 then ⟨none, false⟩ else (pciDeviceSetIrq false dev).bars index }

@[simp, grind =]
theorem PciDevice.removed_bus (dev : PciDevice) : dev.removed.bus = none := rfl

theorem PciDevice.removed_bars (dev : PciDevice) {index : Nat} (inRange : index < 6)
    : dev.removed.bars index = ⟨none, false⟩ :=
  if_pos inRange

@[simp, grind =]
theorem PciDevice.removed_owner (dev : PciDevice) : dev.removed.owner = dev.owner :=
  (pciDeviceSetIrq_remains false dev).owner

theorem PciDevice.removed_irqLevel {dev : PciDevice}
    (idle : dev.bus = none → dev.irqLevel = false)
    : dev.removed.irqLevel = false := by
  cases there : dev.bus with
  | none => exact ((pciDeviceSetIrq_remains false dev).idle there).1.trans (idle there)
  | some => exact (pciDeviceSetIrq_false (by simp [there])).1

theorem pciUnregister_endpoints (endpoint : Nat) (m : Machine)
    : (pciUnregister endpoint m).endpoints
      = update m.endpoints endpoint (m.endpoints endpoint).removed := by
  unfold pciUnregister
  dsimp only
  split <;> rfl

theorem pciUnregister_owner (endpoint : Nat) (m : Machine) (other : Nat)
    : ((pciUnregister endpoint m).endpoints other).owner = (m.endpoints other).owner := by
  rw [pciUnregister_endpoints, update_apply]
  split
  next here => rw [PciDevice.removed_owner, here]
  · rfl

/-- Only the list of its bus loses the endpoint. -/
theorem pciUnregister_devices (endpoint : Nat) (m : Machine) (bus : Nat)
    : ((pciUnregister endpoint m).buses bus).devices
      = if (m.endpoints endpoint).bus = some bus then (m.buses bus).devices.erase endpoint
        else (m.buses bus).devices := by
  unfold pciUnregister
  simp only [pciDeviceSetIrq_bus]
  split
  next detached => simp [Machine.setEndpoint, detached]
  next there _ =>
    by_cases here : bus = there
    · simp [Machine.setEndpoint, Machine.setBus, *]
    · simp [Machine.setEndpoint, Machine.setBus, Ne.symm here, *]

theorem pciUnregister_toVmCtx (endpoint : Nat) (m : Machine)
    : (pciUnregister endpoint m).toVmCtx = m.toVmCtx := by
  unfold pciUnregister
  dsimp only
  split <;> rfl

theorem released_pools (owner : Nat) (actions : List (Option Cleanup)) (m : Machine)
    : ((resRelease runCleanup actions m).setVm
        ((resRelease runCleanup actions m).toVmCtx.setResources owner resPoolInit)).pools
      = update m.pools owner [] := by
  have untouched : (resRelease runCleanup actions m).devices = m.devices := by
    refine resRelease_keeps (fun state : Machine => state.devices = m.devices) ?_ actions rfl
    intro action state same
    cases action with
    | ioRegionUnregister => exact same
    | pciUnregister endpoint =>
      rw [← same]
      exact congrArg VmCtx.devices (pciUnregister_toVmCtx endpoint state)
  funext other
  simp only [Machine.pools, Machine.setVm]
  rw [setResources_pools, update_apply, untouched]
  split <;> rfl

namespace Topology

variable {pools next_pools : Nat → List (Option Cleanup)} {m next : Machine}

/-- The tree depends on the bus lists, on where endpoints are, and on the cleanup actions. -/
theorem congr (top : Topology pools m) (buses : next.buses = m.buses)
    (remains : ∀ endpoint, (m.endpoints endpoint).Remains (next.endpoints endpoint))
    (same : ∀ owner endpoint, some (.pciUnregister endpoint) ∈ next_pools owner
      ↔ some (.pciUnregister endpoint) ∈ pools owner)
    : Topology next_pools next where
  listed bus endpoint := by
    rw [buses, (remains endpoint).bus]
    exact top.listed bus endpoint
  nodup bus := by
    rw [buses]
    exact top.nodup bus
  devfns bus left right onLeft onRight := by
    rw [(remains left).bus] at onLeft
    rw [(remains right).bus] at onRight
    rw [(remains left).devfn (by simp [onLeft]), (remains right).devfn (by simp [onRight])]
    exact top.devfns bus left right onLeft onRight
  scheduled endpoint there := by
    rw [(remains endpoint).bus] at there
    obtain ⟨owner, owned, planned⟩ := top.scheduled endpoint there
    exact ⟨owner, (remains endpoint).owner.trans owned, (same owner endpoint).mpr planned⟩
  owner owner endpoint planned :=
    (remains endpoint).owner.trans (top.owner owner endpoint ((same owner endpoint).mp planned))
  pins endpoint there := by
    rw [(remains endpoint).bus] at there
    rw [(remains endpoint).pin, (remains endpoint).pinByte there]
    exact top.pins endpoint there
  idle endpoint detached := by
    rw [(remains endpoint).bus] at detached
    have ⟨irq, regions⟩ := (remains endpoint).idle detached
    have ⟨low, empty⟩ := top.idle endpoint detached
    exact ⟨irq.trans low, fun index inRange => (regions index).trans (empty index inRange)⟩

theorem setEndpoint (top : Topology pools m) {vm : VmCtx} {endpoint : Nat} {dev : PciDevice}
    (remains : (m.endpoints endpoint).Remains dev)
    (same : ∀ owner endpoint, some (.pciUnregister endpoint) ∈ next_pools owner
      ↔ some (.pciUnregister endpoint) ∈ pools owner)
    : Topology next_pools ((m.setVm vm).setEndpoint endpoint dev) := by
  refine top.congr rfl (fun other => ?_) same
  by_cases here : other = endpoint
  · subst here
    simpa [Machine.setEndpoint] using remains
  · simpa [Machine.setEndpoint, here] using .refl _

/-- A new endpoint under a free number, with its cleanup in the owner's pool. -/
theorem attach (top : Topology pools m) {vm : VmCtx} {bus endpoint owner : Nat} {dev : PciDevice}
    (detached : (m.endpoints endpoint).bus = none)
    (owned : (m.endpoints endpoint).owner = some owner)
    (there : dev.bus = some bus) (owner_eq : dev.owner = some owner)
    (free : ∀ other ∈ (m.buses bus).devices, (m.endpoints other).devfn ≠ dev.devfn)
    (pinRange : dev.interruptPin.toNat ≤ 4)
    (pinByte : dev.configSpace pciInterruptPin = dev.interruptPin)
    (planned : ∀ other action, some action ∈ next_pools other
      ↔ some action ∈ pools other ∨ other = owner ∧ action = .pciUnregister endpoint)
    : Topology next_pools (((m.setVm vm).setEndpoint endpoint dev).setBus bus
        { m.buses bus with devices := (m.buses bus).devices ++ [endpoint] }) := by
  have absent : ∀ other, endpoint ∉ (m.buses other).devices := by
    intro other member
    rw [top.listed, detached] at member
    cases member
  have endpoints : ∀ other, ((((m.setVm vm).setEndpoint endpoint dev).setBus bus
      { m.buses bus with devices := (m.buses bus).devices ++ [endpoint] }).endpoints other)
      = if other = endpoint then dev else m.endpoints other := by
    simp [Machine.setBus, Machine.setEndpoint, Machine.setVm, update_apply]
  refine ⟨?_, ?_, ?_, ?_, ?_, ?_, ?_⟩
  · intro other e
    have listed := top.listed other e
    simp only [Machine.setBus, Machine.setEndpoint, Machine.setVm]
    grind
  · intro other
    simp only [Machine.setBus, update_apply]
    split
    next here =>
      subst here
      refine List.nodup_append.mpr ⟨top.nodup other, List.nodup_singleton _, ?_⟩
      intro e member last same equal
      rw [List.mem_singleton] at same
      exact absent other (same ▸ equal ▸ member)
    · exact top.nodup other
  · intro other left right
    have old := top.devfns other left right
    have leftListed := top.listed bus left
    have rightListed := top.listed bus right
    grind
  · intro e
    have old := top.scheduled e
    grind
  · intro other e
    have old := top.owner other e
    grind
  · intro e
    have old := top.pins e
    grind
  · intro e
    have old := top.idle e
    grind

/-- A cleanup action takes its endpoint off the bus. -/
theorem detach {owner endpoint : Nat} {rest : List (Option Cleanup)}
    (top : Topology (update pools owner (some (.pciUnregister endpoint) :: rest)) m)
    : Topology (update pools owner rest) (pciUnregister endpoint m) := by
  have endpoints : ∀ other, (pciUnregister endpoint m).endpoints other
      = if other = endpoint then (m.endpoints endpoint).removed else m.endpoints other := by
    intro other
    rw [pciUnregister_endpoints, update_apply]
  have buses := pciUnregister_devices endpoint m
  refine ⟨?_, ?_, ?_, ?_, ?_, ?_, ?_⟩
  · intro other e
    rw [buses]
    have listed := top.listed other e
    have distinct := top.nodup other
    split
    next there =>
      grind
    · grind
  · intro other
    rw [buses]
    split
    · exact (top.nodup other).erase endpoint
    · exact top.nodup other
  · intro other left right
    have old := top.devfns other left right
    grind
  · intro e
    have old := top.scheduled e
    grind
  · intro other e planned
    have old := top.owner other e
    grind
  · intro e
    have old := top.pins e
    grind
  · intro e
    rw [endpoints]
    split
    next here =>
      subst here
      exact fun _ => ⟨PciDevice.removed_irqLevel fun detached => (top.idle e detached).1,
        fun index inRange => congrArg PciBar.region (PciDevice.removed_bars _ inRange)⟩
    · exact top.idle e

/-- Every operation but a removal keeps the tree, by cases on its effect. -/
theorem effect {signalled : Option Nat} (top : Topology m.pools m)
    (effect : BusEffect m signalled next)
    : Topology next.pools next := by
  cases effect with
  | quiet same => exact top.congr rfl (fun _ => .refl _) fun owner endpoint => same.pools owner _
  | prepared detached stays irq =>
    refine top.setEndpoint ⟨stays.bus, stays.owner, stays.devfn, stays.pin, ?_, ?_⟩
      fun _ _ => Iff.rfl
    · simp [detached]
    · exact fun _ => ⟨irq, stays.regions⟩
  | attached detached owned there owner_eq free pin pinRange bars irq pinByte bytes scheduled =>
    refine top.attach detached owned there owner_eq free pinRange pinByte ?_
    intro other action
    simp only [Machine.pools, Machine.setBus, Machine.setEndpoint, Machine.setVm]
    rw [setResources_pools]
    split
    next here =>
      subst here
      rw [scheduled]
      simp [Machine.pools]
    next elsewhere => simp [elsewhere]
  | barAdded attached owned inRange empty power aligned bounded added pools =>
    refine top.setEndpoint ⟨rfl, rfl, fun _ => rfl, rfl, fun _ => ?_, ?_⟩ ?_
    · exact PciDevice.setBarBytes_other _ _ (by simp only [pciInterruptPin]; omega)
    · exact fun detached => by simp [detached] at attached
    · intro owner endpoint
      simpa [Machine.pools, Machine.setEndpoint, Machine.setVm]
        using pools owner (.pciUnregister endpoint)
  | barProbed attached =>
    refine top.setEndpoint ⟨rfl, rfl, fun _ => rfl, rfl, fun _ => rfl, ?_⟩ fun _ _ => Iff.rfl
    exact fun detached => by simp [detached] at attached
  | barMoved attached =>
    refine top.setEndpoint ⟨rfl, rfl, fun _ => rfl, rfl, fun _ => ?_, ?_⟩ fun _ _ => Iff.rfl
    · exact PciDevice.setBarBytes_other _ _ (by simp only [pciInterruptPin]; omega)
    · exact fun detached => by simp [detached] at attached
  | @headerWritten endpoint offset val size attached =>
    have remains := PciDevice.writeHeader_remains attached offset val size
    unfold pciWriteHeader
    split
    · exact top.setEndpoint remains fun _ _ => Iff.rfl
    · exact top.setEndpoint remains fun _ _ => Iff.rfl
  | irqSet => exact top.setEndpoint (pciDeviceSetIrq_remains _ _) fun _ _ => Iff.rfl

theorem releaseStep {owner : Nat} {action : Option Cleanup} {rest : List (Option Cleanup)}
    (top : Topology (update pools owner (action :: rest)) m)
    : Topology (update pools owner rest)
        (match action with | none => m | some cleanup => runCleanup cleanup m) := by
  cases action with
  | none =>
    refine top.congr rfl (fun _ => .refl _) fun other endpoint => ?_
    simp only [update_apply]
    split <;> simp
  | some action =>
    cases action with
    | pciUnregister => exact top.detach
    | ioRegionUnregister =>
      refine top.congr rfl (fun _ => .refl _) fun other endpoint => ?_
      simp only [update_apply]
      split <;> simp

/-- A release runs the actions of a pool one by one, by induction. -/
theorem releaseLoop {owner : Nat} {actions : List (Option Cleanup)}
    (top : Topology (update pools owner actions) m)
    : Topology (update pools owner []) (resRelease runCleanup actions m) := by
  induction actions generalizing m with
  | nil => exact top
  | cons action rest ih =>
    cases action with
    | none => exact ih top.releaseStep
    | some => exact ih top.releaseStep

theorem reversed (top : Topology pools m) (owner : Nat)
    : Topology (update pools owner (pools owner).reverse) m := by
  refine top.congr rfl (fun _ => .refl _) fun other endpoint => ?_
  by_cases here : other = owner
  · subst here
    simp
  · simp [here]

theorem release (top : Topology m.pools m) (owner : Nat)
    : Topology (releaseResources owner m).pools (releaseResources owner m) := by
  unfold releaseResources
  split
  · exact top
  · rw [released_pools]
    exact (top.reversed owner).releaseLoop.congr rfl (fun _ => .refl _) fun _ _ => Iff.rfl

end Topology

/-- Numbers are unique on a bus, so a listed endpoint is found by its own. -/
theorem findDevice_of_member {pools : Nat → List (Option Cleanup)} {m : Machine} {bus pos : Nat}
    (top : Topology pools m) (member : pos ∈ (m.buses bus).devices)
    : pciBusFindDevice m bus (m.endpoints pos).devfn = some pos := by
  unfold pciBusFindDevice
  cases found : (m.buses bus).devices.find? fun other =>
      (m.endpoints other).devfn == (m.endpoints pos).devfn with
  | none =>
    have missed := List.find?_eq_none.mp found pos member
    simp at missed
  | some other =>
    have same : (m.endpoints other).devfn = (m.endpoints pos).devfn := by
      simpa using List.find?_some found
    have on := (top.listed bus other).mp (List.mem_of_find?_eq_some found)
    rw [top.devfns bus other pos on ((top.listed bus pos).mp member) same]

/-- No endpoint is on a bus yet, and the handles of regions in use were given out. -/
structure Machine.Fresh (m : Machine) : Prop where
  buses : ∀ bus, (m.buses bus).devices = []
  detached : ∀ endpoint, (m.endpoints endpoint).bus = none
  low : ∀ endpoint, (m.endpoints endpoint).irqLevel = false
  empty : ∀ endpoint, ∀ index < 6, ((m.endpoints endpoint).bars index).region = none
  pools : ∀ owner endpoint, some (.pciUnregister endpoint) ∉ m.pools owner
  handles : ∀ handle reg, m.ioMap.find handle = some reg → handle < m.ioMap.nextHandle
  cleanups : ∀ owner handle, some (.ioRegionUnregister handle) ∈ m.pools owner →
    handle < m.ioMap.nextHandle

theorem Machine.Fresh.topology {m : Machine} (fresh : m.Fresh) : Topology m.pools m where
  listed bus endpoint := by simp [fresh.buses, fresh.detached]
  nodup bus := by simp [fresh.buses]
  devfns bus left right there := by simp [fresh.detached] at there
  scheduled endpoint there := by simp [fresh.detached] at there
  owner owner endpoint planned := absurd planned (fresh.pools owner endpoint)
  pins endpoint there := by simp [fresh.detached] at there
  idle endpoint _ := ⟨fresh.low endpoint, fresh.empty endpoint⟩

end Modvm.Hw
