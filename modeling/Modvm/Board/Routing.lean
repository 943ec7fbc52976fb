import Modvm.Board.MpDecode
import Modvm.Board.Pc
import Modvm.Hw.SharedLines

/-! The three places that route the interrupts of PCI endpoints on the PC board agree. -/

namespace Modvm.Board

open Modvm.Core Modvm.Hw Modvm.Lib Modvm.Util
open Function (update update_apply update_of_ne update_self)

def pcGsi (dev : PciDevice) : BitVec 8 := pcPirqRouting dev.pirqIdx

def routed (dev : PciDevice) : PciDevice :=
  if hasPin dev then
    { dev with configSpace := update dev.configSpace pciInterruptLine (pcGsi dev) }
  else dev

variable {bus : Nat} {m : Machine}

theorem pciBusReadConfig_byte {pos : Nat} {devfn : BitVec 8}
    (found : pciBusFindDevice m bus devfn = some pos) (offset : BitVec 8)
    (outside : 0x28 ≤ offset.toNat)
    : pciBusReadConfig (some bus) devfn offset 1 m
      = ((m.endpoints pos).configSpace offset.toNat).setWidth 32 := by
  have width : (1 : BitVec 8).toNat = 1 := rfl
  unfold pciBusReadConfig
  simp only [width, found]
  rw [if_neg (by omega)]
  have byte : readConfigByte m (m.endpoints pos) (offset.toNat + 0)
      = (m.endpoints pos).configSpace offset.toNat := by
    unfold readConfigByte
    rw [Nat.add_zero, if_neg (by omega)]
  simp only [List.range_one, List.foldl_cons, byte]
  simp

theorem pciBusWriteConfig_line {pos : Nat} {devfn : BitVec 8}
    (found : pciBusFindDevice m bus devfn = some pos) (line : BitVec 8)
    : pciBusWriteConfig (some bus) devfn (.ofNat 8 pciInterruptLine) (line.setWidth 32) 1 m
      = m.setEndpoint pos { m.endpoints pos with
          configSpace := update (m.endpoints pos).configSpace pciInterruptLine line } := by
  have offset : (BitVec.ofNat 8 pciInterruptLine).toNat = 0x3c := rfl
  have width : (1 : BitVec 8).toNat = 1 := rfl
  have bytes : headerBytes (m.endpoints pos).configSpace 0x3c (line.setWidth 32) 1
      = update (m.endpoints pos).configSpace pciInterruptLine line := by
    funext off
    unfold headerBytes
    by_cases here : off = 0x3c
    · subst here
      simp [headerByte, pciInterruptLine]
    · rw [if_neg (by omega)]
      exact (update_of_ne here _ _).symm
  unfold pciBusWriteConfig
  simp only [offset, found]
  unfold pciWriteHeader PciDevice.writeHeader
  simp [bytes]

theorem pcRoutePciIrq_eq {pools : Nat → List (Option Cleanup)} {pos : Nat} (top : Topology pools m)
    (member : pos ∈ (m.buses bus).devices)
    : pcRoutePciIrq bus m pos = m.setEndpoint pos (routed (m.endpoints pos)) := by
  have found := findDevice_of_member top member
  have on := (top.listed bus pos).mp member
  have ⟨_, pinByte⟩ := top.pins pos (by rw [on]; rfl)
  have pin : (pciBusReadConfig (some bus) (m.endpoints pos).devfn (.ofNat 8 pciInterruptPin) 1
      m).setWidth 8 = (m.endpoints pos).interruptPin := by
    rw [pciBusReadConfig_byte found _ (by decide), ← pinByte]
    simp [pciInterruptPin]
  unfold pcRoutePciIrq routed
  simp only [pin]
  by_cases wired : hasPin (m.endpoints pos) = true
  · rw [if_pos wired, if_pos (hasPin_iff.mp wired), pciBusWriteConfig_line found]
    rfl
  · rw [if_neg wired, if_neg fun both => wired (hasPin_iff.mpr both)]
    simp [Machine.setEndpoint]

/-- The routing loop gives every endpoint its interrupt line, by induction on the endpoints. -/
theorem routeLoop (ordered : m.Ordered) {devices : List Nat} (distinct : devices.Nodup)
    (listed : ∀ pos ∈ devices, pos ∈ (m.buses bus).devices)
    : (devices.foldl (pcRoutePciIrq bus) m).Ordered
      ∧ devices.foldl (pcRoutePciIrq bus) m
        = { m with
            endpoints := fun pos =>
              if pos ∈ devices then routed (m.endpoints pos) else m.endpoints pos } := by
  induction devices generalizing m with
  | nil => exact ⟨ordered, by simp⟩
  | cons pos rest ih =>
    obtain ⟨fresh, distinct⟩ := List.nodup_cons.mp distinct
    have round := pcRoutePciIrq_eq ordered.topology (listed pos (List.mem_cons_self ..))
    have next : (pcRoutePciIrq bus m pos).Ordered := by
      unfold pcRoutePciIrq
      dsimp only
      split
      · exact ordered.writeConfig ..
      · exact ordered
    have ⟨after, loop⟩ := ih next distinct fun other member => by
      rw [round]
      exact listed other (List.mem_cons_of_mem _ member)
    refine ⟨after, loop.trans ?_⟩
    rw [round]
    simp only [Machine.setEndpoint]
    congr 1
    funext other
    by_cases here : other = pos
    · subst here
      simp [fresh]
    · simp [here]

theorem pcRoutePciIrqs_eq (ordered : m.Ordered) (bus : Nat)
    : (pcRoutePciIrqs bus m).Ordered
      ∧ pcRoutePciIrqs bus m
        = { m with
            endpoints := fun pos =>
              if pos ∈ (m.buses bus).devices then routed (m.endpoints pos)
              else m.endpoints pos } :=
  routeLoop ordered (ordered.topology.nodup bus) fun _ => id

theorem pirqIdx_of_source {left right : PciDevice} (leftWired : hasPin left = true)
    (rightWired : hasPin right = true) (same : pciSource left = pciSource right)
    : left.pirqIdx = right.pirqIdx := by
  obtain ⟨leftPositive, leftRange⟩ := hasPin_iff.mp leftWired
  obtain ⟨rightPositive, rightRange⟩ := hasPin_iff.mp rightWired
  unfold pciSource at same
  unfold PciDevice.pirqIdx pirqOf
  congr 1
  omega

theorem BusEffect.interruptPin {next : Machine} {signalled : Option Nat}
    (effect : BusEffect m signalled next) (endpoint : Nat)
    : (next.endpoints endpoint).interruptPin = (m.endpoints endpoint).interruptPin := by
  have update : ∀ {target : Nat} {dev : PciDevice},
      dev.interruptPin = (m.endpoints target).interruptPin →
      (update m.endpoints target dev endpoint).interruptPin
        = (m.endpoints endpoint).interruptPin := by
    intro target dev same
    by_cases here : endpoint = target
    · subst here
      rw [update_self, same]
    · rw [update_of_ne here]
  cases effect with
  | quiet => rfl
  | prepared _ stays => exact update stays.pin
  | attached _ _ _ _ _ pin => exact update pin
  | barAdded => exact update rfl
  | barProbed => exact update rfl
  | barMoved => exact update rfl
  | headerWritten attached =>
    rw [pciWriteHeader_endpoints]
    exact update (PciDevice.writeHeader_remains attached ..).pin
  | irqSet => exact update (pciDeviceSetIrq_remains ..).pin

theorem Machine.Ordered.interruptPin (ordered : m.Ordered) (op : BusOp) (endpoint : Nat)
    : ((op.apply m).endpoints endpoint).interruptPin = (m.endpoints endpoint).interruptPin := by
  rcases op.remove_or with ⟨owner, rfl⟩ | stays
  · simp only [BusOp.apply]
    unfold releaseResources
    split
    · rfl
    · refine resRelease_keeps (fun state : Machine =>
        (state.endpoints endpoint).interruptPin = (m.endpoints endpoint).interruptPin) ?_ _ rfl
      intro cleanup state same
      cases cleanup with
      | ioRegionUnregister => exact same
      | pciUnregister =>
        simp only [runCleanup]
        rw [pciUnregister_endpoints, update_apply]
        split
        next here =>
          rw [← same, here]
          exact (pciDeviceSetIrq_remains false _).pin
        · exact same
  · exact BusEffect.interruptPin (ordered.effect stays) endpoint

theorem run_interruptPin {start : Platform} (ordered : start.machine.Ordered)
    (ops : List BusOp) (endpoint : Nat)
    : ((ops.foldl Platform.apply start).machine.endpoints endpoint).interruptPin
      = (start.machine.endpoints endpoint).interruptPin := by
  have kept : (ops.foldl Platform.apply start).machine.Ordered
      ∧ ((ops.foldl Platform.apply start).machine.endpoints endpoint).interruptPin
        = (start.machine.endpoints endpoint).interruptPin := by
    refine List.foldlRecOn (motive := fun p : Platform => p.machine.Ordered
      ∧ (p.machine.endpoints endpoint).interruptPin
        = (start.machine.endpoints endpoint).interruptPin) ops _ ⟨ordered, rfl⟩ ?_
    intro p before op _
    rw [Platform.apply_machine]
    exact ⟨before.1.apply op, (Machine.Ordered.interruptPin before.1 op endpoint).trans before.2⟩
  exact kept.2

/-- Setting the interrupt of an endpoint calls `accel_set_irq` once with the GSI, high if it asserts
an enabled interrupt.
-/
def SignalsGsi (bus endpoint gsi : Nat) (p : Platform) : Prop :=
  ∀ level, ∃ high, ((p.apply (.setIrq endpoint level)).bridges bus).requests.map pcIrqHandler
      = (gsi, high) :: (p.bridges bus).requests.map pcIrqHandler
    ∧ (level = true → (p.machine.endpoints endpoint).intxDisabled = false → high = true)

theorem signalsGsi {p : Platform} {endpoint : Nat} (wiring : (p.bridges bus).pirq = pcPirq)
    (there : (p.machine.endpoints endpoint).bus = some bus)
    (wired : hasPin (p.machine.endpoints endpoint) = true)
    : SignalsGsi bus endpoint (pcGsi (p.machine.endpoints endpoint)).toNat p := by
  intro level
  obtain ⟨positive, range⟩ := hasPin_iff.mp wired
  have set : pciDeviceSetIrq level (p.machine.endpoints endpoint)
      = { p.machine.endpoints endpoint with
          irqLevel := level
          forwarded := level && !(p.machine.endpoints endpoint).intxDisabled } := by
    simp only [pciDeviceSetIrq, there]
  have inRange : ¬ ((p.machine.endpoints endpoint).interruptPin.toNat = 0
      ∨ (p.machine.endpoints endpoint).interruptPin.toNat > 4) := by omega
  refine ⟨WordSet.any 4 (WordSet.put
    ((p.bridges bus).asserted (p.machine.endpoints endpoint).pirqIdx)
    (p.machine.endpoints endpoint).devfn.toNat
    (level && !(p.machine.endpoints endpoint).intxDisabled)), ?_, ?_⟩
  · simp only [Platform.apply, BusOp.signals, Platform.signalAny, Platform.signal, BusOp.apply,
      Machine.setEndpoint, update_self, set, there]
    unfold pioBridgeSetIrqCb
    rw [if_neg inRange]
    simp only [wiring]
    rfl
  · rintro rfl enabled
    rw [WordSet.any_iff]
    refine ⟨_, (p.machine.endpoints endpoint).devfn.isLt, ?_⟩
    rw [WordSet.has_put, if_pos rfl, enabled]
    rfl

theorem routed_fields (dev : PciDevice)
    : (routed dev).interruptPin = dev.interruptPin ∧ (routed dev).devfn = dev.devfn
      ∧ hasPin (routed dev) = hasPin dev ∧ (routed dev).pirqIdx = dev.pirqIdx := by
  unfold routed
  split
  · exact ⟨rfl, rfl, rfl, rfl⟩
  · exact ⟨rfl, rfl, rfl, rfl⟩

theorem routed_line {dev : PciDevice} (wired : hasPin dev = true)
    : (routed dev).configSpace pciInterruptLine = pcGsi (routed dev) := by
  have same : pcGsi (routed dev) = pcGsi dev := congrArg pcPirqRouting (routed_fields dev).2.2.2
  rw [same]
  unfold routed
  rw [if_pos wired]
  simp only [update_self]

/-- The endpoint's routes name the GSI that the guest reads from its interrupt line register, and
that `accel_set_irq` receives when it asserts, as long as it stays on the bus.
-/
structure EndpointRouted (bus endpoint : Nat) (gsi : BitVec 8) (entries : List MpEntry)
    (p : Platform)
    : Prop where
  route : ∃ route ∈ mpRoutes 0 entries,
    route.source.toNat = pciSource (p.machine.endpoints endpoint)
  pin : ∀ route ∈ mpRoutes 0 entries,
    route.source.toNat = pciSource (p.machine.endpoints endpoint) → route.pin = gsi
  line : pciBusReadConfig (some bus) (p.machine.endpoints endpoint).devfn
    (.ofNat 8 pciInterruptLine) 1 p.machine = gsi.setWidth 32
  signals : ∀ later : List BusOp,
    ((later.foldl Platform.apply p).machine.endpoints endpoint).bus = some bus →
    ((later.foldl Platform.apply p).machine.endpoints endpoint).devfn
      = (p.machine.endpoints endpoint).devfn →
    SignalsGsi bus endpoint gsi.toNat (later.foldl Platform.apply p)

/-- Everyone agrees on every endpoint with a pin, and ISA interrupts are routed exactly if PCI
leaves their pin.
-/
structure RoutingAgrees (bus : Nat) (entries : List MpEntry) (p : Platform) : Prop where
  endpoints : ∀ endpoint ∈ (p.machine.buses bus).devices,
    1 ≤ (p.machine.endpoints endpoint).interruptPin.toNat →
    (p.machine.endpoints endpoint).interruptPin.toNat ≤ 4 →
    ∃ gsi, EndpointRouted bus endpoint gsi entries p
  isaApart : ∀ isa ∈ mpRoutes 1 entries, ∀ pci ∈ mpRoutes 0 entries, isa.pin ≠ pci.pin
  isaEach : ∀ irq < 16, irq ≠ 2 → (∀ pci ∈ mpRoutes 0 entries, pci.pin.toNat ≠ irq) →
    ∃ route, (mpRoutes 1 entries).filter (fun route => route.source.toNat == irq) = [route]
      ∧ route.pin.toNat = irq

theorem routingAgrees {bus nrVcpus : Nat} {p : Platform} (ordered : p.machine.Ordered)
    (wiring : (p.bridges bus).pirq = pcPirq)
    (routed : ∀ endpoint ∈ (p.machine.buses bus).devices,
      hasPin (p.machine.endpoints endpoint) = true →
      (p.machine.endpoints endpoint).configSpace pciInterruptLine
        = pcGsi (p.machine.endpoints endpoint))
    : RoutingAgrees bus
        (mpEntries nrVcpus ((p.machine.buses bus).devices.map p.machine.endpoints)) p := by
  refine ⟨fun endpoint member positive range => ?_, isa_apart _ _, fun irq => isa_each _ _⟩
  have wired := hasPin_iff.mpr ⟨positive, range⟩
  refine ⟨pcGsi (p.machine.endpoints endpoint), ?_, ?_, ?_, ?_⟩
  · refine ⟨pciRoute (p.machine.endpoints endpoint), ?_, pciRoute_source wired⟩
    rw [mpRoutes_pci]
    refine List.mem_map_of_mem (List.mem_filter.mpr ⟨List.mem_map_of_mem member, wired⟩)
  · intro route isRoute source
    rw [mpRoutes_pci] at isRoute
    obtain ⟨dev, isDevice, rfl⟩ := List.mem_map.mp isRoute
    obtain ⟨isEndpoint, devWired⟩ := List.mem_filter.mp isDevice
    obtain ⟨other, otherMember, rfl⟩ := List.mem_map.mp isEndpoint
    rw [pciRoute_source devWired] at source
    calc (p.machine.endpoints other).configSpace pciInterruptLine
        = pcGsi (p.machine.endpoints other) := routed other otherMember devWired
      _ = pcGsi (p.machine.endpoints endpoint) :=
          congrArg pcPirqRouting (pirqIdx_of_source devWired wired source)
  · have found := findDevice_of_member ordered.topology member
    rw [pciBusReadConfig_byte found _ (by decide), ← routed endpoint member wired]
    rfl
  · intro later there devfn
    have pin := run_interruptPin ordered later endpoint
    have sameLine : (p.machine.endpoints endpoint).pirqIdx
        = ((later.foldl Platform.apply p).machine.endpoints endpoint).pirqIdx := by
      unfold PciDevice.pirqIdx
      rw [pin, devfn]
    have stillWired :
        hasPin ((later.foldl Platform.apply p).machine.endpoints endpoint) = true := by
      unfold hasPin
      rw [pin]
      exact wired
    unfold pcGsi
    rw [sameLine]
    exact signalsGsi ((Platform.run_pirq p later bus).trans wiring) there stillWired

/-- On the PC board, with any endpoints and after any operations on them: a guest that walks the
table in its memory decodes entries that agree with the interrupt routing of the machine.
-/
theorem interrupt_routing_agrees (start : Platform) (fresh : start.Fresh) (bus nrVcpus : Nat)
    (wiring : (start.bridges bus).pirq = pcPirq) (ops : List BusOp) (ram : Nat → Byte)
    (built : (pcInitTables nrVcpus bus (ops.foldl Platform.apply start) ram).1 = .ok ())
    : let memory := (pcInitTables nrVcpus bus (ops.foldl Platform.apply start) ram).2.2
      ∃ entries,
        mpWalk memory (0xf0000 + 16 + 44) (readLe memory ⟨0xf0000 + 16 + 34, 2⟩)
          = some (entries, 0xf0000 + 16 + readLe memory ⟨0xf0000 + 16 + 4, 2⟩)
        ∧ RoutingAgrees bus entries
          (pcInitTables nrVcpus bus (ops.foldl Platform.apply start) ram).2.1 := by
  have rewired := (Platform.run_pirq start ops bus).trans wiring
  have ordered := (fresh.run ops).1
  obtain ⟨after, machine⟩ := pcRoutePciIrqs_eq ordered bus
  refine ⟨_, pcBuildMptable_walk (Prod.ext built rfl), routingAgrees after rewired ?_⟩
  intro endpoint member wired
  simp only [machine] at member wired ⊢
  rw [if_pos member] at wired ⊢
  rw [(routed_fields _).2.2.1] at wired
  exact routed_line wired

def pcBoard : Platform where
  machine := { busMachine with memSpace := ⟨[⟨0, 0x100000, 0⟩], 0x100000, 0x1000⟩ }
  bridges := fun _ => ⟨pcPirq, fun _ _ => 0, []⟩

def pcBoardOps : List BusOp :=
  [.registerEndpoint true (some 0) (some 0), .registerEndpoint true (some 0) (some 1)]

/-- The agreement on that board with two processors. The guest decodes routes for the endpoints in
slots 1 and 2, to the second and the third line.
-/
theorem interrupt_routing_agrees_pc
    : let tables := pcInitTables 2 0 (pcBoardOps.foldl Platform.apply pcBoard) fun _ => 0
      let memory := tables.2.2
      pcBoard.Fresh
      ∧ (tables.2.1.machine.buses 0).devices = [0, 1]
      ∧ (tables.2.1.machine.endpoints 1).configSpace pciInterruptLine = 10
      ∧ ∃ entries,
        mpWalk memory (0xf0000 + 16 + 44) (readLe memory ⟨0xf0000 + 16 + 34, 2⟩)
          = some (entries, 0xf0000 + 16 + readLe memory ⟨0xf0000 + 16 + 4, 2⟩)
        ∧ (mpRoutes 0 entries).map (fun route => (route.source.toNat, route.pin))
          = [(4, 9), (8, 10)]
        ∧ RoutingAgrees 0 entries tables.2.1 := by
  have fresh : pcBoard.Fresh :=
    ⟨⟨fun _ => rfl, fun _ => rfl, fun _ => rfl, fun _ _ _ => rfl, fun _ _ => nofun,
      fun _ _ => nofun, fun _ _ => nofun⟩, fun _ _ _ => rfl, fun _ => rfl⟩
  obtain ⟨entries, walked, agrees⟩ :=
    interrupt_routing_agrees pcBoard fresh 0 2 rfl pcBoardOps (fun _ => 0) (by rfl)
  refine ⟨fresh, by decide +kernel, by decide +kernel, entries, walked, ?_, agrees⟩
  have decoded : (mpWalk (pcInitTables 2 0 (pcBoardOps.foldl Platform.apply pcBoard)
        fun _ => 0).2.2 (0xf0000 + 16 + 44) (readLe (pcInitTables 2 0
        (pcBoardOps.foldl Platform.apply pcBoard) fun _ => 0).2.2 ⟨0xf0000 + 16 + 34, 2⟩)).map
        (fun found => (mpRoutes 0 found.1).map fun route => (route.source.toNat, route.pin))
      = some [(4, 9), (8, 10)] := by decide +kernel
  rw [walked] at decoded
  exact Option.some.inj decoded

end Modvm.Board
