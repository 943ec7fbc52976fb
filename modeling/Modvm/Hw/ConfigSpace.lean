import Modvm.Hw.PciConfig

/-! What the guest can change in a configuration space, and what holds in every one. -/

namespace Modvm.Hw

open Function Modvm.Core Modvm.Lib Modvm.Util

/-- The offset is a byte of an implemented base address register. -/
def PciDevice.BarByte (dev : PciDevice) (off : Nat) : Prop :=
  ∃ index < 6, (dev.bars index).region.isSome ∧ 0x10 + index * 4 ≤ off ∧ off < 0x14 + index * 4

/-- The byte that an access puts at an offset, if it covers it. -/
def coveredByte (offset : Nat) (val : BitVec 32) (size off : Nat) : Option Byte :=
  if offset ≤ off ∧ off < offset + size then some ((val >>> ((off - offset) * 8)).setWidth 8)
  else none

/-- The byte that a guest write brings to an offset of the endpoint: none if the access is not of
1, 2 or 4 aligned bytes, goes to another endpoint or does not cover the offset.
-/
def writtenByte (bus : Option Nat) (devfn offset : BitVec 8) (val : BitVec 32) (size : BitVec 8)
    (m : Machine) (endpoint off : Nat)
    : Option Byte :=
  if (size.toNat = 1 ∨ size.toNat = 2 ∨ size.toNat = 4) ∧ offset.toNat % size.toNat = 0
      ∧ (bus.bind fun bus => pciBusFindDevice m bus devfn) = some endpoint then
    coveredByte offset.toNat val size.toNat off
  else none

/-- What a guest write may change, given the bytes that it brings: of the command register the bits
for decoding and bus mastering and the one for INTx, the others being stored as zero; the interrupt
line; and the implemented base address registers.
-/
structure PciDevice.GuestWritable (dev : PciDevice) (written : Nat → Option Byte)
    (next : PciDevice)
    : Prop where
  bytes : ∀ off, off ≠ 4 → off ≠ 5 → off ≠ pciInterruptLine → ¬ dev.BarByte off →
    next.configSpace off = dev.configSpace off
  commandLow : next.configSpace 4 = ((written 4).map (· &&& 6)).getD (dev.configSpace 4)
  commandHigh : next.configSpace 5 = ((written 5).map (· &&& 4)).getD (dev.configSpace 5)
  interruptLine : next.configSpace pciInterruptLine
    = (written pciInterruptLine).getD (dev.configSpace pciInterruptLine)

/-- The command register has no bits but those that the guest may set. -/
def PciDevice.PlainCommand (dev : PciDevice) : Prop :=
  dev.configSpace 4 &&& ~~~6 = 0 ∧ dev.configSpace 5 &&& ~~~4 = 0

/-- The offsets of the header bytes that a guest write stores. -/
def GuestHeaderByte (off : Nat) : Prop :=
  off = 4 ∨ off = 5 ∨ off = pciInterruptLine

section GuestWritable
variable {dev next : PciDevice} {written : Nat → Option Byte}

/-- A write that brings no header byte and changes only implemented base address registers. -/
theorem PciDevice.GuestWritable.of_registers
    (bytes : ∀ off, ¬ dev.BarByte off → next.configSpace off = dev.configSpace off)
    (low : ∀ off, GuestHeaderByte off → ¬ dev.BarByte off)
    (nothing : ∀ off, GuestHeaderByte off → written off = none)
    : dev.GuestWritable written next where
  bytes off _ _ _ outside := bytes off outside
  commandLow := by
    rw [nothing 4 (.inl rfl), bytes 4 (low 4 (.inl rfl))]
    rfl
  commandHigh := by
    rw [nothing 5 (.inr (.inl rfl)), bytes 5 (low 5 (.inr (.inl rfl)))]
    rfl
  interruptLine := by
    rw [nothing _ (.inr (.inr rfl)), bytes _ (low _ (.inr (.inr rfl)))]
    rfl

theorem PciDevice.not_barByte_of_header {off : Nat} (header : GuestHeaderByte off)
    : ¬ dev.BarByte off := by
  rintro ⟨index, inRange, -, low, high⟩
  rcases header with rfl | rfl | rfl
  · omega
  · omega
  · unfold pciInterruptLine at low high
    omega

theorem PciDevice.GuestWritable.of_eq (same : next.configSpace = dev.configSpace)
    (nothing : ∀ off, GuestHeaderByte off → written off = none)
    : dev.GuestWritable written next :=
  .of_registers (fun _ _ => congrFun same _) (fun _ => PciDevice.not_barByte_of_header) nothing

theorem and_and_not_self (byte mask : Byte) : (byte &&& mask) &&& ~~~mask = 0 := by
  rw [BitVec.and_assoc, BitVec.and_not_self]
  exact BitVec.and_zero

/-- A guest write never sets another bit of the command register. -/
theorem PciDevice.GuestWritable.plainCommand (write : dev.GuestWritable written next)
    (plain : dev.PlainCommand)
    : next.PlainCommand := by
  constructor
  · rw [write.commandLow]
    cases written 4 with
    | none => exact plain.1
    | some byte => exact and_and_not_self byte 6
  · rw [write.commandHigh]
    cases written 5 with
    | none => exact plain.2
    | some byte => exact and_and_not_self byte 4

theorem PciDevice.setBar_guestWritable {index base : Nat} {bar : PciBar} (inRange : index < 6)
    (implemented : (dev.bars index).region.isSome)
    (nothing : ∀ off, GuestHeaderByte off → written off = none)
    : dev.GuestWritable written (dev.setBar index bar base) := by
  refine .of_registers (fun off outside => ?_) (fun _ => PciDevice.not_barByte_of_header) nothing
  refine PciDevice.setBarBytes_other _ _ ?_
  by_contra inside
  exact outside ⟨index, inRange, implemented, by omega, by omega⟩

/-- A write to the header stores the command bits that the guest owns and the interrupt line. -/
theorem PciDevice.writeHeader_guestWritable (dev : PciDevice) (offset : Nat) (val : BitVec 32)
    (size : Nat)
    : dev.GuestWritable (coveredByte offset val size) (dev.writeHeader offset val size) := by
  have ⟨config, _⟩ := dev.writeHeader_fields offset val size
  refine ⟨fun off low high line _ => ?_, ?_, ?_, ?_⟩
  · rw [config]
    exact headerBytes_other _ offset val size low high line
  all_goals
    rw [config]
    unfold headerBytes coveredByte
    split
    · rfl
    · rfl

/-- Only the endpoint that a write goes to changes. -/
theorem guestWritable_update {m : Machine} {target : Nat} {dev : PciDevice}
    {written : Nat → Nat → Option Byte}
    (write : (m.endpoints target).GuestWritable (written target) dev)
    (elsewhere : ∀ other, other ≠ target → ∀ off, written other off = none) (endpoint : Nat)
    : (m.endpoints endpoint).GuestWritable (written endpoint)
        (update m.endpoints target dev endpoint) := by
  by_cases here : endpoint = target
  · subst here
    rw [update_self]
    exact write
  · rw [update_of_ne here]
    exact .of_eq rfl fun off _ => elsewhere endpoint here off

end GuestWritable

/-- An access outside the header brings it no byte. -/
theorem coveredByte_header {offset size off : Nat} (val : BitVec 32) (header : GuestHeaderByte off)
    (outside : 0x40 ≤ offset ∨ 0x10 ≤ offset ∧ offset + size ≤ 0x28)
    : coveredByte offset val size off = none := by
  refine if_neg ?_
  rcases header with rfl | rfl | rfl
  · omega
  · omega
  · unfold pciInterruptLine
    omega

/-- An aligned access that starts before a multiple of four ends there at the latest. -/
theorem access_within {offset size : Nat} (words : Nat)
    (sizes : size = 1 ∨ size = 2 ∨ size = 4) (aligned : offset % size = 0)
    (below : offset < words * 4)
    : offset + size ≤ words * 4 := by
  rcases sizes with rfl | rfl | rfl
  · omega
  · omega
  · omega

section Writes
variable (bus : Option Nat) (devfn offset : BitVec 8) (val : BitVec 32) (size : BitVec 8)
  (m : Machine)

/-- Whatever the guest writes, every endpoint changes only as a guest may change it, and stores the
bytes that the write brings. The cases are the branches of `pci_bus_write_config`.
-/
theorem pciBusWriteConfig_guestWritable (endpoint : Nat)
    : (m.endpoints endpoint).GuestWritable (writtenByte bus devfn offset val size m endpoint)
        ((pciBusWriteConfig bus devfn offset val size m).endpoints endpoint) := by
  unfold pciBusWriteConfig
  dsimp only
  split
  · -- no bus
    refine .of_eq rfl fun off _ => if_neg ?_
    rintro ⟨-, -, found⟩
    cases found
  next bus =>
  split
  next refused =>
    refine .of_eq rfl fun off _ => if_neg ?_
    rintro ⟨sizes, aligned, -⟩
    have within := access_within 64 sizes aligned offset.isLt
    omega
  obtain ⟨sizes, aligned⟩ : (size.toNat = 1 ∨ size.toNat = 2 ∨ size.toNat = 4)
      ∧ offset.toNat % size.toNat = 0 := by
    omega
  split
  next absent =>
    refine .of_eq rfl fun off _ => if_neg ?_
    rintro ⟨-, -, found⟩
    cases absent.symm.trans found
  next target found =>
  -- the access is carried out, so it brings its bytes to the target and to no other endpoint
  have brings : writtenByte (some bus) devfn offset val size m target
      = coveredByte offset.toNat val size.toNat :=
    funext fun off => if_pos ⟨sizes, aligned, found⟩
  have elsewhere : ∀ other, other ≠ target → ∀ off,
      writtenByte (some bus) devfn offset val size m other off = none := by
    intro other differs off
    refine if_neg ?_
    rintro ⟨-, -, same⟩
    exact differs (Option.some.inj (same.symm.trans found))
  have unchanged : (∀ off, GuestHeaderByte off → coveredByte offset.toNat val size.toNat off = none)
      → (m.endpoints endpoint).GuestWritable
          (writtenByte (some bus) devfn offset val size m endpoint) (m.endpoints endpoint) := by
    intro nothing
    refine .of_eq rfl fun off header => ?_
    by_cases here : endpoint = target
    · rw [here, brings]
      exact nothing off header
    · exact elsewhere endpoint here off
  split
  next beyond => exact unchanged fun off header => coveredByte_header val header (.inl beyond)
  split
  next window =>
    have nothing : ∀ off, GuestHeaderByte off →
        coveredByte offset.toNat val size.toNat off = none :=
      fun off header => coveredByte_header val header
        (.inr ⟨window.1, access_within 10 sizes aligned window.2⟩)
    have probed : ∀ dev : PciDevice, dev.configSpace = (m.endpoints target).configSpace →
        (m.endpoints endpoint).GuestWritable
          (writtenByte (some bus) devfn offset val size m endpoint)
          (update m.endpoints target dev endpoint) := by
      intro dev same
      refine guestWritable_update ?_ elsewhere endpoint
      rw [brings]
      exact .of_eq same nothing
    unfold pciWriteBar
    dsimp only
    split
    · exact unchanged nothing
    next implemented =>
    split
    · exact probed _ rfl
    split
    · exact probed _ rfl
    split
    · exact probed _ rfl
    · refine guestWritable_update ?_ elsewhere endpoint
      rw [brings]
      refine PciDevice.setBar_guestWritable (by omega) ?_ nothing
      rw [implemented]
      rfl
  · rw [pciWriteHeader_endpoints]
    refine guestWritable_update ?_ elsewhere endpoint
    rw [brings]
    exact PciDevice.writeHeader_guestWritable _ _ _ _

end Writes

/-- The machine is in order: its topology is, and the base address registers agree with their
regions.
-/
structure Machine.Ordered (m : Machine) : Prop where
  topology : Topology m.pools m
  bars : Bars (fun _ => True) m.pools m

section

variable {m : Machine} (ordered : m.Ordered)
include ordered

theorem Machine.Ordered.effect {op : BusOp} (stays : ∀ owner, op ≠ .remove owner)
    : BusEffect m (op.signals m) (op.apply m) :=
  BusOp.effect stays (fun bus endpoint => (ordered.topology.listed bus endpoint).mp)
    ordered.bars.unused

theorem Machine.Ordered.apply (op : BusOp)
    : (op.apply m).Ordered := by
  rcases op.remove_or with ⟨owner, rfl⟩ | stays
  · exact ⟨ordered.topology.release owner, ordered.bars.release ordered.topology owner⟩
  · have effect := ordered.effect stays
    exact ⟨ordered.topology.effect effect, ordered.bars.effect ordered.topology effect⟩

theorem Machine.Ordered.writeConfig (bus : Option Nat) (devfn offset : BitVec 8) (val : BitVec 32)
    (size : BitVec 8)
    : (pciBusWriteConfig bus devfn offset val size m).Ordered :=
  ordered.apply (.writeConfig bus devfn offset val size)

theorem Machine.Ordered.run (ops : List BusOp)
    : (ops.foldl BusOp.apply m).Ordered :=
  List.foldlRecOn (motive := Machine.Ordered) ops _ ordered fun _ before op _ => before.apply op

end

theorem Machine.Fresh.ordered {m : Machine} (fresh : m.Fresh) : m.Ordered :=
  ⟨fresh.topology, fresh.bars⟩

theorem PciDevice.PlainCommand.congr {dev next : PciDevice} (plain : dev.PlainCommand)
    (low : next.configSpace 4 = dev.configSpace 4) (high : next.configSpace 5 = dev.configSpace 5)
    : next.PlainCommand :=
  ⟨low ▸ plain.1, high ▸ plain.2⟩

theorem BusEffect.plainCommand {m next : Machine} {signalled : Option Nat}
    (effect : BusEffect m signalled next) (endpoint : Nat)
    (plain : (m.endpoints endpoint).PlainCommand)
    : (next.endpoints endpoint).PlainCommand := by
  have update : ∀ {target : Nat} {dev : PciDevice},
      ((m.endpoints target).PlainCommand → dev.PlainCommand) →
      (update m.endpoints target dev endpoint).PlainCommand := by
    intro target dev step
    by_cases here : endpoint = target
    · subst here
      rw [update_self]
      exact step plain
    · rw [update_of_ne here]
      exact plain
  have outside : ∀ {dev dev' : PciDevice}, dev.AgreesBesidesInterrupt dev' →
      dev.PlainCommand → dev'.PlainCommand :=
    fun same plain => plain.congr (same 4 (by decide) (by decide)) (same 5 (by decide) (by decide))
  cases effect with
  | quiet => exact plain
  | prepared _ stays => exact update (outside stays.bytes)
  | attached _ _ _ _ _ _ _ _ _ _ bytes => exact update (outside bytes)
  | barAdded =>
    exact update fun plain => plain.congr (PciDevice.setBarBytes_other _ _ (by omega))
      (PciDevice.setBarBytes_other _ _ (by omega))
  | barProbed => exact update id
  | barMoved =>
    exact update fun plain => plain.congr (PciDevice.setBarBytes_other _ _ (by omega))
      (PciDevice.setBarBytes_other _ _ (by omega))
  | headerWritten =>
    rw [pciWriteHeader_endpoints]
    exact update (PciDevice.writeHeader_guestWritable _ _ _ _).plainCommand
  | @irqSet target level =>
    have ⟨config, _⟩ := pciDeviceSetIrq_fields level (m.endpoints target)
    exact update fun plain => plain.congr (congrFun config 4) (congrFun config 5)

theorem releaseResources_plainCommand (owner : Nat) (m : Machine) (endpoint : Nat)
    (plain : (m.endpoints endpoint).PlainCommand)
    : ((releaseResources owner m).endpoints endpoint).PlainCommand := by
  unfold releaseResources
  split
  · exact plain
  · refine resRelease_keeps
      (fun state : Machine => (state.endpoints endpoint).PlainCommand) ?_ _ plain
    intro action state plain
    cases action with
    | ioRegionUnregister => exact plain
    | pciUnregister =>
      simp only [runCleanup]
      rw [pciUnregister_endpoints, update_apply]
      split
      next here =>
        subst here
        obtain ⟨config, -⟩ := pciDeviceSetIrq_fields false (state.endpoints endpoint)
        exact plain.congr (congrFun config 4) (congrFun config 5)
      · exact plain

/-- What holds of every configuration space: endpoint numbers differ, implemented registers agree
with their regions, and a guest write changes no more than the guest may.
-/
structure ConfigSpaceSound (start m : Machine) : Prop where
  numbers : ∀ bus, ((m.buses bus).devices.map fun endpoint => (m.endpoints endpoint).devfn).Nodup
  registers : ∀ endpoint, ∀ index < 6, ∀ handle,
    ((m.endpoints endpoint).bars index).region = some handle →
    ∃ reg, m.ioMap.find handle = some reg ∧ BarAgrees (m.endpoints endpoint) index reg
  writes : ∀ bus devfn offset val size endpoint,
    (m.endpoints endpoint).GuestWritable (writtenByte bus devfn offset val size m endpoint)
      ((pciBusWriteConfig bus devfn offset val size m).endpoints endpoint)
  command : ∀ endpoint, (start.endpoints endpoint).PlainCommand →
    (m.endpoints endpoint).PlainCommand

/-- From a machine without endpoints, any sequence of registrations, removals, guest writes and
interrupts keeps the configuration spaces sound.
-/
theorem config_space_sound (start : Machine) (fresh : start.Fresh) (ops : List BusOp)
    : ConfigSpaceSound start (ops.foldl BusOp.apply start) := by
  have ordered := fresh.ordered.run ops
  refine ⟨fun bus => ?_, fun endpoint => ordered.bars.agrees endpoint trivial, ?_, ?_⟩
  · refine (ordered.topology.nodup bus).map_on fun left onLeft right onRight same => ?_
    exact ordered.topology.devfns bus left right ((ordered.topology.listed bus left).mp onLeft)
      ((ordered.topology.listed bus right).mp onRight) same
  · exact fun bus devfn offset val size =>
      pciBusWriteConfig_guestWritable bus devfn offset val size _
  · intro endpoint plain
    induction ops using List.reverseRecOn with
    | nil => exact plain
    | append_singleton ops op ih =>
      have before := ih (fresh.ordered.run ops)
      rw [List.foldl_append]
      rcases op.remove_or with ⟨owner, rfl⟩ | stays
      · exact releaseResources_plainCommand owner _ endpoint before
      · exact ((fresh.ordered.run ops).effect stays).plainCommand endpoint before

def busMachine : Machine where
  state := .building
  stopRequested := false
  accel := some ⟨true⟩
  memSpace := ⟨[⟨0, 0x10000, 0⟩], 0x10000, 0x1000⟩
  ioMap := ⟨fun _ => [], 0⟩
  devices := fun _ => ⟨true, true, resPoolInit⟩
  endpoints := fun endpoint =>
    ⟨none, some (endpoint + 1), 0xff, 1, false, false, fun _ => ⟨none, false⟩, fun _ => 0⟩
  buses := fun _ => ⟨[], some 0, 0xc0000000, 0xd0000000⟩

/-- Two endpoints with a register each; the guest enables decoding, moves a register by halves,
sizes it and masks INTx; one owner is removed.
-/
def busMachineOps : List BusOp :=
  [.registerEndpoint true (some 0) (some 0),
    .registerBar true true (some 0) 0 0x1000 0xc0000000,
    .registerEndpoint true (some 0) (some 1),
    .registerBar true true (some 1) 2 0x100 0xc0001000,
    .writeConfig (some 0) 8 4 0xffffffff 4,
    .writeConfig (some 0) 8 0x10 0x8000 4,
    .writeConfig (some 0) 8 0x12 0xe000 2,
    .writeConfig (some 0) 16 0x18 0xffffffff 4,
    .setIrq 0 true,
    .writeConfig (some 0) 8 5 0 1,
    .remove 2]

/-- One endpoint is left, its register where the second half-write put it, with decoding and bus
mastering set.
-/
theorem config_space_sound_moved
    : busMachine.Fresh
      ∧ ((busMachineOps.foldl BusOp.apply busMachine).buses 0).devices = [0]
      ∧ (busMachineOps.foldl BusOp.apply busMachine).ioMap.regions .mmio
        = [⟨0, 1, 0xe0000000, 0x1000, .mmio, true⟩]
      ∧ readBytes ((busMachineOps.foldl BusOp.apply busMachine).endpoints 0).configSpace 4 2
        = [6, 0]
      ∧ readBytes ((busMachineOps.foldl BusOp.apply busMachine).endpoints 0).configSpace 0x10 4
        = [0, 0, 0, 0xe0]
      ∧ ConfigSpaceSound busMachine (busMachineOps.foldl BusOp.apply busMachine) := by
  have fresh : busMachine.Fresh :=
    ⟨fun _ => rfl, fun _ => rfl, fun _ => rfl, fun _ _ _ => rfl, fun _ _ => nofun, fun _ _ => nofun,
      fun _ _ => nofun⟩
  refine ⟨fresh, ?_, ?_, ?_, ?_, config_space_sound busMachine fresh busMachineOps⟩
  · decide +kernel
  · decide +kernel
  · decide +kernel
  · decide +kernel

end Modvm.Hw
