import Modvm.Hw.Pci

/-! The MP table that the PC board builds for the guest. -/

namespace Modvm.Board

open Modvm.Core Modvm.Hw Modvm.Lib

def mpBase : Nat := 0xf0000

def mpBiosSize : Nat := 0x10000

def pcMaxVcpus : Nat := 254

def mpIoapicId : Nat := pcMaxVcpus

/-- `MP_INT_PCI`: active low, level triggered. -/
def mpIntPci : BitVec 16 := 0xf

/-- `MP_INT_ISA`: active high, edge triggered. -/
def mpIntIsa : BitVec 16 := 5

/-- The bytes of a C string without its end. -/
def ascii (text : String) : List Byte := text.toList.map fun char => .ofNat 8 char.toNat

/-- `struct mp_cpu`; its type and its reserved words are zero. -/
structure MpCpu where
  id : Byte
  version : Byte
  flags : Byte
  signature : Nat
  features : Nat
deriving DecidableEq, Repr

/-- `struct mp_bus`, whose type is 1. -/
structure MpBus where
  id : Byte
  name : String
deriving DecidableEq, Repr

/-- `struct mp_ioapic`, whose type is 2. -/
structure MpIoapic where
  id : Byte
  version : Byte
  flags : Byte
  address : Nat
deriving DecidableEq, Repr

/-- `struct mp_irq`; its type tells I/O interrupts (3) and local interrupts (4) apart. -/
structure MpIrq where
  type : Byte
  interruptType : Byte
  flags : BitVec 16
  bus : Byte
  source : Byte
  destination : Byte
  pin : Byte
deriving DecidableEq, Repr

inductive MpEntry where
  | cpu (entry : MpCpu)
  | bus (entry : MpBus)
  | ioapic (entry : MpIoapic)
  | irq (entry : MpIrq)
deriving DecidableEq, Repr

def MpEntry.encode : MpEntry → List Byte
  | .cpu entry => [0, entry.id, entry.version, entry.flags] ++ toLe 4 entry.signature
      ++ toLe 4 entry.features ++ List.replicate 8 0
  | .bus entry => [1, entry.id] ++ ascii entry.name
  | .ioapic entry => [2, entry.id, entry.version, entry.flags] ++ toLe 4 entry.address
  | .irq entry => [entry.type, entry.interruptType] ++ toLe 2 entry.flags.toNat
      ++ [entry.bus, entry.source, entry.destination, entry.pin]

/-- `checksum`: what makes the sum of the bytes zero. -/
def checksum (bytes : List Byte) : Byte := -(bytes.foldl (· + ·) 0)

def hasPin (dev : PciDevice) : Bool := dev.interruptPin != 0 && decide (dev.interruptPin.toNat ≤ 4)

def mpCpu (i : Nat) : MpCpu := ⟨.ofNat 8 i, 0x14, if i = 0 then 3 else 1, 0x600, 0x201⟩

def pciRoute (dev : PciDevice) : MpIrq where
  type := 3
  interruptType := 0
  flags := mpIntPci
  bus := 0
  source := (BitVec.ofNat 8 (pciSlot dev.devfn) <<< 2) ||| (dev.interruptPin - 1)
  destination := .ofNat 8 mpIoapicId
  pin := dev.configSpace pciInterruptLine

/-- The loop over the endpoints: the routes so far, and the set of ISA interrupts that they use. -/
def pciRoutes (devices : List PciDevice) : List MpIrq × BitVec 16 :=
  devices.foldl
    (fun (routes, pciIrqs) dev =>
      let irq := (dev.configSpace pciInterruptLine).toNat
      if !hasPin dev then (routes, pciIrqs)
      else (routes ++ [pciRoute dev], if irq < 16 then pciIrqs ||| 1#16 <<< irq else pciIrqs))
    ([], 0)

def isaRoute (irq : Nat) : MpIrq :=
  ⟨3, 0, mpIntIsa, 1, .ofNat 8 irq, .ofNat 8 mpIoapicId, .ofNat 8 irq⟩

/-- The loop over the ISA interrupts, without the cascade and those that PCI routes use. -/
def isaRoutes (pciIrqs : BitVec 16) : List MpIrq :=
  ((List.range 16).filter fun irq => !(irq == 2 || pciIrqs &&& 1#16 <<< irq != 0)).map isaRoute

def mpEntries (nrVcpus : Nat) (devices : List PciDevice) : List MpEntry :=
  let (routes, pciIrqs) := pciRoutes devices
  ((List.range nrVcpus).map fun i => .cpu (mpCpu i))
    ++ [.bus ⟨0, "PCI   "⟩, .bus ⟨1, "ISA   "⟩, .ioapic ⟨.ofNat 8 mpIoapicId, 0x11, 1, 0xfec00000⟩]
    ++ routes.map .irq ++ (isaRoutes pciIrqs).map .irq ++ [.irq ⟨4, 1, 0, 1, 0, 0xff, 1⟩]

/-- `struct mp_header` with the given checksum, for entries that take `length` bytes. -/
def mpHeader (checksum : Byte) (length entries : Nat) : List Byte :=
  ascii "PCMP" ++ toLe 2 (44 + length) ++ [4, checksum] ++ ascii "MODVM   "
    ++ ascii "MODVM PC    " ++ toLe 4 0 ++ toLe 2 0 ++ toLe 2 entries ++ toLe 4 0xfee00000
    ++ toLe 2 0 ++ [0, 0]

def mpFloat (checksum : Byte) : List Byte :=
  ascii "_MP_" ++ toLe 4 (mpBase + 16) ++ [1, 4, checksum] ++ List.replicate 5 0

/-- The pointer structure, the header and the entries; checksums are computed over zeroed fields. -/
def mpTable (entries : List MpEntry) : List Byte :=
  let body := entries.flatMap MpEntry.encode
  let header := fun sum => mpHeader sum body.length entries.length
  mpFloat (checksum (mpFloat 0)) ++ header (checksum (header 0 ++ body)) ++ body

/-- `pc_build_mptable`, for the endpoints of the bus and the guest memory before. -/
def pcBuildMptable (nrVcpus : Nat) (bus : Nat) (m : Machine) (ram : Nat → Byte)
    : Except VmError Unit × (Nat → Byte) :=
  if nrVcpus = 0 ∨ nrVcpus > mpIoapicId then (.error .einval, ram)
  else
    let devices := (m.buses bus).devices.map m.endpoints
    let routes := devices.countP hasPin
    let size := 16 + 44 + nrVcpus * 20 + 2 * 8 + 8 + (routes + 16 + 1) * 8
    if size > mpBiosSize then (.error .enospc, ram)
    else
      match memMapRange m.memSpace mpBase size true with
      | none => (.error .enospc, ram)
      | some fp =>
          -- The space is reserved for 16 ISA routes; what is not used of it stays zero.
          let ram := writeBytes ram fp.gpa (List.replicate size 0)
          (.ok (), writeBytes ram fp.gpa (mpTable (mpEntries nrVcpus devices)))

end Modvm.Board
