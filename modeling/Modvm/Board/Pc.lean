import Modvm.Board.MpTable
import Modvm.Hw.PioBridge
import Mathlib.Data.Fin.VecNotation

/-! The interrupt wiring of the PC board: the lines of its PCI bridge, and the tables that tell
the guest about them.
-/

namespace Modvm.Board

open Modvm.Core Modvm.Hw Modvm.Lib

def pcPirqRouting : Fin 4 → BitVec 8 := ![5, 9, 10, 11]

/-- The interrupts of the bridge's lines, by the GSI that `pc_irq_handler` passes to
`accel_set_irq`.
-/
def pcPirq (line : Fin 4) : Option Nat := some (pcPirqRouting line).toNat

def pcIrqHandler (request : IrqRequest) : Nat × Bool := (request.irq, request.level)

/-- One round of `pc_route_pci_irqs`. -/
def pcRoutePciIrq (bus : Nat) (m : Machine) (pos : Nat) : Machine :=
  let devfn := (m.endpoints pos).devfn
  let pin := (pciBusReadConfig (some bus) devfn (.ofNat 8 pciInterruptPin) 1 m).setWidth 8
  if pin.toNat > 0 ∧ pin.toNat ≤ 4 then
    let irqLine := pcPirqRouting (pirqOf (pciSlot devfn) pin.toNat)
    pciBusWriteConfig (some bus) devfn (.ofNat 8 pciInterruptLine) (irqLine.setWidth 32) 1 m
  else m

def pcRoutePciIrqs (bus : Nat) (m : Machine) : Machine :=
  (m.buses bus).devices.foldl (pcRoutePciIrq bus) m

/-- `pc_init` once the devices are on the root bus: route their interrupts, build the table. -/
def pcInitTables (nrVcpus : Nat) (bus : Nat) (p : Platform) (ram : Nat → Byte)
    : Except VmError Unit × Platform × (Nat → Byte) :=
  let p := { p with machine := pcRoutePciIrqs bus p.machine }
  let (result, ram) := pcBuildMptable nrVcpus bus p.machine ram
  (result, p, ram)

end Modvm.Board
