import Modvm.Hw.PciEffects
import Modvm.Lib.WordSet

/-! The PIO host bridge: four interrupt lines that the endpoints of its bus share, and the machine
together with the bridges of its buses.
-/

namespace Modvm.Hw

open Modvm.Core Modvm.Lib Modvm.Util

structure IrqRequest where
  line : Fin 4
  irq : Nat
  level : Bool
deriving DecidableEq, Repr

/-- The interrupt part of `struct pio_bridge_ctx`, with its requests, newest first. -/
structure PioBridge where
  pirq : Fin 4 → Option Nat
  asserted : Fin 4 → Nat → BitVec 64
  requests : List IrqRequest

def PioBridge.level (bridge : PioBridge) (line : Fin 4) : Bool :=
  match bridge.requests.find? fun request => request.line == line with
  | none => false
  | some request => request.level

abbrev pirqOf (slot pin : Nat) : Fin 4 := Fin.ofNat 4 (slot + pin - 1)

def PciDevice.pirqIdx (dev : PciDevice) : Fin 4 :=
  pirqOf (pciSlot dev.devfn) dev.interruptPin.toNat

def pioBridgeSetIrqCb (dev : PciDevice) (level : Bool) (bridge : PioBridge) : PioBridge :=
  if dev.interruptPin.toNat = 0 ∨ dev.interruptPin.toNat > 4 then bridge
  else
    let asserted := WordSet.put (bridge.asserted dev.pirqIdx) dev.devfn.toNat level
    let bridge := { bridge with
      asserted := Function.update bridge.asserted dev.pirqIdx asserted }
    match bridge.pirq dev.pirqIdx with
    | none => bridge
    | some irq =>
        { bridge with
          requests := ⟨dev.pirqIdx, irq, WordSet.any 4 asserted⟩ :: bridge.requests }

/-- A machine whose buses have PIO bridges. -/
structure Platform where
  machine : Machine
  bridges : Nat → PioBridge

namespace Platform

def signal (endpoint : Nat) (p : Platform) : Platform :=
  let dev := p.machine.endpoints endpoint
  match dev.bus with
  | none => p
  | some bus =>
      { p with
        bridges := Function.update p.bridges bus
          (pioBridgeSetIrqCb dev dev.forwarded (p.bridges bus)) }

def signalAny (endpoint : Option Nat) (p : Platform) : Platform :=
  match endpoint with
  | none => p
  | some endpoint => p.signal endpoint

def setIrq (endpoint : Nat) (level : Bool) (p : Platform) : Platform :=
  signal endpoint
    { p with
      machine := p.machine.setEndpoint endpoint
        (pciDeviceSetIrq level (p.machine.endpoints endpoint)) }

def unregister (endpoint : Nat) (p : Platform) : Platform :=
  { p.setIrq endpoint false with machine := pciUnregister endpoint p.machine }

def runCleanup (cleanup : Cleanup) (p : Platform) : Platform :=
  match cleanup with
  | .ioRegionUnregister _ => { p with machine := Hw.runCleanup cleanup p.machine }
  | .pciUnregister endpoint => p.unregister endpoint

def releaseResources (dev : Nat) (p : Platform) : Platform :=
  if (p.machine.devices dev).resources.releasing then p
  else
    let p := resRelease runCleanup (p.machine.devices dev).resources.resources.reverse p
    { p with machine := p.machine.setVm (p.machine.toVmCtx.setResources dev resPoolInit) }

def apply (p : Platform) (op : BusOp) : Platform :=
  match op with
  | .remove owner => p.releaseResources owner
  | op => signalAny (op.signals p.machine) { p with machine := op.apply p.machine }

@[simp]
theorem signal_machine (endpoint : Nat) (p : Platform)
    : (p.signal endpoint).machine = p.machine := by
  unfold signal
  dsimp only
  split
  · rfl
  · rfl

theorem runCleanup_machine (cleanup : Cleanup) (p : Platform)
    : (p.runCleanup cleanup).machine = Hw.runCleanup cleanup p.machine := by
  cases cleanup with
  | ioRegionUnregister => rfl
  | pciUnregister => rfl

theorem resRelease_machine (actions : List (Option Cleanup)) (p : Platform)
    : (resRelease runCleanup actions p).machine = resRelease Hw.runCleanup actions p.machine := by
  induction actions generalizing p with
  | nil => rfl
  | cons action rest ih =>
    cases action with
    | none => exact ih p
    | some =>
      unfold resRelease
      rw [ih, runCleanup_machine]

theorem apply_machine (p : Platform) (op : BusOp) : (p.apply op).machine = op.apply p.machine := by
  rcases op.remove_or with ⟨owner, rfl⟩ | stays
  · simp only [apply, releaseResources, BusOp.apply, Hw.releaseResources]
    split
    · rfl
    · rw [resRelease_machine]
  · unfold apply
    split
    next owner => exact absurd rfl (stays owner)
    · unfold signalAny
      split
      · rfl
      · exact signal_machine _ _

end Platform

end Modvm.Hw
