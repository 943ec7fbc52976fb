import Modvm.Board.MpTable
import Modvm.Lib.Bits

/-! The interrupt routes among the entries of the MP table. -/

namespace Modvm.Board

open Modvm.Core Modvm.Hw Modvm.Lib

theorem hasPin_iff {dev : PciDevice}
    : hasPin dev = true ↔ dev.interruptPin.toNat > 0 ∧ dev.interruptPin.toNat ≤ 4 := by
  have zero : dev.interruptPin = 0 ↔ dev.interruptPin.toNat = 0 := BitVec.toNat_eq
  unfold hasPin
  rw [Bool.and_eq_true, bne_iff_ne, decide_eq_true_eq, Ne, zero]
  omega

/-- The loop collects the routes of endpoints with a pin and the ISA interrupts in use, by induction
from the last.
-/
theorem pciRoutes_eq (devices : List PciDevice)
    : (pciRoutes devices).1 = (devices.filter hasPin).map pciRoute
      ∧ ∀ irq, (pciRoutes devices).2.getLsbD irq = true
        ↔ irq < 16 ∧ ∃ route ∈ (pciRoutes devices).1, route.pin.toNat = irq := by
  induction devices using List.reverseRecOn with
  | nil => simp [pciRoutes]
  | append_singleton devices dev ih =>
    have step : pciRoutes (devices ++ [dev])
        = if !hasPin dev then pciRoutes devices
          else ((pciRoutes devices).1 ++ [pciRoute dev],
            if (dev.configSpace pciInterruptLine).toNat < 16 then
              (pciRoutes devices).2 ||| 1#16 <<< (dev.configSpace pciInterruptLine).toNat
            else (pciRoutes devices).2) := by
      unfold pciRoutes
      rw [List.foldl_append]
      rfl
    obtain ⟨routes, used⟩ := ih
    rw [step]
    cases wired : hasPin dev with
    | false => simpa [wired] using ⟨routes, used⟩
    | true =>
      refine ⟨by simp [routes, wired], fun irq => ?_⟩
      have line : (pciRoute dev).pin = dev.configSpace pciInterruptLine := rfl
      simp only [Bool.not_true, Bool.false_eq_true, if_false, List.mem_append,
        List.mem_singleton, or_and_right, exists_or, exists_eq_left, line, and_or_left,
        ← used irq]
      generalize (dev.configSpace pciInterruptLine).toNat = number
      split
      next low =>
        have bit : (1#16 <<< number).getLsbD irq = decide (number = irq) := by
          rw [← BitVec.twoPow_eq]
          simp [low]
        rw [BitVec.getLsbD_or, Bool.or_eq_true]
        refine or_congr_right ?_
        exact (bit ▸ decide_eq_true_iff).trans ⟨fun same => ⟨same ▸ low, same⟩, And.right⟩
      next high =>
        refine (or_iff_left ?_).symm
        omega

/-- The interrupt routes in a table that come from a bus. -/
def mpRoutes (bus : Byte) (entries : List MpEntry) : List MpIrq :=
  entries.filterMap fun
    | .irq route => if route.type = 3 ∧ route.bus = bus then some route else none
    | _ => none

theorem mpRoutes_mpEntries (bus : Byte) (nrVcpus : Nat) (devices : List PciDevice)
    : mpRoutes bus (mpEntries nrVcpus devices)
      = (pciRoutes devices).1.filter (fun route => decide (route.type = 3 ∧ route.bus = bus))
        ++ (isaRoutes (pciRoutes devices).2).filter fun route =>
          decide (route.type = 3 ∧ route.bus = bus) := by
  have picked : ∀ routes : List MpIrq, mpRoutes bus (routes.map .irq)
      = routes.filter fun route => decide (route.type = 3 ∧ route.bus = bus) := by
    simp only [mpRoutes]
    rw [← List.filterMap_eq_filter]
    simp [Option.guard]
  have cpus : mpRoutes bus ((List.range nrVcpus).map fun i => .cpu (mpCpu i)) = [] := by
    simp [mpRoutes]
  have append : ∀ left right,
      mpRoutes bus (left ++ right) = mpRoutes bus left ++ mpRoutes bus right :=
    fun left right => List.filterMap_append
  unfold mpEntries
  rw [append, append, append, picked, picked]
  simp [mpRoutes]

variable (nrVcpus : Nat) (devices : List PciDevice)

theorem mpRoutes_pci
    : mpRoutes 0 (mpEntries nrVcpus devices) = (devices.filter hasPin).map pciRoute := by
  have kept : ((devices.filter hasPin).map pciRoute).filter
      (fun route => decide (route.type = 3 ∧ route.bus = 0))
      = (devices.filter hasPin).map pciRoute := by
    refine List.filter_eq_self.mpr fun route member => ?_
    obtain ⟨dev, -, rfl⟩ := List.mem_map.mp member
    rfl
  have dropped : (isaRoutes (pciRoutes devices).2).filter
      (fun route => decide (route.type = 3 ∧ route.bus = 0)) = [] := by
    refine List.filter_eq_nil_iff.mpr fun route member => ?_
    obtain ⟨irq, -, rfl⟩ := List.mem_map.mp member
    simp [isaRoute]
  rw [mpRoutes_mpEntries, (pciRoutes_eq devices).1, kept, dropped, List.append_nil]

theorem mpRoutes_isa
    : mpRoutes 1 (mpEntries nrVcpus devices) = isaRoutes (pciRoutes devices).2 := by
  have dropped : ((devices.filter hasPin).map pciRoute).filter
      (fun route => decide (route.type = 3 ∧ route.bus = 1)) = [] := by
    refine List.filter_eq_nil_iff.mpr fun route member => ?_
    obtain ⟨dev, -, rfl⟩ := List.mem_map.mp member
    simp [pciRoute]
  have kept : (isaRoutes (pciRoutes devices).2).filter
      (fun route => decide (route.type = 3 ∧ route.bus = 1))
      = isaRoutes (pciRoutes devices).2 := by
    refine List.filter_eq_self.mpr fun route member => ?_
    obtain ⟨irq, -, rfl⟩ := List.mem_map.mp member
    rfl
  rw [mpRoutes_mpEntries, (pciRoutes_eq devices).1, kept, dropped, List.nil_append]

def pciSource (dev : PciDevice) : Nat :=
  pciSlot dev.devfn * 4 + (dev.interruptPin.toNat - 1)

theorem pciRoute_source {dev : PciDevice} (wired : hasPin dev = true)
    : (pciRoute dev).source.toNat = pciSource dev := by
  obtain ⟨positive, range⟩ := hasPin_iff.mp wired
  have slot : pciSlot dev.devfn < 32 := by
    unfold pciSlot
    omega
  have pin : (dev.interruptPin - 1).toNat = dev.interruptPin.toNat - 1 := by
    rw [BitVec.toNat_sub_of_le]
    · rfl
    · exact positive
  unfold pciSource
  simp only [pciRoute, BitVec.toNat_or, BitVec.toNat_shiftLeft, BitVec.toNat_ofNat, pin]
  rw [Nat.mod_eq_of_lt (by omega : pciSlot dev.devfn < 2 ^ 8), Nat.mod_eq_of_lt,
    ← Nat.shiftLeft_add_eq_or_of_lt (by omega), Nat.shiftLeft_eq]
  omega

theorem isaRoutes_eq (pciIrqs : BitVec 16)
    : isaRoutes pciIrqs
      = ((List.range 16).filter fun irq => decide (irq ≠ 2) && !pciIrqs.getLsbD irq).map
        isaRoute := by
  unfold isaRoutes
  congr 1
  refine List.filter_congr fun irq member => ?_
  have bit := and_twoPow_bne_zero pciIrqs (List.mem_range.mp member)
  rw [BitVec.twoPow_eq] at bit
  rw [bit]
  by_cases cascade : irq = 2
  · simp [cascade]
  · simp [cascade]

theorem isa_apart
    : ∀ isa ∈ mpRoutes 1 (mpEntries nrVcpus devices),
        ∀ pci ∈ mpRoutes 0 (mpEntries nrVcpus devices), isa.pin ≠ pci.pin := by
  intro isa isaMember pci pciMember same
  obtain ⟨routes, used⟩ := pciRoutes_eq devices
  rw [mpRoutes_isa, isaRoutes_eq] at isaMember
  obtain ⟨irq, unused, rfl⟩ := List.mem_map.mp isaMember
  simp only [List.mem_filter, List.mem_range, Bool.and_eq_true, Bool.not_eq_true'] at unused
  obtain ⟨low, -, free⟩ := unused
  rw [mpRoutes_pci, ← routes] at pciMember
  have pin : pci.pin.toNat = irq := by
    rw [← same]
    exact Nat.mod_eq_of_lt (by omega)
  have set := (used irq).mpr ⟨low, pci, pciMember, pin⟩
  rw [free] at set
  cases set

theorem isa_each {irq : Nat} (low : irq < 16) (notCascade : irq ≠ 2)
    (unused : ∀ pci ∈ mpRoutes 0 (mpEntries nrVcpus devices), pci.pin.toNat ≠ irq)
    : ∃ route, (mpRoutes 1 (mpEntries nrVcpus devices)).filter
        (fun route => route.source.toNat == irq) = [route]
      ∧ route.pin.toNat = irq := by
  obtain ⟨routes, used⟩ := pciRoutes_eq devices
  have free : (pciRoutes devices).2.getLsbD irq = false := by
    rw [Bool.eq_false_iff]
    intro set
    obtain ⟨-, pci, member, pin⟩ := (used irq).mp set
    rw [routes] at member
    exact unused pci (mpRoutes_pci nrVcpus devices ▸ member) pin
  refine ⟨isaRoute irq, ?_, Nat.mod_eq_of_lt (by omega)⟩
  have single : (List.range 16).filter (fun other => other == irq) = [irq] := by
    rw [List.filter_beq, List.count_eq_one_of_mem List.nodup_range (List.mem_range.mpr low)]
    rfl
  rw [mpRoutes_isa, isaRoutes_eq, List.filter_map, List.filter_filter]
  refine (congrArg (List.map isaRoute) ?_).trans (congrArg (List.map isaRoute) single)
  refine List.filter_congr fun other member => ?_
  have small := List.mem_range.mp member
  have source : (isaRoute other).source.toNat = other := Nat.mod_eq_of_lt (by omega)
  by_cases here : other = irq
  · subst here
    simp [source, free, notCascade]
  · simp [source, here]

end Modvm.Board
