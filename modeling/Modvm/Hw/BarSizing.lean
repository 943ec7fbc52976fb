import Modvm.Hw.Dispatch
import Modvm.Hw.Reachable

/-! How the guest sizes a base address register, and that it leaves no trace. -/

namespace Modvm.Hw

open Function Modvm.Core Modvm.Lib Modvm.Util

/-! ### The sequence of the guest -/

def readBar (bus : Nat) (devfn : BitVec 8) (index : Nat) (m : Machine) : BitVec 32 :=
  pciBusReadConfig (some bus) devfn (.ofNat 8 (0x10 + index * 4)) 4 m

def writeBar (bus : Nat) (devfn : BitVec 8) (index : Nat) (val : BitVec 32) (m : Machine)
    : Machine :=
  pciBusWriteConfig (some bus) devfn (.ofNat 8 (0x10 + index * 4)) val 4 m

structure Sizing where
  value : BitVec 32
  probing : Machine
  mask : BitVec 32
  after : Machine

def sizeBar (bus : Nat) (devfn : BitVec 8) (index : Nat) (m : Machine) : Sizing :=
  let value := readBar bus devfn index m
  let probing := writeBar bus devfn index (.allOnes 32) m
  { value := value
    probing := probing
    mask := readBar bus devfn index probing
    after := writeBar bus devfn index value probing }

/-- Sizing gives the size of the region and has no other effect; dispatch goes on, and partial reads
give parts of the mask.
-/
structure Transparent (bus : Nat) (dev : PciDevice) (index : Nat) (m : Machine) (sizing : Sizing)
    : Prop where
  implemented : ∀ handle, (dev.bars index).region = some handle →
    ∃ reg, m.ioMap.find handle = some reg ∧ sizing.mask.toNat = 2 ^ 32 - reg.size
  restored : sizing.after = m
  reads : ∀ (σ : Type) (ops : Nat → DeviceOps σ) type addr size s,
    ioMapRead ops sizing.probing.ioMap type addr size s = ioMapRead ops m.ioMap type addr size s
  writes : ∀ (σ : Type) (ops : Nat → DeviceOps σ) type addr val size s,
    ioMapWrite ops sizing.probing.ioMap type addr val size s
      = ioMapWrite ops m.ioMap type addr val size s
  slices : ∀ start size, size ∈ [1, 2, 4] → start % size = 0 → start + size ≤ 4 →
    pciBusReadConfig (some bus) dev.devfn (.ofNat 8 (0x10 + index * 4 + start)) (.ofNat 8 size)
        sizing.probing
      = ((sizing.mask >>> (start * 8)).setWidth (size * 8)).setWidth 32

/-! ### Accesses to a register -/

section Accesses
variable {m : Machine} {bus endpoint index : Nat} {devfn : BitVec 8}

section

variable (found : pciBusFindDevice m bus devfn = some endpoint) (inRange : index < 6)
include found inRange

theorem pciBusReadConfig_bar {start size : Nat} (width : size ∈ [1, 2, 4])
    (aligned : start % size = 0) (inside : start + size ≤ 4)
    : pciBusReadConfig (some bus) devfn (.ofNat 8 (0x10 + index * 4 + start)) (.ofNat 8 size) m
      = joinBytes 32 (fun i =>
        readConfigByte m (m.endpoints endpoint) (0x10 + index * 4 + (start + i))) size := by
  have offset : (BitVec.ofNat 8 (0x10 + index * 4 + start)).toNat = 0x10 + index * 4 + start := by
    rw [BitVec.toNat_ofNat]
    omega
  have bytes : (BitVec.ofNat 8 size).toNat = size := by
    rw [BitVec.toNat_ofNat]
    omega
  have valid : ¬ ((size ≠ 1 ∧ size ≠ 2 ∧ size ≠ 4) ∨ (0x10 + index * 4 + start) % size ≠ 0
      ∨ 0x10 + index * 4 + start + size > 256) := by
    simp only [List.mem_cons, List.not_mem_nil, or_false] at width
    rcases width with rfl | rfl | rfl
    · omega
    · omega
    · omega
  unfold pciBusReadConfig joinBytes
  simp only [offset, bytes, if_neg valid, found]
  simp only [Nat.add_assoc]

theorem readBar_eq
    : readBar bus devfn index m
      = joinBytes 32 (fun i =>
        readConfigByte m (m.endpoints endpoint) (0x10 + index * 4 + i)) 4 := by
  have read := pciBusReadConfig_bar found inRange (show 4 ∈ [1, 2, 4] by decide)
    (show 0 % 4 = 0 from rfl) (by decide)
  exact read

theorem pciBusReadConfig_slice {start size : Nat} (width : size ∈ [1, 2, 4])
    (aligned : start % size = 0) (inside : start + size ≤ 4)
    : pciBusReadConfig (some bus) devfn (.ofNat 8 (0x10 + index * 4 + start)) (.ofNat 8 size) m
      = ((readBar bus devfn index m >>> (start * 8)).setWidth (size * 8)).setWidth 32 := by
  rw [pciBusReadConfig_bar found inRange width aligned inside, readBar_eq found inRange]
  exact joinBytes_slice (fun i => readConfigByte m (m.endpoints endpoint) (0x10 + index * 4 + i))
    inside rfl

theorem readBar_idle
    (idle : ((m.endpoints endpoint).bars index).region = none
      ∨ ((m.endpoints endpoint).bars index).probe = false)
    : readBar bus devfn index m
      = joinBytes 32 (fun i => (m.endpoints endpoint).configSpace (0x10 + index * 4 + i)) 4 := by
  rw [readBar_eq found inRange]
  refine joinBytes_congr fun i small => ?_
  have here : (0x10 + index * 4 + i - 0x10) / 4 = index := by omega
  unfold readConfigByte
  dsimp only
  rw [here, if_pos (by omega)]
  rcases idle with empty | still
  · rw [empty]
    rfl
  · rw [still]
    split
    next probing => cases probing
    · rfl

theorem readBar_probing {handle : Nat} {reg : IoRegion}
    (implemented : ((m.endpoints endpoint).bars index).region = some handle)
    (lookup : m.ioMap.find handle = some reg)
    (probing : ((m.endpoints endpoint).bars index).probe = true)
    : readBar bus devfn index m = ~~~ BitVec.ofNat 32 (reg.size - 1) := by
  rw [readBar_eq found inRange]
  refine Eq.trans (joinBytes_congr fun i small => ?_)
    (joinBytes_word (n := 4) (~~~ BitVec.ofNat 32 (reg.size - 1)) rfl)
  have here : (0x10 + index * 4 + i - 0x10) / 4 = index := by omega
  have byte : (0x10 + index * 4 + i) % 4 = i := by omega
  unfold readConfigByte
  dsimp only
  rw [here, if_pos (by omega), implemented, probing, Option.bind_some, lookup, byte]

theorem writeBar_eq (val : BitVec 32)
    : writeBar bus devfn index val m = pciWriteBar endpoint (0x10 + index * 4) val 4 m := by
  have offset : (BitVec.ofNat 8 (0x10 + index * 4)).toNat = 0x10 + index * 4 := by
    rw [BitVec.toNat_ofNat]
    omega
  have bytes : (4 : BitVec 8).toNat = 4 := rfl
  unfold writeBar pciBusWriteConfig
  simp only [offset, bytes, found]
  rw [if_neg (by omega), if_neg (by omega), if_pos (by omega)]

end

end Accesses

/-! ### Writing back the base -/

theorem writtenBase_self {base size : Nat} (power : size.isPowerOfTwo) (aligned : base % size = 0)
    (low : base < 2 ^ 32) (index : Nat)
    : writtenBase base size (0x10 + index * 4) (.ofNat 32 base) 4 = .ofNat 32 base := by
  obtain ⟨bits, rfl⟩ := power
  have whole : (0x10 + index * 4) % 4 * 8 = 0 := by omega
  have merged : ∀ word : BitVec 32, (word &&& ~~~((BitVec.allOnes 32 >>> (32 - 4 * 8)) <<< 0)
      ||| (word &&& (BitVec.allOnes 32 >>> (32 - 4 * 8))) <<< 0) = word := by
    intro word
    have ones : BitVec.allOnes 32 >>> (32 - 4 * 8) = BitVec.allOnes 32 := rfl
    simp only [ones, BitVec.shiftLeft_zero, BitVec.not_allOnes, BitVec.and_zero, BitVec.zero_or,
      BitVec.and_allOnes]
  unfold writtenBase
  dsimp only
  rw [whole, merged]
  refine BitVec.eq_of_toNat_eq ?_
  rw [and_not_mask, BitVec.toNat_ofNat, Nat.mod_eq_of_lt low]
  exact Nat.div_mul_cancel (Nat.dvd_of_mod_eq_zero aligned)

theorem ioMapRelocateRegion_self {vm : VmCtx} (mapped : VmCtx.Mapped vm) {handle : Nat}
    {reg : IoRegion} (found : vm.ioMap.find handle = some reg)
    : ioMapRelocateRegion (some handle) (.ofNat 64 reg.base) vm = (.ok (), vm) := by
  obtain ⟨inv, named⟩ := mapped
  obtain ⟨member, name⟩ := named.find found
  have clear := inv.clear member
  have below : reg.base + reg.size ≤ uint64Max := clear.bounded
  have base : (BitVec.ofNat 64 reg.base).toNat = reg.base := by
    rw [BitVec.toNat_ofNat]
    unfold uint64Max at below
    omega
  have regions : ((vm.ioMap.regions reg.type).any fun other => other.handle != reg.handle
      && regionIsOverlap reg.base reg.size other.base other.size) = false := by
    rw [List.any_eq_false]
    intro other listed hit
    obtain ⟨differ, overlap⟩ := Bool.and_eq_true_iff.mp hit
    have apart := clear.apart other listed (bne_iff_ne.mp differ)
    have free := not_overlap_of_apart below (inv.bounded reg.type other listed) apart
    cases free.symm.trans overlap
  have ram : (reg.type == .mmio && vm.memSpace.regions.any fun ram =>
      regionIsOverlap reg.base reg.size ram.gpa ram.size) = false := by
    rw [Bool.and_eq_false_imp]
    intro mmio
    rw [List.any_eq_false]
    intro ram listed overlap
    have apart := clear.ramApart (beq_iff_eq.mp mmio) ram listed
    have free := not_overlap_of_apart below (inv.ram.bounded ram listed) apart
    cases free.symm.trans overlap
  have same : vm.ioMap.modify reg.handle (fun reg' => { reg' with base := reg.base })
      = vm.ioMap := by
    have kept : ∀ type, (vm.ioMap.regions type).map (fun other =>
        if other.handle = reg.handle then { other with base := reg.base } else other)
        = vm.ioMap.regions type := by
      intro type
      refine (List.map_congr_left fun other listed => ?_).trans (List.map_id _)
      split
      next same => rw [named.eq_of_handle listed member same]; rfl
      · rfl
    exact congrArg (fun regions => IoMap.mk regions vm.ioMap.nextHandle) (funext kept)
  unfold ioMapRelocateRegion
  simp only [Option.bind_some, found, base]
  rw [if_neg (by omega), if_neg (by simp [regions]), if_neg (by simp [ram]), same]
  rfl

/-! ### Sizing in a sound machine -/

def PciDevice.setProbe (dev : PciDevice) (index : Nat) (probe : Bool) : PciDevice :=
  { dev with bars := update dev.bars index { dev.bars index with probe := probe } }

theorem PciDevice.setProbe_setProbe {dev : PciDevice} {index : Nat}
    (idle : (dev.bars index).probe = false)
    : (dev.setProbe index true).setProbe index false = dev := by
  have bar : (⟨(dev.bars index).region, false⟩ : PciBar) = dev.bars index := by
    rw [← idle]
  unfold PciDevice.setProbe
  simp only [update_self, update_idem]
  rw [bar, update_eq_self]

section Registers
variable {m : Machine} {bus endpoint index : Nat}

section

variable {devfn : BitVec 8} (found : pciBusFindDevice m bus devfn = some endpoint)
  (inRange : index < 6)
include found inRange

theorem readBar_base {reg : IoRegion} (agrees : BarAgrees (m.endpoints endpoint) index reg)
    (idle : ((m.endpoints endpoint).bars index).probe = false)
    : readBar bus devfn index m = .ofNat 32 reg.base := by
  rw [readBar_idle found inRange (.inr idle)]
  exact joinBytes_of_readBytes agrees.bytes rfl

theorem writeBar_ones {handle : Nat}
    (implemented : ((m.endpoints endpoint).bars index).region = some handle)
    : writeBar bus devfn index (.allOnes 32) m
      = m.setEndpoint endpoint ((m.endpoints endpoint).setProbe index true) := by
  have here : (0x10 + index * 4 - 0x10) / 4 = index := by omega
  rw [writeBar_eq found inRange]
  unfold pciWriteBar PciDevice.setProbe
  simp only [here, implemented, and_self, if_true]

theorem writeBar_unimplemented (empty : ((m.endpoints endpoint).bars index).region = none)
    (val : BitVec 32)
    : writeBar bus devfn index val m = m := by
  have here : (0x10 + index * 4 - 0x10) / 4 = index := by omega
  rw [writeBar_eq found inRange]
  unfold pciWriteBar
  dsimp only
  rw [here, empty]

theorem writeBar_base {handle : Nat} {reg : IoRegion} (mapped : VmCtx.Mapped m.toVmCtx)
    (implemented : ((m.endpoints endpoint).bars index).region = some handle)
    (lookup : m.ioMap.find handle = some reg) (wide : 16 ≤ reg.size)
    (agrees : BarAgrees (m.endpoints endpoint) index reg)
    : writeBar bus devfn index (.ofNat 32 reg.base) m
      = m.setEndpoint endpoint ((m.endpoints endpoint).setProbe index false) := by
  have here : (0x10 + index * 4 - 0x10) / 4 = index := by omega
  have low : reg.base < 2 ^ 32 := by
    have := agrees.bounded
    omega
  have base : (BitVec.ofNat 32 reg.base).toNat = reg.base := by
    rw [BitVec.toNat_ofNat, Nat.mod_eq_of_lt low]
  -- The last base that is aligned to the size is below the word that asks for the size.
  have proper : BitVec.ofNat 32 reg.base ≠ .allOnes 32 := by
    intro ones
    have last := congrArg BitVec.toNat ones
    rw [BitVec.toNat_allOnes] at last
    have := agrees.bounded
    omega
  have target : ((BitVec.ofNat 32 reg.base).setWidth 64) = BitVec.ofNat 64 reg.base := by
    refine BitVec.eq_of_toNat_eq ?_
    rw [BitVec.toNat_setWidth, base, BitVec.toNat_ofNat]
  have bytes : writeBytes (m.endpoints endpoint).configSpace (0x10 + index * 4)
      (toLe 4 (BitVec.ofNat 32 reg.base).toNat) = (m.endpoints endpoint).configSpace := by
    rw [base, ← agrees.bytes, writeBytes_readBytes]
  rw [writeBar_eq found inRange]
  unfold pciWriteBar PciDevice.setProbe PciDevice.setBarBytes
  simp only [here, implemented, proper, lookup,
    writtenBase_self agrees.power agrees.aligned low index, target,
    ioMapRelocateRegion_self mapped lookup, bytes]
  rfl

end

end Registers

theorem findDevice_setProbe (m : Machine) (endpoint index : Nat) (probe : Bool) (bus : Nat)
    (devfn : BitVec 8)
    : pciBusFindDevice
        (m.setEndpoint endpoint ((m.endpoints endpoint).setProbe index probe)) bus devfn
      = pciBusFindDevice m bus devfn := by
  have number : ∀ pos, ((m.setEndpoint endpoint
      ((m.endpoints endpoint).setProbe index probe)).endpoints pos).devfn
      = (m.endpoints pos).devfn := by
    intro pos
    simp only [Machine.setEndpoint, update_apply]
    split
    next here => rw [here]; rfl
    · rfl
  unfold pciBusFindDevice
  simp only [number]
  rfl

theorem toNat_sizeMask {size : Nat} (nonempty : 0 < size) (fits : size ≤ 2 ^ 32)
    : (~~~ BitVec.ofNat 32 (size - 1)).toNat = 2 ^ 32 - size := by
  rw [BitVec.toNat_not, BitVec.toNat_ofNat]
  omega

theorem Machine.Sound.sizeBar {m : Machine} (sound : m.Sound) {bus endpoint index : Nat}
    (registered : endpoint ∈ (m.buses bus).devices) (inRange : index < 6)
    (idle : ((m.endpoints endpoint).bars index).probe = false)
    : let dev := m.endpoints endpoint
      let sizing := sizeBar bus dev.devfn index m
      Transparent bus dev index m sizing
      ∧ ((dev.bars index).region = none → sizing.mask
        = joinBytes 32 (fun i => dev.configSpace (0x10 + index * 4 + i)) 4) := by
  intro dev sizing
  have found := findDevice_of_member sound.ordered.topology registered
  cases implemented : (dev.bars index).region with
  | none =>
    have probing : sizing.probing = m := writeBar_unimplemented found inRange implemented _
    have after : sizing.after = m := by
      change writeBar bus dev.devfn index sizing.value sizing.probing = m
      rw [probing]
      exact writeBar_unimplemented found inRange implemented _
    have mask : sizing.mask = readBar bus dev.devfn index m := by
      change readBar bus dev.devfn index sizing.probing = _
      rw [probing]
    refine ⟨⟨?_, after, ?_, ?_, ?_⟩, fun _ => ?_⟩
    · intro handle there
      cases implemented.symm.trans there
    · rw [probing]
      exact fun _ _ _ _ _ _ => rfl
    · rw [probing]
      exact fun _ _ _ _ _ _ _ => rfl
    · intro start size width aligned inside
      rw [mask, probing]
      exact pciBusReadConfig_slice found inRange width aligned inside
    · rw [mask]
      exact readBar_idle found inRange (.inl implemented)
  | some handle =>
    obtain ⟨reg, lookup, agrees⟩ :=
      sound.ordered.bars.agrees endpoint trivial index inRange handle implemented
    have wide := sound.wide endpoint index inRange handle reg implemented lookup
    have probing : sizing.probing = m.setEndpoint endpoint (dev.setProbe index true) :=
      writeBar_ones found inRange implemented
    have here : sizing.probing.endpoints endpoint = dev.setProbe index true := by
      rw [probing]
      exact update_self ..
    have foundProbing : pciBusFindDevice sizing.probing bus dev.devfn = some endpoint := by
      rw [probing, findDevice_setProbe]
      exact found
    have implementedProbing : ((sizing.probing.endpoints endpoint).bars index).region
        = some handle := by
      rw [here]
      exact (region_probed dev.bars index index true).trans implemented
    have lookupProbing : sizing.probing.ioMap.find handle = some reg := by
      rw [probing]
      exact lookup
    have mask : sizing.mask = ~~~ BitVec.ofNat 32 (reg.size - 1) := by
      refine readBar_probing foundProbing inRange implementedProbing lookupProbing ?_
      rw [here]
      simp [PciDevice.setProbe]
    have value : sizing.value = .ofNat 32 reg.base := readBar_base found inRange agrees idle
    have after : sizing.after = m := by
      have agreesProbing : BarAgrees (sizing.probing.endpoints endpoint) index reg := by
        rw [here]
        exact agrees.congr (fun _ _ _ => rfl) rfl
      have mappedProbing : VmCtx.Mapped sizing.probing.toVmCtx := by
        rw [probing]
        exact sound.mapped
      have written := writeBar_base foundProbing inRange mappedProbing implementedProbing
        lookupProbing wide agreesProbing
      rw [← value, here, PciDevice.setProbe_setProbe idle] at written
      calc sizing.after = sizing.probing.setEndpoint endpoint dev := written
        _ = m.setEndpoint endpoint dev := by rw [probing, Machine.setEndpoint_setEndpoint]
        _ = m := m.setEndpoint_eq_self endpoint
    have below := agrees.bounded
    refine ⟨⟨?_, after, ?_, ?_, ?_⟩, fun empty => ?_⟩
    · intro other there
      cases implemented.symm.trans there
      refine ⟨reg, lookup, ?_⟩
      rw [mask]
      exact toNat_sizeMask (by omega) (by omega)
    · rw [probing]
      exact fun _ _ _ _ _ _ => rfl
    · rw [probing]
      exact fun _ _ _ _ _ _ _ => rfl
    · intro start size width aligned inside
      exact pciBusReadConfig_slice foundProbing inRange width aligned inside
    · cases empty

/-! ### Every reachable machine -/

/-- In every reachable machine, for every endpoint on a bus and every register not being sized,
sizing is transparent. If all endpoints were registered in zeroed memory, an unimplemented register
has the mask zero.
-/
theorem bar_sizing_transparent {start : Machine} (begins : start.Start) (ops : List MachineOp)
    : let m := ops.foldl MachineOp.apply start
      ∀ bus, ∀ endpoint ∈ (m.buses bus).devices, ∀ index < 6,
        let dev := m.endpoints endpoint
        let sizing := sizeBar bus dev.devfn index m
        (dev.bars index).probe = false →
          Transparent bus dev index m sizing
          ∧ (ZeroedRun start ops → (dev.bars index).region = none → sizing.mask = 0) := by
  intro m bus endpoint registered index inRange dev sizing idle
  have sound : m.Sound := begins.sound.run ops
  obtain ⟨transparent, bytes⟩ := sound.sizeBar registered inRange idle
  refine ⟨transparent, fun zeroed empty => (bytes empty).trans ?_⟩
  have blank : m.Blank := begins.blank.run begins.sound zeroed
  have attached : dev.bus.isSome := by
    rw [(sound.ordered.topology.listed bus endpoint).mp registered]
    rfl
  refine (joinBytes_congr fun i small => ?_).trans (joinBytes_word (n := 4) (0 : BitVec 32) rfl)
  rw [blank endpoint attached index inRange empty _ (by omega) (by omega)]
  simp

def zeroedMachine : Machine := { busMachine with memSpace := ⟨[], 0, 0x1000⟩ }

theorem zeroedMachine_start : zeroedMachine.Start :=
  ⟨⟨fun _ => rfl, fun _ => rfl, fun _ => rfl, fun _ _ _ => rfl, fun _ _ => nofun, fun _ _ => nofun,
    fun _ _ => nofun⟩, ⟨rfl, rfl, fun _ => rfl⟩⟩

def sizedOps : List MachineOp :=
  [.addRam ⟨true, .ok (), .ok ()⟩ 0 0x10000 0,
    .bus (.registerEndpoint true (some 0) (some 0)),
    .bus (.registerBar true true (some 0) 0 0x1000 0xc0000000)]

/-- Sizing on that machine: the mask is that of 4 KiB, and that of another register is zero. -/
theorem bar_sizing_page
    : let m := sizedOps.foldl MachineOp.apply zeroedMachine
      let dev := m.endpoints 0
      ZeroedRun zeroedMachine sizedOps
      ∧ (sizeBar 0 dev.devfn 0 m).mask = 0xfffff000
      ∧ Transparent 0 dev 0 m (sizeBar 0 dev.devfn 0 m)
      ∧ (sizeBar 0 dev.devfn 1 m).mask = 0 := by
  intro m dev
  have member : 0 ∈ (m.buses 0).devices := by
    exact List.mem_singleton.mpr rfl
  have zeroed : ZeroedRun zeroedMachine sizedOps :=
    ⟨trivial, fun _ _ _ _ => rfl, trivial, trivial⟩
  have sized := bar_sizing_transparent zeroedMachine_start sizedOps 0 0 member
  refine ⟨zeroed, ?_, (sized 0 (by decide) ?_).1, (sized 1 (by decide) ?_).2 zeroed ?_⟩
  · decide +kernel
  · decide +kernel
  · decide +kernel
  · decide +kernel

def reusedOps : List MachineOp :=
  [.bus (.registerEndpoint true (some 0) (some 0)),
    .bus (.registerBar true true (some 0) 0 0x1000 0xc0000000),
    .bus (.remove 1),
    .bus (.registerEndpoint true (some 0) (some 0))]

/-- A register that was implemented in an earlier registration still reads as its old base. -/
theorem reused_endpoint_stale
    : let m := reusedOps.foldl MachineOp.apply zeroedMachine
      let dev := m.endpoints 0
      zeroedMachine.Start ∧ (zeroedMachine.endpoints 0).Zeroed
      ∧ (m.buses 0).devices = [0]
      ∧ (dev.bars 0).region = none ∧ (dev.bars 0).probe = false
      ∧ (sizeBar 0 dev.devfn 0 m).mask = 0xc0000000 := by
  refine ⟨zeroedMachine_start, fun _ _ _ => rfl, ?_, ?_, ?_, ?_⟩
  · decide +kernel
  · decide +kernel
  · decide +kernel
  · decide +kernel

end Modvm.Hw
