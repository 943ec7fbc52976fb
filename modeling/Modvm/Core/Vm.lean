import Modvm.Core.Memory
import Modvm.Util.ResPool

/-! The state of a virtual machine that its address map is made of: RAM, I/O regions, and the
devices whose resource pools own the regions.
-/

namespace Modvm.Core

open Modvm.Lib Modvm.Util

inductive IoSpace where
  | pio
  | mmio
deriving DecidableEq, Repr

/-- `struct io_region`. The handle is the address of the object, by which its holders know it. -/
structure IoRegion where
  handle : Nat
  dev : Nat
  base : Nat
  size : Nat
  type : IoSpace
  enabled : Bool
deriving DecidableEq, Repr

def IoRegion.span (reg : IoRegion) : Span := ⟨reg.base, reg.size⟩

/-- `struct io_map`: `pio_regions` and `mmio_regions`, and the next handle to give out. -/
structure IoMap where
  regions : IoSpace → List IoRegion
  nextHandle : Nat

namespace IoMap

def find (map : IoMap) (handle : Nat) : Option IoRegion :=
  (map.regions .pio ++ map.regions .mmio).find? fun reg => reg.handle == handle

/-- `list_add_tail` of a new region. -/
def add (map : IoMap) (reg : IoRegion) : IoMap where
  regions := Function.update map.regions reg.type (map.regions reg.type ++ [reg])
  nextHandle := map.nextHandle + 1

/-- `list_del` of the region behind a handle. -/
def remove (map : IoMap) (handle : Nat) : IoMap where
  regions := fun type => (map.regions type).filter fun reg => reg.handle != handle
  nextHandle := map.nextHandle

/-- Assign to fields of the region behind a handle. -/
def modify (map : IoMap) (handle : Nat) (update : IoRegion → IoRegion) : IoMap where
  regions := fun type =>
    (map.regions type).map fun reg => if reg.handle = handle then update reg else reg
  nextHandle := map.nextHandle

end IoMap

/-- The cleanup callbacks that end the registration of a region or of a PCI endpoint. -/
inductive Cleanup where
  | ioRegionUnregister (handle : Nat)
  | pciUnregister (endpoint : Nat)
deriving DecidableEq, Repr

structure Device where
  ctx : Bool
  ops : Bool
  resources : ResPool Cleanup

inductive VmState where
  | building
  | ready
  | running
  | stopped
deriving DecidableEq, Repr

/-- The part of `struct accel_desc` that matters to RAM: whether `map_ram` is implemented. -/
structure AccelDesc where
  mapRam : Bool
deriving DecidableEq, Repr

/-- `struct vm_ctx`, as far as its address map is concerned. -/
structure VmCtx where
  state : VmState
  stopRequested : Bool
  accel : Option AccelDesc
  memSpace : MemSpace
  ioMap : IoMap
  devices : Nat → Device

def VmCtx.setResources (vm : VmCtx) (dev : Nat) (resources : ResPool Cleanup) : VmCtx :=
  { vm with
    devices := Function.update vm.devices dev { vm.devices dev with resources := resources } }

def VmCtx.setIoMap (vm : VmCtx) (ioMap : IoMap) : VmCtx := { vm with ioMap := ioMap }

/-- `mem_region_is_overlap`, which the I/O map and the PCI bus repeat: sums wrap at 64 bits. -/
def regionIsOverlap (base1 size1 base2 size2 : Nat) : Bool :=
  decide (base1 < gpaAdd base2 size2) && decide (base2 < gpaAdd base1 size1)

/-- What the host answers while `vm_add_ram` allocates and maps a region. -/
structure AddRamHost where
  node : Bool
  pages : Except VmError Unit
  mapped : Except VmError Unit

/-- The checks that `vm_add_ram` makes before it allocates anything, in their order. -/
def vmAddRamCheck (gpa size : Nat) (vm : VmCtx) : Option VmError :=
  let space := vm.memSpace
  if size = 0 then some .einval
  else if vm.state ≠ .building ∨ vm.stopRequested = true then some .ebusy
  else if space.hostPageSize = 0 ∨ vm.accel = none then some .einval
  else if vm.accel = some ⟨false⟩ then some .enotsup
  -- Neither the total nor the end of the region may wrap.
  else if size > uint64Max - space.totalRam then some .eoverflow
  else if uint64Max - gpa < size then some .eoverflow
  else if gpa % space.hostPageSize ≠ 0 ∨ size % space.hostPageSize ≠ 0 then some .einval
  else if space.regions.any fun pos => regionIsOverlap gpa size pos.gpa pos.size then
    some .ebusy
  else if (vm.ioMap.regions .mmio).any fun io => regionIsOverlap gpa size io.base io.size then
    some .ebusy
  else none

def vmAddRam (host : AddRamHost) (gpa size : BitVec 64) (flags : BitVec 32) (vm : VmCtx)
    : Except VmError Unit × VmCtx :=
  let space := vm.memSpace
  match vmAddRamCheck gpa.toNat size.toNat vm, host.node, host.pages, host.mapped with
  | some error, _, _, _ => (.error error, vm)
  | none, false, _, _ => (.error .enomem, vm)
  | none, true, .error error, _ => (.error error, vm)
  | none, true, .ok _, .error error => (.error error, vm)
  | none, true, .ok _, .ok _ =>
      (.ok (),
        { vm with
          memSpace :=
            { space with
              regions := space.regions ++ [⟨gpa.toNat, size.toNat, flags⟩]
              totalRam := (space.totalRam + size.toNat) % 2 ^ 64 } })

/-- `io_map_register_region_locked`; `node` and `action` are the outcomes of its allocations. -/
def ioMapRegisterRegion (node action : Bool) (type : IoSpace) (base size : BitVec 64)
    (dev : Option Nat) (vm : VmCtx)
    : Except VmError Nat × VmCtx :=
  match dev with
  | none => (.error .einval, vm)
  | some dev =>
      let device := vm.devices dev
      if !device.ctx || !device.ops || size == 0 then (.error .einval, vm)
      else if base.toNat > uint64Max - size.toNat then (.error .eoverflow, vm)
      else if (vm.ioMap.regions type).any fun pos =>
          regionIsOverlap base.toNat size.toNat pos.base pos.size then (.error .ebusy, vm)
      else if type == .mmio && vm.memSpace.regions.any fun ram =>
          regionIsOverlap base.toNat size.toNat ram.gpa ram.size then (.error .ebusy, vm)
      else
        match resZalloc node device.resources with
        | none => (.error .enomem, vm)
        | some pool =>
            let handle := vm.ioMap.nextHandle
            let vm := (vm.setResources dev pool).setIoMap
              (vm.ioMap.add ⟨handle, dev, base.toNat, size.toNat, type, true⟩)
            match resAddAction action (.ioRegionUnregister handle) pool with
            -- The region is linked before its cleanup exists, and unlinked if that fails.
            | .error error => (.error error, vm.setIoMap (vm.ioMap.remove handle))
            | .ok pool => (.ok handle, vm.setResources dev pool)

/-- `io_map_relocate_region_locked`. A handle is null or names a registered region. -/
def ioMapRelocateRegion (target : Option Nat) (newBase : BitVec 64) (vm : VmCtx)
    : Except VmError Unit × VmCtx :=
  match target.bind vm.ioMap.find with
  | none => (.error .einval, vm)
  | some reg =>
      let base := newBase.toNat
      if base > uint64Max - reg.size then (.error .eoverflow, vm)
      else if (vm.ioMap.regions reg.type).any fun other =>
          other.handle != reg.handle && regionIsOverlap base reg.size other.base other.size then
        (.error .ebusy, vm)
      else if reg.type == .mmio && vm.memSpace.regions.any fun ram =>
          regionIsOverlap base reg.size ram.gpa ram.size then (.error .ebusy, vm)
      else
        (.ok (),
          vm.setIoMap (vm.ioMap.modify reg.handle fun reg => { reg with base := base }))

end Modvm.Core
