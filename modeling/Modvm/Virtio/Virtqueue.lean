import Modvm.Virtio.World

/-! The split virtqueue as the device uses it. A queue pointer is the index of the queue. -/

namespace Modvm.Virtio

open Modvm.Core Modvm.Lib

variable {D F T : Type}

def vringDescFNext : Nat := 1

def vringDescFWrite : Nat := 2

/-- `struct vring_desc`, decoded from its 16 bytes. -/
structure VringDesc where
  addr : Nat
  len : Nat
  flags : Nat
  next : Nat
deriving DecidableEq, Repr

/-- The packed little-endian layout of a descriptor. -/
def VringDesc.ofBytes (bytes : List Byte) : VringDesc where
  addr := leNat (bytes.take 8)
  len := leNat ((bytes.drop 8).take 4)
  flags := leNat ((bytes.drop 12).take 2)
  next := leNat ((bytes.drop 14).take 2)

/-- `struct virtqueue_chain`. The buffers stay in the storage of queue `queue`. -/
structure VirtqueueChain where
  queue : Nat
  nrBufs : Nat
  head : Nat
  readable : Nat
  writable : Nat
deriving DecidableEq, Repr

def VirtqueueChain.capacity (chain : VirtqueueChain) (write : Bool) : Nat :=
  if write then chain.writable else chain.readable

/-- The buffers that a chain currently borrows from its queue. -/
def VirtqueueChain.bufs (chain : VirtqueueChain) (w : World D F T) : List VirtqueueBuf :=
  (List.range chain.nrBufs).map (w.queue chain.queue).bufs

/-- `virtqueue_create`; `allocated` says whether `calloc` succeeded. -/
def virtqueueCreate (allocated : Bool) (queueSize : Nat) : Option Virtqueue :=
  if queueSize = 0 then none
  else if notPowerOfTwo queueSize then none
  else if !allocated then none
  else some {
    queueSize := queueSize, maxSize := queueSize, broken := false, enabled := false,
    lastAvailIdx := 0, lastUsedIdx := 0,
    descTable := none, availRing := none, usedRing := none, bufs := fun _ => default }

def virtqueueSetSize (vq : Virtqueue) (size : Nat) : Except VmError Virtqueue :=
  if vq.enabled || size == 0 || notPowerOfTwo size || decide (size > vq.maxSize) then
    .error .einval
  else .ok { vq with queueSize := size }

def virtqueueReset (vq : Virtqueue) : Virtqueue :=
  { vq with
    enabled := false, broken := false, queueSize := vq.maxSize,
    lastAvailIdx := 0, lastUsedIdx := 0,
    descTable := none, availRing := none, usedRing := none }

def virtqueueSetAddrs (ram : RamMap) (vq : Virtqueue) (descGpa availGpa usedGpa : Nat)
    : Except VmError Virtqueue :=
  if descGpa &&& 15 != 0 || availGpa &&& 1 != 0 || usedGpa &&& 3 != 0 then .error .einval
  else
    -- Each part lies in one region; the device writes only to the used ring.
    let desc := memMapRange ram.space descGpa (16 * vq.queueSize) false
    let avail := memMapRange ram.space availGpa (6 + 2 * vq.queueSize) false
    let used := memMapRange ram.space usedGpa (6 + 8 * vq.queueSize) true
    match desc, avail, used with
    | some desc, some avail, some used =>
        .ok { vq with
          descTable := some desc, availRing := some avail, usedRing := some used,
          enabled := true }
    | _, _, _ => .error .efault

def virtqueueDisable (vq : Virtqueue) : Virtqueue := { vq with enabled := false }

/-- The guest address behind a ring pointer. An enabled queue has all three pointers. -/
def ringGpa (ring : Option Hva) : Nat := (ring.map Hva.gpa).getD 0

/-- The chunk loop of `virtqueue_pop`; each chunk covers a byte, so `length` rounds do. -/
def chunksMapped (space : MemSpace) (write : Bool) : (fuel gpa length : Nat) → Bool
  | 0, _, length => length == 0
  | fuel + 1, gpa, length =>
      if length = 0 then true
      else
        match memMapChunk space gpa length write with
        | none => false
        | some (_, chunk) =>
            if chunk = 0 then false
            else chunksMapped space write fuel (gpaAdd gpa chunk) (length - chunk)

/-- The totals of a chain after a descriptor of the given direction and length. -/
def VirtqueueChain.add (chain : VirtqueueChain) (write : Bool) (length : Nat)
    : VirtqueueChain :=
  if write then { chain with nrBufs := chain.nrBufs + 1, writable := chain.writable + length }
  else { chain with nrBufs := chain.nrBufs + 1, readable := chain.readable + length }

def World.recordBuf (w : World D F T) (q slot : Nat) (buf : VirtqueueBuf) : World D F T :=
  let vq := w.queue q
  w.setQueue q { vq with bufs := Function.update vq.bufs slot buf }

/-- One descriptor of the walk: fetch it once, check and record it, and where the chain goes on. -/
def popDesc (ram : RamMap) (env : Env D) (q : Nat) (chain : VirtqueueChain) (writable : Bool)
    (index : Nat) (w : World D F T)
    : Except VmError (VirtqueueChain × Bool × Option Nat) × World D F T :=
  let (bytes, w) := w.load env q (ringGpa (w.queue q).descTable + 16 * index) 16
  let desc := VringDesc.ofBytes bytes
  let write := desc.flags &&& vringDescFWrite != 0
  -- Flags other than NEXT and WRITE are refused; readable buffers come first.
  if desc.flags &&& 0xfffc != 0 || (writable && !write) then (.error .einval, w)
  else if desc.len > uint64Max - desc.addr
      || desc.len > uint64Max - chain.capacity write then
    (.error .efault, w)
  else
    let w := w.recordBuf q chain.nrBufs ⟨desc.addr, desc.len, write⟩
    if !chunksMapped ram.space write desc.len desc.addr desc.len then (.error .efault, w)
    else
      (.ok (chain.add write desc.len, writable || write,
        if desc.flags &&& vringDescFNext == 0 then none else some desc.next), w)

/-- The descriptor walk of `virtqueue_pop`; `room` is `queue_size - nr_bufs`. -/
def popWalk (ram : RamMap) (env : Env D) (q : Nat)
    : (room : Nat) → (chain : VirtqueueChain) → (writable : Bool) → (index : Nat)
      → World D F T → Except VmError VirtqueueChain × World D F T
  | 0, _, _, index, w =>
      if index ≥ (w.queue q).queueSize then (.error .efault, w) else (.error .eloop, w)
  | room + 1, chain, writable, index, w =>
      if index ≥ (w.queue q).queueSize then (.error .efault, w)
      else
        match popDesc ram env q chain writable index w with
        | (.error error, w) => (.error error, w)
        | (.ok (chain, _, none), w) => (.ok chain, w)
        | (.ok (chain, writable, some next), w) => popWalk ram env q room chain writable next w

/-- The failure exit of `virtqueue_pop`. -/
def World.breakQueue (w : World D F T) (q : Nat) : World D F T :=
  w.setQueue q { w.queue q with broken := true }

/-- The success exit of `virtqueue_pop`. -/
def World.advanceAvail (w : World D F T) (q : Nat) : World D F T :=
  let vq := w.queue q
  w.setQueue q { vq with lastAvailIdx := (vq.lastAvailIdx + 1) % 2 ^ 16 }

/-- `virtqueue_pop`: an error breaks the queue, `none` means nothing is available. -/
def virtqueuePop (ram : RamMap) (env : Env D) (q : Nat) (w : World D F T)
    : Except VmError (Option VirtqueueChain) × World D F T :=
  let vq := w.queue q
  if !vq.enabled then (.ok none, w)
  else if vq.broken then (.error .eio, w)
  else
    let (available, w) := w.loadLe env q (ringGpa vq.availRing + 2) 2
    if available = vq.lastAvailIdx then (.ok none, w)
    -- The distance is taken modulo the width of the index, so a wrap does not matter.
    else if (available + 2 ^ 16 - vq.lastAvailIdx) % 2 ^ 16 > vq.queueSize then
      (.error .efault, w.breakQueue q)
    else
      let slot := vq.lastAvailIdx % vq.queueSize
      let (index, w) := w.loadLe env q (ringGpa vq.availRing + 4 + 2 * slot) 2
      match popWalk ram env q vq.queueSize ⟨q, 0, index, 0, 0⟩ false index w with
      | (.error error, w) => (.error error, w.breakQueue q)
      | (.ok chain, w) => (.ok (some chain), w.advanceAvail q)

def mapBufs (space : MemSpace) (write : Bool) : List VirtqueueBuf → Nat → Option (Hva × Nat)
  | [], _ => none
  | buf :: rest, offset =>
      if buf.isWrite != write then mapBufs space write rest offset
      else if offset ≥ buf.len then mapBufs space write rest (offset - buf.len)
      else memMapChunk space (gpaAdd buf.gpa offset) (buf.len - offset) write

/-- `virtqueue_map`: one host-contiguous part of a directional byte stream. -/
def virtqueueMap (ram : RamMap) (chain : VirtqueueChain) (write : Bool) (offset : Nat)
    (w : World D F T)
    : Option (Hva × Nat) :=
  mapBufs ram.space write (chain.bufs w) offset

/-- The loop of `virtqueue_copy`: `done` is passed and `rest` to be transferred, a byte per round at
least.
-/
def copyLoop (ram : RamMap) (env : Env D) (chain : VirtqueueChain) (write : Bool)
    : (fuel offset : Nat) → (done rest : List Byte) → World D F T
      → Option VmError × List Byte × World D F T
  | 0, _, done, rest, w => (if rest = [] then none else some .efault, done ++ rest, w)
  | fuel + 1, offset, done, rest, w =>
      if rest = [] then (none, done, w)
      else
        match virtqueueMap ram chain write offset w with
        | none => (some .efault, done ++ rest, w)
        | some (hva, mapped) =>
            -- A buffer may continue in another region, then the next round maps the rest.
            let chunk := if mapped > rest.length then rest.length else mapped
            if mapped = 0 then (some .efault, done ++ rest, w)
            else if write then
              let w := w.store env chain.queue hva.gpa (rest.take chunk)
              copyLoop ram env chain write fuel (offset + chunk) (done ++ rest.take chunk)
                (rest.drop chunk) w
            else
              let (bytes, w) := w.load env chain.queue hva.gpa chunk
              copyLoop ram env chain write fuel (offset + chunk) (done ++ bytes)
                (rest.drop chunk) w

/-- `virtqueue_copy`: returns the error, and the caller's buffer afterwards. -/
def virtqueueCopy (ram : RamMap) (env : Env D) (chain : VirtqueueChain) (write : Bool)
    (offset : Nat) (data : List Byte) (w : World D F T)
    : Option VmError × List Byte × World D F T :=
  let capacity := chain.capacity write
  if offset > capacity || data.length > capacity - offset then (some .einval, data, w)
  else copyLoop ram env chain write data.length offset [] data w

/-- `virtqueue_read` into a buffer whose previous contents are `data`. -/
def virtqueueRead (ram : RamMap) (env : Env D) (chain : VirtqueueChain) (offset : Nat)
    (data : List Byte) (w : World D F T)
    : Option VmError × List Byte × World D F T :=
  virtqueueCopy ram env chain false offset data w

def virtqueueWrite (ram : RamMap) (env : Env D) (chain : VirtqueueChain) (offset : Nat)
    (data : List Byte) (w : World D F T)
    : Option VmError × World D F T :=
  let (error, _, w) := virtqueueCopy ram env chain true offset data w
  (error, w)

/-- Fill the next element of the used ring. -/
def writeUsedElem (env : Env D) (q descIdx len : Nat) (w : World D F T) : World D F T :=
  let vq := w.queue q
  let elem := ringGpa vq.usedRing + 4 + 8 * (vq.lastUsedIdx % vq.queueSize)
  let w := w.store env q elem (toLe 4 descIdx)
  w.store env q (elem + 4) (toLe 4 len)

def World.advanceUsed (w : World D F T) (q : Nat) : World D F T :=
  let vq := w.queue q
  w.setQueue q { vq with lastUsedIdx := (vq.lastUsedIdx + 1) % 2 ^ 16 }

def publishUsed (env : Env D) (q : Nat) (w : World D F T) : World D F T :=
  let vq := w.queue q
  w.store env q (ringGpa vq.usedRing + 2) (toLe 2 vq.lastUsedIdx)

/-- `virtqueue_push`: the element is written before the index that publishes it. -/
def virtqueuePush (env : Env D) (q descIdx len : Nat) (w : World D F T) : World D F T :=
  let vq := w.queue q
  if !vq.enabled || vq.usedRing.isNone then w
  else
    let w := (writeUsedElem env q descIdx len w).advanceUsed q
    (publishUsed env q w).record q (.push descIdx len)

end Modvm.Virtio
