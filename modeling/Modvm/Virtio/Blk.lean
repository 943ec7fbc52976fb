import Modvm.Virtio.Session

/-! The VirtIO block device: configuration, requests, and its queue handler. -/

namespace Modvm.Virtio

open Modvm.Core Modvm.Lib

variable {D T S : Type}

/-- `struct block_backend` over a hidden state; a read returns the result and its bytes. -/
structure BlockBackend (S : Type) where
  getCapacity : S → BitVec 64
  read : S → (count offset : Nat) → Int × List Byte × S
  write : S → (buf : List Byte) → (offset : Nat) → Int × S
  flush : Option (S → Int × S)
  readonly : Bool

/-- `struct virtio_blk_config`, with the geometry inlined. -/
structure VirtioBlkConfig where
  capacity : Nat
  sizeMax : Nat
  segMax : Nat
  cylinders : Nat
  heads : Nat
  sectors : Nat
  blkSize : Nat
  physicalBlockExp : Nat
  alignmentOffset : Nat
  minIoSize : Nat
  optIoSize : Nat
  wce : Nat
  unused : Nat
  numQueues : Nat
deriving DecidableEq, Repr

def VirtioBlkConfig.bytes (config : VirtioBlkConfig) : List Byte :=
  toLe 8 config.capacity ++ toLe 4 config.sizeMax ++ toLe 4 config.segMax
    ++ toLe 2 config.cylinders ++ toLe 1 config.heads ++ toLe 1 config.sectors
    ++ toLe 4 config.blkSize ++ toLe 1 config.physicalBlockExp
    ++ toLe 1 config.alignmentOffset ++ toLe 2 config.minIoSize ++ toLe 4 config.optIoSize
    ++ toLe 1 config.wce ++ toLe 1 config.unused ++ toLe 2 config.numQueues

/-- `struct virtio_blk_ctx`; the backend's operations are a parameter of the handlers. -/
structure VirtioBlkCtx (S : Type) where
  state : S
  config : VirtioBlkConfig

def sectorSize : Nat := 512

def virtioIdBlock : Nat := 2

def virtioBlkQueueSize : Nat := 128

def virtioBlkSOk : Byte := 0

def virtioBlkSIoerr : Byte := 1

def virtioBlkSUnsupp : Byte := 2

def virtioBlkConfigOf (capacityBytes : Nat) : VirtioBlkConfig where
  capacity := capacityBytes / sectorSize
  sizeMax := 65536
  segMax := 128 - 2
  cylinders := (capacityBytes / sectorSize) / (16 * 63) % 2 ^ 16
  heads := 16
  sectors := 63
  blkSize := sectorSize
  physicalBlockExp := 0
  alignmentOffset := 0
  minIoSize := 0
  optIoSize := 0
  wce := 0
  unused := 0
  numQueues := 0

/-- `virtio_blk_get_features`: `BLK_SIZE`, `GEOMETRY`, and, as the backend permits, `FLUSH`
and `RO`.
-/
def virtioBlkGetFeatures (backend : BlockBackend S) : BitVec 64 :=
  BitVec.twoPow 64 6 ||| BitVec.twoPow 64 4
    ||| (if backend.flush.isSome then BitVec.twoPow 64 9 else 0)
    ||| (if backend.readonly then BitVec.twoPow 64 5 else 0)

def readConfigBytes (config : List Byte) (offset size : Nat) : Nat :=
  if size = 0 ∨ size > 8 ∨ offset > config.length ∨ size > config.length - offset then 0
  else leNat ((config.drop offset).take size)

/-- `backend->ops->read` into a mapped chunk; the backend fills at most the chunk. -/
def blkBackendRead (backend : BlockBackend S) (env : Env D) (q : Nat) (hva : Hva)
    (chunk offset : Nat) (w : World D (VirtioBlkCtx S) T)
    : Int × World D (VirtioBlkCtx S) T :=
  let (n, bytes, state) := backend.read w.frontend.state chunk offset
  let w := { w with frontend := { w.frontend with state := state } }.record q .backendRead
  (n, w.store env q hva.gpa (bytes.take chunk))

def blkBackendWrite (backend : BlockBackend S) (env : Env D) (q : Nat) (hva : Hva)
    (chunk offset : Nat) (w : World D (VirtioBlkCtx S) T)
    : Int × World D (VirtioBlkCtx S) T :=
  let (bytes, w) := w.load env q hva.gpa chunk
  let (n, state) := backend.write w.frontend.state bytes offset
  (n, { w with frontend := { w.frontend with state := state } }.record q .backendWrite)

/-- The transfer loop of a request: status and bytes written. Each round moves a byte, so `total`
rounds do.
-/
def blkTransfer (backend : BlockBackend S) (ram : RamMap) (env : Env D)
    (chain : VirtqueueChain) (input : Bool) (total offset : Nat)
    : (fuel done written : Nat) → World D (VirtioBlkCtx S) T
      → Byte × Nat × World D (VirtioBlkCtx S) T
  | 0, done, written, w =>
      (if done < total then virtioBlkSIoerr else virtioBlkSOk, written, w)
  | fuel + 1, done, written, w =>
      if done < total then
        match virtqueueMap ram chain input (done + if input then 0 else 16) w with
        | none => (virtioBlkSIoerr, written, w)
        | some (hva, mapped) =>
            if mapped = 0 then (virtioBlkSIoerr, written, w)
            else
              let chunk := if mapped > total - done then total - done else mapped
              let (n, w) :=
                if input then blkBackendRead backend env chain.queue hva chunk (offset + done) w
                else blkBackendWrite backend env chain.queue hva chunk (offset + done) w
              let written :=
                if n > 0 ∧ input = true then (written + n.toNat) % 2 ^ 32 else written
              -- A short transfer counts what it moved, and fails the request.
              if n ≠ (chunk : Int) then (virtioBlkSIoerr, written, w)
              else blkTransfer backend ram env chain input total offset fuel (done + chunk)
                written w
      else (virtioBlkSOk, written, w)

def blkFlush (backend : BlockBackend S) (q : Nat) (w : World D (VirtioBlkCtx S) T)
    : Byte × World D (VirtioBlkCtx S) T :=
  match backend.flush with
  | none => (virtioBlkSUnsupp, w)
  | some flush =>
      let (n, state) := flush w.frontend.state
      (if n < 0 then virtioBlkSIoerr else virtioBlkSOk,
        { w with frontend := { w.frontend with state := state } }.record q .backendFlush)

/-- The identification string, padded to twenty bytes. -/
def blkId : List Byte :=
  [0x4d, 0x4f, 0x44, 0x56, 0x4d, 0x2d, 0x44, 0x49, 0x53, 0x4b, 0, 0, 0, 0, 0, 0, 0, 0, 0, 0]

def blkDispatch (backend : BlockBackend S) (ram : RamMap) (env : Env D)
    (chain : VirtqueueChain) (type sector total : Nat) (input : Bool)
    (w : World D (VirtioBlkCtx S) T)
    : Byte × Nat × World D (VirtioBlkCtx S) T :=
  if type = 0 ∨ type = 1 then
    if sector > uint64Max / sectorSize ∨ total % sectorSize ≠ 0 then (virtioBlkSIoerr, 0, w)
    else
      let offset := sector * sectorSize
      let capacity := (backend.getCapacity w.frontend.state).toNat
      if offset > capacity ∨ total > capacity - offset
          ∨ (input = false ∧ backend.readonly = true) then
        (virtioBlkSIoerr, 0, w)
      else blkTransfer backend ram env chain input total offset total 0 0 w
  else if type = 4 then
    if total ≠ 0 then (virtioBlkSIoerr, 0, w)
    else
      let (status, w) := blkFlush backend chain.queue w
      (status, 0, w)
  else if type = 8 then
    if total < 20 then (virtioBlkSIoerr, 0, w)
    else
      match virtqueueWrite ram env chain 0 blkId w with
      | (some _, w) => (virtioBlkSIoerr, 0, w)
      | (none, w) => (virtioBlkSOk, 20, w)
  else (virtioBlkSUnsupp, 0, w)

/-- A request up to the label `complete`. -/
def blkProcess (backend : BlockBackend S) (ram : RamMap) (env : Env D)
    (chain : VirtqueueChain) (w : World D (VirtioBlkCtx S) T)
    : Byte × Nat × World D (VirtioBlkCtx S) T :=
  match virtqueueRead ram env chain 0 (List.replicate 16 0) w with
  | (some _, _, w) => (virtioBlkSIoerr, 0, w)
  | (none, hdr, w) =>
      let type := leNat (hdr.take 4)
      let sector := leNat ((hdr.drop 8).take 8)
      let input := type == 0 || type == 8
      let total := if input then chain.writable - 1 else chain.readable - 16
      if (input = true ∧ chain.readable ≠ 16) ∨ (input = false ∧ chain.writable ≠ 1)
          ∨ total > 2 ^ 32 - 1 - 1 then
        (virtioBlkSIoerr, 0, w)
      else blkDispatch backend ram env chain type sector total input w

/-- One round of `virtio_blk_notify_queue`: the request, then its status byte. -/
def blkRequest (backend : BlockBackend S) (ram : RamMap) (env : Env D)
    : ServeBody D (VirtioBlkCtx S) T :=
  fun chain w =>
    if chain.writable = 0 then (none, w)
    else
      let (status, written, w) := blkProcess backend ram env chain w
      respond ram env chain status ((written + 1) % 2 ^ 32) w

def virtioBlkNotifyQueue [VirtioTransport T] (backend : BlockBackend S) (ram : RamMap)
    (env : Env D) (fuel q : Nat) (w : World D (VirtioBlkCtx S) T)
    : World D (VirtioBlkCtx S) T :=
  if !virtioDeviceReady w.vdev || q ≥ w.vdev.nrVqs then w
  else serveQueue ram env q (blkRequest backend ram env) fuel w

/-- `virtio_blk_ops`: there is no reset hook and no configuration write. -/
def virtioBlkOps [VirtioTransport T] (backend : BlockBackend S)
    : VirtioDeviceOps D (VirtioBlkCtx S) T where
  getFeatures _ := virtioBlkGetFeatures backend
  reset := none
  readConfig := some fun ctx offset size => readConfigBytes ctx.config.bytes offset size
  writeConfig := none
  notifyQueue := virtioBlkNotifyQueue backend
  rxCb := none

/-- Requests never change the configuration. -/
def SameBlkConfig (before after : VirtioBlkCtx S) : Prop := after.config = before.config

theorem SameBlkConfig.refl (ctx : VirtioBlkCtx S)
    : SameBlkConfig ctx ctx := rfl

theorem blkChunk_serves (backend : BlockBackend S) (env : Env D) {chain : VirtqueueChain}
    {bufs : List VirtqueueBuf} {input : Bool} {hva : Hva} {mapped chunk : Nat}
    (offset : Nat) (w : World D (VirtioBlkCtx S) T) (shorter : chunk ≤ mapped)
    (covered : Covers bufs input ⟨hva.gpa, mapped⟩)
    : Transfers env chain.queue (Serves bufs) SameBlkConfig w
        (if input then blkBackendRead backend env chain.queue hva chunk offset w
          else blkBackendWrite backend env chain.queue hva chunk offset w).2 := by
  have part : ∀ size, size ≤ chunk → Covers bufs input ⟨hva.gpa, size⟩ := by
    intro size bound
    refine covered.mono ?_
    simp only [Span.Within]
    omega
  cases input with
  | true =>
    have asked : Transfer env chain.queue (Serves bufs) SameBlkConfig w
        ({ w with frontend :=
          { w.frontend with state := (backend.read w.frontend.state chunk offset).2.2 } }.record
            chain.queue .backendRead) :=
      .backend w .backendRead _ trivial trivial rfl
    exact .tail (.single asked) (.store _ _ _ (part _ (List.length_take_le _ _)))
  | false =>
    have fetched : Transfer env chain.queue (Serves bufs) SameBlkConfig w
        (w.load env chain.queue hva.gpa chunk).2 :=
      .load w _ _ (part chunk (Nat.le_refl _))
    exact .tail (.single fetched) (.backend _ .backendWrite _ trivial trivial rfl)

variable {ram : RamMap} {w : World D (VirtioBlkCtx S) T} {chain : VirtqueueChain}
  (backend : BlockBackend S) (env : Env D)

theorem blkTransfer_serves {bufs : List VirtqueueBuf} (formed : ChainFormed ram.space chain bufs)
    (input : Bool) (total offset : Nat) {fuel done written : Nat} (same : chain.bufs w = bufs)
    : Transfers env chain.queue (Serves bufs) SameBlkConfig w
        (blkTransfer backend ram env chain input total offset fuel done written w).2.2 := by
  induction fuel generalizing done written w with
  | zero => exact .refl
  | succ fuel ih =>
    unfold blkTransfer
    split
    · split
      · exact .refl
      · rename_i hva mapped found
        split
        · exact .refl
        · dsimp only
          have covered : Covers bufs input ⟨hva.gpa, mapped⟩ := by
            rw [← same]
            exact mapBufs_sound (same ▸ formed.unwrapped) found
          generalize chunkEq : (if mapped > total - done then total - done else mapped) = chunk
          have shorter : chunk ≤ mapped := by
            split at chunkEq <;> omega
          have moved := @blkChunk_serves D T S backend env chain _ _ _ _ _ (offset + done) w
            shorter covered
          generalize (if input then blkBackendRead backend env chain.queue hva chunk
            (offset + done) w else blkBackendWrite backend env chain.queue hva chunk
            (offset + done) w) = result at moved ⊢
          split
          · exact moved
          · exact moved.trans (ih ((moved.bufs chain).trans same))
    · exact .refl

theorem blkDispatch_serves (formed : ChainFormed ram.space chain (chain.bufs w))
    (type sector total : Nat) (input : Bool)
    : Transfers env chain.queue (Serves (chain.bufs w)) SameBlkConfig w
        (blkDispatch backend ram env chain type sector total input w).2.2 := by
  unfold blkDispatch
  split
  · split
    · exact .refl
    · dsimp only
      split
      · exact .refl
      · exact blkTransfer_serves backend env formed input total _ rfl
  · split
    · split
      · exact .refl
      · unfold blkFlush
        cases backend.flush with
        | none => exact .refl
        | some => exact .single (.backend w .backendFlush _ trivial trivial rfl)
    · split
      · split
        · exact .refl
        · have copied := virtqueueCopy_serves env SameBlkConfig.refl formed true 0 blkId
          split
          · rename_i written
            exact congrArg Prod.snd written ▸ copied
          · rename_i written
            exact congrArg Prod.snd written ▸ copied
      · exact .refl

theorem blkProcess_serves (formed : ChainFormed ram.space chain (chain.bufs w))
    : Transfers env chain.queue (Serves (chain.bufs w)) SameBlkConfig w
        (blkProcess backend ram env chain w).2.2 := by
  have copied := virtqueueCopy_serves env SameBlkConfig.refl formed false 0
    (List.replicate 16 0)
  unfold blkProcess virtqueueRead
  split
  · rename_i failed
    rwa [failed] at copied
  · rename_i hdr after header
    rw [header] at copied
    dsimp only
    generalize (if (leNat (hdr.take 4) == 0 || leNat (hdr.take 4) == 8) = true then _ else _)
      = total
    split
    · exact copied
    · have same := copied.bufs chain
      refine copied.trans ?_
      rw [← same]
      exact blkDispatch_serves backend env (same ▸ formed) _ _ _ _

theorem blkRequest_serves (ram : RamMap) (env : Env D)
    : BodyServes ram env SameBlkConfig
        (blkRequest backend ram env : ServeBody D (VirtioBlkCtx S) T) := by
  refine .of_respond SameBlkConfig.refl
    (fun chain w =>
      let (status, written, w) := blkProcess backend ram env chain w
      (status, (written + 1) % 2 ^ 32, w)) (fun _ _ => rfl) ?_
  intro chain w formed
  exact blkProcess_serves backend env formed

theorem virtioBlkNotifyQueue_session [VirtioTransport T] (ram : RamMap) (env : Env D) (fuel q : Nat)
    (w : World D (VirtioBlkCtx S) T)
    : Session ram env q SameBlkConfig w
        (virtioBlkNotifyQueue backend ram env fuel q w) := by
  unfold virtioBlkNotifyQueue
  split
  · exact .refl
  · rename_i ready
    simp only [Bool.or_eq_true, not_or, Bool.not_eq_true', Bool.not_eq_false] at ready
    exact serveQueue_session (blkRequest_serves backend ram env) fuel ready.1

end Modvm.Virtio
