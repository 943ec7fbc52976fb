import Modvm.Virtio.Blk
import Modvm.Virtio.Streams

/-! One round of the transfer loop of the block device, in terms of the chain's streams. -/

namespace Modvm.Virtio

open Modvm.Core Modvm.Lib

variable {D T S : Type}

/-- Where the data of a request starts in its stream: behind the header if it is read. -/
def dataStart (input : Bool) : Nat := if input then 0 else 16

def blkChunk (backend : BlockBackend S) (env : Env D) (chain : VirtqueueChain) (input : Bool)
    (hva : Hva) (chunk offset : Nat) (w : World D (VirtioBlkCtx S) T)
    : Int × World D (VirtioBlkCtx S) T :=
  if input then blkBackendRead backend env chain.queue hva chunk offset w
  else blkBackendWrite backend env chain.queue hva chunk offset w

def countWritten (input : Bool) (n : Int) (written : Nat) : Nat :=
  if n > 0 ∧ input = true then (written + n.toNat) % 2 ^ 32 else written

def World.afterRequest (w : World D (VirtioBlkCtx S) T) (q : Nat) (activity : Activity)
    (state : S)
    : World D (VirtioBlkCtx S) T :=
  { w with frontend := { w.frontend with state := state } }.record q activity

section

variable (backend : BlockBackend S) (env : Env D) (chain : VirtqueueChain) (hva : Hva)
  (chunk offset : Nat) (w : World D (VirtioBlkCtx S) T)

theorem blkChunk_input
    : let read := backend.read w.frontend.state chunk offset
      blkChunk backend env chain true hva chunk offset w
      = (read.1, (w.afterRequest chain.queue .backendRead read.2.2).store env chain.queue hva.gpa
          (read.2.1.take chunk)) := rfl

theorem blkChunk_output
    : let loaded := w.load env chain.queue hva.gpa chunk
      let write := backend.write w.frontend.state loaded.1 offset
      blkChunk backend env chain false hva chunk offset w
      = (write.1, loaded.2.afterRequest chain.queue .backendWrite write.2) := rfl

end

section Round

variable {backend : BlockBackend S} {ram : RamMap} {env : Env D} {chain : VirtqueueChain}
variable {bufs : List VirtqueueBuf} {input : Bool} {total offset fuel done written : Nat}
variable {w : World D (VirtioBlkCtx S) T}

theorem blkTransfer_done (finished : total ≤ done)
    : blkTransfer backend ram env chain input total offset fuel done written w
      = (virtioBlkSOk, written, w) := by
  cases fuel with
  | zero => rw [blkTransfer, if_neg (Nat.not_lt.mpr finished)]
  | succ => rw [blkTransfer, if_neg (Nat.not_lt.mpr finished)]

/-- A round with data left moves what `virtqueueMap` gives at its place, but no more than is left.
It ends the request where the backend moved another number of bytes.
-/
theorem blkTransfer_round (formed : ChainFormed ram.space chain bufs)
    (same : chain.bufs w = bufs) (more : done < total)
    (inside : dataStart input + total ≤ chain.capacity input)
    : ∃ hva chunk,
        0 < chunk
        ∧ done + chunk ≤ total
        ∧ (∃ mapped, mapBufs ram.space input bufs (dataStart input + done) = some (hva, mapped)
            ∧ chunk = min mapped (total - done))
        ∧ window (streamAddrs input bufs) (dataStart input + done) chunk
          = List.range' hva.gpa chunk
        ∧ ∀ fuel written,
            blkTransfer backend ram env chain input total offset (fuel + 1) done written w
            = let moved := blkChunk backend env chain input hva chunk (offset + done) w
              if moved.1 ≠ (chunk : Int) then
                (virtioBlkSIoerr, countWritten input moved.1 written, moved.2)
              else
                blkTransfer backend ram env chain input total offset fuel (done + chunk)
                  (countWritten input moved.1 written) moved.2 := by
  obtain ⟨hva, mapped, found, nonempty, -⟩ :=
    virtqueueMap_covers (same ▸ formed)
      (show dataStart input + done < chain.capacity input by omega)
  have foundBufs : mapBufs ram.space input bufs (dataStart input + done)
      = some (hva, mapped) := by
    rw [← same]
    exact found
  have whole := mapBufs_window formed.unwrapped foundBufs
  refine ⟨hva, min mapped (total - done), by omega, by omega, ⟨mapped, foundBufs, rfl⟩, ?_, ?_⟩
  · exact window_shorter (Nat.min_le_left ..) whole
  · intro fuel written
    have position : done + (if input then 0 else 16) = dataStart input + done := by
      rw [dataStart, Nat.add_comm]
    have chunk : (if mapped > total - done then total - done else mapped)
        = min mapped (total - done) := by
      split <;> omega
    rw [blkTransfer, if_pos more, position, found]
    dsimp only
    rw [if_neg (Nat.ne_of_gt nonempty), chunk]
    rfl

end Round

end Modvm.Virtio
