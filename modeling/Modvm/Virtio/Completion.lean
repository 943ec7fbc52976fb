import Modvm.Virtio.Session
import Modvm.Virtio.Streams

/-! Completing a chain whose buffers overlap neither each other nor the used ring. -/

namespace Modvm.Virtio

open Modvm.Core Modvm.Lib

variable {D F T : Type}

def Virtqueue.usedSpan (vq : Virtqueue) : Span := ⟨ringGpa vq.usedRing, 6 + 8 * vq.queueSize⟩

/-- No byte belongs to two buffers, or to a buffer and the used ring. -/
structure SeparateBufs (vq : Virtqueue) (bufs : List VirtqueueBuf) : Prop where
  pairwise
    : bufs.Pairwise fun first second =>
        ∀ addr, first.span.Has addr → ¬ second.span.Has addr
  used : ∀ buf ∈ bufs, ∀ addr, buf.span.Has addr → ¬ vq.usedSpan.Has addr

namespace SeparateBufs

variable {vq : Virtqueue} {bufs : List VirtqueueBuf}

theorem mem_addresses {buf : VirtqueueBuf} {addr : Nat}
    : addr ∈ buf.addresses ↔ buf.span.Has addr := by
  simp [VirtqueueBuf.addresses, VirtqueueBuf.span, Span.Has]

theorem of_apart
    (pairwise : bufs.Pairwise fun first second => first.span.Apart second.span)
    (used : ∀ buf ∈ bufs, buf.span.Apart vq.usedSpan)
    : SeparateBufs vq bufs := by
  refine ⟨pairwise.imp ?_, ?_⟩
  · intro first second apart addr has
    exact apart.not_has has
  · intro buf member addr has
    exact (used buf member).not_has has

theorem nodup (separate : SeparateBufs vq bufs) (write : Bool)
    : (streamAddrs write bufs).Nodup := by
  refine List.nodup_flatMap.mpr ⟨fun _ _ => List.nodup_range' .., ?_⟩
  refine (separate.pairwise.filter _).imp ?_
  intro first second apart addr inFirst inSecond
  exact apart addr (mem_addresses.mp inFirst) (mem_addresses.mp inSecond)

end SeparateBufs

variable {w : World D F T} {chain : VirtqueueChain}

theorem virtqueuePush_ram {q id len : Nat} (open_ : (w.queue q).enabled = true)
    (mapped : (w.queue q).usedRing.isNone = false)
    : let used := ringGpa (w.queue q).usedRing
      let elem := used + 4 + 8 * ((w.queue q).lastUsedIdx % (w.queue q).queueSize)
      (virtqueuePush fixedGuest q id len w).guest.ram
        = writeBytes (writeBytes (writeBytes w.guest.ram elem (toLe 4 id)) (elem + 4)
            (toLe 4 len)) (used + 2) (toLe 2 (((w.queue q).lastUsedIdx + 1) % 2 ^ 16)) := by
  unfold virtqueuePush
  rw [if_neg (by simp [open_, mapped])]
  simp [publishUsed, World.advanceUsed, writeUsedElem, World.record, World.queue,
    World.setQueue]

variable {addr : Nat}

/-- A completion stores in the used ring alone. -/
theorem virtqueuePush_outside {q id len : Nat} {addr : Nat} (sized : 0 < (w.queue q).queueSize)
    (outside : ¬ (w.queue q).usedSpan.Has addr)
    : (virtqueuePush fixedGuest q id len w).guest.ram addr = w.guest.ram addr := by
  have slot : (w.queue q).lastUsedIdx % (w.queue q).queueSize < (w.queue q).queueSize :=
    Nat.mod_lt _ sized
  simp only [Virtqueue.usedSpan, Span.Has] at outside
  by_cases closed : (!(w.queue q).enabled || (w.queue q).usedRing.isNone) = true
  · rw [virtqueuePush, if_pos closed]
  · simp only [Bool.or_eq_true, Bool.not_eq_true', not_or, Bool.not_eq_false,
      Bool.not_eq_true] at closed
    rw [virtqueuePush_ram closed.1 closed.2]
    rw [writeBytes_outside, writeBytes_outside, writeBytes_outside]
    all_goals
      simp only [Span.Has, toLe_length]
      omega

theorem SeparateBufs.push {q id len : Nat} {bufs : List VirtqueueBuf}
    (separate : SeparateBufs (w.queue q) bufs) (sized : 0 < (w.queue q).queueSize)
    {buf : VirtqueueBuf} {addr : Nat} (member : buf ∈ bufs) (has : buf.span.Has addr)
    : (virtqueuePush fixedGuest q id len w).guest.ram addr = w.guest.ram addr :=
  virtqueuePush_outside sized (separate.used buf member addr has)

variable {w : World D F T} {bufs : List VirtqueueBuf}

/-- So it leaves the chain's data alone. -/
theorem SeparateBufs.push_stream {q id len : Nat} {w : World D F T}
    {bufs : List VirtqueueBuf} (separate : SeparateBufs (w.queue q) bufs)
    (sized : 0 < (w.queue q).queueSize) (write : Bool)
    : readEach (virtqueuePush fixedGuest q id len w).guest.ram (streamAddrs write bufs)
      = readEach w.guest.ram (streamAddrs write bufs) := by
  refine List.map_congr_left ?_
  intro addr member
  obtain ⟨buf, inBufs, -, has⟩ := mem_streamAddrs.mp member
  exact separate.push sized inBufs has

variable {env : Env D} {ram : RamMap} {q id len : Nat}

theorem virtqueuePop_sized {q : Nat} {before after : World D F T}
    (popped : virtqueuePop ram env q before = (.ok (some chain), after))
    : 0 < (after.queue q).queueSize := by
  have outcome := virtqueuePop_outcome ram env q before
  rw [popped] at outcome
  cases outcome with
  | @chain next _ live fetched =>
    obtain ⟨bufs, same⟩ := fetched.frame.1.queue q
    have size : (next.queue q).queueSize = (before.queue q).queueSize := by
      rw [World.queue, same]
      rfl
    simp only [World.advanceAvail, World.queue_setQueue_self]
    omega

/-- One round of the loop: pop, serve, push. -/
theorem serveLoop_completes [VirtioTransport T] {q : Nat} {body : ServeBody D F T}
    {before after served : World D F T} {len : Nat}
    (popped : virtqueuePop ram env q before = (.ok (some chain), after))
    (answered : body chain after = (some len, served)) (fuel : Nat) (needIrq : Bool)
    : serveLoop ram env q body (fuel + 1) needIrq before
      = serveLoop ram env q body fuel true (virtqueuePush env q chain.head len served) := by
  rw [serveLoop, popped]
  dsimp only
  rw [answered]

/-- Service stores only in the chain's writable buffers. -/
theorem Transfers.ram_outside {q : Nat} {keeps : F → F → Prop} {next : World D F T}
    (steps : Transfers fixedGuest q (Serves bufs) keeps w next)
    (outside : addr ∉ streamAddrs true bufs)
    : next.guest.ram addr = w.guest.ram addr := by
  induction steps with
  | refl => rfl
  | tail _ step ih =>
    cases step with
    | load => exact ih
    | backend => exact ih
    | frontend => exact ih
    | store gpa bytes covered =>
      obtain ⟨buf, member, isWrite, within⟩ := covered
      refine (writeBytes_outside _ _ _ ?_).trans ih
      intro has
      exact outside (mem_streamAddrs.mpr ⟨buf, member, isWrite, within.has has⟩)

section

variable {chain : VirtqueueChain} (formed : ChainFormed ram.space chain (chain.bufs w))
  (offset : Nat) (data : List Byte)
include formed

theorem virtqueueRead_frame
    : (virtqueueRead ram env chain offset data w).2.2.vdev = w.vdev
      ∧ (virtqueueRead ram env chain offset data w).2.2.frontend = w.frontend := by
  have steps := virtqueueCopy_transfers env formed false offset data
  exact ⟨steps.frame.1, (steps.frontend (fun _ => rfl) fun _ _ _ => Eq.trans).symm⟩

theorem virtqueueWrite_frame
    : (virtqueueWrite ram env chain offset data w).2.vdev = w.vdev
      ∧ (virtqueueWrite ram env chain offset data w).2.frontend = w.frontend := by
  have steps := virtqueueCopy_transfers env formed true offset data
  exact ⟨steps.frame.1, (steps.frontend (fun _ => rfl) fun _ _ _ => Eq.trans).symm⟩

end

/-- The status byte is stored last in the chain. -/
theorem respond_stores (formed : ChainFormed ram.space chain (chain.bufs w))
    (room : 1 ≤ chain.writable) (status : Byte) (len : Nat)
    : ∃ next,
        respond ram fixedGuest chain status len w = (some len, next)
        ∧ next.vdev = w.vdev
        ∧ next.frontend = w.frontend
        ∧ next.guest.ram = storeEach w.guest.ram
            (window (streamAddrs true (chain.bufs w)) (chain.writable - 1) 1) [status] := by
  obtain ⟨accepted, stored⟩ := @virtqueueWrite_inside _ _ _ _ _ _ formed (chain.writable - 1)
    [status] (by
      rw [List.length_singleton]
      omega)
  obtain ⟨vdev, frontend⟩ :=
    @virtqueueWrite_frame _ _ _ _ fixedGuest _ _ formed (chain.writable - 1) [status]
  unfold respond
  generalize virtqueueWrite ram fixedGuest chain (chain.writable - 1) [status] w = written at *
  obtain ⟨error, next⟩ := written
  obtain rfl : error = none := accepted
  exact ⟨next, rfl, vdev, frontend, congrArg Guest.ram stored⟩

def descBytes (addr len flags next : Nat) : List Byte :=
  toLe 8 addr ++ toLe 4 len ++ toLe 2 flags ++ toLe 2 next

/-- Descriptors at 0x1000, head 0 in the available ring at 0x2000, and `data` at 0x4000. -/
def postedMemory (table data : List Byte) : Nat → Byte :=
  writeBytes (writeBytes (writeBytes (fun _ => 0) 0x1000 table) 0x2002 (toLe 2 1)) 0x4000 data

def postedWorld (table data : List Byte) (frontend : F) : World Unit F Unit :=
  ⟨⟨postedMemory table data, ()⟩, 0,
    ⟨.active, 2, 0x0f#8, 0, fun _ => demoQueue.getD (virtqueueReset default), 3⟩,
    frontend, (), []⟩

end Modvm.Virtio
