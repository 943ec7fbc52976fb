import Modvm.Virtio.Completion
import Modvm.Virtio.Net

/-! The network device moves whole frames or nothing, however their bytes are scattered. -/

namespace Modvm.Virtio

open Modvm.Core Modvm.Lib

variable {D T S : Type}

def backendWrites {F : Type} (w : World D F T) : Nat :=
  w.log.countP fun event => event.activity == .backendWrite

/-- The frame of a transmit chain: its readable bytes behind the header. -/
def sentFrame (chain : VirtqueueChain) (w : World D (VirtioNetCtx S) T) : List Byte :=
  (readEach w.guest.ram (streamAddrs false (chain.bufs w))).drop 12

/-- The chain carries a frame that the device sends. -/
def Sendable (chain : VirtqueueChain) (w : World D (VirtioNetCtx S) T) : Prop :=
  chain.writable = 0
  ∧ 1 ≤ (sentFrame chain w).length
  ∧ (sentFrame chain w).length ≤ netMaxFrameSize

variable {chain : VirtqueueChain} {ram : RamMap} {w : World D (VirtioNetCtx S) T}
  {frame : List Byte}

theorem sendable_iff (formed : ChainFormed ram.space chain (chain.bufs w))
    : Sendable chain w
      ↔ chain.writable = 0 ∧ chain.readable > 12 ∧ chain.readable - 12 ≤ netMaxFrameSize := by
  have length : (streamAddrs false (chain.bufs w)).length = chain.readable :=
    formed.stream_length false
  simp only [Sendable, sentFrame, List.length_drop, readEach_length]
  omega

theorem virtqueueRead_backendWrites {F : Type} {ram : RamMap} {env : Env D}
    {chain : VirtqueueChain} {w : World D F T}
    (formed : ChainFormed ram.space chain (chain.bufs w)) (offset : Nat) (data : List Byte)
    : backendWrites (virtqueueRead ram env chain offset data w).2.2 = backendWrites w := by
  obtain ⟨events, log, touched⟩ := (virtqueueCopy_transfers env formed false offset data).log
  have loads : events.countP (fun event => event.activity == .backendWrite) = 0 := by
    rw [List.countP_eq_zero]
    intro event member isWrite
    obtain ⟨-, touches, -⟩ := touched event member
    rw [beq_iff_eq.mp isWrite] at touches
    exact touches
  rw [backendWrites, virtqueueRead, log, List.countP_append, loads, Nat.add_zero, backendWrites]

theorem netTransmit_skips {backend : NetBackend S}
    (formed : ChainFormed ram.space chain (chain.bufs w)) (refused : ¬ Sendable chain w)
    : netTransmit backend ram fixedGuest chain w = (some 0, w) :=
  if_neg fun sendable => refused ((sendable_iff formed).mpr sendable)

theorem netTransmit_sends {backend : NetBackend S} {ram : RamMap} {chain : VirtqueueChain}
    {w : World D (VirtioNetCtx S) T} (formed : ChainFormed ram.space chain (chain.bufs w))
    (sendable : Sendable chain w)
    : let served := netTransmit backend ram fixedGuest chain w
      served.1 = some 0
      ∧ served.2.frontend
        = { w.frontend with state := (backend.write w.frontend.state (sentFrame chain w)).2 }
      ∧ served.2.guest = w.guest
      ∧ backendWrites served.2 = backendWrites w + 1 := by
  have condition := (sendable_iff formed).mp sendable
  have length : (streamAddrs false (chain.bufs w)).length = chain.readable :=
    formed.stream_length false
  have inside : 12 + (List.replicate (chain.readable - 12) (0 : Byte)).length
      ≤ chain.readable := by
    rw [List.length_replicate]
    omega
  obtain ⟨accepted, bytes, guest⟩ := virtqueueRead_inside formed inside
  have frontend := (@virtqueueRead_frame _ _ _ _ fixedGuest _ _ formed 12
    (List.replicate (chain.readable - 12) 0)).2
  have requests := @virtqueueRead_backendWrites _ _ _ _ fixedGuest _ _ formed 12
    (List.replicate (chain.readable - 12) 0)
  have whole : window (streamAddrs false (chain.bufs w)) 12 (chain.readable - 12)
      = (streamAddrs false (chain.bufs w)).drop 12 := by
    refine List.take_of_length_le ?_
    rw [List.length_drop, length]
  have frame : readEach w.guest.ram
      (window (streamAddrs false (chain.bufs w)) 12
        (List.replicate (chain.readable - 12) (0 : Byte)).length) = sentFrame chain w := by
    rw [List.length_replicate, whole, readEach, List.map_drop, sentFrame, readEach]
  rw [frame] at bytes
  unfold netTransmit
  rw [if_pos condition]
  generalize virtqueueRead ram fixedGuest chain 12 (List.replicate (chain.readable - 12) 0) w
    = read at *
  obtain ⟨error, data, next⟩ := read
  obtain rfl : error = none := accepted
  obtain rfl : data = sentFrame chain w := bytes
  dsimp only at guest frontend requests ⊢
  rw [frontend]
  refine ⟨rfl, rfl, guest, ?_⟩
  simp only [backendWrites, World.record, List.countP_append] at requests ⊢
  rw [requests]
  rfl

theorem netReceive_refuses (refused : ¬ (chain.readable = 0 ∧ 12 + frame.length ≤ chain.writable))
    : netReceive ram fixedGuest chain frame w = (0, w) :=
  if_neg fun ⟨readable, _, room⟩ => refused ⟨readable, room⟩

theorem netReceive_stores (formed : ChainFormed ram.space chain (chain.bufs w))
    (readable : chain.readable = 0) (room : 12 + frame.length ≤ chain.writable)
    (bounded : frame.length ≤ 2 ^ 32 - 13)
    : let received := netReceive ram fixedGuest chain frame w
      received.1 = 12 + frame.length
      ∧ received.2.guest.ram
        = storeEach w.guest.ram (window (streamAddrs true (chain.bufs w)) 0 (12 + frame.length))
            (netRxHeader ++ frame)
      ∧ received.2.vdev = w.vdev := by
  have header : netRxHeader.length = 12 := rfl
  have length : (streamAddrs true (chain.bufs w)).length = chain.writable :=
    formed.stream_length true
  obtain ⟨headerOk, headerStored⟩ :=
    @virtqueueWrite_inside _ _ _ _ _ _ formed 0 netRxHeader (by omega)
  obtain ⟨headerVdev, -⟩ := @virtqueueWrite_frame _ _ _ _ fixedGuest _ _ formed 0 netRxHeader
  unfold netReceive
  rw [if_pos ⟨readable, bounded, room⟩]
  generalize virtqueueWrite ram fixedGuest chain 0 netRxHeader w = written at *
  obtain ⟨error, middle⟩ := written
  obtain rfl : error = none := headerOk
  dsimp only at headerStored headerVdev ⊢
  -- The buffers are the same after the header was written.
  have same : chain.bufs middle = chain.bufs w := by
    rw [VirtqueueChain.bufs, World.queue, headerVdev]
    rfl
  have still : ChainFormed ram.space chain (chain.bufs middle) := same ▸ formed
  obtain ⟨frameOk, frameStored⟩ :=
    @virtqueueWrite_inside _ _ _ _ _ _ still 12 frame room
  obtain ⟨frameVdev, -⟩ := @virtqueueWrite_frame _ _ _ _ fixedGuest _ _ still 12 frame
  generalize virtqueueWrite ram fixedGuest chain 12 frame middle = written at *
  obtain ⟨error, last⟩ := written
  obtain rfl : error = none := frameOk
  refine ⟨rfl, ?_, frameVdev.trans headerVdev⟩
  have split := window_split (streamAddrs true (chain.bufs w)) 0
    (Nat.le_add_right 12 frame.length)
  rw [Nat.add_sub_cancel_left] at split
  have first := @window_length (streamAddrs true (chain.bufs w)) 0 12 (by omega)
  rw [frameStored, headerStored, same, header, split, storeEach_append (first.trans header.symm)]

/-- The chain is meant for a frame and has room for it behind its header. -/
def HasRoom (chain : VirtqueueChain) (frame : List Byte) : Prop :=
  chain.readable = 0 ∧ 12 + frame.length ≤ chain.writable

section

variable {before after : World D (VirtioNetCtx S) T} (ready : virtioDeviceReady before.vdev = true)
  (popped : virtqueuePop ram fixedGuest 0 before = (.ok (some chain), after))
  (separate : SeparateBufs (after.queue 0) (chain.bufs after))
include ready popped separate

theorem virtioNetRxCb_delivers [VirtioTransport T] (bounded : frame.length ≤ 2 ^ 32 - 13)
    (fits : HasRoom chain frame)
    : let final := virtioNetRxCb ram fixedGuest frame before
      final = (virtqueuePush fixedGuest 0 chain.head (12 + frame.length)
          (netReceive ram fixedGuest chain frame after).2).notifyQueue
      ∧ readEach final.guest.ram (streamAddrs true (chain.bufs after))
        = netRxHeader ++ frame
          ++ (readEach after.guest.ram (streamAddrs true (chain.bufs after))).drop
              (12 + frame.length) := by
  have formed := (virtqueuePop_chain popped).1
  obtain ⟨length, stored, vdev⟩ := netReceive_stores formed fits.1 fits.2 bounded
  have handled : virtioNetRxCb ram fixedGuest frame before
      = (virtqueuePush fixedGuest 0 chain.head (12 + frame.length)
          (netReceive ram fixedGuest chain frame after).2).notifyQueue := by
    unfold virtioNetRxCb
    rw [ready, if_neg (by decide), popped]
    dsimp only
    rw [length]
  have queue : (netReceive ram fixedGuest chain frame after).2.queue 0 = after.queue 0 :=
    congrArg (fun vdev : VirtioDevice => vdev.vqs 0) vdev
  have pushed := @SeparateBufs.push_stream _ _ _ 0 chain.head (12 + frame.length) _ _
    (queue.symm ▸ separate) (queue.symm ▸ virtqueuePop_sized popped) true
  have size : (netRxHeader ++ frame).length = 12 + frame.length := by
    rw [List.length_append]
    rfl
  have room : 0 + (netRxHeader ++ frame).length
      ≤ (streamAddrs true (chain.bufs after)).length := by
    rw [formed.stream_length, size, Nat.zero_add]
    exact fits.2
  have replaced := @readEach_storeEach_slice after.guest.ram _ _ (separate.nodup true) 0 room
  rw [size, Nat.zero_add] at replaced
  refine ⟨handled, ?_⟩
  rw [handled]
  exact pushed.trans ((congrArg (fun ram => readEach ram _) stored).trans replaced)

theorem virtioNetRxCb_drops [VirtioTransport T] (refused : ¬ HasRoom chain frame)
    : let final := virtioNetRxCb ram fixedGuest frame before
      final = (virtqueuePush fixedGuest 0 chain.head 0 after).notifyQueue
      ∧ ∀ buf ∈ chain.bufs after, ∀ addr, buf.span.Has addr
          → final.guest.ram addr = after.guest.ram addr := by
  have handled : virtioNetRxCb ram fixedGuest frame before
      = (virtqueuePush fixedGuest 0 chain.head 0 after).notifyQueue := by
    unfold virtioNetRxCb
    rw [ready, if_neg (by decide), popped]
    dsimp only
    rw [netReceive_refuses refused]
  refine ⟨handled, ?_⟩
  intro buf member addr has
  rw [handled]
  exact separate.push (virtqueuePop_sized popped) member has

end

/-- The network device moves whole frames or nothing. A transmit chain is returned with length 0,
after its frame of 1 to 65550 bytes was handed over in one write if it has no writable part. A
receive chain takes a header of ten zeros and the number one, then the frame, and is returned with
their length, if it has no readable part and room for both; otherwise none of its bytes change and
the length is 0.
-/
theorem net_moves_whole_frames [VirtioTransport T] (backend : NetBackend S) (ram : RamMap)
    (q : Nat) (chain : VirtqueueChain) (before after : World D (VirtioNetCtx S) T)
    (popped : virtqueuePop ram fixedGuest q before = (.ok (some chain), after))
    : (let served := netTransmit backend ram fixedGuest chain after
       (Sendable chain after
          → served.2.frontend
              = { after.frontend with
                  state := (backend.write after.frontend.state (sentFrame chain after)).2 }
            ∧ backendWrites served.2 = backendWrites after + 1)
        ∧ (¬ Sendable chain after → served.2 = after)
        ∧ ∀ fuel needIrq,
            serveLoop ram fixedGuest q (netTransmit backend ram fixedGuest) (fuel + 1) needIrq
              before
            = serveLoop ram fixedGuest q (netTransmit backend ram fixedGuest) fuel true
                (virtqueuePush fixedGuest q chain.head 0 served.2))
      ∧ (q = 0 → virtioDeviceReady before.vdev = true
          → SeparateBufs (after.queue 0) (chain.bufs after)
          → ∀ frame : List Byte, frame.length ≤ 2 ^ 32 - 13
          → let final := virtioNetRxCb ram fixedGuest frame before
            (HasRoom chain frame
              → final = (virtqueuePush fixedGuest 0 chain.head (12 + frame.length)
                  (netReceive ram fixedGuest chain frame after).2).notifyQueue
                ∧ readEach final.guest.ram (streamAddrs true (chain.bufs after))
                  = List.replicate 10 0 ++ [1, 0] ++ frame
                    ++ (readEach after.guest.ram (streamAddrs true (chain.bufs after))).drop
                        (12 + frame.length))
            ∧ (¬ HasRoom chain frame
              → final = (virtqueuePush fixedGuest 0 chain.head 0 after).notifyQueue
                ∧ ∀ buf ∈ chain.bufs after, ∀ addr, buf.span.Has addr
                    → final.guest.ram addr = after.guest.ram addr)) := by
  have formed := (virtqueuePop_chain popped).1
  refine ⟨⟨?_, ?_, ?_⟩, ?_⟩
  · intro sendable
    obtain ⟨-, frontend, -, once⟩ := @netTransmit_sends _ _ _ backend _ _ _ formed sendable
    exact ⟨frontend, once⟩
  · intro refused
    rw [netTransmit_skips formed refused]
  · intro fuel needIrq
    refine serveLoop_completes popped ?_ fuel needIrq
    refine Prod.ext ?_ rfl
    by_cases sendable : Sendable chain after
    · exact (netTransmit_sends formed sendable).1
    · rw [netTransmit_skips formed sendable]
  · rintro rfl ready separate frame bounded
    exact ⟨virtioNetRxCb_delivers ready popped separate bounded,
      virtioNetRxCb_drops ready popped separate⟩

def keepingNet : NetBackend (List (List Byte)) where
  write sent buf := (buf.length, sent ++ [buf])
  getMac _ := .ok plainMac

def keepingNetCtx : VirtioNetCtx (List (List Byte)) :=
  ⟨[], ⟨[0x52, 0x54, 0x00, 0x12, 0x34, 0x56], 1, 0, 0, 0, 0, 0, 0, 0⟩⟩

def transmitWorld : World Unit (VirtioNetCtx (List (List Byte))) Unit :=
  postedWorld (descBytes 0x4000 10 1 1 ++ descBytes 0x400a 4 0 0)
    (List.replicate 12 0 ++ [0xaa, 0xbb]) keepingNetCtx

def receiveWorld : World Unit (VirtioNetCtx (List (List Byte))) Unit :=
  postedWorld (descBytes 0x4000 5 3 1 ++ descBytes 0x5000 20 2 0) [] keepingNetCtx

/-- The two bytes are sent, and a received frame of three bytes lands behind its header in
both buffers.
-/
theorem net_moves_whole_frames_demo
    : (let after := (virtqueuePop demoRam fixedGuest 1 transmitWorld).2
       (netTransmit keepingNet demoRam fixedGuest ⟨1, 2, 0, 14, 0⟩ after).2.frontend.state
        = [[0xaa, 0xbb]])
      ∧ (readEach (virtioNetRxCb demoRam fixedGuest [7, 8, 9] receiveWorld).guest.ram
          (List.range' 0x4000 5 ++ List.range' 0x5000 20)
        = [0, 0, 0, 0, 0, 0, 0, 0, 0, 0, 1, 0] ++ [7, 8, 9] ++ List.replicate 10 0) := by
  have sentPop : (virtqueuePop demoRam fixedGuest 1 transmitWorld).1
      = .ok (some ⟨1, 2, 0, 14, 0⟩) := by decide +kernel
  have heldPop : (virtqueuePop demoRam fixedGuest 0 receiveWorld).1
      = .ok (some ⟨0, 2, 0, 0, 25⟩) := by decide +kernel
  have sent := net_moves_whole_frames keepingNet demoRam 1 ⟨1, 2, 0, 14, 0⟩ transmitWorld
    (virtqueuePop demoRam fixedGuest 1 transmitWorld).2 (by rw [← sentPop])
  have held := net_moves_whole_frames keepingNet demoRam 0 ⟨0, 2, 0, 0, 25⟩ receiveWorld
    (virtqueuePop demoRam fixedGuest 0 receiveWorld).2 (by rw [← heldPop])
  refine ⟨?_, ?_⟩
  · have sendable : Sendable ⟨1, 2, 0, 14, 0⟩
        (virtqueuePop demoRam fixedGuest 1 transmitWorld).2 := by
      unfold Sendable
      decide +kernel
    have state := congrArg VirtioNetCtx.state (sent.1.1 sendable).1
    exact state.trans (by decide +kernel)
  · have bufs : (⟨0, 2, 0, 0, 25⟩ : VirtqueueChain).bufs
        (virtqueuePop demoRam fixedGuest 0 receiveWorld).2
        = [⟨0x4000, 5, true⟩, ⟨0x5000, 20, true⟩] := by decide +kernel
    have separate : SeparateBufs ((virtqueuePop demoRam fixedGuest 0 receiveWorld).2.queue 0)
        ((⟨0, 2, 0, 0, 25⟩ : VirtqueueChain).bufs
          (virtqueuePop demoRam fixedGuest 0 receiveWorld).2) :=
      .of_apart (by decide +kernel) (by decide +kernel)
    have fits : HasRoom ⟨0, 2, 0, 0, 25⟩ [7, 8, 9] := ⟨by decide, by decide⟩
    have delivered :=
      ((held.2 rfl (by decide +kernel) separate [7, 8, 9] (by decide)).1 fits).2
    rw [bufs] at delivered
    exact delivered.trans (by decide +kernel)

end Modvm.Virtio
