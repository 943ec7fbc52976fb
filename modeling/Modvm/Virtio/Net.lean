import Modvm.Virtio.Blk

/-! The VirtIO network device: transmit and control queues, and the receive callback. -/

namespace Modvm.Virtio

open Modvm.Core Modvm.Lib

variable {D T S : Type}

/-- `struct net_backend` with the operations the frontend calls, over a hidden state. -/
structure NetBackend (S : Type) where
  write : S → (buf : List Byte) → Int × S
  getMac : S → Except VmError (Vector Byte 6)

def plainMac : Vector Byte 6 := #v[0x52, 0x54, 0x00, 0x12, 0x34, 0x56]

structure VirtioNetConfig where
  mac : List Byte
  status : Nat
  maxVirtqueuePairs : Nat
  mtu : Nat
  speed : Nat
  duplex : Nat
  rssMaxKeySize : Nat
  rssMaxIndirectionTableLength : Nat
  supportedHashTypes : Nat
deriving DecidableEq, Repr

def VirtioNetConfig.bytes (config : VirtioNetConfig) : List Byte :=
  config.mac ++ toLe 2 config.status ++ toLe 2 config.maxVirtqueuePairs ++ toLe 2 config.mtu
    ++ toLe 4 config.speed ++ toLe 1 config.duplex ++ toLe 1 config.rssMaxKeySize
    ++ toLe 2 config.rssMaxIndirectionTableLength ++ toLe 4 config.supportedHashTypes

/-- `struct virtio_net_ctx`; the backend's operations are a parameter of the handlers. -/
structure VirtioNetCtx (S : Type) where
  state : S
  config : VirtioNetConfig

def virtioIdNet : Nat := 1

def virtioNetQueueSize : Nat := 256

def virtioNetCtrlQueueSize : Nat := 64

def netMaxFrameSize : Nat := 65550

def virtioNetFCtrlVq : BitVec 64 := .twoPow 64 17

def virtioNetFCtrlMacAddr : BitVec 64 := .twoPow 64 23

def virtioNetOk : Byte := 0

def virtioNetErr : Byte := 1

/-- `struct virtio_net_hdr_v1` as a received frame is prefixed with it: one buffer. -/
def netRxHeader : List Byte := List.replicate 10 0 ++ toLe 2 1

/-- `virtio_net_get_features`: `MAC`, `STATUS`, `CTRL_VQ`, and `CTRL_MAC_ADDR`. -/
def virtioNetGetFeatures : BitVec 64 :=
  BitVec.twoPow 64 5 ||| BitVec.twoPow 64 16 ||| virtioNetFCtrlVq ||| virtioNetFCtrlMacAddr

/-- The command of a control chain; the address is replaced even where its read fails. -/
def netCtrlCommand (ram : RamMap) (env : Env D) (chain : VirtqueueChain)
    (w : World D (VirtioNetCtx S) T)
    : Byte × World D (VirtioNetCtx S) T :=
  if !hasBit w.vdev.driverFeatures virtioNetFCtrlMacAddr then (virtioNetErr, w)
  else
    match virtqueueRead ram env chain 0 [0, 0] w with
    | (some _, _, w) => (virtioNetErr, w)
    | (none, ctrl, w) =>
        if ctrl = [1, 1] ∧ chain.readable = 2 + 6 then
          let (error, mac, w) := virtqueueRead ram env chain 2 w.frontend.config.mac w
          let config := { w.frontend.config with mac := mac }
          (if error.isNone then virtioNetOk else virtioNetErr,
            { w with frontend := { w.frontend with config := config } })
        else (virtioNetErr, w)

def netCtrl (ram : RamMap) (env : Env D) : ServeBody D (VirtioNetCtx S) T :=
  fun chain w =>
    if chain.writable = 0 then (none, w)
    else
      let (status, w) := netCtrlCommand ram env chain w
      respond ram env chain status 1 w

/-- One round of the transmit queue: whatever becomes of the frame, its chain is returned. -/
def netTransmit (backend : NetBackend S) (ram : RamMap) (env : Env D)
    : ServeBody D (VirtioNetCtx S) T :=
  fun chain w =>
    if chain.writable = 0 ∧ chain.readable > 12 ∧ chain.readable - 12 ≤ netMaxFrameSize then
      match virtqueueRead ram env chain 12 (List.replicate (chain.readable - 12) 0) w with
      | (some _, _, w) => (some 0, w)
      | (none, frame, w) =>
          -- What the backend makes of the frame is not reported to the driver.
          let (_, state) := backend.write w.frontend.state frame
          (some 0, { w with frontend := { w.frontend with state := state } }.record chain.queue
            .backendWrite)
    else (some 0, w)

/-- `virtio_net_notify_queue`: queue 1 transmits, queue 2 takes commands if negotiated. -/
def virtioNetNotifyQueue [VirtioTransport T] (backend : NetBackend S) (ram : RamMap)
    (env : Env D) (fuel q : Nat) (w : World D (VirtioNetCtx S) T)
    : World D (VirtioNetCtx S) T :=
  if !virtioDeviceReady w.vdev || q ≥ w.vdev.nrVqs || q == 0 then w
  else if q = 2 then
    if !hasBit w.vdev.driverFeatures virtioNetFCtrlVq then w
    else serveQueue ram env q (netCtrl ram env) fuel w
  else serveQueue ram env q (netTransmit backend ram env) fuel w

/-- Copy a received frame behind its header into a chain with room: the bytes written. -/
def netReceive (ram : RamMap) (env : Env D) (chain : VirtqueueChain) (buf : List Byte)
    (w : World D (VirtioNetCtx S) T)
    : Nat × World D (VirtioNetCtx S) T :=
  if chain.readable = 0 ∧ buf.length ≤ 2 ^ 32 - 1 - 12 ∧ chain.writable ≥ 12 + buf.length then
    match virtqueueWrite ram env chain 0 netRxHeader w with
    | (some _, w) => (0, w)
    | (none, w) =>
        match virtqueueWrite ram env chain 12 buf w with
        | (some _, w) => (0, w)
        | (none, w) => (12 + buf.length, w)
  else (0, w)

/-- `virtio_net_rx_cb`: one frame takes one chain of queue 0. -/
def virtioNetRxCb [VirtioTransport T] (ram : RamMap) (env : Env D) (buf : List Byte)
    (w : World D (VirtioNetCtx S) T)
    : World D (VirtioNetCtx S) T :=
  if !virtioDeviceReady w.vdev then w
  else
    match virtqueuePop ram env 0 w with
    | (.error _, w) => virtioDeviceFail w
    | (.ok none, w) => w
    | (.ok (some chain), w) =>
        let (written, w) := netReceive ram env chain buf w
        (virtqueuePush env 0 chain.head written w).notifyQueue

/-- `virtio_net_ops` and the bound receive callback. There is no reset hook. -/
def virtioNetOps [VirtioTransport T] (backend : NetBackend S)
    : VirtioDeviceOps D (VirtioNetCtx S) T where
  getFeatures _ := virtioNetGetFeatures
  reset := none
  readConfig := some fun ctx offset size => readConfigBytes ctx.config.bytes offset size
  writeConfig := none
  notifyQueue := virtioNetNotifyQueue backend
  rxCb := some virtioNetRxCb

/-- Handlers change at most the address in the configuration, and not its length. -/
structure SameButMac (before after : VirtioNetCtx S) : Prop where
  rest : after.config = { before.config with mac := after.config.mac }
  length : after.config.mac.length = before.config.mac.length

theorem SameButMac.refl (ctx : VirtioNetCtx S)
    : SameButMac ctx ctx :=
  ⟨rfl, rfl⟩

theorem SameButMac.trans {first second third : VirtioNetCtx S}
    (before : SameButMac first second) (after : SameButMac second third)
    : SameButMac first third :=
  ⟨by rw [after.rest, before.rest], after.length.trans before.length⟩

theorem netCtrlCommand_serves {ram : RamMap} (env : Env D) {chain : VirtqueueChain}
    {w : World D (VirtioNetCtx S) T} (formed : ChainFormed ram.space chain (chain.bufs w))
    : Transfers env chain.queue (Serves (chain.bufs w)) SameButMac w
        (netCtrlCommand ram env chain w).2 := by
  have header := virtqueueCopy_serves env SameButMac.refl formed false 0 [0, 0]
  unfold netCtrlCommand virtqueueRead
  split
  · exact .refl
  · split
    · rename_i failed
      rwa [failed] at header
    · rename_i ctrl after read
      rw [read] at header
      split
      · have same := header.bufs chain
        have address := virtqueueCopy_serves env SameButMac.refl
          (show ChainFormed ram.space chain (chain.bufs after) from same ▸ formed) false 2
          after.frontend.config.mac
        rw [same] at address
        have unchanged := address.frontend SameButMac.refl fun _ _ _ => SameButMac.trans
        have length := virtqueueCopy_length env
          (show ChainFormed ram.space chain (chain.bufs after) from same ▸ formed) false 2
          after.frontend.config.mac
        exact (header.trans address).tail
          (.frontend _ _ ⟨rfl, length.trans unchanged.length.symm⟩)
      · exact header

theorem netCtrl_serves (ram : RamMap) (env : Env D)
    : BodyServes ram env SameButMac (netCtrl ram env : ServeBody D (VirtioNetCtx S) T) := by
  refine .of_respond SameButMac.refl
    (fun chain w =>
      let (status, w) := netCtrlCommand ram env chain w
      (status, 1, w)) (fun _ _ => rfl) ?_
  intro chain w formed
  exact netCtrlCommand_serves env formed

theorem netTransmit_serves (backend : NetBackend S) (ram : RamMap) (env : Env D)
    : BodyServes ram env SameButMac
        (netTransmit backend ram env : ServeBody D (VirtioNetCtx S) T) := by
  constructor
  · intro chain w formed
    have read := virtqueueCopy_serves env SameButMac.refl formed false 12
      (List.replicate (chain.readable - 12) 0)
    unfold netTransmit virtqueueRead
    split
    · split
      · rename_i failed
        rwa [failed] at read
      · rename_i fetched
        rw [fetched] at read
        exact read.tail (.backend _ .backendWrite _ trivial trivial ⟨rfl, rfl⟩)
    · exact .refl
  · intro chain w formed gaveUp
    unfold netTransmit at gaveUp
    split at gaveUp
    · split at gaveUp <;> cases gaveUp
    · cases gaveUp

theorem netReceive_serves {ram : RamMap} (env : Env D) {chain : VirtqueueChain}
    {w : World D (VirtioNetCtx S) T} (formed : ChainFormed ram.space chain (chain.bufs w))
    (buf : List Byte)
    : Transfers env chain.queue (Serves (chain.bufs w)) SameButMac w
        (netReceive ram env chain buf w).2 := by
  have header := virtqueueWrite_serves env SameButMac.refl formed 0 netRxHeader
  unfold netReceive
  split
  · split
    · rename_i failed
      rwa [failed] at header
    · rename_i after ok
      rw [ok] at header
      have same := header.bufs chain
      have frame := virtqueueWrite_serves env SameButMac.refl
        (show ChainFormed ram.space chain (chain.bufs after) from same ▸ formed) 12 buf
      rw [same] at frame
      split
      · rename_i failed
        rw [failed] at frame
        exact header.trans frame
      · rename_i done
        rw [done] at frame
        exact header.trans frame
  · exact .refl

theorem virtioNetNotifyQueue_session [VirtioTransport T] (backend : NetBackend S)
    (ram : RamMap) (env : Env D) (fuel q : Nat) (w : World D (VirtioNetCtx S) T)
    : Session ram env q SameButMac w (virtioNetNotifyQueue backend ram env fuel q w) := by
  unfold virtioNetNotifyQueue
  split
  · exact .refl
  · rename_i guards
    have ready : virtioDeviceReady w.vdev = true := by
      simp only [Bool.or_eq_true, not_or, Bool.not_eq_true', Bool.not_eq_false] at guards
      exact guards.1.1
    split
    · split
      · exact .refl
      · exact serveQueue_session (netCtrl_serves ram env) fuel ready
    · exact serveQueue_session (netTransmit_serves backend ram env) fuel ready

theorem virtioNetRxCb_session [VirtioTransport T] (ram : RamMap) (env : Env D)
    (buf : List Byte) (w : World D (VirtioNetCtx S) T)
    : Session ram env 0 SameButMac w (virtioNetRxCb ram env buf w) := by
  unfold virtioNetRxCb
  split
  · exact .refl
  · rename_i guard
    have ready : virtioDeviceReady w.vdev = true := by simpa using guard
    split
    · rename_i popped
      exact .single (.breaks ready popped)
    · rename_i popped
      exact .single (.quiet ready popped)
    · rename_i chain after popped
      obtain ⟨formed, owner, -⟩ := virtqueuePop_chain popped
      have received := netReceive_serves env formed buf
      rw [owner] at received
      exact .tail (.single (.serves _ ready popped received)) (.notify _)

end Modvm.Virtio
