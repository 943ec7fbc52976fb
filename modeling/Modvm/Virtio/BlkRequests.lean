import Modvm.Virtio.BlkTransfer
import Modvm.Virtio.Completion

/-! What requests to the block device mean, over a backend that is a disk. -/

namespace Modvm.Virtio

open Modvm.Core Modvm.Lib

variable {D T S : Type}

/-- One call of a backend's `read` or `write`. -/
structure BlkCall where
  write : Bool
  offset : Nat
  count : Nat
  result : Int
deriving DecidableEq, Repr

def BlkCall.Full (call : BlkCall) : Prop := call.result = call.count

instance (call : BlkCall) : Decidable call.Full := inferInstanceAs (Decidable (_ = _))

/-- The backend stores a disk of constant size; `calls` are the transfers so far. One that is not
full may have moved any part.
-/
structure DiskBackend (backend : BlockBackend S) (disk : S → Nat → Byte)
    (calls : S → List BlkCall) (capacity : Nat)
    : Prop where
  capacity : ∀ state, (backend.getCapacity state).toNat = capacity
  readCalls
    : ∀ state count offset,
        calls (backend.read state count offset).2.2
        = calls state ++ [⟨false, offset, count, (backend.read state count offset).1⟩]
  readKeeps : ∀ state count offset, disk (backend.read state count offset).2.2 = disk state
  readFull
    : ∀ state count offset, (backend.read state count offset).1 = count
        → (backend.read state count offset).2.1 = readBytes (disk state) offset count
  writeCalls
    : ∀ state buf offset,
        calls (backend.write state buf offset).2
        = calls state ++ [⟨true, offset, buf.length, (backend.write state buf offset).1⟩]
  writeFull
    : ∀ state buf offset, (backend.write state buf offset).1 = buf.length
        → disk (backend.write state buf offset).2 = writeBytes (disk state) offset buf
  writeRange
    : ∀ state buf offset addr, ¬ (Span.mk offset buf.length).Has addr
        → disk (backend.write state buf offset).2 addr = disk state addr
  flushCalls
    : ∀ flush, backend.flush = some flush → ∀ state, calls (flush state).2 = calls state

section Transfer

variable {backend : BlockBackend S} {disk : S → Nat → Byte} {calls : S → List BlkCall}
variable {capacity : Nat} {ram : RamMap} {chain : VirtqueueChain} {bufs : List VirtqueueBuf}
variable {total offset fuel done : Nat} {w : World D (VirtioBlkCtx S) T}

/-- What the transfer of a read request does: `made` are its backend calls. -/
structure ReadOutcome (disk : S → Nat → Byte) (calls : S → List BlkCall) (stream : List Nat)
    (total offset done : Nat) (w : World D (VirtioBlkCtx S) T)
    (result : Byte × Nat × World D (VirtioBlkCtx S) T) (made : List BlkCall)
    : Prop where
  recorded : calls result.2.2.frontend.state = calls w.frontend.state ++ made
  kind : ∀ call ∈ made, call.write = false
  kept : disk result.2.2.frontend.state = disk w.frontend.state
  status : result.1 = if ∀ call ∈ made, call.Full then virtioBlkSOk else virtioBlkSIoerr
  moved
    : (∀ call ∈ made, call.Full)
      → result.2.1 = total
        ∧ result.2.2.guest.ram
          = storeEach w.guest.ram (window stream done (total - done))
              (readBytes (disk w.frontend.state) (offset + done) (total - done))

variable {stream : List Nat}

theorem ReadOutcome.finished
    : ReadOutcome disk calls stream total offset total w (virtioBlkSOk, total, w) [] := by
  refine ⟨by simp, by simp, rfl, by simp, ?_⟩
  simp [readBytes]

theorem ReadOutcome.cons {chunk : Nat} {call : BlkCall} {middle : World D (VirtioBlkCtx S) T}
    {made : List BlkCall} {result : Byte × Nat × World D (VirtioBlkCtx S) T}
    (rest : ReadOutcome disk calls stream total offset (done + chunk) middle result made)
    (recorded : calls middle.frontend.state = calls w.frontend.state ++ [call])
    (kind : call.write = false) (full : call.Full)
    (kept : disk middle.frontend.state = disk w.frontend.state)
    (stored : middle.guest.ram
      = storeEach w.guest.ram (window stream done chunk)
          (readBytes (disk w.frontend.state) (offset + done) chunk)) (part : done + chunk ≤ total)
    (inside : total ≤ stream.length)
    : ReadOutcome disk calls stream total offset done w result (call :: made) := by
  have all : (∀ other ∈ call :: made, other.Full) ↔ ∀ other ∈ made, other.Full := by
    simp [full]
  refine ⟨?_, ?_, rest.kept.trans kept, ?_, ?_⟩
  · rw [rest.recorded, recorded, List.append_assoc, List.singleton_append]
  · exact List.forall_mem_cons.mpr ⟨kind, rest.kind⟩
  · rw [rest.status]
    simp only [all]
  · intro allFull
    obtain ⟨counted, memory⟩ := rest.moved (all.mp allFull)
    have sum : total - done = chunk + (total - (done + chunk)) := by omega
    have length := @window_length stream done chunk (by omega)
    have behind : total - done - chunk = total - (done + chunk) := by omega
    refine ⟨counted, ?_⟩
    rw [memory, stored, kept, window_split stream done (show chunk ≤ total - done by omega),
      behind, sum, readBytes_add, storeEach_append (by rw [length, readBytes_length]),
      Nat.add_assoc]

/-- The transfer of a read request, by induction on the rounds. -/
theorem blkTransfer_input (lawful : DiskBackend backend disk calls capacity)
    (formed : ChainFormed ram.space chain bufs) (same : chain.bufs w = bufs)
    (inside : total ≤ chain.writable) (small : total < 2 ^ 32) (bounded : done ≤ total)
    (enough : total - done ≤ fuel)
    : ∃ made, ReadOutcome disk calls (streamAddrs true bufs) total offset done w
        (blkTransfer backend ram fixedGuest chain true total offset fuel done done w) made := by
  induction fuel generalizing done w with
  | zero =>
    obtain rfl : done = total := by omega
    rw [blkTransfer_done (Nat.le_refl _)]
    exact ⟨[], .finished⟩
  | succ fuel ih =>
    by_cases finished : done = total
    · subst finished
      rw [blkTransfer_done (Nat.le_refl _)]
      exact ⟨[], .finished⟩
    · have more : done < total := by omega
      obtain ⟨hva, chunk, positive, part, -, contiguous, round⟩ :=
        @blkTransfer_round _ _ _ backend _ fixedGuest _ _ true _ offset _ w formed same more
          (by simpa [dataStart])
      rw [dataStart, if_pos rfl, Nat.zero_add] at contiguous
      have recorded := lawful.readCalls w.frontend.state chunk (offset + done)
      have kept := lawful.readKeeps w.frontend.state chunk (offset + done)
      have full := lawful.readFull w.frontend.state chunk (offset + done)
      rw [round, blkChunk_input]
      generalize backend.read w.frontend.state chunk (offset + done) = read at *
      by_cases whole : read.1 = chunk
      · -- The chunk holds its part of the disk; the rest follows by induction.
        have counted : countWritten true read.1 done = done + chunk := by
          simp only [countWritten, and_true]
          split <;> omega
        have stored : (((w.afterRequest chain.queue .backendRead read.2.2).store fixedGuest
              chain.queue hva.gpa (read.2.1.take chunk))).guest.ram
            = storeEach w.guest.ram (window (streamAddrs true bufs) done chunk)
                (readBytes (disk w.frontend.state) (offset + done) chunk) := by
          have taken : read.2.1.take chunk
              = readBytes (disk w.frontend.state) (offset + done) chunk := by
            rw [full whole, List.take_of_length_le (Nat.le_of_eq (readBytes_length ..))]
          rw [taken, contiguous, store_fixedGuest_guest]
          rw [writeBytes_eq_storeEach, readBytes_length]
          rfl
        rw [if_neg (not_not.mpr whole), counted]
        obtain ⟨made, rest⟩ := @ih (done + chunk)
          ((w.afterRequest chain.queue .backendRead read.2.2).store fixedGuest chain.queue
            hva.gpa (read.2.1.take chunk)) same part (by omega)
        refine ⟨_ :: made, rest.cons recorded rfl whole kept stored part ?_⟩
        rw [formed.stream_length]
        exact inside
      · rw [if_pos whole]
        refine ⟨[⟨false, offset + done, chunk, read.1⟩], recorded, by simp, kept, ?_, ?_⟩
        · simp [BlkCall.Full, whole]
        · intro full
          exact absurd (List.forall_mem_singleton.mp full) whole

structure WriteOutcome (disk : S → Nat → Byte) (calls : S → List BlkCall) (stream : List Nat)
    (total offset done : Nat) (w : World D (VirtioBlkCtx S) T)
    (result : Byte × Nat × World D (VirtioBlkCtx S) T) (made : List BlkCall)
    : Prop where
  recorded : calls result.2.2.frontend.state = calls w.frontend.state ++ made
  kind : ∀ call ∈ made, call.write = true
  guest : result.2.2.guest = w.guest
  status : result.1 = if ∀ call ∈ made, call.Full then virtioBlkSOk else virtioBlkSIoerr
  moved
    : (∀ call ∈ made, call.Full)
      → disk result.2.2.frontend.state
        = writeBytes (disk w.frontend.state) (offset + done)
            (readEach w.guest.ram (window stream (16 + done) (total - done)))
  range
    : ∀ addr, ¬ (Span.mk (offset + done) (total - done)).Has addr
        → disk result.2.2.frontend.state addr = disk w.frontend.state addr

theorem WriteOutcome.finished {written : Nat}
    : WriteOutcome disk calls stream total offset total w (virtioBlkSOk, written, w) [] := by
  refine ⟨by simp, by simp, rfl, by simp, ?_, fun _ _ => rfl⟩
  intro _
  funext addr
  simp [window, writeBytes]

theorem WriteOutcome.cons {chunk : Nat} {call : BlkCall} {middle : World D (VirtioBlkCtx S) T}
    {made : List BlkCall} {result : Byte × Nat × World D (VirtioBlkCtx S) T}
    (rest : WriteOutcome disk calls stream total offset (done + chunk) middle result made)
    (recorded : calls middle.frontend.state = calls w.frontend.state ++ [call])
    (kind : call.write = true) (full : call.Full) (guest : middle.guest = w.guest)
    (stored : disk middle.frontend.state
      = writeBytes (disk w.frontend.state) (offset + done)
          (readEach w.guest.ram (window stream (16 + done) chunk))) (part : done + chunk ≤ total)
    (inside : 16 + total ≤ stream.length)
    : WriteOutcome disk calls stream total offset done w result (call :: made) := by
  have all : (∀ other ∈ call :: made, other.Full) ↔ ∀ other ∈ made, other.Full := by
    simp [full]
  have length : (readEach w.guest.ram (window stream (16 + done) chunk)).length = chunk := by
    rw [readEach_length, window_length (by omega)]
  refine ⟨?_, ?_, rest.guest.trans guest, ?_, ?_, ?_⟩
  · rw [rest.recorded, recorded, List.append_assoc, List.singleton_append]
  · exact List.forall_mem_cons.mpr ⟨kind, rest.kind⟩
  · rw [rest.status]
    simp only [all]
  · intro allFull
    have behind : total - done - chunk = total - (done + chunk) := by omega
    rw [rest.moved (all.mp allFull), stored, guest,
      window_split stream (16 + done) (show chunk ≤ total - done by omega), readEach_append,
      writeBytes_append, length, behind, Nat.add_assoc 16, Nat.add_assoc offset]
  · intro addr outside
    simp only [Span.Has] at outside
    rw [rest.range addr (by simp only [Span.Has]; omega), stored]
    refine writeBytes_outside _ _ _ ?_
    simp only [Span.Has]
    omega

theorem blkTransfer_output (lawful : DiskBackend backend disk calls capacity)
    (formed : ChainFormed ram.space chain bufs) (same : chain.bufs w = bufs)
    (inside : 16 + total ≤ chain.readable) (bounded : done ≤ total)
    (enough : total - done ≤ fuel) (written : Nat)
    : ∃ made, WriteOutcome disk calls (streamAddrs false bufs) total offset done w
        (blkTransfer backend ram fixedGuest chain false total offset fuel done written w)
        made := by
  induction fuel generalizing done w with
  | zero =>
    obtain rfl : done = total := by omega
    rw [blkTransfer_done (Nat.le_refl _)]
    exact ⟨[], .finished⟩
  | succ fuel ih =>
    by_cases finished : done = total
    · subst finished
      rw [blkTransfer_done (Nat.le_refl _)]
      exact ⟨[], .finished⟩
    · have more : done < total := by omega
      obtain ⟨hva, chunk, positive, part, -, contiguous, round⟩ :=
        @blkTransfer_round _ _ _ backend _ fixedGuest _ _ false _ offset _ w formed same more
          (by simpa [dataStart])
      rw [dataStart, if_neg (by decide)] at contiguous
      have bytes : readBytes w.guest.ram hva.gpa chunk
          = readEach w.guest.ram (window (streamAddrs false bufs) (16 + done) chunk) := by
        rw [contiguous, readBytes_eq_readEach]
      have recorded := lawful.writeCalls w.frontend.state
        (readBytes w.guest.ram hva.gpa chunk) (offset + done)
      have full := lawful.writeFull w.frontend.state
        (readBytes w.guest.ram hva.gpa chunk) (offset + done)
      have range := lawful.writeRange w.frontend.state
        (readBytes w.guest.ram hva.gpa chunk) (offset + done)
      rw [round, blkChunk_output]
      dsimp only
      rw [load_fixedGuest_bytes]
      rw [readBytes_length] at recorded full range
      generalize backend.write w.frontend.state (readBytes w.guest.ram hva.gpa chunk)
        (offset + done) = wrote at *
      have counted : countWritten false wrote.1 written = written := by
        simp [countWritten]
      rw [counted]
      by_cases whole : wrote.1 = chunk
      · rw [if_neg (not_not.mpr whole)]
        obtain ⟨made, rest⟩ := @ih (done + chunk)
          ((w.load fixedGuest chain.queue hva.gpa chunk).2.afterRequest chain.queue
            .backendWrite wrote.2) same part (by omega)
        refine ⟨_ :: made, rest.cons recorded rfl whole rfl ?_ part ?_⟩
        · rw [← bytes]
          exact full whole
        · rw [formed.stream_length]
          exact inside
      · rw [if_pos whole]
        refine ⟨[⟨true, offset + done, chunk, wrote.1⟩], recorded, by simp, rfl, ?_, ?_, ?_⟩
        · simp [BlkCall.Full, whole]
        · intro full
          exact absurd (List.forall_mem_singleton.mp full) whole
        · intro addr outside
          refine range addr ?_
          simp only [Span.Has] at outside ⊢
          omega

end Transfer

def requestHeader (chain : VirtqueueChain) (w : World D (VirtioBlkCtx S) T) : List Byte :=
  readEach w.guest.ram ((streamAddrs false (chain.bufs w)).take 16)

def requestType (chain : VirtqueueChain) (w : World D (VirtioBlkCtx S) T) : Nat :=
  leNat ((requestHeader chain w).take 4)

def requestSector (chain : VirtqueueChain) (w : World D (VirtioBlkCtx S) T) : Nat :=
  leNat (((requestHeader chain w).drop 8).take 8)

/-- The data are whole sectors, few enough to be counted, inside the advertised capacity. -/
structure Addressable (total sector capacity : Nat) : Prop where
  aligned : total % 512 = 0
  counted : total ≤ 2 ^ 32 - 2
  within : sector + total / 512 ≤ (virtioBlkConfigOf capacity).capacity

instance (total sector capacity : Nat) : Decidable (Addressable total sector capacity) :=
  decidable_of_iff (total % 512 = 0 ∧ total ≤ 2 ^ 32 - 2
      ∧ sector + total / 512 ≤ (virtioBlkConfigOf capacity).capacity)
    ⟨fun checks => ⟨checks.1, checks.2.1, checks.2.2⟩,
      fun addressable => ⟨addressable.aligned, addressable.counted, addressable.within⟩⟩

def ReadAllowed (chain : VirtqueueChain) (sector capacity : Nat) : Prop :=
  chain.readable = 16 ∧ Addressable (chain.writable - 1) sector capacity

instance (chain : VirtqueueChain) (sector capacity : Nat)
    : Decidable (ReadAllowed chain sector capacity) :=
  inferInstanceAs (Decidable (_ ∧ _))

def WriteAllowed (backend : BlockBackend S) (chain : VirtqueueChain) (sector capacity : Nat)
    : Prop :=
  chain.writable = 1
  ∧ 16 ≤ chain.readable
  ∧ Addressable (chain.readable - 16) sector capacity
  ∧ backend.readonly = false

theorem addressable_iff {total sector capacity : Nat} (wide : capacity < 2 ^ 64)
    (counted : total ≤ 2 ^ 32 - 2)
    : Addressable total sector capacity
      ↔ ¬ (sector > uint64Max / sectorSize ∨ total % sectorSize ≠ 0)
        ∧ ¬ (sector * sectorSize > capacity ∨ total > capacity - sector * sectorSize) := by
  have limit : uint64Max / sectorSize = 2 ^ 55 - 1 := by decide
  have config : (virtioBlkConfigOf capacity).capacity = capacity / 512 := rfl
  rw [limit]
  unfold sectorSize
  constructor
  · rintro ⟨aligned, -, within⟩
    omega
  · rintro ⟨first, second⟩
    refine ⟨by omega, counted, ?_⟩
    omega

/-- A request that fails a check is answered with an error and has no other effect. -/
structure Refused (w : World D (VirtioBlkCtx S) T)
    (result : Byte × Nat × World D (VirtioBlkCtx S) T)
    : Prop where
  status : result.1 = virtioBlkSIoerr
  written : result.2.1 = 0
  guest : result.2.2.guest = w.guest
  frontend : result.2.2.frontend = w.frontend

section Requests

variable {backend : BlockBackend S} {disk : S → Nat → Byte} {calls : S → List BlkCall}
variable {capacity : Nat} {ram : RamMap} {chain : VirtqueueChain}
variable {w : World D (VirtioBlkCtx S) T}

/-- Without a whole header a request is answered with an error at once. -/
theorem blkProcess_short {env : Env D} (short : chain.readable < 16)
    : blkProcess backend ram env chain w = (virtioBlkSIoerr, 0, w) := by
  have outside : ¬ 0 + (List.replicate 16 (0 : Byte)).length ≤ chain.capacity false := by
    have capacity : chain.capacity false = chain.readable := rfl
    rw [List.length_replicate]
    omega
  rw [blkProcess, virtqueueRead, virtqueueCopy_outside outside]

theorem blkProcess_header (formed : ChainFormed ram.space chain (chain.bufs w))
    (long : 16 ≤ chain.readable)
    : ∃ next : World D (VirtioBlkCtx S) T,
        next.guest = w.guest
        ∧ next.frontend = w.frontend
        ∧ chain.bufs next = chain.bufs w
        ∧ let type := requestType chain w
          let input := type == 0 || type == 8
          let total := if input then chain.writable - 1 else chain.readable - 16
          blkProcess backend ram fixedGuest chain w
          = if (input = true ∧ chain.readable ≠ 16) ∨ (input = false ∧ chain.writable ≠ 1)
                ∨ total > 2 ^ 32 - 1 - 1 then
              (virtioBlkSIoerr, 0, next)
            else
              blkDispatch backend ram fixedGuest chain type (requestSector chain w) total input
                next := by
  obtain ⟨accepted, bytes, guest⟩ := @virtqueueRead_inside _ _ _ _ _ _ formed 0
    (List.replicate 16 0) (by simpa using long)
  obtain ⟨vdev, frontend⟩ :=
    @virtqueueRead_frame _ _ _ _ fixedGuest _ _ formed 0 (List.replicate 16 0)
  unfold blkProcess
  generalize virtqueueRead ram fixedGuest chain 0 (List.replicate 16 0) w = read at *
  obtain ⟨error, data, next⟩ := read
  obtain rfl : error = none := accepted
  obtain rfl : data = requestHeader chain w := bytes
  refine ⟨next, guest, frontend, ?_, rfl⟩
  rw [VirtqueueChain.bufs, World.queue, vdev]
  rfl

/-- A read or write that passes the checks is transferred, and any other is refused. -/
theorem blkDispatch_transfer {env : Env D} {type sector total : Nat} {input : Bool}
    (size : (backend.getCapacity w.frontend.state).toNat = capacity) (kind : type = 0 ∨ type = 1)
    (counted : total ≤ 2 ^ 32 - 2)
    : (Addressable total sector capacity → (input = true ∨ backend.readonly = false)
        → blkDispatch backend ram env chain type sector total input w
          = blkTransfer backend ram env chain input total (sector * 512) total 0 0 w)
      ∧ (¬ (Addressable total sector capacity ∧ (input = true ∨ backend.readonly = false))
        → blkDispatch backend ram env chain type sector total input w
          = (virtioBlkSIoerr, 0, w)) := by
  have wide : capacity < 2 ^ 64 := by
    rw [← size]
    exact (backend.getCapacity w.frontend.state).isLt
  have checks := @addressable_iff total sector capacity wide counted
  have permission : (input = true ∨ backend.readonly = false)
      ↔ ¬ (input = false ∧ backend.readonly = true) := by
    cases input <;> cases backend.readonly <;> simp
  unfold blkDispatch
  rw [if_pos kind, size]
  refine ⟨?_, ?_⟩
  · intro addressable permitted
    obtain ⟨first, second⟩ := checks.mp addressable
    rw [if_neg first]
    refine if_neg ?_
    rintro (wrap | past | blocked)
    · exact second (.inl wrap)
    · exact second (.inr past)
    · exact permission.mp permitted blocked
  · intro refused
    by_cases first : sector > uint64Max / sectorSize ∨ total % sectorSize ≠ 0
    · rw [if_pos first]
    · rw [if_neg first]
      refine if_pos ?_
      by_contra passed
      simp only [not_or] at passed
      refine refused ⟨checks.mpr ⟨first, ?_⟩, permission.mpr passed.2.2⟩
      exact not_or.mpr ⟨passed.1, passed.2.1⟩

section

variable {stream : List Nat} {total offset done : Nat} {made : List BlkCall}
  {next : World D (VirtioBlkCtx S) T} {result : Byte × Nat × World D (VirtioBlkCtx S) T}

theorem ReadOutcome.start
    (outcome : ReadOutcome disk calls stream total offset done next result made)
    (guest : next.guest = w.guest) (frontend : next.frontend = w.frontend)
    : ReadOutcome disk calls stream total offset done w result made := by
  obtain ⟨recorded, kind, kept, status, moved⟩ := outcome
  rw [frontend] at recorded kept moved
  rw [guest] at moved
  exact ⟨recorded, kind, kept, status, moved⟩

theorem WriteOutcome.start
    (outcome : WriteOutcome disk calls stream total offset done next result made)
    (guest : next.guest = w.guest) (frontend : next.frontend = w.frontend)
    : WriteOutcome disk calls stream total offset done w result made := by
  obtain ⟨recorded, kind, same, status, moved, range⟩ := outcome
  rw [frontend] at recorded moved range
  rw [guest] at same moved
  exact ⟨recorded, kind, same, status, moved, range⟩

end

section

variable (lawful : DiskBackend backend disk calls capacity)
  (formed : ChainFormed ram.space chain (chain.bufs w))
include lawful formed

theorem blkProcess_read (room : 1 ≤ chain.writable) (type : requestType chain w = 0)
    : (ReadAllowed chain (requestSector chain w) capacity
        → ∃ made, ReadOutcome disk calls (streamAddrs true (chain.bufs w)) (chain.writable - 1)
            (requestSector chain w * 512) 0 w (blkProcess backend ram fixedGuest chain w) made)
      ∧ (¬ ReadAllowed chain (requestSector chain w) capacity
        → Refused w (blkProcess backend ram fixedGuest chain w)) := by
  by_cases short : chain.readable < 16
  · rw [blkProcess_short short]
    refine ⟨?_, fun _ => ⟨rfl, rfl, rfl, rfl⟩⟩
    rintro ⟨header, -⟩
    omega
  · obtain ⟨next, guest, frontend, same, process⟩ :=
      @blkProcess_header _ _ _ backend _ _ _ formed (Nat.le_of_not_lt short)
    rw [type] at process
    simp only [BEq.rfl, Bool.true_or, if_true, true_and, Bool.true_eq_false, false_and,
      false_or] at process
    rw [process]
    by_cases layout : chain.readable ≠ 16 ∨ chain.writable - 1 > 2 ^ 32 - 1 - 1
    · rw [if_pos layout]
      refine ⟨?_, fun _ => ⟨rfl, rfl, guest, frontend⟩⟩
      rintro ⟨header, addressable⟩
      have counted := addressable.counted
      omega
    · rw [if_neg layout]
      have counted : chain.writable - 1 ≤ 2 ^ 32 - 2 := by omega
      obtain ⟨transferred, refused⟩ := @blkDispatch_transfer _ _ _ backend capacity ram chain
        next fixedGuest 0 (requestSector chain w) _ true (lawful.capacity _) (.inl rfl) counted
      refine ⟨?_, ?_⟩
      · rintro ⟨-, addressable⟩
        rw [transferred addressable (.inl rfl)]
        obtain ⟨made, outcome⟩ := @blkTransfer_input _ _ _ backend disk calls capacity ram chain
          _ (chain.writable - 1) (requestSector chain w * 512) (chain.writable - 1) 0 next
          lawful formed same (by omega) (by omega) (Nat.zero_le _) (by omega)
        exact ⟨made, outcome.start guest frontend⟩
      · intro disallowed
        rw [refused fun passed => disallowed ⟨by omega, passed.1⟩]
        exact ⟨rfl, rfl, guest, frontend⟩

theorem blkProcess_write (type : requestType chain w = 1)
    : (WriteAllowed backend chain (requestSector chain w) capacity
        → ∃ made, WriteOutcome disk calls (streamAddrs false (chain.bufs w))
            (chain.readable - 16) (requestSector chain w * 512) 0 w
            (blkProcess backend ram fixedGuest chain w) made)
      ∧ (¬ WriteAllowed backend chain (requestSector chain w) capacity
        → Refused w (blkProcess backend ram fixedGuest chain w)) := by
  by_cases short : chain.readable < 16
  · rw [blkProcess_short short]
    refine ⟨?_, fun _ => ⟨rfl, rfl, rfl, rfl⟩⟩
    rintro ⟨-, header, -⟩
    omega
  · obtain ⟨next, guest, frontend, same, process⟩ :=
      @blkProcess_header _ _ _ backend _ _ _ formed (Nat.le_of_not_lt short)
    have output : ((1 : Nat) == 0 || (1 : Nat) == 8) = false := rfl
    rw [type] at process
    simp only [output, Bool.false_eq_true, if_false, true_and, false_and, false_or] at process
    rw [process]
    by_cases layout : chain.writable ≠ 1 ∨ chain.readable - 16 > 2 ^ 32 - 1 - 1
    · rw [if_pos layout]
      refine ⟨?_, fun _ => ⟨rfl, rfl, guest, frontend⟩⟩
      rintro ⟨answer, -, addressable, -⟩
      have counted := addressable.counted
      omega
    · rw [if_neg layout]
      have counted : chain.readable - 16 ≤ 2 ^ 32 - 2 := by omega
      obtain ⟨transferred, refused⟩ := @blkDispatch_transfer _ _ _ backend capacity ram chain
        next fixedGuest 1 (requestSector chain w) _ false (lawful.capacity _) (.inr rfl) counted
      refine ⟨?_, ?_⟩
      · rintro ⟨-, -, addressable, writable⟩
        rw [transferred addressable (.inr writable)]
        obtain ⟨made, outcome⟩ := @blkTransfer_output _ _ _ backend disk calls capacity ram
          chain _ (chain.readable - 16) (requestSector chain w * 512) (chain.readable - 16) 0
          next lawful formed same (by omega) (Nat.zero_le _) (by omega) 0
        exact ⟨made, outcome.start guest frontend⟩
      · intro disallowed
        have blocked : ¬ (Addressable (chain.readable - 16) (requestSector chain w) capacity
            ∧ (false = true ∨ backend.readonly = false)) := by
          rintro ⟨addressable, wrong | writable⟩
          · cases wrong
          · exact disallowed ⟨by omega, by omega, addressable, writable⟩
        rw [refused blocked]
        exact ⟨rfl, rfl, guest, frontend⟩

theorem blkDispatch_other {env : Env D} {type sector total : Nat} {input : Bool}
    (other : ¬ (type = 0 ∨ type = 1))
    : calls (blkDispatch backend ram env chain type sector total input w).2.2.frontend.state
      = calls w.frontend.state := by
  unfold blkDispatch
  rw [if_neg other]
  split
  · split
    · rfl
    · unfold blkFlush
      cases hook : backend.flush with
      | none => rfl
      | some flush => exact lawful.flushCalls flush hook w.frontend.state
  · split
    · split
      · rfl
      · have frontend := (@virtqueueWrite_frame _ _ _ _ env _ _ formed 0 blkId).2
        split
        · rename_i written
          rw [written] at frontend
          exact congrArg (fun ctx => calls ctx.state) frontend
        · rename_i written
          rw [written] at frontend
          exact congrArg (fun ctx => calls ctx.state) frontend
    · rfl

theorem blkProcess_other (other : ¬ (requestType chain w = 0 ∨ requestType chain w = 1))
    : calls (blkProcess backend ram fixedGuest chain w).2.2.frontend.state
      = calls w.frontend.state := by
  by_cases short : chain.readable < 16
  · rw [blkProcess_short short]
  · obtain ⟨next, guest, frontend, same, process⟩ :=
      @blkProcess_header _ _ _ backend _ _ _ formed (Nat.le_of_not_lt short)
    have before : calls next.frontend.state = calls w.frontend.state := by rw [frontend]
    rw [process]
    generalize (if (requestType chain w == 0 || requestType chain w == 8) = true then
      chain.writable - 1 else chain.readable - 16) = total
    split
    · exact before
    · exact (blkDispatch_other lawful (same ▸ formed) other).trans before

end

theorem blkRequest_completed {q : Nat} (formed : ChainFormed ram.space chain (chain.bufs w))
    (room : 1 ≤ chain.writable) (separate : SeparateBufs (w.queue q) (chain.bufs w))
    (sized : 0 < (w.queue q).queueSize)
    : let processed := blkProcess backend ram fixedGuest chain w
      ∃ served,
        blkRequest backend ram fixedGuest chain w
          = (some ((processed.2.1 + 1) % 2 ^ 32), served)
        ∧ let final := virtqueuePush fixedGuest q chain.head ((processed.2.1 + 1) % 2 ^ 32) served
          final.frontend = processed.2.2.frontend
          ∧ readEach final.guest.ram (streamAddrs true (chain.bufs w))
            = (readEach processed.2.2.guest.ram (streamAddrs true (chain.bufs w))).take
                (chain.writable - 1) ++ [processed.1]
          ∧ ∀ addr ∉ streamAddrs true (chain.bufs w), ¬ (w.queue q).usedSpan.Has addr
            → final.guest.ram addr = w.guest.ram addr := by
  have before := blkProcess_serves backend fixedGuest formed
  have request : blkRequest backend ram fixedGuest chain w
      = respond ram fixedGuest chain (blkProcess backend ram fixedGuest chain w).1
          (((blkProcess backend ram fixedGuest chain w).2.1 + 1) % 2 ^ 32)
          (blkProcess backend ram fixedGuest chain w).2.2 :=
    if_neg (by omega)
  rw [request]
  generalize blkProcess backend ram fixedGuest chain w = processed at *
  have same := before.bufs chain
  have still : ChainFormed ram.space chain (chain.bufs processed.2.2) := same ▸ formed
  have length : (streamAddrs true (chain.bufs w)).length = chain.writable :=
    formed.stream_length true
  obtain ⟨served, answered, vdev, frontend, stored⟩ :=
    respond_stores still room processed.1 ((processed.2.1 + 1) % 2 ^ 32)
  rw [same] at stored
  have queue : served.queue q = w.queue q :=
    congrArg (fun vdev : VirtioDevice => vdev.vqs q) (vdev.trans before.frame.1)
  refine ⟨served, answered, ?_, ?_, ?_⟩
  · rw [(virtqueuePush_protocol fixedGuest q _ _ served).2.2.1, frontend]
  · have pushed := @SeparateBufs.push_stream _ _ _ q chain.head ((processed.2.1 + 1) % 2 ^ 32)
      served _ (queue.symm ▸ separate) (queue.symm ▸ sized) true
    have inside : chain.writable - 1 + [processed.1].length
        ≤ (streamAddrs true (chain.bufs w)).length := by
      rw [List.length_singleton]
      omega
    have replaced := @readEach_storeEach_slice processed.2.2.guest.ram [processed.1] _
      (separate.nodup true) _ inside
    have rest : (readEach processed.2.2.guest.ram (streamAddrs true (chain.bufs w))).drop
        (chain.writable - 1 + [processed.1].length) = [] := by
      refine List.drop_eq_nil_of_le ?_
      rw [readEach_length, List.length_singleton]
      omega
    rw [rest, List.append_nil] at replaced
    rw [pushed, stored]
    exact replaced
  · intro addr outside unused
    have answer : served.guest.ram addr = processed.2.2.guest.ram addr := by
      rw [stored]
      exact storeEach_of_notMem fun inside =>
        outside (List.mem_of_mem_drop (List.mem_of_mem_take inside))
    rw [virtqueuePush_outside (queue.symm ▸ sized) (queue.symm ▸ unused), answer]
    exact before.ram_outside outside

end Requests

/-- What a read request means: its transfers, its writable stream afterwards, the status, and the
used length.
-/
structure ReadMeans (disk : S → Nat → Byte) (capacity : Nat) (chain : VirtqueueChain)
    (after final : World D (VirtioBlkCtx S) T) (stream : List Byte) (status : Byte) (len : Nat)
    (made : List BlkCall)
    : Prop where
  ok_iff
    : status = virtioBlkSOk
      ↔ ReadAllowed chain (requestSector chain after) capacity
        ∧ ∀ call ∈ made, call.write = false ∧ call.Full
  data
    : status = virtioBlkSOk
      → stream
          = readBytes (disk after.frontend.state) (requestSector chain after * 512)
              (chain.writable - 1) ++ [virtioBlkSOk]
        ∧ len = chain.writable - 1 + 1
  kept : disk final.frontend.state = disk after.frontend.state
  refused
    : ¬ ReadAllowed chain (requestSector chain after) capacity
      → made = []
        ∧ stream
          = (readEach after.guest.ram (streamAddrs true (chain.bufs after))).dropLast
            ++ [status]

structure WriteMeans (backend : BlockBackend S) (disk : S → Nat → Byte) (capacity : Nat)
    (chain : VirtqueueChain) (after final : World D (VirtioBlkCtx S) T) (stream : List Byte)
    (status : Byte) (made : List BlkCall)
    : Prop where
  ok_iff
    : status = virtioBlkSOk
      ↔ WriteAllowed backend chain (requestSector chain after) capacity
        ∧ ∀ call ∈ made, call.write = true ∧ call.Full
  stored
    : status = virtioBlkSOk
      → disk final.frontend.state
        = writeBytes (disk after.frontend.state) (requestSector chain after * 512)
            ((readEach after.guest.ram (streamAddrs false (chain.bufs after))).drop 16)
  range
    : ∀ addr, ¬ (Span.mk (requestSector chain after * 512) (chain.readable - 16)).Has addr
      → disk final.frontend.state addr = disk after.frontend.state addr
  data
    : stream
      = (readEach after.guest.ram (streamAddrs true (chain.bufs after))).dropLast ++ [status]
  refused
    : ¬ WriteAllowed backend chain (requestSector chain after) capacity
      → made = [] ∧ disk final.frontend.state = disk after.frontend.state

section Meaning

variable {backend : BlockBackend S} {disk : S → Nat → Byte} {calls : S → List BlkCall}
variable {capacity : Nat} {ram : RamMap} {chain : VirtqueueChain}
variable {w final : World D (VirtioBlkCtx S) T} {status : Byte} {made : List BlkCall}

/-- A request that passed its checks ends with OK exactly if its transfers are all full. -/
theorem transferStatus_ok_iff {allowed : Prop} {write : Bool} (holds : allowed)
    (kind : ∀ call ∈ made, call.write = write)
    (answer : status = if ∀ call ∈ made, call.Full then virtioBlkSOk else virtioBlkSIoerr)
    : (status = virtioBlkSOk ↔ ∀ call ∈ made, call.Full)
      ∧ (status = virtioBlkSOk ↔ allowed ∧ ∀ call ∈ made, call.write = write ∧ call.Full) := by
  have okIff : status = virtioBlkSOk ↔ ∀ call ∈ made, call.Full := by
    rw [answer]
    split
    next full => exact ⟨fun _ => full, fun _ => rfl⟩
    next short => exact ⟨fun wrong => absurd wrong (by decide), fun full => absurd full short⟩
  refine ⟨okIff, okIff.trans ⟨?_, fun passed call member => (passed.2 call member).2⟩⟩
  exact fun full => ⟨holds, fun call member => ⟨kind call member, full call member⟩⟩

theorem refusedStatus_ok_iff {allowed rest : Prop} (fails : ¬ allowed)
    (answer : status = virtioBlkSIoerr)
    : ¬ status = virtioBlkSOk ∧ (status = virtioBlkSOk ↔ allowed ∧ rest) := by
  have wrong : ¬ status = virtioBlkSOk := by
    rw [answer]
    decide
  exact ⟨wrong, iff_of_false wrong fun passed => fails passed.1⟩

theorem take_eq_dropLast (formed : ChainFormed ram.space chain (chain.bufs w))
    : (readEach w.guest.ram (streamAddrs true (chain.bufs w))).take (chain.writable - 1)
      = (readEach w.guest.ram (streamAddrs true (chain.bufs w))).dropLast := by
  have length : (streamAddrs true (chain.bufs w)).length = chain.writable :=
    formed.stream_length true
  rw [List.dropLast_eq_take, readEach_length, length]

section

variable (lawful : DiskBackend backend disk calls capacity)
  (formed : ChainFormed ram.space chain (chain.bufs w))
include lawful formed

theorem read_means (room : 1 ≤ chain.writable) {q : Nat}
    (separate : SeparateBufs (w.queue q) (chain.bufs w)) (type : requestType chain w = 0)
    (frontend : final.frontend = (blkProcess backend ram fixedGuest chain w).2.2.frontend)
    : let processed := blkProcess backend ram fixedGuest chain w
      ∃ made,
        calls final.frontend.state = calls w.frontend.state ++ made
        ∧ ReadMeans disk capacity chain w final
            ((readEach processed.2.2.guest.ram (streamAddrs true (chain.bufs w))).take
              (chain.writable - 1) ++ [processed.1])
            processed.1 ((processed.2.1 + 1) % 2 ^ 32) made := by
  obtain ⟨transferred, refused⟩ := blkProcess_read lawful formed room type
  have length : (streamAddrs true (chain.bufs w)).length = chain.writable :=
    formed.stream_length true
  rw [frontend]
  generalize blkProcess backend ram fixedGuest chain w = processed at *
  by_cases allowed : ReadAllowed chain (requestSector chain w) capacity
  · obtain ⟨made, outcome⟩ := transferred allowed
    obtain ⟨okIff, means⟩ := transferStatus_ok_iff allowed outcome.kind outcome.status
    refine ⟨made, outcome.recorded, means, ?_, ?_, ?_⟩
    · intro ok
      obtain ⟨counted, memory⟩ := outcome.moved (okIff.mp ok)
      have small := allowed.2.counted
      have replaced := @readEach_storeEach_slice w.guest.ram
        (readBytes (disk w.frontend.state) (requestSector chain w * 512) (chain.writable - 1)) _
        (separate.nodup true) 0 (by
          rw [readBytes_length]
          omega)
      rw [readBytes_length, List.take_zero, List.nil_append] at replaced
      rw [Nat.sub_zero, Nat.add_zero] at memory
      refine ⟨?_, ?_⟩
      · rw [ok, memory, window, replaced, List.take_left' (readBytes_length ..)]
      · rw [counted]
        exact Nat.mod_eq_of_lt (by omega)
    · rw [frontend]
      exact outcome.kept
    · exact fun disallowed => absurd allowed disallowed
  · obtain ⟨failed, -, guest, same⟩ := refused allowed
    obtain ⟨wrong, means⟩ := refusedStatus_ok_iff allowed failed
    refine ⟨[], by rw [same, List.append_nil], means, (absurd · wrong), ?_, ?_⟩
    · rw [frontend, same]
    · intro _
      rw [guest, take_eq_dropLast formed]
      exact ⟨rfl, rfl⟩

theorem write_means (type : requestType chain w = 1)
    (frontend : final.frontend = (blkProcess backend ram fixedGuest chain w).2.2.frontend)
    : let processed := blkProcess backend ram fixedGuest chain w
      ∃ made,
        calls final.frontend.state = calls w.frontend.state ++ made
        ∧ WriteMeans backend disk capacity chain w final
            ((readEach processed.2.2.guest.ram (streamAddrs true (chain.bufs w))).take
              (chain.writable - 1) ++ [processed.1])
            processed.1 made := by
  obtain ⟨transferred, refused⟩ := blkProcess_write lawful formed type
  have length : (streamAddrs false (chain.bufs w)).length = chain.readable :=
    formed.stream_length false
  rw [frontend]
  generalize blkProcess backend ram fixedGuest chain w = processed at *
  by_cases allowed : WriteAllowed backend chain (requestSector chain w) capacity
  · obtain ⟨made, outcome⟩ := transferred allowed
    obtain ⟨okIff, means⟩ := transferStatus_ok_iff allowed outcome.kind outcome.status
    have whole : window (streamAddrs false (chain.bufs w)) (16 + 0) (chain.readable - 16 - 0)
        = (streamAddrs false (chain.bufs w)).drop 16 := by
      refine List.take_of_length_le ?_
      rw [List.length_drop]
      omega
    refine ⟨made, outcome.recorded, means, ?_, ?_, ?_, ?_⟩
    · intro ok
      rw [frontend, outcome.moved (okIff.mp ok), whole, Nat.add_zero, readEach, readEach,
        List.map_drop]
    · intro addr outside
      rw [frontend]
      refine outcome.range addr ?_
      rw [Nat.add_zero]
      exact outside
    · rw [outcome.guest, take_eq_dropLast formed]
    · exact fun disallowed => absurd allowed disallowed
  · obtain ⟨failed, -, guest, same⟩ := refused allowed
    obtain ⟨wrong, means⟩ := refusedStatus_ok_iff allowed failed
    refine ⟨[], by rw [same, List.append_nil], means, (absurd · wrong), ?_, ?_, ?_⟩
    · intro addr outside
      rw [frontend, same]
    · rw [guest, take_eq_dropLast formed]
    · intro _
      rw [frontend, same]
      exact ⟨rfl, rfl⟩

end

end Meaning

/-- Requests to the block device over a disk. The last writable byte receives the status. A request
ends with OK exactly if its static checks hold and all its transfers are full, and has then moved
exactly its range; one that fails a check makes no transfer and changes only the status byte. Guest
bytes outside the writable stream and the used ring never change.
-/
theorem blk_request_semantics [VirtioTransport T] {backend : BlockBackend S}
    {disk : S → Nat → Byte} {calls : S → List BlkCall} {capacity : Nat}
    (lawful : DiskBackend backend disk calls capacity) (ram : RamMap) (q : Nat)
    (chain : VirtqueueChain) (before after : World D (VirtioBlkCtx S) T)
    (popped : virtqueuePop ram fixedGuest q before = (.ok (some chain), after))
    (room : 1 ≤ chain.writable) (separate : SeparateBufs (after.queue q) (chain.bufs after))
    : ∃ status len served made,
        blkRequest backend ram fixedGuest chain after = (some len, served)
        ∧ (∀ fuel needIrq,
            serveLoop ram fixedGuest q (blkRequest backend ram fixedGuest) (fuel + 1) needIrq
              before
            = serveLoop ram fixedGuest q (blkRequest backend ram fixedGuest) fuel true
                (virtqueuePush fixedGuest q chain.head len served))
        ∧ let final := virtqueuePush fixedGuest q chain.head len served
          let stream := readEach final.guest.ram (streamAddrs true (chain.bufs after))
          calls final.frontend.state = calls after.frontend.state ++ made
          ∧ stream.getLast? = some status
          ∧ (requestType chain after = 0
              → ReadMeans disk capacity chain after final stream status len made)
          ∧ (requestType chain after = 1
              → WriteMeans backend disk capacity chain after final stream status made)
          ∧ (requestType chain after ≠ 0 → requestType chain after ≠ 1 → made = [])
          ∧ ∀ addr ∉ streamAddrs true (chain.bufs after),
              ¬ (after.queue q).usedSpan.Has addr
              → final.guest.ram addr = after.guest.ram addr := by
  have formed := (virtqueuePop_chain popped).1
  obtain ⟨served, answered, frontend, stream, elsewhere⟩ :=
    @blkRequest_completed _ _ _ backend _ _ _ q formed room separate (virtqueuePop_sized popped)
  have last : (readEach (virtqueuePush fixedGuest q chain.head
        (((blkProcess backend ram fixedGuest chain after).2.1 + 1) % 2 ^ 32) served).guest.ram
        (streamAddrs true (chain.bufs after))).getLast?
      = some (blkProcess backend ram fixedGuest chain after).1 := by
    rw [stream, List.getLast?_append]
    rfl
  have loop := fun fuel needIrq =>
    serveLoop_completes popped answered fuel needIrq
  by_cases isRead : requestType chain after = 0
  · obtain ⟨made, recorded, means⟩ :=
      read_means lawful formed room separate isRead frontend
    refine ⟨_, _, served, made, answered, loop, recorded, last, fun _ => stream ▸ means, ?_, ?_,
      elsewhere⟩
    · omega
    · exact fun other => absurd isRead other
  · by_cases isWrite : requestType chain after = 1
    · obtain ⟨made, recorded, means⟩ := write_means lawful formed isWrite frontend
      refine ⟨_, _, served, made, answered, loop, recorded, last, fun wrong => absurd wrong isRead,
        fun _ => stream ▸ means, ?_, elsewhere⟩
      exact fun _ other => absurd isWrite other
    · have recorded := @blkProcess_other _ _ _ backend disk calls capacity _ _ _ lawful formed
        (not_or.mpr ⟨isRead, isWrite⟩)
      refine ⟨_, _, served, [], answered, loop, ?_, last, fun wrong => absurd wrong isRead,
        fun wrong => absurd wrong isWrite, fun _ _ => rfl, elsewhere⟩
      rw [List.append_nil, frontend, recorded]

def memoryDisk : BlockBackend ((Nat → Byte) × List BlkCall) where
  getCapacity _ := 1024
  read state count offset :=
    (count, readBytes state.1 offset count, (state.1, state.2 ++ [⟨false, offset, count, count⟩]))
  write state buf offset :=
    (buf.length, (writeBytes state.1 offset buf,
      state.2 ++ [⟨true, offset, buf.length, buf.length⟩]))
  flush := none
  readonly := false

theorem memoryDisk_lawful : DiskBackend memoryDisk Prod.fst Prod.snd 1024 where
  capacity _ := rfl
  readCalls _ _ _ := rfl
  readKeeps _ _ _ := rfl
  readFull _ _ _ _ := rfl
  writeCalls _ _ _ := rfl
  writeFull _ _ _ _ := rfl
  writeRange state buf offset _ outside := writeBytes_outside state.1 offset buf outside
  flushCalls _ hook := by cases hook

def readSectorWorld : World Unit (VirtioBlkCtx ((Nat → Byte) × List BlkCall)) Unit :=
  postedWorld (descBytes 0x4000 16 1 1 ++ descBytes 0x5000 513 2 0) []
    ⟨(fun addr => BitVec.ofNat 8 addr, []), virtioBlkConfigOf 1024⟩

/-- The request succeeds, so the guest holds the sector and the status when its chain is pushed. -/
theorem blk_request_semantics_sector
    : let after := (virtqueuePop demoRam fixedGuest 0 readSectorWorld).2
      let request := blkRequest memoryDisk demoRam fixedGuest ⟨0, 2, 0, 16, 513⟩ after
      (virtqueuePop demoRam fixedGuest 0 readSectorWorld).1 = .ok (some ⟨0, 2, 0, 16, 513⟩)
      ∧ request.1 = some 513
      ∧ readEach (virtqueuePush fixedGuest 0 0 513 request.2).guest.ram (List.range' 0x5000 513)
        = readBytes (fun addr => BitVec.ofNat 8 addr) 0 512 ++ [virtioBlkSOk] := by
  have popped : (virtqueuePop demoRam fixedGuest 0 readSectorWorld).1
      = .ok (some ⟨0, 2, 0, 16, 513⟩) := by decide +kernel
  have bufs : (⟨0, 2, 0, 16, 513⟩ : VirtqueueChain).bufs
      (virtqueuePop demoRam fixedGuest 0 readSectorWorld).2
      = [⟨0x4000, 16, false⟩, ⟨0x5000, 513, true⟩] := by decide +kernel
  have separate : SeparateBufs ((virtqueuePop demoRam fixedGuest 0 readSectorWorld).2.queue 0)
      ((⟨0, 2, 0, 16, 513⟩ : VirtqueueChain).bufs
        (virtqueuePop demoRam fixedGuest 0 readSectorWorld).2) :=
    .of_apart (by decide +kernel) (by decide +kernel)
  have type : requestType ⟨0, 2, 0, 16, 513⟩
      (virtqueuePop demoRam fixedGuest 0 readSectorWorld).2 = 0 := by decide +kernel
  have sector : requestSector ⟨0, 2, 0, 16, 513⟩
      (virtqueuePop demoRam fixedGuest 0 readSectorWorld).2 = 0 := by decide +kernel
  have request : (blkRequest memoryDisk demoRam fixedGuest ⟨0, 2, 0, 16, 513⟩
      (virtqueuePop demoRam fixedGuest 0 readSectorWorld).2).2.frontend.state.2
      = [⟨false, 0, 512, 512⟩] := by decide +kernel
  obtain ⟨status, len, served, made, answered, -, recorded, -, read, -⟩ :=
    blk_request_semantics memoryDisk_lawful demoRam 0 ⟨0, 2, 0, 16, 513⟩ readSectorWorld
      (virtqueuePop demoRam fixedGuest 0 readSectorWorld).2 (by rw [← popped]) (by decide)
      separate
  have start : (virtqueuePop demoRam fixedGuest 0 readSectorWorld).2.frontend.state.2 = [] := by
    decide +kernel
  have calls : made = [⟨false, 0, 512, 512⟩] := by
    rw [(virtqueuePush_protocol fixedGuest 0 _ len served).2.2.1] at recorded
    rw [answered] at request
    exact recorded.symm.trans request
  have means := read type
  have allowed : ReadAllowed ⟨0, 2, 0, 16, 513⟩ 0 1024 :=
    ⟨rfl, by decide, by decide, by decide⟩
  have ok : status = virtioBlkSOk := by
    refine means.ok_iff.mpr ⟨sector ▸ allowed, ?_⟩
    rw [calls]
    exact List.forall_mem_singleton.mpr ⟨rfl, rfl⟩
  obtain ⟨data, rfl⟩ := means.data ok
  rw [bufs, sector] at data
  have disk : (virtqueuePop demoRam fixedGuest 0 readSectorWorld).2.frontend.state.1
      = fun addr => BitVec.ofNat 8 addr := by
    rfl
  have addresses : streamAddrs true [⟨0x4000, 16, false⟩, ⟨0x5000, 513, true⟩]
      = List.range' 0x5000 513 := by
    simp [streamAddrs, VirtqueueBuf.addresses]
  rw [disk, addresses] at data
  refine ⟨popped, congrArg Prod.fst answered, ?_⟩
  rw [answered]
  exact data

end Modvm.Virtio
