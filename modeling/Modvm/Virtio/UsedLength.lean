import Modvm.Virtio.BlkRequests
import Modvm.Virtio.Models

/-! Which bytes of a chain the device has written when it reports a used length. -/

namespace Modvm.Virtio

open Modvm.Core Modvm.Lib

variable {D F T S : Type}

/-! ### The bytes that a device writes -/

def Activity.stored : Activity → Option Span
  | .store span => some span
  | .load _ => none
  | .push _ _ => none
  | .backendRead => none
  | .backendWrite => none
  | .backendFlush => none

/-- The spans stored to between two states of the world. -/
def storedSince (w next : World D F T) : List Span :=
  (next.log.drop w.log.length).filterMap fun event => event.activity.stored

def Written (w next : World D F T) (addr : Nat) : Prop :=
  ∃ span ∈ storedSince w next, span.Has addr

instance (w next : World D F T) (addr : Nat) : Decidable (Written w next addr) :=
  inferInstanceAs (Decidable (∃ span ∈ storedSince w next, span.Has addr))

/-- No more than the chain can hold, and the bytes that `len` covers were all written. -/
def HonestLength (chain : VirtqueueChain) (len : Nat) (w next : World D F T) : Prop :=
  len ≤ chain.writable
  ∧ ∀ addr ∈ (streamAddrs true (chain.bufs w)).take len, Written w next addr

instance (chain : VirtqueueChain) (len : Nat) (w next : World D F T)
    : Decidable (HonestLength chain len w next) :=
  inferInstanceAs (Decidable (_ ∧ _))

/-- From `w` to `next` the device wrote to the addresses `addrs` and to no others. -/
structure Stores (w next : World D F T) (addrs : List Nat) : Prop where
  continues : w.log <+: next.log
  written_iff : ∀ addr, Written w next addr ↔ addr ∈ addrs

variable {next w : World D F T} {env : Env D} {chain : VirtqueueChain} {ram : RamMap} {len : Nat}

theorem storedSince_of_log {events : List Event} (log : next.log = w.log ++ events)
    : storedSince w next = events.filterMap fun event => event.activity.stored := by
  rw [storedSince, log, List.drop_left]

/-- Loads and requests to a backend write nothing. -/
theorem Stores.silent {events : List Event} (log : next.log = w.log ++ events)
    (quiet : ∀ event ∈ events, event.activity.stored = none)
    : Stores w next [] := by
  have nothing : storedSince w next = [] := by
    rw [storedSince_of_log log]
    exact List.filterMap_eq_nil_iff.mpr quiet
  refine ⟨⟨events, log.symm⟩, fun addr => ?_⟩
  simp [Written, nothing]

theorem Stores.refl (w : World D F T) : Stores w w [] :=
  .silent (List.append_nil _).symm (by simp)

/-- What two steps wrote is what they wrote together. -/
theorem Stores.trans {middle : World D F T} {early late : List Nat}
    (first : Stores w middle early) (second : Stores middle next late)
    : Stores w next (early ++ late) := by
  obtain ⟨before, toMiddle⟩ := first.continues
  obtain ⟨behind, toNext⟩ := second.continues
  have both : storedSince w next = storedSince w middle ++ storedSince middle next := by
    rw [storedSince_of_log toMiddle.symm, storedSince_of_log toNext.symm, ← List.filterMap_append]
    refine storedSince_of_log ?_
    rw [← toNext, ← toMiddle, List.append_assoc]
  refine ⟨first.continues.trans second.continues, fun addr => ?_⟩
  rw [List.mem_append, ← first.written_iff, ← second.written_iff]
  simp only [Written, both, List.mem_append, or_and_right, exists_or]

theorem Stores.store (env : Env D) (q gpa : Nat) (bytes : List Byte) (w : World D F T)
    : Stores w (w.store env q gpa bytes) (List.range' gpa bytes.length) := by
  have spans := storedSince_of_log (World.store_log env q gpa bytes w)
  refine ⟨⟨_, rfl⟩, fun addr => ?_⟩
  simp [Written, spans, Activity.stored, Span.Has]

theorem Transfers.storesNothing {q : Nat} {bufs : List VirtqueueBuf} {keeps : F → F → Prop}
    (steps : Transfers env q (Touches bufs false) keeps w next)
    : Stores w next [] := by
  obtain ⟨events, log, all⟩ := steps.log
  refine .silent log fun event member => ?_
  obtain ⟨-, touched, -⟩ := all event member
  cases kind : event.activity with
  | store =>
    rw [kind] at touched
    exact absurd touched.1 Bool.false_ne_true
  | _ => rfl

/-- A device write inside the capacity writes its window, by induction on the rounds. -/
theorem copyLoop_stored {bufs : List VirtqueueBuf} (formed : ChainFormed ram.space chain bufs)
    {fuel offset : Nat} {done rest : List Byte} (same : chain.bufs w = bufs)
    (enough : rest.length ≤ fuel) (inside : offset + rest.length ≤ chain.capacity true)
    : Stores w (copyLoop ram env chain true fuel offset done rest w).2.2
        (window (streamAddrs true bufs) offset rest.length) := by
  induction fuel generalizing offset done rest w with
  | zero =>
    rw [Nat.le_zero.mp enough]
    exact .refl w
  | succ fuel ih =>
    by_cases finished : rest = []
    · subst finished
      exact .refl w
    · obtain ⟨gpa, chunk, positive, part, contiguous, round⟩ :=
        @copyLoop_round _ _ _ _ env _ _ _ formed _ _ _ same finished inside
      have dropped : (rest.drop chunk).length = rest.length - chunk := List.length_drop
      have taken : (rest.take chunk).length = chunk := by
        rw [List.length_take]
        omega
      have now := Stores.store env chain.queue gpa (rest.take chunk) w
      have later := @ih (w.store env chain.queue gpa (rest.take chunk)) (offset + chunk)
        (done ++ rest.take chunk) (rest.drop chunk) same (by omega) (by omega)
      rw [taken, ← contiguous] at now
      rw [dropped] at later
      rw [round, window_split _ _ part]
      exact now.trans later

theorem virtqueueWrite_stored {ram : RamMap} {env : Env D} {chain : VirtqueueChain}
    {w : World D F T} (formed : ChainFormed ram.space chain (chain.bufs w)) {offset : Nat}
    {data : List Byte} (inside : offset + data.length ≤ chain.writable)
    : ∃ next, virtqueueWrite ram env chain offset data w = (none, next)
        ∧ chain.bufs next = chain.bufs w
        ∧ Stores w next (window (streamAddrs true (chain.bufs w)) offset data.length) := by
  have accepted := (@virtqueueCopy_inside _ _ _ _ env _ _ formed true _ _ inside).1
  have valid : ¬ (offset > chain.capacity true
      || data.length > chain.capacity true - offset) = true := by
    have capacity : chain.capacity true = chain.writable := rfl
    simp only [Bool.or_eq_true, decide_eq_true_eq]
    omega
  refine ⟨(virtqueueCopy ram env chain true offset data w).2.2, ?_, ?_, ?_⟩
  · rw [← accepted]
    rfl
  · exact (virtqueueCopy_transfers env formed true offset data).bufs chain
  · unfold virtqueueCopy
    rw [if_neg valid]
    exact copyLoop_stored formed rfl (Nat.le_refl _) inside

/-! ### The data of a request -/

/-- The data bytes that a request counts in its used length, and those that it wrote, both from the
start of the writable stream.
-/
structure StoredData where
  counted : Nat
  stored : Nat
deriving DecidableEq, Repr

/-- The parts in which `total` bytes of the writable stream are read, from `done` on: each one is
contiguous for the host.
-/
def readParts (space : MemSpace) (bufs : List VirtqueueBuf) (total : Nat)
    : (fuel done : Nat) → List Nat
  | 0, _ => []
  | fuel + 1, done =>
      if done < total then
        match mapBufs space true bufs done with
        | none => []
        | some (_, mapped) =>
            let chunk := min mapped (total - done)
            chunk :: readParts space bufs total fuel (done + chunk)
      else []

/-- What reads of the backend, one for each part, amount to. The first answer that is not full ends
them; it counts if it is positive, and whatever it put into its part is written.
-/
def readAnswers (backend : BlockBackend S) (state : S) (offset : Nat) : List Nat → StoredData
  | [] => ⟨0, 0⟩
  | part :: rest =>
      let (n, bytes, next) := backend.read state part offset
      if n = (part : Int) then
        let later := readAnswers backend next (offset + part) rest
        ⟨part + later.counted, part + later.stored⟩
      else ⟨n.toNat, min part bytes.length⟩

theorem readAnswers_cons (backend : BlockBackend S) (state : S) (offset part : Nat)
    (rest : List Nat)
    : readAnswers backend state offset (part :: rest)
      = let read := backend.read state part offset
        if read.1 = (part : Int) then
          let later := readAnswers backend read.2.2 (offset + part) rest
          ⟨part + later.counted, part + later.stored⟩
        else ⟨read.1.toNat, min part read.2.1.length⟩ := rfl

/-- The header of a request as the device reads it, while the guest goes on. -/
def headerRead (ram : RamMap) (env : Env D) (chain : VirtqueueChain) (w : World D F T)
    : List Byte :=
  (virtqueueRead ram env chain 0 (List.replicate 16 0) w).2.1

/-- The data of a block request, by its type, the layout of its chain and the backend's answers: a
permitted read has those of the answers, an identification has twenty bytes, others have none.
-/
def blkData (backend : BlockBackend S) (ram : RamMap) (env : Env D) (chain : VirtqueueChain)
    (w : World D (VirtioBlkCtx S) T)
    : StoredData :=
  let header := headerRead ram env chain w
  let type := leNat (header.take 4)
  let sector := leNat ((header.drop 8).take 8)
  let total := chain.writable - 1
  let capacity := (backend.getCapacity w.frontend.state).toNat
  if type = 0 ∧ ReadAllowed chain sector capacity then
    readAnswers backend w.frontend.state (sector * 512)
      (readParts ram.space (chain.bufs w) total total 0)
  else if type = 8 ∧ chain.readable = 16 ∧ 20 ≤ total ∧ total ≤ 2 ^ 32 - 2 then ⟨20, 20⟩
  else ⟨0, 0⟩

/-- The byte behind the counted data was written: it belongs to the data, or is the status byte, or
has the address of one of them.
-/
def StoredData.Covered (data : StoredData) (stream : List Nat) : Prop :=
  ∃ addr, stream[data.counted]? = some addr
    ∧ (addr ∈ stream.take data.stored ∨ stream.getLast? = some addr)

/-- Reads of the backend return the number of bytes they transferred. -/
def HonestReads (backend : BlockBackend S) : Prop :=
  ∀ state count offset,
    (backend.read state count offset).1 ≤ count
    ∧ (backend.read state count offset).1.toNat ≤ (backend.read state count offset).2.1.length

/-- Data that was counted and written as `data` says, with room for a status behind it. -/
structure Counts (chain : VirtqueueChain) (data : StoredData) (w next : World D F T) (written : Nat)
    : Prop where
  counted : written = data.counted
  ordered : data.counted ≤ data.stored
  room : data.stored + 1 ≤ chain.writable
  small : data.stored < 2 ^ 32 - 1
  stores : Stores w next ((streamAddrs true (chain.bufs w)).take data.stored)

theorem Counts.nothing (room : chain.writable ≠ 0) (quiet : Stores w next [])
    : Counts chain ⟨0, 0⟩ w next 0 :=
  ⟨rfl, Nat.le_refl 0, by dsimp only; omega, by decide, quiet⟩

/-! ### Block requests -/

section Block

variable {backend : BlockBackend S} {w : World D (VirtioBlkCtx S) T} {bufs : List VirtqueueBuf}
variable {total offset fuel done : Nat}

theorem blkChunk_stored (backend : BlockBackend S) (env : Env D) (chain : VirtqueueChain)
    (hva : Hva) (chunk offset : Nat) (w : World D (VirtioBlkCtx S) T)
    : Stores w (blkChunk backend env chain true hva chunk offset w).2
        (List.range' hva.gpa
          (min chunk (backend.read w.frontend.state chunk offset).2.1.length)) := by
  rw [← List.length_take]
  exact Stores.trans (.silent rfl (by simp [Activity.stored])) (.store ..)

/-- A read request counts and writes what the backend answered, by induction on the rounds. -/
theorem blkTransfer_stored (honest : HonestReads backend)
    (formed : ChainFormed ram.space chain bufs) (same : chain.bufs w = bufs)
    (inside : total ≤ chain.writable) (small : total < 2 ^ 32) (bounded : done ≤ total)
    : let data := readAnswers backend w.frontend.state (offset + done)
        (readParts ram.space bufs total fuel done)
      let result := blkTransfer backend ram env chain true total offset fuel done done w
      result.2.1 = done + data.counted
      ∧ data.counted ≤ data.stored
      ∧ done + data.stored ≤ total
      ∧ Stores w result.2.2 (window (streamAddrs true bufs) done data.stored) := by
  induction fuel generalizing done w with
  | zero => exact ⟨rfl, Nat.le_refl 0, bounded, .refl w⟩
  | succ fuel ih =>
    by_cases finished : total ≤ done
    · rw [blkTransfer_done finished, readParts, if_neg (Nat.not_lt.mpr finished)]
      exact ⟨rfl, Nat.le_refl 0, bounded, .refl w⟩
    · have more : done < total := Nat.lt_of_not_le finished
      obtain ⟨hva, chunk, positive, part, ⟨mapped, found, size⟩, contiguous, round⟩ :=
        @blkTransfer_round _ _ _ backend _ env _ _ true _ offset _ w formed same more
          (by simpa [dataStart])
      rw [dataStart, if_pos rfl, Nat.zero_add] at found contiguous
      obtain ⟨limit, transferred⟩ := honest w.frontend.state chunk (offset + done)
      have now := blkChunk_stored backend env chain hva chunk (offset + done) w
      have parts : readParts ram.space bufs total (fuel + 1) done
          = chunk :: readParts ram.space bufs total fuel (done + chunk) := by
        rw [readParts, if_pos more, found, size]
      rw [blkChunk_input] at now
      rw [round, blkChunk_input, parts, readAnswers_cons]
      generalize backend.read w.frontend.state chunk (offset + done) = read at *
      have counted : countWritten true read.1 done = done + read.1.toNat := by
        simp only [countWritten, and_true]
        split <;> omega
      dsimp only
      rw [counted]
      by_cases whole : read.1 = chunk
      · -- The part is full, so it is counted and written as a whole, and the next one follows.
        have all : min chunk read.2.1.length = chunk := by omega
        have length : read.1.toNat = chunk := by omega
        rw [if_neg (not_not.mpr whole), if_pos whole, length, Nat.add_assoc offset]
        have rest := @ih ((w.afterRequest chain.queue .backendRead read.2.2).store env chain.queue
          hva.gpa (read.2.1.take chunk)) (done + chunk) same part
        have state : ((w.afterRequest chain.queue .backendRead read.2.2).store env chain.queue
            hva.gpa (read.2.1.take chunk)).frontend.state = read.2.2 := rfl
        rw [state] at rest
        obtain ⟨sum, ordered, fits, later⟩ := rest
        rw [all, ← contiguous] at now
        refine ⟨sum.trans (Nat.add_assoc ..), by dsimp only; omega, by dsimp only; omega, ?_⟩
        rw [window_split _ _ (Nat.le_add_right chunk _), Nat.add_sub_cancel_left]
        exact now.trans later
      · -- Any other answer ends the request, though the part may have been written.
        rw [if_pos whole, if_neg whole]
        refine ⟨rfl, by dsimp only; omega, by dsimp only; omega, ?_⟩
        rw [window_shorter (Nat.min_le_left ..) contiguous]
        exact now

theorem blkTransfer_output_stored (backend : BlockBackend S) (ram : RamMap) (env : Env D)
    (chain : VirtqueueChain) (total offset fuel done written : Nat)
    (w : World D (VirtioBlkCtx S) T)
    : (blkTransfer backend ram env chain false total offset fuel done written w).2.1 = written
      ∧ Stores w (blkTransfer backend ram env chain false total offset fuel done written w).2.2
          [] := by
  induction fuel generalizing done w with
  | zero => exact ⟨rfl, .refl w⟩
  | succ fuel ih =>
    unfold blkTransfer
    split
    · split
      · exact ⟨rfl, .refl w⟩
      · split
        · exact ⟨rfl, .refl w⟩
        · rename_i hva mapped _ _
          generalize (if mapped > total - done then total - done else mapped) = chunk
          have moved : Stores w
              (blkBackendWrite backend env chain.queue hva chunk (offset + done) w).2 [] :=
            .silent (List.append_assoc _ _ _) (by simp [Activity.stored])
          simp only [Bool.false_eq_true, and_false, if_false]
          split
          · exact ⟨rfl, moved⟩
          · obtain ⟨counted, later⟩ := ih (done + chunk)
              (blkBackendWrite backend env chain.queue hva chunk (offset + done) w).2
            exact ⟨counted, moved.trans later⟩
    · exact ⟨rfl, .refl w⟩

/-- Requests that bring no data to the guest count nothing and write nothing. -/
theorem blkDispatch_quiet (backend : BlockBackend S) (ram : RamMap) (env : Env D)
    (chain : VirtqueueChain) {type : Nat} (sector total : Nat) (w : World D (VirtioBlkCtx S) T)
    (notIdentify : type ≠ 8)
    : (blkDispatch backend ram env chain type sector total false w).2.1 = 0
      ∧ Stores w (blkDispatch backend ram env chain type sector total false w).2.2 [] := by
  unfold blkDispatch
  split
  · split
    · exact ⟨rfl, .refl w⟩
    · dsimp only
      split
      · exact ⟨rfl, .refl w⟩
      · exact blkTransfer_output_stored ..
  · split
    · split
      · exact ⟨rfl, .refl w⟩
      · unfold blkFlush
        cases backend.flush with
        | none => exact ⟨rfl, .refl w⟩
        | some => exact ⟨rfl, .silent rfl (by simp [Activity.stored])⟩
    · exact ⟨rfl, .refl w⟩

/-- An identification with room for it writes its twenty bytes. -/
theorem blkDispatch_identify (formed : ChainFormed ram.space chain (chain.bufs w))
    (sector : Nat) (counted : total ≤ 2 ^ 32 - 2) (size : total = chain.writable - 1)
    (room : chain.writable ≠ 0)
    : Counts chain (if 20 ≤ total then ⟨20, 20⟩ else ⟨0, 0⟩) w
        (blkDispatch backend ram env chain 8 sector total true w).2.2
        (blkDispatch backend ram env chain 8 sector total true w).2.1 := by
  unfold blkDispatch
  by_cases fits : total < 20
  · rw [if_pos fits, if_neg (Nat.not_le.mpr fits)]
    exact .nothing room (.refl w)
  · obtain ⟨next, written, -, stored⟩ := @virtqueueWrite_stored _ _ _ _ env _ _ formed 0 blkId (by
      simp only [blkId, List.length_cons, List.length_nil]
      omega)
    rw [if_neg fits, if_pos (Nat.le_of_not_lt fits), written]
    exact ⟨rfl, Nat.le_refl 20, by dsimp only; omega, by decide, stored⟩

section

variable (honest : HonestReads backend) (formed : ChainFormed ram.space chain (chain.bufs w))
include honest formed

/-- A read request, whether it is permitted or not. -/
theorem blkDispatch_read (header : chain.readable = 16) (sector : Nat)
    (counted : total ≤ 2 ^ 32 - 2) (size : total = chain.writable - 1) (room : chain.writable ≠ 0)
    : Counts chain
        (if ReadAllowed chain sector (backend.getCapacity w.frontend.state).toNat then
          readAnswers backend w.frontend.state (sector * 512)
            (readParts ram.space (chain.bufs w) total total 0)
        else ⟨0, 0⟩) w
        (blkDispatch backend ram env chain 0 sector total true w).2.2
        (blkDispatch backend ram env chain 0 sector total true w).2.1 := by
  obtain ⟨transferred, refused⟩ := @blkDispatch_transfer _ _ _ backend _ ram chain w env 0 sector
    total true rfl (.inl rfl) counted
  by_cases allowed : ReadAllowed chain sector (backend.getCapacity w.frontend.state).toNat
  · have addressable := allowed.2
    rw [← size] at addressable
    rw [if_pos allowed, transferred addressable (.inl rfl)]
    have transfer := @blkTransfer_stored _ _ _ env chain ram backend w _ total (sector * 512) total
      0 honest formed rfl (by omega) (by omega) (Nat.zero_le _)
    rw [Nat.add_zero] at transfer
    obtain ⟨sum, ordered, fits, stored⟩ := transfer
    rw [Nat.zero_add] at sum fits
    exact ⟨sum, ordered, by omega, by omega, stored⟩
  · rw [size] at refused
    rw [if_neg allowed, size, refused fun passed => allowed ⟨header, passed.1⟩]
    exact .nothing room (.refl w)

/-- What a request counts and writes before its status is answered. Witness: by its type, after the
header is read; a request of a wrong layout counts and writes nothing.
-/
theorem blkProcess_stored (room : chain.writable ≠ 0)
    : Counts chain (blkData backend ram env chain w) w
        (blkProcess backend ram env chain w).2.2 (blkProcess backend ram env chain w).2.1 := by
  by_cases short : chain.readable < 16
  · -- There is no whole header, so there is no permitted layout either.
    have data : blkData backend ram env chain w = ⟨0, 0⟩ := by
      unfold blkData
      rw [if_neg fun read => absurd read.2.1 (by omega), if_neg fun id => absurd id.2.1 (by omega)]
    rw [data, blkProcess_short short]
    exact .nothing room (.refl w)
  · have inside : 0 + (List.replicate 16 (0 : Byte)).length ≤ chain.capacity false := by
      have capacity : chain.capacity false = chain.readable := rfl
      rw [List.length_replicate]
      omega
    obtain ⟨accepted, -, steps⟩ := @virtqueueCopy_inside _ _ _ _ env _ _ formed false _ _ inside
    have quiet := steps.storesNothing
    have same := steps.bufs chain
    have frontend := (steps.frontend (fun _ => rfl) fun _ _ _ => Eq.trans).symm
    unfold blkProcess blkData headerRead virtqueueRead
    generalize virtqueueCopy ram env chain false 0 (List.replicate 16 0) w = read at *
    obtain ⟨error, header, after⟩ := read
    obtain rfl : error = none := accepted
    dsimp only at *
    have still : ChainFormed ram.space chain (chain.bufs after) := same ▸ formed
    generalize leNat (header.take 4) = type
    generalize leNat ((header.drop 8).take 8) = sector
    -- What is counted and written from here on is so for the whole request.
    have onwards : ∀ {data : StoredData} {result : World D (VirtioBlkCtx S) T} {written : Nat},
        Counts chain data after result written → Counts chain data w result written := by
      intro data result written counts
      obtain ⟨counted, ordered, room, small, stores⟩ := counts
      exact ⟨counted, ordered, room, small, quiet.trans (same ▸ stores)⟩
    by_cases isRead : type = 0
    · subst isRead
      simp only [BEq.rfl, Bool.true_or, if_true, true_and, Bool.true_eq_false, false_and, false_or,
        OfNat.zero_ne_ofNat]
      by_cases layout : chain.readable ≠ 16 ∨ chain.writable - 1 > 2 ^ 32 - 1 - 1
      · rw [if_pos layout, if_neg]
        · exact .nothing room quiet
        · rintro ⟨header, addressable⟩
          have counted := addressable.counted
          omega
      · have counts := @blkDispatch_read _ _ _ env chain ram backend after _ honest still (by omega)
          sector (by omega) rfl room
        rw [frontend, same] at counts
        rw [if_neg layout]
        exact onwards counts
    · by_cases isIdentify : type = 8
      · subst isIdentify
        simp only [BEq.rfl, Bool.or_true, if_true, true_and, Bool.true_eq_false, false_and,
          false_or, isRead, if_false]
        by_cases layout : chain.readable ≠ 16 ∨ chain.writable - 1 > 2 ^ 32 - 1 - 1
        · rw [if_pos layout, if_neg (by omega)]
          exact .nothing room quiet
        · have counts := @blkDispatch_identify _ _ _ env chain ram backend after _ still
            sector (by omega) rfl room
          have condition : (chain.readable = 16 ∧ 20 ≤ chain.writable - 1
              ∧ chain.writable - 1 ≤ 2 ^ 32 - 2) ↔ 20 ≤ chain.writable - 1 := by
            omega
          simp only [if_neg layout, condition]
          exact onwards counts
      · have output : (type == 0 || type == 8) = false := by simp [isRead, isIdentify]
        obtain ⟨none, nothing⟩ := @blkDispatch_quiet _ _ _ backend ram env chain type sector
          (chain.readable - 16) after isIdentify
        simp only [output, isRead, isIdentify, false_and, if_false, Bool.false_eq_true]
        split
        · exact .nothing room quiet
        · rw [none]
          exact .nothing room (quiet.trans nothing)

end

end Block

/-! ### The status and the used length -/

/-- Whether the first bytes, one more than counted, were written is decided by the last of them: the
ones before are data.
-/
theorem covered_iff {stream : List Nat} {data : StoredData} (ordered : data.counted ≤ data.stored)
    (room : data.stored + 1 ≤ stream.length)
    : (∀ addr ∈ stream.take (data.counted + 1),
        addr ∈ stream.take data.stored ++ window stream (stream.length - 1) 1)
      ↔ data.Covered stream := by
  have inside : data.counted < stream.length := by omega
  have status : ∀ addr, addr ∈ window stream (stream.length - 1) 1
      ↔ stream.getLast? = some addr := by
    intro addr
    have last : window stream (stream.length - 1) 1 = stream.getLast?.toList := by
      rw [window, List.getLast?_eq_getElem?, List.take_one, List.head?_drop]
    rw [last, Option.mem_toList]
  simp only [List.mem_append, status]
  constructor
  · intro all
    refine ⟨stream[data.counted], List.getElem?_eq_getElem inside, all _ ?_⟩
    exact List.mem_take_iff_getElem.mpr ⟨data.counted, by omega, rfl⟩
  · rintro ⟨next, found, written⟩ addr member
    rw [List.take_add_one, found] at member
    rcases List.mem_append.mp member with counted | isNext
    · exact .inl (List.take_subset_take_left stream ordered counted)
    · rw [Option.toList_some, List.mem_singleton] at isNext
      exact isNext ▸ written

/-- Where no address occurs twice, the byte behind the counted data is more data, or the status. -/
theorem StoredData.covered_of_nodup {stream : List Nat} {data : StoredData}
    (room : data.stored + 1 ≤ stream.length) (ordered : data.counted ≤ data.stored)
    (nodup : stream.Nodup)
    : data.Covered stream
      ↔ data.counted < data.stored ∨ data.counted + 1 = stream.length := by
  have inside : data.counted < stream.length := by omega
  have found : stream[data.counted]? = some stream[data.counted] :=
    List.getElem?_eq_getElem inside
  have last : stream.getLast? = some (stream[stream.length - 1]) := by
    rw [List.getLast?_eq_getElem?]
    exact List.getElem?_eq_getElem (by omega)
  unfold StoredData.Covered
  rw [found, last]
  simp only [Option.some.injEq, exists_eq_left', List.mem_take_iff_getElem,
    nodup.getElem_inj_iff]
  constructor
  · rintro (⟨index, bound, same⟩ | same)
    · exact .inl (by omega)
    · exact .inr (by omega)
  · rintro (more | whole)
    · exact .inl ⟨data.counted, by omega, rfl⟩
    · exact .inr (by omega)

/-- What a used length of one more than the counted data says: it never exceeds the chain, and its
bytes were all written exactly if the one behind the counted data was.
-/
structure StatusLength (chain : VirtqueueChain) (data : StoredData) (w next : World D F T)
    : Prop where
  bound : data.counted + 1 ≤ chain.writable
  honest_iff
    : HonestLength chain (data.counted + 1) w next
      ↔ data.Covered (streamAddrs true (chain.bufs w))
  separate
    : (streamAddrs true (chain.bufs w)).Nodup
      → (HonestLength chain (data.counted + 1) w next
          ↔ data.counted < data.stored ∨ data.counted + 1 = chain.writable)

/-- The status is answered in the last writable byte, behind the data. -/
theorem respond_length {processed : World D F T} {data : StoredData} {written : Nat}
    (formed : ChainFormed ram.space chain (chain.bufs w))
    (counts : Counts chain data w processed written)
    (same : chain.bufs processed = chain.bufs w) (status : Byte) (len : Nat)
    : ∃ next, respond ram env chain status len processed = (some len, next)
        ∧ StatusLength chain data w next := by
  obtain ⟨-, ordered, room, -, stores⟩ := counts
  have still : ChainFormed ram.space chain (chain.bufs processed) := same ▸ formed
  obtain ⟨next, answered, -, stored⟩ := @virtqueueWrite_stored _ _ _ _ env _ _ still
    (chain.writable - 1) [status] (by
      rw [List.length_singleton]
      omega)
  have all := stores.trans stored
  have length : (streamAddrs true (chain.bufs w)).length = chain.writable :=
    formed.stream_length true
  rw [same, List.length_singleton, ← length] at all
  have covered := covered_iff ordered (length.symm ▸ room)
  have bound : data.counted + 1 ≤ chain.writable := by omega
  have honest : HonestLength chain (data.counted + 1) w next
      ↔ data.Covered (streamAddrs true (chain.bufs w)) := by
    rw [← covered, HonestLength, and_iff_right bound]
    simp only [all.written_iff]
  refine ⟨next, ?_, bound, honest, fun nodup => ?_⟩
  · rw [respond, answered]
  · rw [honest, StoredData.covered_of_nodup (length.symm ▸ room) ordered nodup, length]

theorem blkRequest_length {backend : BlockBackend S} (honest : HonestReads backend)
    {w : World D (VirtioBlkCtx S) T} (formed : ChainFormed ram.space chain (chain.bufs w))
    (room : chain.writable ≠ 0)
    : let data := blkData backend ram env chain w
      ∃ next, blkRequest backend ram env chain w = (some (data.counted + 1), next)
        ∧ StatusLength chain data w next := by
  have counts := @blkProcess_stored _ _ _ env _ _ backend w honest formed room
  have same := (blkProcess_serves backend env formed).bufs chain
  have small := counts.small
  have ordered := counts.ordered
  have request : blkRequest backend ram env chain w
      = respond ram env chain (blkProcess backend ram env chain w).1
          (((blkProcess backend ram env chain w).2.1 + 1) % 2 ^ 32)
          (blkProcess backend ram env chain w).2.2 :=
    if_neg room
  have exactLength : ((blkProcess backend ram env chain w).2.1 + 1) % 2 ^ 32
      = (blkData backend ram env chain w).counted + 1 := by
    rw [counts.counted]
    exact Nat.mod_eq_of_lt (by omega)
  rw [request, exactLength]
  exact respond_length formed counts same ..

section

variable {w : World D (VirtioNetCtx S) T} (formed : ChainFormed ram.space chain (chain.bufs w))
include formed

/-- A command reads its chain, and writes nothing but the answer. -/
theorem netCtrlCommand_stored
    : Stores w (netCtrlCommand ram env chain w).2 [] := by
  have header := virtqueueCopy_transfers env formed false 0 [0, 0]
  unfold netCtrlCommand virtqueueRead
  split
  · exact .refl w
  · split
    · rename_i failed
      rw [failed] at header
      exact header.storesNothing
    · rename_i ctrl after read
      rw [read] at header
      split
      · have still : ChainFormed ram.space chain (chain.bufs after) := header.bufs chain ▸ formed
        have address := virtqueueCopy_transfers env still false 2 after.frontend.config.mac
        have both := header.storesNothing.trans address.storesNothing
        exact ⟨both.continues, both.written_iff⟩
      · exact header.storesNothing

theorem netCtrl_length (room : chain.writable ≠ 0)
    : ∃ next, netCtrl ram env chain w = (some 1, next)
        ∧ StatusLength chain ⟨0, 0⟩ w next := by
  have counts := Counts.nothing room (@netCtrlCommand_stored _ _ _ env _ _ w formed)
  have same := (netCtrlCommand_serves env formed).bufs chain
  have request : netCtrl ram env chain w
      = respond ram env chain (netCtrlCommand ram env chain w).1 1
          (netCtrlCommand ram env chain w).2 :=
    if_neg room
  rw [request]
  exact respond_length formed counts same ..

end

theorem netTransmit_length (backend : NetBackend S) (ram : RamMap) (env : Env D)
    (chain : VirtqueueChain) (w : World D (VirtioNetCtx S) T)
    : ∃ next, netTransmit backend ram env chain w = (some 0, next)
        ∧ HonestLength chain 0 w next := by
  have nothing : ∀ next, HonestLength chain 0 w next := fun _ => ⟨Nat.zero_le _, by simp⟩
  unfold netTransmit
  split
  · split
    · exact ⟨_, rfl, nothing _⟩
    · exact ⟨_, rfl, nothing _⟩
  · exact ⟨_, rfl, nothing _⟩

/-- The length that a received frame is reported with: header and frame if they fit, or nothing. -/
def rxLength (chain : VirtqueueChain) (frame : List Byte) : Nat :=
  if chain.readable = 0 ∧ frame.length ≤ 2 ^ 32 - 1 - 12 ∧ chain.writable ≥ 12 + frame.length then
    12 + frame.length
  else 0

/-- A frame that fits is written behind its header, so its length covers both. -/
theorem netReceive_length {w : World D (VirtioNetCtx S) T}
    (formed : ChainFormed ram.space chain (chain.bufs w)) (frame : List Byte)
    : ∃ next, netReceive ram env chain frame w = (rxLength chain frame, next)
        ∧ HonestLength chain (rxLength chain frame) w next := by
  unfold netReceive rxLength
  split
  · rename_i fits
    obtain ⟨-, -, room⟩ := fits
    have size : netRxHeader.length = 12 := rfl
    obtain ⟨middle, headerOk, same, header⟩ := @virtqueueWrite_stored _ _ _ _ env _ _ formed 0
      netRxHeader (by omega)
    obtain ⟨next, frameOk, -, body⟩ := @virtqueueWrite_stored _ _ _ _ env _ _
      (show ChainFormed ram.space chain (chain.bufs middle) from same ▸ formed) 12 frame room
    have all := header.trans body
    rw [same] at all
    rw [headerOk]
    dsimp only
    rw [frameOk]
    refine ⟨next, rfl, room, fun addr member => (all.written_iff addr).mpr ?_⟩
    rw [List.take_add] at member
    exact member
  · exact ⟨w, rfl, Nat.zero_le _, by simp⟩

/-- A handler takes the chain of the queue with `body` and returns it with the length `len`. -/
def Completes [VirtioTransport T] (ram : RamMap) (env : Env D) (q : Nat) (body : ServeBody D F T)
    (chain : VirtqueueChain) (len : Nat) (before after served : World D F T)
    : Prop :=
  body chain after = (some len, served)
  ∧ ∀ fuel needIrq, serveLoop ram env q body (fuel + 1) needIrq before
      = serveLoop ram env q body fuel true (virtqueuePush env q chain.head len served)

theorem Completes.of_body [VirtioTransport T] {q : Nat} {body : ServeBody D F T}
    {before after served : World D F T}
    (popped : virtqueuePop ram env q before = (.ok (some chain), after))
    (answered : body chain after = (some len, served))
    : Completes ram env q body chain len before after served :=
  ⟨answered, serveLoop_completes popped answered⟩

/-- The length given to `virtqueue_push` for each popped chain. Block requests and control commands
report their counted data and the status; the bytes that this covers were all written exactly if the
byte behind the counted data was, which is so if more data was stored than counted, or nothing but
the status follows. A chain without a writable byte is not returned. Transmitted and received frames
report what was written.
-/
theorem used_length_honest_iff [VirtioTransport T] (ram : RamMap) (env : Env D) (q : Nat)
    (chain : VirtqueueChain)
    : (∀ (backend : BlockBackend S) (before after : World D (VirtioBlkCtx S) T),
        HonestReads backend
        → virtqueuePop ram env q before = (.ok (some chain), after)
        → (chain.writable = 0 → (blkRequest backend ram env chain after).1 = none)
          ∧ (chain.writable ≠ 0
            → let data := blkData backend ram env chain after
              ∃ served,
                Completes ram env q (blkRequest backend ram env) chain (data.counted + 1) before
                  after served
                ∧ StatusLength chain data after served))
      ∧ (∀ before after : World D (VirtioNetCtx S) T,
          virtqueuePop ram env q before = (.ok (some chain), after)
          → (chain.writable = 0 → (netCtrl ram env chain after).1 = none)
            ∧ (chain.writable ≠ 0
              → ∃ served, Completes ram env q (netCtrl ram env) chain 1 before after served
                ∧ StatusLength chain ⟨0, 0⟩ after served))
      ∧ (∀ (backend : NetBackend S) (before after : World D (VirtioNetCtx S) T),
          virtqueuePop ram env q before = (.ok (some chain), after)
          → ∃ served,
              Completes ram env q (netTransmit backend ram env) chain 0 before after served
              ∧ HonestLength chain 0 after served)
      ∧ (∀ (frame : List Byte) (before after : World D (VirtioNetCtx S) T),
          virtqueuePop ram env 0 before = (.ok (some chain), after)
          → virtioDeviceReady before.vdev = true
          → ∃ served,
              netReceive ram env chain frame after = (rxLength chain frame, served)
              ∧ virtioNetRxCb ram env frame before
                = (virtqueuePush env 0 chain.head (rxLength chain frame) served).notifyQueue
              ∧ HonestLength chain (rxLength chain frame) after served) := by
  refine ⟨?_, ?_, ?_, ?_⟩
  · intro backend before after honest popped
    have formed := (virtqueuePop_chain popped).1
    refine ⟨fun none => by rw [blkRequest, if_pos none], fun room => ?_⟩
    obtain ⟨served, answered, length⟩ :=
      @blkRequest_length _ _ _ env _ _ backend honest after formed room
    exact ⟨served, .of_body popped answered, length⟩
  · intro before after popped
    have formed := (virtqueuePop_chain popped).1
    refine ⟨fun none => by rw [netCtrl, if_pos none], fun room => ?_⟩
    obtain ⟨served, answered, length⟩ := @netCtrl_length _ _ _ env _ _ after formed room
    exact ⟨served, .of_body popped answered, length⟩
  · intro backend before after popped
    obtain ⟨served, answered, length⟩ := netTransmit_length backend ram env chain after
    exact ⟨served, .of_body popped answered, length⟩
  · intro frame before after popped ready
    have formed := (virtqueuePop_chain popped).1
    obtain ⟨served, received, length⟩ :=
      @netReceive_length _ _ _ env _ _ after formed frame
    refine ⟨served, received, ?_, length⟩
    rw [virtioNetRxCb, ready, popped]
    simp only [Bool.not_true, Bool.false_eq_true, if_false, received]

/-- A write request of one sector: the status is the only writable byte. -/
def writeSectorWorld : World Unit (VirtioBlkCtx Unit) Unit :=
  postedWorld (descBytes 0x4000 528 1 1 ++ descBytes 0x5000 1 2 0) [1] nullDiskCtx

/-- The disk whose reads fail after they have put 300 bytes into the buffer. -/
def failingDisk : BlockBackend Unit where
  getCapacity _ := 0x100000
  read _ _ _ := (-5, List.replicate 300 0xff, ())
  write _ _ _ := (0, ())
  flush := none
  readonly := false

/-- A read request of one sector. -/
def readOneWorld : World Unit (VirtioBlkCtx Unit) Unit :=
  postedWorld (descBytes 0x4000 16 1 1 ++ descBytes 0x5000 513 2 0) [] nullDiskCtx

/-- The null disk fails the write, and the one byte reported is the status. The failing disk counts
nothing of a read, and the one byte reported is one of the 300 that it stored. The null disk stores
nothing of it, so the byte reported was not written.
-/
theorem used_length_honest_iff_sector
    : (let after := (virtqueuePop demoRam fixedGuest 0 writeSectorWorld).2
       let served := blkRequest nullDisk demoRam fixedGuest ⟨0, 2, 0, 528, 1⟩ after
       blkData nullDisk demoRam fixedGuest ⟨0, 2, 0, 528, 1⟩ after = ⟨0, 0⟩
       ∧ served.1 = some 1
       ∧ HonestLength ⟨0, 2, 0, 528, 1⟩ 1 after served.2)
      ∧ (let after := (virtqueuePop demoRam fixedGuest 0 readOneWorld).2
         let served := blkRequest failingDisk demoRam fixedGuest ⟨0, 2, 0, 16, 513⟩ after
         blkData failingDisk demoRam fixedGuest ⟨0, 2, 0, 16, 513⟩ after = ⟨0, 300⟩
         ∧ served.1 = some 1
         ∧ HonestLength ⟨0, 2, 0, 16, 513⟩ 1 after served.2)
      ∧ (let after := (virtqueuePop demoRam fixedGuest 0 readOneWorld).2
         let served := blkRequest nullDisk demoRam fixedGuest ⟨0, 2, 0, 16, 513⟩ after
         blkData nullDisk demoRam fixedGuest ⟨0, 2, 0, 16, 513⟩ after = ⟨0, 0⟩
         ∧ served.1 = some 1
         ∧ ¬ HonestLength ⟨0, 2, 0, 16, 513⟩ 1 after served.2) := by
  have reads : HonestReads nullDisk :=
    fun _ count _ => ⟨Int.natCast_nonneg count, Nat.le_refl 0⟩
  have fails : HonestReads failingDisk :=
    fun _ count _ => ⟨show (-5 : Int) ≤ count by omega, Nat.zero_le _⟩
  refine ⟨?_, ?_, ?_⟩
  · have popped : (virtqueuePop demoRam fixedGuest 0 writeSectorWorld).1
        = .ok (some ⟨0, 2, 0, 528, 1⟩) := by decide +kernel
    have data : blkData nullDisk demoRam fixedGuest ⟨0, 2, 0, 528, 1⟩
        (virtqueuePop demoRam fixedGuest 0 writeSectorWorld).2 = ⟨0, 0⟩ := by decide +kernel
    have nodup : (streamAddrs true ((⟨0, 2, 0, 528, 1⟩ : VirtqueueChain).bufs
        (virtqueuePop demoRam fixedGuest 0 writeSectorWorld).2)).Nodup := by decide +kernel
    obtain ⟨served, completes, length⟩ := ((used_length_honest_iff demoRam fixedGuest 0
      ⟨0, 2, 0, 528, 1⟩).1 nullDisk writeSectorWorld _ reads (by rw [← popped])).2 (by decide)
    rw [data] at completes length
    refine ⟨data, ?_, ?_⟩
    · rw [completes.1]
    · rw [completes.1]
      exact (length.separate nodup).mpr (.inr rfl)
  · have popped : (virtqueuePop demoRam fixedGuest 0 readOneWorld).1
        = .ok (some ⟨0, 2, 0, 16, 513⟩) := by decide +kernel
    have data : blkData failingDisk demoRam fixedGuest ⟨0, 2, 0, 16, 513⟩
        (virtqueuePop demoRam fixedGuest 0 readOneWorld).2 = ⟨0, 300⟩ := by decide +kernel
    have bufs : (⟨0, 2, 0, 16, 513⟩ : VirtqueueChain).bufs
        (virtqueuePop demoRam fixedGuest 0 readOneWorld).2
        = [⟨0x4000, 16, false⟩, ⟨0x5000, 513, true⟩] := by decide +kernel
    obtain ⟨served, completes, length⟩ := ((used_length_honest_iff demoRam fixedGuest 0
      ⟨0, 2, 0, 16, 513⟩).1 failingDisk readOneWorld _ fails (by rw [← popped])).2 (by decide)
    rw [data] at completes length
    refine ⟨data, ?_, ?_⟩
    · rw [completes.1]
    · rw [completes.1]
      refine (length.separate ?_).mpr (.inl (by decide))
      rw [bufs]
      simp [streamAddrs, VirtqueueBuf.addresses, List.nodup_range']
  · have popped : (virtqueuePop demoRam fixedGuest 0 readOneWorld).1
        = .ok (some ⟨0, 2, 0, 16, 513⟩) := by decide +kernel
    have data : blkData nullDisk demoRam fixedGuest ⟨0, 2, 0, 16, 513⟩
        (virtqueuePop demoRam fixedGuest 0 readOneWorld).2 = ⟨0, 0⟩ := by decide +kernel
    have bufs : (⟨0, 2, 0, 16, 513⟩ : VirtqueueChain).bufs
        (virtqueuePop demoRam fixedGuest 0 readOneWorld).2
        = [⟨0x4000, 16, false⟩, ⟨0x5000, 513, true⟩] := by decide +kernel
    obtain ⟨served, completes, length⟩ := ((used_length_honest_iff demoRam fixedGuest 0
      ⟨0, 2, 0, 16, 513⟩).1 nullDisk readOneWorld _ reads (by rw [← popped])).2 (by decide)
    rw [data] at completes length
    refine ⟨data, ?_, ?_⟩
    · rw [completes.1]
    · rw [completes.1]
      refine fun honest => absurd ((length.separate ?_).mp honest) (by decide)
      rw [bufs]
      simp [streamAddrs, VirtqueueBuf.addresses, List.nodup_range']

/-- A read request whose writable part is two bytes, so it is refused. -/
def refusedReadWorld : World Unit (VirtioBlkCtx Unit) Unit :=
  postedWorld (descBytes 0x4000 16 1 1 ++ descBytes 0x5000 2 2 0) [] nullDiskCtx

/-- An identify request with room for twenty-one bytes and a status. -/
def identifyWorld : World Unit (VirtioBlkCtx Unit) Unit :=
  postedWorld (descBytes 0x4000 16 1 1 ++ descBytes 0x5000 22 2 0) [8] nullDiskCtx

/-- A control command with two writable bytes, on a device that has negotiated the queue. -/
def wideCommandWorld : World Unit (VirtioNetCtx Unit) Unit :=
  let posted := postedWorld (descBytes 0x4000 2 1 1 ++ descBytes 0x5000 2 2 0) [1, 1]
    ⟨(), ⟨[], 0, 0, 0, 0, 0, 0, 0, 0⟩⟩
  { posted with vdev := { posted.vdev with driverFeatures := virtioNetFCtrlVq } }

def silentNet : NetBackend Unit where
  write _ _ := (0, ())
  getMac _ := .ok plainMac

/-- The chains returned between two states of the world, with their lengths. -/
def pushedSince (w next : World D F T) : List (Nat × Nat) :=
  (next.log.drop w.log.length).filterMap fun event =>
    match event.activity with
    | .push id len => some (id, len)
    | _ => none

/-- The status goes to the last writable byte, but the length counts from the first. A refused read
with two writable bytes, an identify request with twenty-two and a control command with two are
pushed with a length that covers a byte which the handler of their queue never writes.
-/
theorem used_length_overstated
    : (let after := (virtqueuePop demoRam fixedGuest 0 refusedReadWorld).2
       let final := virtioBlkNotifyQueue nullDisk demoRam fixedGuest 2 0 refusedReadWorld
       (virtqueuePop demoRam fixedGuest 0 refusedReadWorld).1 = .ok (some ⟨0, 2, 0, 16, 2⟩)
       ∧ pushedSince refusedReadWorld final = [(0, 1)]
       ∧ 0x5000 ∈ (streamAddrs true ((⟨0, 2, 0, 16, 2⟩ : VirtqueueChain).bufs after)).take 1
       ∧ ¬ Written refusedReadWorld final 0x5000)
      ∧ (let after := (virtqueuePop demoRam fixedGuest 0 identifyWorld).2
         let final := virtioBlkNotifyQueue nullDisk demoRam fixedGuest 2 0 identifyWorld
         (virtqueuePop demoRam fixedGuest 0 identifyWorld).1 = .ok (some ⟨0, 2, 0, 16, 22⟩)
         ∧ pushedSince identifyWorld final = [(0, 21)]
         ∧ 0x5014 ∈ (streamAddrs true ((⟨0, 2, 0, 16, 22⟩ : VirtqueueChain).bufs after)).take 21
         ∧ ¬ Written identifyWorld final 0x5014)
      ∧ (let after := (virtqueuePop demoRam fixedGuest 2 wideCommandWorld).2
         let final := virtioNetNotifyQueue silentNet demoRam fixedGuest 2 2 wideCommandWorld
         (virtqueuePop demoRam fixedGuest 2 wideCommandWorld).1 = .ok (some ⟨2, 2, 0, 2, 2⟩)
         ∧ pushedSince wideCommandWorld final = [(0, 1)]
         ∧ 0x5000 ∈ (streamAddrs true ((⟨2, 2, 0, 2, 2⟩ : VirtqueueChain).bufs after)).take 1
         ∧ ¬ Written wideCommandWorld final 0x5000) := by
  refine ⟨⟨?_, ?_, ?_, ?_⟩, ⟨?_, ?_, ?_, ?_⟩, ⟨?_, ?_, ?_, ?_⟩⟩ <;> decide +kernel

end Modvm.Virtio
