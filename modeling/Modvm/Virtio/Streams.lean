import Modvm.Lib.Scatter
import Modvm.Virtio.Confinement
import Modvm.Virtio.FixedGuest

/-! The byte streams of a popped chain, as windows of the list of its guest addresses. -/

namespace Modvm.Virtio

open Modvm.Core Modvm.Lib

variable {D F T : Type}

def VirtqueueBuf.addresses (buf : VirtqueueBuf) : List Nat := List.range' buf.gpa buf.len

@[simp]
theorem VirtqueueBuf.addresses_length (buf : VirtqueueBuf)
    : buf.addresses.length = buf.len :=
  List.length_range' ..

/-- The guest addresses of all buffers of one direction, in stream order. -/
def streamAddrs (write : Bool) (bufs : List VirtqueueBuf) : List Nat :=
  (bufs.filter fun buf => buf.isWrite == write).flatMap VirtqueueBuf.addresses

/-- The part of a stream that a transfer of `n` bytes at `offset` covers. -/
def window (stream : List Nat) (offset n : Nat) : List Nat := (stream.drop offset).take n

theorem streamAddrs_cons_same {write : Bool} {buf : VirtqueueBuf} (same : buf.isWrite = write)
    (rest : List VirtqueueBuf)
    : streamAddrs write (buf :: rest) = buf.addresses ++ streamAddrs write rest := by
  simp [streamAddrs, same]

theorem streamAddrs_cons_other {write : Bool} {buf : VirtqueueBuf} (other : buf.isWrite ≠ write)
    (rest : List VirtqueueBuf)
    : streamAddrs write (buf :: rest) = streamAddrs write rest := by
  simp [streamAddrs, other]

theorem streamAddrs_length (write : Bool) (bufs : List VirtqueueBuf)
    : (streamAddrs write bufs).length = total write bufs := by
  induction bufs with
  | nil => rfl
  | cons buf rest ih =>
    rw [total_cons]
    by_cases same : buf.isWrite = write
    · rw [streamAddrs_cons_same same, List.length_append, ih, if_pos same,
        VirtqueueBuf.addresses_length]
    · rw [streamAddrs_cons_other same, ih, if_neg same, Nat.zero_add]

theorem mem_streamAddrs {write : Bool} {bufs : List VirtqueueBuf} {addr : Nat}
    : addr ∈ streamAddrs write bufs
      ↔ ∃ buf ∈ bufs, buf.isWrite = write ∧ buf.span.Has addr := by
  simp [streamAddrs, VirtqueueBuf.addresses, VirtqueueBuf.span, Span.Has, and_assoc]

theorem window_length {stream : List Nat} {offset n : Nat} (inside : offset + n ≤ stream.length)
    : (window stream offset n).length = n := by
  rw [window, List.length_take, List.length_drop]
  omega

theorem window_split (stream : List Nat) (offset : Nat) {chunk n : Nat} (part : chunk ≤ n)
    : window stream offset n
      = window stream offset chunk ++ window stream (offset + chunk) (n - chunk) := by
  have sum : n = chunk + (n - chunk) := by omega
  rw [window, sum, List.take_add, List.drop_drop, Nat.add_sub_cancel_left]
  rfl

theorem take_drop_range' {base len offset chunk : Nat} (inside : offset + chunk ≤ len)
    (rest : List Nat)
    : ((List.range' base len ++ rest).drop offset).take chunk
      = List.range' (base + offset) chunk := by
  have sum : len = offset + chunk + (len - offset - chunk) := by omega
  rw [sum, ← List.range'_append_1, ← List.range'_append_1, List.append_assoc, List.append_assoc,
    List.drop_left' (List.length_range' ..), List.take_left' (List.length_range' ..)]

theorem window_shorter {stream : List Nat} {offset gpa chunk part : Nat} (shorter : part ≤ chunk)
    (contiguous : window stream offset chunk = List.range' gpa chunk)
    : window stream offset part = List.range' gpa part := by
  have prefixes := congrArg (List.take part) contiguous
  have range := @take_drop_range' gpa chunk 0 part (by omega) []
  rw [List.append_nil, List.drop_zero] at range
  rwa [range, window, List.take_take, Nat.min_eq_left shorter] at prefixes

theorem mapBufs_window {space : MemSpace} {write : Bool} {bufs : List VirtqueueBuf}
    {offset chunk : Nat} {hva : Hva}
    (unwrapped : ∀ buf ∈ bufs, buf.gpa + buf.len ≤ uint64Max)
    (mapped : mapBufs space write bufs offset = some (hva, chunk))
    : window (streamAddrs write bufs) offset chunk = List.range' hva.gpa chunk := by
  induction bufs generalizing offset with
  | nil => cases mapped
  | cons buf rest ih =>
    have restUnwrapped : ∀ other ∈ rest, other.gpa + other.len ≤ uint64Max :=
      fun other member => unwrapped other (List.mem_cons_of_mem buf member)
    unfold mapBufs at mapped
    split at mapped
    · rename_i other
      rw [streamAddrs_cons_other (by simpa using other)]
      exact ih restUnwrapped mapped
    · rename_i same
      rw [streamAddrs_cons_same (by simpa using same)]
      split at mapped
      · -- The buffer lies before the offset.
        rename_i past
        have skipped : window (buf.addresses ++ streamAddrs write rest) offset chunk
            = window (streamAddrs write rest) (offset - buf.len) chunk := by
          rw [window, List.drop_append, List.drop_eq_nil_of_le (by simpa using past),
            List.nil_append, VirtqueueBuf.addresses_length, window]
        rw [skipped]
        exact ih restUnwrapped mapped
      · have limit := unwrapped buf List.mem_cons_self
        have start : gpaAdd buf.gpa offset = buf.gpa + offset := by
          refine gpaAdd_eq ?_
          unfold uint64Max at limit
          omega
        obtain ⟨-, address, -, shorter, -⟩ := memMapChunk_sound mapped
        rw [address, start]
        exact take_drop_range' (by omega) _

theorem copyLoop_round {ram : RamMap} {env : Env D} {chain : VirtqueueChain} {write : Bool}
    {bufs : List VirtqueueBuf} (formed : ChainFormed ram.space chain bufs)
    {offset : Nat} {rest : List Byte} {w : World D F T}
    (same : chain.bufs w = bufs) (more : rest ≠ [])
    (inside : offset + rest.length ≤ chain.capacity write)
    : ∃ gpa chunk,
        0 < chunk
        ∧ chunk ≤ rest.length
        ∧ window (streamAddrs write bufs) offset chunk = List.range' gpa chunk
        ∧ ∀ fuel done,
            copyLoop ram env chain write (fuel + 1) offset done rest w
            = if write then
                copyLoop ram env chain write fuel (offset + chunk) (done ++ rest.take chunk)
                  (rest.drop chunk) (w.store env chain.queue gpa (rest.take chunk))
              else
                copyLoop ram env chain write fuel (offset + chunk)
                  (done ++ (w.load env chain.queue gpa chunk).1) (rest.drop chunk)
                  (w.load env chain.queue gpa chunk).2 := by
  have positive := List.length_pos_iff.mpr more
  obtain ⟨hva, mapped, found, nonempty, -⟩ :=
    virtqueueMap_covers (same ▸ formed) (show offset < chain.capacity write by omega)
  have found' : mapBufs ram.space write bufs offset = some (hva, mapped) := by
    rw [← same]
    exact found
  have whole := mapBufs_window formed.unwrapped found'
  refine ⟨hva.gpa, min mapped rest.length, by omega, Nat.min_le_right .., ?_, ?_⟩
  · exact window_shorter (Nat.min_le_left ..) whole
  · intro fuel done
    have chunk : (if mapped > rest.length then rest.length else mapped)
        = min mapped rest.length := by
      split <;> omega
    rw [copyLoop, if_neg more, found]
    simp only [chunk, if_neg (Nat.ne_of_gt nonempty)]

section Flat

variable {ram : RamMap} {chain : VirtqueueChain} {bufs : List VirtqueueBuf} {w : World D F T}

section

variable (formed : ChainFormed ram.space chain bufs) {fuel offset : Nat} {done rest : List Byte}
  (same : chain.bufs w = bufs) (enough : rest.length ≤ fuel)
include formed same enough

/-- A device read inside the capacity reads its window, by induction on the rounds. -/
theorem copyLoop_reads (inside : offset + rest.length ≤ chain.capacity false)
    : (copyLoop ram fixedGuest chain false fuel offset done rest w).2.1
        = done ++ readEach w.guest.ram (window (streamAddrs false bufs) offset rest.length)
      ∧ (copyLoop ram fixedGuest chain false fuel offset done rest w).2.2.guest = w.guest := by
  induction fuel generalizing offset done rest w with
  | zero =>
    obtain rfl := List.eq_nil_of_length_eq_zero (Nat.le_zero.mp enough)
    exact ⟨by simp [copyLoop, window, readEach], rfl⟩
  | succ fuel ih =>
    by_cases finished : rest = []
    · subst finished
      exact ⟨by simp [copyLoop, window, readEach], rfl⟩
    · obtain ⟨gpa, chunk, positive, part, contiguous, round⟩ :=
        @copyLoop_round _ _ _ _ fixedGuest _ _ _ formed _ _ _ same finished inside
      have dropped : (rest.drop chunk).length = rest.length - chunk := List.length_drop
      obtain ⟨bytes, guest⟩ := @ih (w.load fixedGuest chain.queue gpa chunk).2
        (offset + chunk) (done ++ readBytes w.guest.ram gpa chunk) (rest.drop chunk) same
        (by omega) (by omega)
      rw [round, if_neg (by decide), load_fixedGuest_bytes]
      refine ⟨?_, guest⟩
      rw [bytes, dropped, window_split _ _ part, contiguous, readEach_append,
        readBytes_eq_readEach, List.append_assoc, load_fixedGuest_guest]

theorem copyLoop_writes (inside : offset + rest.length ≤ chain.capacity true)
    : (copyLoop ram fixedGuest chain true fuel offset done rest w).2.2.guest
      = { w.guest with
          ram := storeEach w.guest.ram
            (window (streamAddrs true bufs) offset rest.length) rest } := by
  induction fuel generalizing offset done rest w with
  | zero =>
    obtain rfl := List.eq_nil_of_length_eq_zero (Nat.le_zero.mp enough)
    simp [copyLoop]
  | succ fuel ih =>
    by_cases finished : rest = []
    · subst finished
      simp [copyLoop]
    · obtain ⟨gpa, chunk, positive, part, contiguous, round⟩ :=
        @copyLoop_round _ _ _ _ fixedGuest _ _ _ formed _ _ _ same finished inside
      have dropped : (rest.drop chunk).length = rest.length - chunk := List.length_drop
      have taken : (rest.take chunk).length = chunk := by
        rw [List.length_take]
        omega
      have stored := @ih (w.store fixedGuest chain.queue gpa (rest.take chunk))
        (offset + chunk) (done ++ rest.take chunk) (rest.drop chunk) same (by omega)
        (by omega)
      have halves : storeEach w.guest.ram
            (window (streamAddrs true bufs) offset rest.length) rest
          = storeEach (writeBytes w.guest.ram gpa (rest.take chunk))
              (window (streamAddrs true bufs) (offset + chunk) (rest.length - chunk))
              (rest.drop chunk) := by
        rw [writeBytes_eq_storeEach, taken, ← storeEach_append (by simp [taken]),
          List.take_append_drop, ← contiguous, ← window_split _ _ part]
      rw [round, if_pos rfl, stored, dropped, store_fixedGuest_guest, halves]

end

section

variable (formed : ChainFormed ram.space chain (chain.bufs w)) {offset : Nat} {data : List Byte}
include formed

theorem virtqueueRead_inside (inside : offset + data.length ≤ chain.readable)
    : let read := virtqueueRead ram fixedGuest chain offset data w
      read.1 = none
      ∧ read.2.1 = readEach w.guest.ram
          (window (streamAddrs false (chain.bufs w)) offset data.length)
      ∧ read.2.2.guest = w.guest := by
  have accepted := (@virtqueueCopy_inside _ _ _ _ fixedGuest _ _ formed false _ _ inside).1
  have flat := @copyLoop_reads _ _ _ _ _ _ _ formed data.length offset [] data rfl
    (Nat.le_refl _) inside
  have valid : ¬ (offset > chain.capacity false
      || data.length > chain.capacity false - offset) = true := by
    have capacity : chain.capacity false = chain.readable := rfl
    simp only [Bool.or_eq_true, decide_eq_true_eq]
    omega
  refine ⟨accepted, ?_⟩
  unfold virtqueueRead virtqueueCopy
  rw [if_neg valid]
  exact flat

theorem virtqueueWrite_inside (inside : offset + data.length ≤ chain.writable)
    : let written := virtqueueWrite ram fixedGuest chain offset data w
      written.1 = none
      ∧ written.2.guest
        = { w.guest with
            ram := storeEach w.guest.ram
              (window (streamAddrs true (chain.bufs w)) offset data.length) data } := by
  have accepted := (@virtqueueCopy_inside _ _ _ _ fixedGuest _ _ formed true _ _ inside).1
  have flat := @copyLoop_writes _ _ _ _ _ _ _ formed data.length offset [] data rfl
    (Nat.le_refl _) inside
  have valid : ¬ (offset > chain.capacity true
      || data.length > chain.capacity true - offset) = true := by
    have capacity : chain.capacity true = chain.writable := rfl
    simp only [Bool.or_eq_true, decide_eq_true_eq]
    omega
  refine ⟨accepted, ?_⟩
  unfold virtqueueWrite virtqueueCopy
  rw [if_neg valid]
  exact flat

end

end Flat

/-- A bounded read from a flat stream: the bytes of its window, or the caller's bytes. -/
def flatRead (memory : Nat → Byte) (stream : List Nat) (offset : Nat) (data : List Byte)
    : Option VmError × List Byte :=
  if offset + data.length ≤ stream.length then
    (none, readEach memory (window stream offset data.length))
  else (some .einval, data)

/-- A bounded write to a flat stream, byte by byte in stream order. -/
def flatWrite (memory : Nat → Byte) (stream : List Nat) (offset : Nat) (data : List Byte)
    : Option VmError × (Nat → Byte) :=
  if offset + data.length ≤ stream.length then
    (none, storeEach memory (window stream offset data.length) data)
  else (some .einval, memory)

/-- A chain that was popped and is still in the storage of its queue. -/
def Current (ram : RamMap) (chain : VirtqueueChain) (w : World D F T) : Prop :=
  ∃ (env : Env D) (q : Nat) (before after : World D F T),
    virtqueuePop ram env q before = (.ok (some chain), after)
    ∧ chain.bufs w = chain.bufs after

theorem Current.formed {ram : RamMap} {chain : VirtqueueChain} {w : World D F T}
    (current : Current ram chain w)
    : ChainFormed ram.space chain (chain.bufs w) := by
  obtain ⟨env, q, before, after, popped, same⟩ := current
  rw [same]
  exact (virtqueuePop_chain popped).1

section Reference

variable {ram : RamMap} {chain : VirtqueueChain} {w : World D F T} {offset : Nat}
variable {data : List Byte}

theorem ChainFormed.stream_length {space : MemSpace} {bufs : List VirtqueueBuf}
    (formed : ChainFormed space chain bufs) (write : Bool)
    : (streamAddrs write bufs).length = chain.capacity write := by
  rw [streamAddrs_length, formed.capacity]

theorem virtqueueRead_flat (formed : ChainFormed ram.space chain (chain.bufs w))
    : let read := virtqueueRead ram fixedGuest chain offset data w
      (read.1, read.2.1)
          = flatRead w.guest.ram (streamAddrs false (chain.bufs w)) offset data
        ∧ read.2.2.guest = w.guest := by
  have length := formed.stream_length false
  unfold flatRead
  by_cases inside : offset + data.length ≤ chain.capacity false
  · obtain ⟨accepted, bytes, guest⟩ := virtqueueRead_inside formed inside
    rw [length, if_pos inside, ← bytes, ← accepted]
    exact ⟨rfl, guest⟩
  · rw [length, if_neg inside, virtqueueRead, virtqueueCopy_outside inside]
    exact ⟨rfl, rfl⟩

theorem virtqueueWrite_flat (formed : ChainFormed ram.space chain (chain.bufs w))
    : let written := virtqueueWrite ram fixedGuest chain offset data w
      (written.1, written.2.guest.ram)
        = flatWrite w.guest.ram (streamAddrs true (chain.bufs w)) offset data := by
  have length := formed.stream_length true
  unfold flatWrite
  by_cases inside : offset + data.length ≤ chain.capacity true
  · obtain ⟨accepted, guest⟩ := virtqueueWrite_inside formed inside
    rw [length, if_pos inside]
    dsimp only
    rw [accepted, guest]
  · rw [length, if_neg inside, virtqueueWrite, virtqueueCopy_outside inside]

section

variable {memory : Nat → Byte} {stream : List Nat}

theorem flatRead_ok_iff
    : (flatRead memory stream offset data).1 = none
      ↔ offset + data.length ≤ stream.length := by
  unfold flatRead
  split <;> simp_all

theorem flatWrite_ok_iff
    : (flatWrite memory stream offset data).1 = none
      ↔ offset + data.length ≤ stream.length := by
  unfold flatWrite
  split <;> simp_all

theorem flatWrite_of_notMem {addr : Nat} (outside : addr ∉ window stream offset data.length)
    : (flatWrite memory stream offset data).2 addr = memory addr := by
  unfold flatWrite
  split
  · exact storeEach_of_notMem outside
  · rfl

end

end Reference

/-- Scatter-gather transfers on a popped chain are the bounded transfers on its flat streams. They
succeed exactly inside the capacity of their direction; a refused one changes nothing; and chains
with equal streams, however split into descriptors and regions, give equal results.
-/
theorem streams_equal_flat_reference (ram : RamMap) (chain : VirtqueueChain)
    (w : World D F T) (current : Current ram chain w) (offset : Nat) (data : List Byte)
    : let readable := streamAddrs false (chain.bufs w)
      let writable := streamAddrs true (chain.bufs w)
      let read := virtqueueRead ram fixedGuest chain offset data w
      let written := virtqueueWrite ram fixedGuest chain offset data w
      (read.1, read.2.1) = flatRead w.guest.ram readable offset data
      ∧ read.2.2.guest = w.guest
      ∧ (written.1, written.2.guest.ram) = flatWrite w.guest.ram writable offset data
      ∧ (read.1 = none ↔ offset + data.length ≤ chain.readable)
      ∧ (written.1 = none ↔ offset + data.length ≤ chain.writable)
      ∧ (∀ addr ∉ window writable offset data.length,
          written.2.guest.ram addr = w.guest.ram addr)
      ∧ (read.1 ≠ none → read.2 = (data, w))
      ∧ (written.1 ≠ none → written.2 = w)
      ∧ ∀ (otherRam : RamMap) (otherChain : VirtqueueChain) (other : World D F T),
          Current otherRam otherChain other → other.guest.ram = w.guest.ram
          → (streamAddrs false (otherChain.bufs other) = readable
              → let again := virtqueueRead otherRam fixedGuest otherChain offset data other
                (again.1, again.2.1) = (read.1, read.2.1))
            ∧ (streamAddrs true (otherChain.bufs other) = writable
              → let again := virtqueueWrite otherRam fixedGuest otherChain offset data other
                (again.1, again.2.guest.ram) = (written.1, written.2.guest.ram)) := by
  have formed := current.formed
  obtain ⟨reads, kept⟩ := @virtqueueRead_flat _ _ _ _ _ _ offset data formed
  have writes := @virtqueueWrite_flat _ _ _ _ _ _ offset data formed
  have readOk := congrArg Prod.fst reads ▸ @flatRead_ok_iff offset data w.guest.ram
    (streamAddrs false (chain.bufs w))
  have writeOk := congrArg Prod.fst writes ▸ @flatWrite_ok_iff offset data w.guest.ram
    (streamAddrs true (chain.bufs w))
  rw [formed.stream_length] at readOk writeOk
  refine ⟨reads, kept, writes, readOk, writeOk, ?_, ?_, ?_, ?_⟩
  · intro addr outside
    exact (congrFun (congrArg Prod.snd writes) addr).trans (flatWrite_of_notMem outside)
  · intro failed
    rw [virtqueueRead, virtqueueCopy_outside fun inside => failed (readOk.mpr inside)]
  · intro failed
    rw [virtqueueWrite, virtqueueCopy_outside fun inside => failed (writeOk.mpr inside)]
  · intro otherRam otherChain other otherCurrent sameMemory
    refine ⟨?_, ?_⟩
    · intro sameStream
      rw [reads, ← sameMemory, ← sameStream]
      exact (virtqueueRead_flat otherCurrent.formed).1
    · intro sameStream
      rw [writes, ← sameMemory, ← sameStream]
      exact virtqueueWrite_flat otherCurrent.formed

/-- Two bytes are stored behind the first four bytes of the demonstration chain. -/
theorem streams_equal_flat_reference_demo
    : let next := (virtqueuePop demoRam stillGuest 0 demoWorld).2
      (virtqueueWrite demoRam fixedGuest ⟨0, 1, 0, 0, 16⟩ 4 [1, 2] next).1 = none
      ∧ ((virtqueueWrite demoRam fixedGuest ⟨0, 1, 0, 0, 16⟩ 4 [1, 2] next).1,
          (virtqueueWrite demoRam fixedGuest ⟨0, 1, 0, 0, 16⟩ 4 [1, 2] next).2.guest.ram)
        = flatWrite next.guest.ram
            (streamAddrs true ((⟨0, 1, 0, 0, 16⟩ : VirtqueueChain).bufs next)) 4 [1, 2] := by
  have popped : (virtqueuePop demoRam stillGuest 0 demoWorld).1
      = .ok (some ⟨0, 1, 0, 0, 16⟩) := by decide +kernel
  have current : Current demoRam ⟨0, 1, 0, 0, 16⟩
      (virtqueuePop demoRam stillGuest 0 demoWorld).2 :=
    ⟨stillGuest, 0, demoWorld, _, by rw [← popped], rfl⟩
  have flat := streams_equal_flat_reference demoRam _ _ current 4 [1, 2]
  exact ⟨flat.2.2.2.2.1.mpr (by decide), flat.2.2.1⟩

end Modvm.Virtio
