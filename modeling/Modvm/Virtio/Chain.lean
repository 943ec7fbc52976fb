import Modvm.Virtio.Effects

/-! What a popped chain guarantees, and what transfers on it can touch. -/

namespace Modvm.Virtio

open Modvm.Core Modvm.Lib

variable {D F T : Type}

def total (write : Bool) (bufs : List VirtqueueBuf) : Nat :=
  ((bufs.filter fun buf => buf.isWrite == write).map VirtqueueBuf.len).sum

/-- The span lies inside one recorded buffer of the given direction. -/
def Covers (bufs : List VirtqueueBuf) (write : Bool) (span : Span) : Prop :=
  ∃ buf ∈ bufs, buf.isWrite = write ∧ span.Within buf.span

/-- Readable buffers first, exact totals, and every byte in RAM that permits the access. -/
structure ChainFormed (space : MemSpace) (chain : VirtqueueChain) (bufs : List VirtqueueBuf)
    : Prop where
  count : bufs.length = chain.nrBufs
  ordered : bufs.Pairwise fun first second => first.isWrite = true → second.isWrite = true
  readable : chain.readable = total false bufs
  writable : chain.writable = total true bufs
  unwrapped : ∀ buf ∈ bufs, buf.gpa + buf.len ≤ uint64Max
  granted : ∀ buf ∈ bufs, ∀ addr, buf.span.Has addr → space.Grants buf.isWrite addr

variable {bufs : List VirtqueueBuf} {chain : VirtqueueChain} {write : Bool} {ram : RamMap}
  {w w' : World D F T}

theorem ChainFormed.capacity {space : MemSpace} (formed : ChainFormed space chain bufs)
    (write : Bool)
    : chain.capacity write = total write bufs := by
  cases write with
  | false => exact formed.readable
  | true => exact formed.writable

theorem total_append (write : Bool) (left right : List VirtqueueBuf)
    : total write (left ++ right) = total write left + total write right := by
  simp [total]

theorem total_singleton (write : Bool) (buf : VirtqueueBuf)
    : total write [buf] = if buf.isWrite = write then buf.len else 0 := by
  by_cases same : buf.isWrite = write <;> simp [total, same]

/-- A buffer whose chunks can be mapped consists of granted addresses, by induction on the rounds.
-/
theorem chunksMapped_grants {space : MemSpace} {fuel gpa length : Nat}
    (unwrapped : gpa + length ≤ uint64Max)
    (mapped : chunksMapped space write fuel gpa length = true)
    : ∀ addr, (Span.mk gpa length).Has addr → space.Grants write addr := by
  induction fuel generalizing gpa length with
  | zero =>
    intro addr has
    simp only [chunksMapped, beq_iff_eq] at mapped
    simp only [Span.Has] at has
    omega
  | succ fuel ih =>
    intro addr has
    unfold chunksMapped at mapped
    split at mapped
    · rename_i empty
      simp only [Span.Has] at has
      omega
    · split at mapped
      · cases mapped
      · rename_i hva chunk found
        split at mapped
        · cases mapped
        · obtain ⟨-, -, -, shorter, -⟩ := memMapChunk_sound found
          have next : gpaAdd gpa chunk = gpa + chunk := by
            refine gpaAdd_eq ?_
            unfold uint64Max at unwrapped
            omega
          -- The address is in the chunk just mapped, or in the rest of the buffer.
          by_cases inside : (Span.mk gpa chunk).Has addr
          · exact memMapChunk_grants found inside
          · refine ih (by omega) mapped addr ?_
            simp only [Span.Has] at has inside ⊢
            omega

theorem VringDesc.addr_lt (bytes : List Byte)
    : (VringDesc.ofBytes bytes).addr < 2 ^ 64 := by
  have bound := leNat_lt (bytes.take 8)
  have width : 256 ^ (bytes.take 8).length ≤ 256 ^ 8 :=
    Nat.pow_le_pow_right (by decide) (by simp)
  exact Nat.lt_of_lt_of_le bound width

/-- The descriptor that a walk at `index` fetches. -/
def fetchedDesc (env : Env D) (q index : Nat) (w : World D F T) : VringDesc :=
  VringDesc.ofBytes (w.load env q (ringGpa (w.queue q).descTable + 16 * index) 16).1

def VringDesc.buf (desc : VringDesc) : VirtqueueBuf :=
  ⟨desc.addr, desc.len, desc.flags &&& vringDescFWrite != 0⟩

/-- Where a chain continues after a descriptor. -/
def VringDesc.follow (desc : VringDesc) : Option Nat :=
  if desc.flags &&& vringDescFNext == 0 then none else some desc.next

def afterDesc (env : Env D) (q slot index : Nat) (w : World D F T) : World D F T :=
  (w.load env q (ringGpa (w.queue q).descTable + 16 * index) 16).2.recordBuf q slot
    (fetchedDesc env q index w).buf

theorem popDesc_ok {env : Env D} {q : Nat} {after : VirtqueueChain} {writable flag : Bool}
    {index : Nat} {next : Option Nat}
    (popped : popDesc ram env q chain writable index w = (.ok (after, flag, next), w'))
    : let desc := fetchedDesc env q index w
      after = chain.add desc.buf.isWrite desc.len
      ∧ flag = (writable || desc.buf.isWrite)
      ∧ next = desc.follow
      ∧ w' = afterDesc env q chain.nrBufs index w
      ∧ (writable = true → desc.buf.isWrite = true)
      ∧ desc.addr + desc.len ≤ uint64Max
      ∧ chunksMapped ram.space desc.buf.isWrite desc.len desc.addr desc.len = true := by
  unfold popDesc at popped
  dsimp only at popped
  have bounded := VringDesc.addr_lt
    (w.load env q (ringGpa (w.queue q).descTable + 16 * index) 16).1
  split at popped
  · cases popped
  · rename_i known
    split at popped
    · cases popped
    · rename_i fits
      split at popped
      · cases popped
      · rename_i mapped
        obtain ⟨result, rfl⟩ := Prod.mk.inj popped
        obtain ⟨rfl, rest⟩ := Prod.mk.inj (Except.ok.inj result)
        obtain ⟨rfl, rfl⟩ := Prod.mk.inj rest
        refine ⟨rfl, rfl, rfl, rfl, ?_, ?_, ?_⟩
        · intro isWritable
          simp only [isWritable, Bool.or_eq_true, not_or] at known
          simpa [VringDesc.buf, fetchedDesc] using known.2
        · simp only [Bool.or_eq_true, decide_eq_true_eq] at fits
          unfold fetchedDesc uint64Max at *
          omega
        · simpa [VringDesc.buf, fetchedDesc] using mapped

theorem VirtqueueChain.add_fields (chain : VirtqueueChain) (write : Bool) (length : Nat)
    : (chain.add write length).queue = chain.queue
      ∧ (chain.add write length).head = chain.head
      ∧ (chain.add write length).nrBufs = chain.nrBufs + 1 := by
  unfold VirtqueueChain.add
  split <;> exact ⟨rfl, rfl, rfl⟩

theorem VirtqueueChain.bufs_add {q : Nat} (owner : chain.queue = q) (write : Bool) (length : Nat)
    (buf : VirtqueueBuf) (w : World D F T)
    : (chain.add write length).bufs (w.recordBuf q chain.nrBufs buf)
      = chain.bufs w ++ [buf] := by
  obtain ⟨sameQueue, -, count⟩ := chain.add_fields write length
  unfold VirtqueueChain.bufs World.recordBuf
  rw [sameQueue, count, owner, List.range_succ, List.map_append, World.queue_setQueue_self]
  congr 1
  · refine List.map_congr_left ?_
    intro slot member
    exact Function.update_of_ne (Nat.ne_of_lt (List.mem_range.mp member)) _ _
  · simp

theorem ChainFormed.add {env : Env D} {q : Nat} {after : VirtqueueChain} {writable flag : Bool}
    {index : Nat} {next : Option Nat} (owner : chain.queue = q)
    (formed : ChainFormed ram.space chain (chain.bufs w))
    (flagged : ∀ buf ∈ chain.bufs w, buf.isWrite = true → writable = true)
    (popped : popDesc ram env q chain writable index w = (.ok (after, flag, next), w'))
    : after.bufs w' = chain.bufs w ++ [(fetchedDesc env q index w).buf]
      ∧ ChainFormed ram.space after (after.bufs w')
      ∧ (∀ buf ∈ after.bufs w', buf.isWrite = true → flag = true) := by
  obtain ⟨rfl, rfl, -, rfl, ordered, unwrapped, mapped⟩ := popDesc_ok popped
  have appended : (chain.add (fetchedDesc env q index w).buf.isWrite
      (fetchedDesc env q index w).len).bufs (afterDesc env q chain.nrBufs index w)
      = chain.bufs w ++ [(fetchedDesc env q index w).buf] :=
    VirtqueueChain.bufs_add owner _ _ _ _
  rw [appended]
  generalize fetchedDesc env q index w = desc at *
  refine ⟨rfl, ?_, ?_⟩
  · constructor
    · rw [List.length_append, formed.count, (chain.add_fields _ _).2.2, List.length_singleton]
    · refine List.pairwise_append.mpr ⟨formed.ordered, List.pairwise_singleton _ _, ?_⟩
      intro first member second last isWrite
      obtain rfl := List.mem_singleton.mp last
      exact ordered (flagged first member isWrite)
    · rw [total_append, total_singleton, ← formed.readable]
      unfold VirtqueueChain.add
      cases kind : desc.buf.isWrite <;> simp [VringDesc.buf]
    · rw [total_append, total_singleton, ← formed.writable]
      unfold VirtqueueChain.add
      cases kind : desc.buf.isWrite <;> simp [VringDesc.buf]
    · intro buf member
      rcases List.mem_append.mp member with old | new
      · exact formed.unwrapped buf old
      · obtain rfl := List.mem_singleton.mp new
        exact unwrapped
    · intro buf member
      rcases List.mem_append.mp member with old | new
      · exact formed.granted buf old
      · obtain rfl := List.mem_singleton.mp new
        exact chunksMapped_grants unwrapped mapped
  · intro buf member isWrite
    rcases List.mem_append.mp member with old | new
    · rw [flagged buf old isWrite, Bool.true_or]
    · obtain rfl := List.mem_singleton.mp new
      rw [isWrite, Bool.or_true]

theorem popWalk_formed {env : Env D} {q room : Nat} {result : VirtqueueChain} {writable : Bool}
    {index : Nat} (owner : chain.queue = q) (formed : ChainFormed ram.space chain (chain.bufs w))
    (flagged : ∀ buf ∈ chain.bufs w, buf.isWrite = true → writable = true)
    (popped : popWalk ram env q room chain writable index w = (.ok result, w'))
    : ChainFormed ram.space result (result.bufs w')
      ∧ result.queue = q
      ∧ result.head = chain.head
      ∧ chain.nrBufs < result.nrBufs
      ∧ result.nrBufs ≤ chain.nrBufs + room := by
  induction room generalizing chain writable index w with
  | zero =>
    unfold popWalk at popped
    split at popped <;> cases popped
  | succ room ih =>
    unfold popWalk at popped
    split at popped
    · cases popped
    · split at popped
      · cases popped
      · rename_i last _ _ desc
        obtain ⟨-, lastFormed, -⟩ := formed.add owner flagged desc
        obtain ⟨rfl, -⟩ := popDesc_ok desc
        obtain ⟨returned, rfl⟩ := Prod.mk.inj popped
        obtain rfl := Except.ok.inj returned
        obtain ⟨sameQueue, sameHead, count⟩ := chain.add_fields
          (fetchedDesc env q index w).buf.isWrite (fetchedDesc env q index w).len
        exact ⟨lastFormed, sameQueue.trans owner, sameHead, by omega, by omega⟩
      · rename_i longer flag next between desc
        obtain ⟨-, longerFormed, longerFlagged⟩ := formed.add owner flagged desc
        obtain ⟨rfl, -⟩ := popDesc_ok desc
        obtain ⟨sameQueue, sameHead, count⟩ := chain.add_fields
          (fetchedDesc env q index w).buf.isWrite (fetchedDesc env q index w).len
        obtain ⟨rest, restQueue, restHead, more, bound⟩ :=
          ih (sameQueue.trans owner) longerFormed longerFlagged popped
        exact ⟨rest, restQueue, restHead.trans sameHead, by omega, by omega⟩

def World.Live (w : World D F T) (q : Nat) : Prop :=
  (w.queue q).enabled = true ∧ (w.queue q).broken = false

/-- Everything that `virtqueue_pop` can do. -/
inductive PopOutcome (ram : RamMap) (env : Env D) (q : Nat) (w : World D F T)
    : Except VmError (Option VirtqueueChain) × World D F T → Prop
  | disabled (off : (w.queue q).enabled = false) : PopOutcome ram env q w (.ok none, w)
  | stuck (broken : (w.queue q).broken = true) : PopOutcome ram env q w (.error .eio, w)
  | empty {next : World D F T} (live : w.Live q) (fetched : Fetches env q w next)
    : PopOutcome ram env q w (.ok none, next)
  | fails {next : World D F T} (error : VmError) (live : w.Live q)
    (fetched : Fetches env q w next)
    : PopOutcome ram env q w (.error error, next.breakQueue q)
  | chain {next : World D F T} {chain : VirtqueueChain} (live : w.Live q)
    (fetched : Fetches env q w next)
    (formed : ChainFormed ram.space chain (chain.bufs next))
    (owner : chain.queue = q)
    (nonempty : 0 < chain.nrBufs)
    (fits : chain.nrBufs ≤ (w.queue q).queueSize)
    : PopOutcome ram env q w (.ok (some chain), next.advanceAvail q)

theorem ChainFormed.nil (space : MemSpace) (q head : Nat) (w : World D F T)
    : ChainFormed space ⟨q, 0, head, 0, 0⟩ ((⟨q, 0, head, 0, 0⟩ : VirtqueueChain).bufs w) := by
  constructor <;> simp [VirtqueueChain.bufs, total]

theorem virtqueuePop_outcome (ram : RamMap) (env : Env D) (q : Nat) (w : World D F T)
    : PopOutcome ram env q w (virtqueuePop ram env q w) := by
  unfold virtqueuePop
  dsimp only
  split
  · rename_i off
    exact .disabled (by simpa using off)
  · rename_i on
    split
    · rename_i broken
      exact .stuck broken
    · rename_i whole
      have live : w.Live q := ⟨by simpa using on, by simpa using whole⟩
      have index : Fetches env q w
          (w.loadLe env q (ringGpa (w.queue q).availRing + 2) 2).2 :=
        .single (.load w _ 2)
      split
      · exact .empty live index
      · split
        · exact .fails _ live index
        · have head := index.tail (.load _ (ringGpa (w.queue q).availRing + 4
            + 2 * ((w.queue q).lastAvailIdx % (w.queue q).queueSize)) 2)
          split
          · rename_i error _ walked
            have walk := congrArg Prod.snd walked ▸ popWalk_fetches ..
            exact .fails error live (head.trans walk)
          · rename_i chain _ walked
            have walk := congrArg Prod.snd walked ▸ popWalk_fetches ..
            obtain ⟨formed, owner, -, nonempty, fits⟩ :=
              popWalk_formed rfl (ChainFormed.nil ..) (by simp [VirtqueueChain.bufs]) walked
            refine .chain live (head.trans walk) formed owner nonempty ?_
            simpa using fits

theorem bufs_setQueue {q p : Nat} {vq : Virtqueue} (kept : vq.bufs = (w.queue p).bufs)
    : ((w.setQueue p vq).queue q).bufs = (w.queue q).bufs := by
  by_cases same : q = p
  · subst same
    rw [World.queue_setQueue_self, kept]
  · rw [World.queue_setQueue_other w vq same]

theorem breakQueue_bufs (w : World D F T) (p q : Nat)
    : ((w.breakQueue p).queue q).bufs = (w.queue q).bufs := by
  exact bufs_setQueue rfl

theorem advanceAvail_bufs (w : World D F T) (p q : Nat)
    : ((w.advanceAvail p).queue q).bufs = (w.queue q).bufs := by
  exact bufs_setQueue rfl

theorem virtqueuePop_chain {env : Env D} {q : Nat}
    (popped : virtqueuePop ram env q w = (.ok (some chain), w'))
    : ChainFormed ram.space chain (chain.bufs w')
      ∧ chain.queue = q
      ∧ 0 < chain.nrBufs
      ∧ chain.nrBufs ≤ (w.queue q).queueSize := by
  have outcome := virtqueuePop_outcome ram env q w
  rw [popped] at outcome
  cases outcome with
  | chain live fetched formed owner nonempty fits =>
    refine ⟨?_, owner, nonempty, fits⟩
    simpa only [VirtqueueChain.bufs, advanceAvail_bufs] using formed

theorem total_cons (write : Bool) (buf : VirtqueueBuf) (rest : List VirtqueueBuf)
    : total write (buf :: rest)
      = (if buf.isWrite = write then buf.len else 0) + total write rest := by
  rw [← List.singleton_append, total_append, total_singleton]

theorem mapBufs_covers (ram : RamMap) {offset : Nat}
    (unwrapped : ∀ buf ∈ bufs, buf.gpa + buf.len ≤ uint64Max)
    (granted : ∀ buf ∈ bufs, ∀ addr, buf.span.Has addr → ram.space.Grants buf.isWrite addr)
    (inside : offset < total write bufs)
    : ∃ hva chunk,
        mapBufs ram.space write bufs offset = some (hva, chunk)
        ∧ 0 < chunk
        ∧ offset + chunk ≤ total write bufs
        ∧ Covers bufs write ⟨hva.gpa, chunk⟩ := by
  induction bufs generalizing offset with
  | nil => simp [total] at inside
  | cons buf rest ih =>
    have restUnwrapped := fun other member => unwrapped other (List.mem_cons_of_mem buf member)
    have restGranted := fun other member => granted other (List.mem_cons_of_mem buf member)
    have lift : ∀ span, Covers rest write span → Covers (buf :: rest) write span := by
      rintro span ⟨other, member, covered⟩
      exact ⟨other, List.mem_cons_of_mem buf member, covered⟩
    rw [total_cons] at inside ⊢
    unfold mapBufs
    by_cases same : buf.isWrite = write
    · rw [if_pos same] at inside ⊢
      rw [if_neg (by simpa using same)]
      by_cases past : offset ≥ buf.len
      · obtain ⟨hva, chunk, mapped, positive, bound, covered⟩ :=
          @ih (offset - buf.len) restUnwrapped restGranted (by omega)
        rw [if_pos past]
        exact ⟨hva, chunk, mapped, positive, by omega, lift _ covered⟩
      · have limit := unwrapped buf List.mem_cons_self
        have start : gpaAdd buf.gpa offset = buf.gpa + offset := by
          refine gpaAdd_eq ?_
          unfold uint64Max at limit
          omega
        have permitted : ram.space.Grants write (buf.gpa + offset) := by
          rw [← same]
          refine granted buf List.mem_cons_self _ ?_
          simp only [VirtqueueBuf.span, Span.Has]
          omega
        obtain ⟨hva, chunk, mapped⟩ :=
          @RamMap.memMapChunk_granted ram _ (buf.len - offset) _ (by omega) (by omega) permitted
        obtain ⟨-, address, positive, shorter, -⟩ := memMapChunk_sound mapped
        rw [if_neg past, start]
        refine ⟨hva, chunk, mapped, positive, by omega, buf, List.mem_cons_self, same, ?_⟩
        simp only [Span.Within, VirtqueueBuf.span]
        omega
    · rw [if_neg same, Nat.zero_add] at inside ⊢
      rw [if_pos (by simpa using same)]
      obtain ⟨hva, chunk, mapped, positive, bound, covered⟩ :=
        ih restUnwrapped restGranted inside
      exact ⟨hva, chunk, mapped, positive, bound, lift _ covered⟩

theorem mapBufs_sound {space : MemSpace} {offset chunk : Nat} {hva : Hva}
    (unwrapped : ∀ buf ∈ bufs, buf.gpa + buf.len ≤ uint64Max)
    (mapped : mapBufs space write bufs offset = some (hva, chunk))
    : Covers bufs write ⟨hva.gpa, chunk⟩ := by
  induction bufs generalizing offset with
  | nil => cases mapped
  | cons buf rest ih =>
    have later : ∀ offset, mapBufs space write rest offset = some (hva, chunk)
        → Covers (buf :: rest) write ⟨hva.gpa, chunk⟩ := by
      intro offset found
      obtain ⟨other, member, covered⟩ :=
        ih (fun other member => unwrapped other (List.mem_cons_of_mem buf member)) found
      exact ⟨other, List.mem_cons_of_mem buf member, covered⟩
    unfold mapBufs at mapped
    split at mapped
    · exact later _ mapped
    · rename_i same
      split at mapped
      · exact later _ mapped
      · have limit := unwrapped buf List.mem_cons_self
        have start : gpaAdd buf.gpa offset = buf.gpa + offset := by
          refine gpaAdd_eq ?_
          unfold uint64Max at limit
          omega
        obtain ⟨-, address, -, shorter, -⟩ := memMapChunk_sound mapped
        refine ⟨buf, List.mem_cons_self, by simpa using same, ?_⟩
        simp only [Span.Within, VirtqueueBuf.span]
        omega

theorem virtqueueMap_covers (formed : ChainFormed ram.space chain (chain.bufs w)) {offset : Nat}
    (inside : offset < chain.capacity write)
    : ∃ hva chunk,
        virtqueueMap ram chain write offset w = some (hva, chunk)
        ∧ 0 < chunk
        ∧ offset + chunk ≤ chain.capacity write
        ∧ Covers (chain.bufs w) write ⟨hva.gpa, chunk⟩ := by
  rw [formed.capacity] at inside ⊢
  exact mapBufs_covers ram formed.unwrapped formed.granted inside

/-- What a copy in one direction touches: parts of recorded buffers of that direction. -/
def Touches (bufs : List VirtqueueBuf) (write : Bool) : Activity → Prop
  | .load span => write = false ∧ Covers bufs false span
  | .store span => write = true ∧ Covers bufs true span
  | .push _ _ => False
  | .backendRead => False
  | .backendWrite => False
  | .backendFlush => False

theorem Covers.mono {outer inner : Span} (covered : Covers bufs write outer)
    (within : inner.Within outer)
    : Covers bufs write inner := by
  obtain ⟨buf, member, same, outside⟩ := covered
  exact ⟨buf, member, same, within.trans outside⟩

/-- A copy within the capacity passes every byte, in buffers of its direction, by induction on the
rounds.
-/
theorem copyLoop_covers {ram : RamMap} {env : Env D} {chain : VirtqueueChain} {write : Bool}
    {bufs : List VirtqueueBuf} (formed : ChainFormed ram.space chain bufs)
    {fuel offset : Nat} {done rest : List Byte} {w : World D F T}
    (same : chain.bufs w = bufs) (enough : rest.length ≤ fuel)
    (inside : offset + rest.length ≤ chain.capacity write)
    : (copyLoop ram env chain write fuel offset done rest w).1 = none
      ∧ (copyLoop ram env chain write fuel offset done rest w).2.1.length
        = done.length + rest.length
      ∧ Transfers env chain.queue (Touches bufs write) Eq w
          (copyLoop ram env chain write fuel offset done rest w).2.2 := by
  induction fuel generalizing offset done rest w with
  | zero =>
    obtain rfl := List.eq_nil_of_length_eq_zero (Nat.le_zero.mp enough)
    exact ⟨rfl, by simp [copyLoop], .refl⟩
  | succ fuel ih =>
    unfold copyLoop
    by_cases finished : rest = []
    · rw [finished]
      exact ⟨rfl, rfl, .refl⟩
    · have positive := List.length_pos_iff.mpr finished
      obtain ⟨hva, mapped, found, nonempty, -, covered⟩ :=
        virtqueueMap_covers (same ▸ formed) (show offset < chain.capacity write by omega)
      rw [if_neg finished, found]
      dsimp only
      rw [if_neg (Nat.ne_of_gt nonempty)]
      generalize chunkEq : (if mapped > rest.length then rest.length else mapped) = chunk
      have chunkLe : chunk ≤ mapped ∧ chunk ≤ rest.length ∧ 0 < chunk := by
        split at chunkEq <;> omega
      have part : Covers bufs write ⟨hva.gpa, chunk⟩ := by
        rw [← same]
        refine covered.mono ?_
        simp only [Span.Within]
        omega
      have dropped : (rest.drop chunk).length = rest.length - chunk := List.length_drop
      cases write with
      | true =>
        have taken : (rest.take chunk).length = chunk := by
          rw [List.length_take]
          omega
        have step : Transfer env chain.queue (Touches bufs true) Eq w
            (w.store env chain.queue hva.gpa (rest.take chunk)) :=
          .store w _ _ ⟨rfl, taken.symm ▸ part⟩
        obtain ⟨ok, length, steps⟩ := @ih (offset + chunk) (done ++ rest.take chunk)
          (rest.drop chunk) (w.store env chain.queue hva.gpa (rest.take chunk))
          same (by omega) (by omega)
        refine ⟨ok, ?_, .head step steps⟩
        rw [if_pos rfl, length, List.length_append]
        omega
      | false =>
        have step : Transfer env chain.queue (Touches bufs false) Eq w
            (w.load env chain.queue hva.gpa chunk).2 :=
          .load w _ _ ⟨rfl, part⟩
        obtain ⟨ok, length, steps⟩ := @ih (offset + chunk)
          (done ++ (w.load env chain.queue hva.gpa chunk).1) (rest.drop chunk)
          (w.load env chain.queue hva.gpa chunk).2 same (by omega) (by omega)
        refine ⟨ok, ?_, .head step steps⟩
        rw [if_neg (by decide), length, List.length_append, World.load_length]
        omega

theorem virtqueueCopy_inside {ram : RamMap} {env : Env D} {chain : VirtqueueChain}
    {w : World D F T} (formed : ChainFormed ram.space chain (chain.bufs w)) {write : Bool}
    {offset : Nat} {data : List Byte} (inside : offset + data.length ≤ chain.capacity write)
    : (virtqueueCopy ram env chain write offset data w).1 = none
      ∧ (virtqueueCopy ram env chain write offset data w).2.1.length = data.length
      ∧ Transfers env chain.queue (Touches (chain.bufs w) write) Eq w
          (virtqueueCopy ram env chain write offset data w).2.2 := by
  have valid : ¬ (offset > chain.capacity write
      || data.length > chain.capacity write - offset) = true := by
    simp only [Bool.or_eq_true, decide_eq_true_eq]
    omega
  unfold virtqueueCopy
  rw [if_neg valid]
  simpa using @copyLoop_covers _ _ _ _ env _ _ _ formed _ _ [] _ _ rfl (Nat.le_refl _) inside

theorem virtqueueCopy_outside {env : Env D} {offset : Nat} {data : List Byte}
    (outside : ¬ offset + data.length ≤ chain.capacity write)
    : virtqueueCopy ram env chain write offset data w = (some .einval, data, w) := by
  have refused : (offset > chain.capacity write
      || data.length > chain.capacity write - offset) = true := by
    simp only [Bool.or_eq_true, decide_eq_true_eq]
    omega
  unfold virtqueueCopy
  rw [if_pos refused]

section

variable (env : Env D) (formed : ChainFormed ram.space chain (chain.bufs w)) (write : Bool)
  (offset : Nat) (data : List Byte)
include formed

theorem virtqueueCopy_length
    : (virtqueueCopy ram env chain write offset data w).2.1.length = data.length := by
  by_cases inside : offset + data.length ≤ chain.capacity write
  · exact (virtqueueCopy_inside formed inside).2.1
  · rw [virtqueueCopy_outside inside]

theorem virtqueueCopy_transfers
    : Transfers env chain.queue (Touches (chain.bufs w) write) Eq w
        (virtqueueCopy ram env chain write offset data w).2.2 := by
  by_cases inside : offset + data.length ≤ chain.capacity write
  · exact (virtqueueCopy_inside formed inside).2.2
  · rw [virtqueueCopy_outside inside]

end

end Modvm.Virtio
