import Modvm.Lib.Walks
import Modvm.Virtio.Confinement
import Modvm.Virtio.FixedGuest

/-! The chains that `virtqueue_pop` accepts while guest memory stays fixed. -/

namespace Modvm.Virtio

open Modvm.Core Modvm.Lib

variable {D F T : Type}

/-! ### What the guest posted -/

def descAt (memory : Nat → Byte) (vq : Virtqueue) (index : Nat) : VringDesc :=
  VringDesc.ofBytes (readBytes memory (ringGpa vq.descTable + 16 * index) 16)

def availIdxAt (memory : Nat → Byte) (vq : Virtqueue) : Nat :=
  leNat (readBytes memory (ringGpa vq.availRing + 2) 2)

/-- The head posted in the slot that the device reads next. -/
def postedHead (memory : Nat → Byte) (vq : Virtqueue) : Nat :=
  leNat (readBytes memory
    (ringGpa vq.availRing + 4 + 2 * (vq.lastAvailIdx % vq.queueSize)) 2)

/-- How far the available index is ahead of the device, modulo its width. -/
def postedCount (memory : Nat → Byte) (vq : Virtqueue) : Nat :=
  (availIdxAt memory vq + 2 ^ 16 - vq.lastAvailIdx) % 2 ^ 16

/-- No flag besides NEXT and WRITE, and all bytes in RAM that permits the direction. -/
structure VringDesc.Admissible (space : MemSpace) (desc : VringDesc) : Prop where
  flags : desc.flags &&& 0xfffc = 0
  granted : ∀ addr, desc.buf.span.Has addr → space.Grants desc.buf.isWrite addr

/-- The walk along NEXT from `head` is `path`: acyclic, in the table, admissible, readable before
writable.
-/
structure WellFormedPath (space : MemSpace) (memory : Nat → Byte) (vq : Virtqueue)
    (head : Nat) (path : List Nat)
    : Prop where
  walk : Walk (fun index => (descAt memory vq index).follow) head path
  acyclic : path.Nodup
  inside : ∀ index ∈ path, index < vq.queueSize
  admissible : ∀ index ∈ path, (descAt memory vq index).Admissible space
  ordered
    : path.Pairwise fun first second =>
        (descAt memory vq first).buf.isWrite = true
        → (descAt memory vq second).buf.isWrite = true

namespace WellFormedPath

variable {space : MemSpace} {memory : Nat → Byte} {vq : Virtqueue} {head next : Nat}
variable {path : List Nat}

theorem head_mem (well : WellFormedPath space memory vq head path)
    : head ∈ path := by
  cases well.walk <;> exact List.mem_cons_self

theorem last (inside : head < vq.queueSize)
    (admissible : (descAt memory vq head).Admissible space)
    (ends : (descAt memory vq head).follow = none)
    : WellFormedPath space memory vq head [head] where
  walk := .last ends
  acyclic := List.nodup_singleton head
  inside := List.forall_mem_singleton.mpr inside
  admissible := List.forall_mem_singleton.mpr admissible
  ordered := List.pairwise_singleton _ _

theorem step (rest : WellFormedPath space memory vq next path) (inside : head < vq.queueSize)
    (admissible : (descAt memory vq head).Admissible space)
    (linked : (descAt memory vq head).follow = some next)
    (writes : (descAt memory vq head).buf.isWrite = true
      → ∀ index ∈ path, (descAt memory vq index).buf.isWrite = true)
    : WellFormedPath space memory vq head (head :: path) where
  walk := .step linked rest.walk
  acyclic := (Walk.step linked rest.walk).nodup
  inside := List.forall_mem_cons.mpr ⟨inside, rest.inside⟩
  admissible := List.forall_mem_cons.mpr ⟨admissible, rest.admissible⟩
  ordered := List.pairwise_cons.mpr ⟨fun index member isWrite => writes isWrite index member,
    rest.ordered⟩

theorem tail (well : WellFormedPath space memory vq head (head :: path))
    (walk : Walk (fun index => (descAt memory vq index).follow) next path)
    : WellFormedPath space memory vq next path where
  walk := walk
  acyclic := walk.nodup
  inside := (List.forall_mem_cons.mp well.inside).2
  admissible := (List.forall_mem_cons.mp well.admissible).2
  ordered := (List.pairwise_cons.mp well.ordered).2

theorem length_le (well : WellFormedPath space memory vq head path)
    : path.length ≤ vq.queueSize :=
  length_le_of_nodup well.acyclic well.inside

end WellFormedPath

/-! ### One descriptor -/

theorem chunksMapped_of_granted (ram : RamMap) {write : Bool} {fuel gpa length : Nat}
    (enough : length ≤ fuel) (unwrapped : gpa + length ≤ uint64Max)
    (granted : ∀ addr, (Span.mk gpa length).Has addr → ram.space.Grants write addr)
    : chunksMapped ram.space write fuel gpa length = true := by
  induction fuel generalizing gpa length with
  | zero => simpa [chunksMapped] using enough
  | succ fuel ih =>
    unfold chunksMapped
    by_cases empty : length = 0
    · rw [if_pos empty]
    · have first : ram.space.Grants write gpa := granted gpa ⟨Nat.le_refl gpa, by
        dsimp only
        omega⟩
      obtain ⟨hva, chunk, found⟩ := ram.memMapChunk_granted empty unwrapped first
      obtain ⟨-, -, positive, shorter, -⟩ := memMapChunk_sound found
      have next : gpaAdd gpa chunk = gpa + chunk := by
        refine gpaAdd_eq ?_
        unfold uint64Max at unwrapped
        omega
      rw [if_neg empty, found]
      dsimp only
      rw [if_neg (Nat.ne_of_gt positive)]
      refine ih (by omega) (by omega) fun addr has => granted addr ?_
      simp only [Span.Has] at has ⊢
      omega

variable {ram : RamMap} {chain : VirtqueueChain} {w : World D F T} {writable : Bool}

theorem VringDesc.Admissible.unwrapped {desc : VringDesc} (admissible : desc.Admissible ram.space)
    (bounded : desc.addr < 2 ^ 64)
    : desc.addr + desc.len ≤ uint64Max := by
  by_cases empty : desc.len = 0
  · unfold uint64Max
    omega
  · obtain ⟨reg, member, has, -⟩ := admissible.granted (desc.addr + desc.len - 1) (by
      simp only [VringDesc.buf, VirtqueueBuf.span, Span.Has]
      omega)
    have limit := ram.formed.bounded reg member
    simp only [MemRegion.span, Span.Has] at has
    omega

theorem VringDesc.len_lt (bytes : List Byte)
    : (VringDesc.ofBytes bytes).len < 2 ^ 32 := by
  have bound := leNat_lt ((bytes.drop 8).take 4)
  have width : 256 ^ ((bytes.drop 8).take 4).length ≤ 256 ^ 4 :=
    Nat.pow_le_pow_right (by decide) (by simp)
  exact Nat.lt_of_lt_of_le bound width

theorem popDesc_admissible {env : Env D} {q : Nat} {after : VirtqueueChain} {flag : Bool}
    {index : Nat} {next : Option Nat} {w' : World D F T}
    (popped : popDesc ram env q chain writable index w = (.ok (after, flag, next), w'))
    : (fetchedDesc env q index w).Admissible ram.space := by
  obtain ⟨-, -, -, -, -, unwrapped, mapped⟩ := popDesc_ok popped
  refine ⟨?_, chunksMapped_grants unwrapped mapped⟩
  unfold popDesc at popped
  dsimp only at popped
  split at popped
  · cases popped
  · rename_i known
    simp only [Bool.or_eq_true, not_or, bne_iff_ne, not_not] at known
    exact known.1

theorem popDesc_accepts {env : Env D} {q : Nat} {index : Nat}
    (admissible : (fetchedDesc env q index w).Admissible ram.space)
    (ordered : writable = true → (fetchedDesc env q index w).buf.isWrite = true)
    (fits : ∀ write, chain.capacity write + 2 ^ 32 ≤ uint64Max)
    : popDesc ram env q chain writable index w
      = (.ok (chain.add (fetchedDesc env q index w).buf.isWrite (fetchedDesc env q index w).len,
          writable || (fetchedDesc env q index w).buf.isWrite,
          (fetchedDesc env q index w).follow),
        afterDesc env q chain.nrBufs index w) := by
  have bounded : (fetchedDesc env q index w).addr < 2 ^ 64 := VringDesc.addr_lt _
  have short : (fetchedDesc env q index w).len < 2 ^ 32 := VringDesc.len_lt _
  have unwrapped := admissible.unwrapped bounded
  have mapped := chunksMapped_of_granted ram (Nat.le_refl _) unwrapped admissible.granted
  have known : ¬ ((fetchedDesc env q index w).flags &&& 0xfffc != 0
      || (writable && !(fetchedDesc env q index w).buf.isWrite)) = true := by
    cases writable with
    | false => simp [admissible.flags]
    | true => simp [admissible.flags, ordered rfl]
  have room := fits (fetchedDesc env q index w).buf.isWrite
  have counted : ¬ (decide ((fetchedDesc env q index w).len
        > uint64Max - (fetchedDesc env q index w).addr)
      || decide ((fetchedDesc env q index w).len
        > uint64Max - chain.capacity (fetchedDesc env q index w).buf.isWrite)) = true := by
    simp only [Bool.or_eq_true, decide_eq_true_eq]
    omega
  have whole : ¬ (!chunksMapped ram.space (fetchedDesc env q index w).buf.isWrite
      (fetchedDesc env q index w).len (fetchedDesc env q index w).addr
      (fetchedDesc env q index w).len) = true := by
    simp [mapped]
  exact (if_neg known).trans ((if_neg counted).trans (if_neg whole))

/-! ### The walk -/

/-- The world still shows the descriptor table of `vq` in `memory`. -/
structure ShowsTable (memory : Nat → Byte) (vq : Virtqueue) (q : Nat) (w : World D F T)
    : Prop where
  ram : w.guest.ram = memory
  table : (w.queue q).descTable = vq.descTable
  size : (w.queue q).queueSize = vq.queueSize

namespace ShowsTable

variable {memory : Nat → Byte} {vq : Virtqueue} {q : Nat} {w next : World D F T}

theorem fetches (shows : ShowsTable memory vq q w) (steps : Fetches fixedGuest q w next)
    : ShowsTable memory vq q next := by
  obtain ⟨bufs, same⟩ := steps.frame.1.queue q
  have queue : next.queue q = { w.queue q with bufs := bufs } := same
  refine ⟨?_, ?_, ?_⟩
  · rw [steps.fixedGuest, shows.ram]
  · rw [queue, ← shows.table]
  · rw [queue, ← shows.size]

theorem fetchedDesc_eq (shows : ShowsTable memory vq q w) (index : Nat)
    : fetchedDesc fixedGuest q index w = descAt memory vq index := by
  rw [fetchedDesc, load_fixedGuest_bytes, shows.ram, shows.table, descAt]

theorem popDesc_step {ram : RamMap} {chain after : VirtqueueChain} {writable flag : Bool}
    {index : Nat} {link : Option Nat} (owner : chain.queue = q)
    (shows : ShowsTable memory vq q w)
    (popped : popDesc ram fixedGuest q chain writable index w = (.ok (after, flag, link), next))
    : let desc := descAt memory vq index
      desc.Admissible ram.space
      ∧ (writable = true → desc.buf.isWrite = true)
      ∧ flag = (writable || desc.buf.isWrite)
      ∧ link = desc.follow
      ∧ after.queue = q
      ∧ after.bufs next = chain.bufs w ++ [desc.buf]
      ∧ ShowsTable memory vq q next := by
  have fetched : Fetches fixedGuest q w next := by
    simpa only [popped] using popDesc_fetches ram fixedGuest q chain writable index w
  have admissible := popDesc_admissible popped
  obtain ⟨rfl, rfl, rfl, rfl, ordered, -⟩ := popDesc_ok popped
  have appended := VirtqueueChain.bufs_add owner
    (fetchedDesc fixedGuest q index w).buf.isWrite (fetchedDesc fixedGuest q index w).len
    (fetchedDesc fixedGuest q index w).buf
    (w.load fixedGuest q (ringGpa (w.queue q).descTable + 16 * index) 16).2
  have sameQueue := (chain.add_fields (fetchedDesc fixedGuest q index w).buf.isWrite
    (fetchedDesc fixedGuest q index w).len).1.trans owner
  rw [← shows.fetchedDesc_eq index]
  exact ⟨admissible, ordered, rfl, rfl, sameQueue, appended, shows.fetches fetched⟩

end ShowsTable

/-- A walk that succeeds has followed a well-formed path, by induction on the buffer slots left. -/
theorem popWalk_path {memory : Nat → Byte} {vq : Virtqueue} {q room : Nat} {result : VirtqueueChain}
    {index : Nat} {w' : World D F T} (owner : chain.queue = q) (shows : ShowsTable memory vq q w)
    (popped : popWalk ram fixedGuest q room chain writable index w = (.ok result, w'))
    : ∃ path,
        WellFormedPath ram.space memory vq index path
        ∧ (writable = true → ∀ index ∈ path, (descAt memory vq index).buf.isWrite = true)
        ∧ result.bufs w'
          = chain.bufs w ++ path.map fun index => (descAt memory vq index).buf := by
  induction room generalizing chain writable index w with
  | zero =>
    unfold popWalk at popped
    split at popped <;> cases popped
  | succ room ih =>
    unfold popWalk at popped
    split at popped
    · cases popped
    · have inside : index < vq.queueSize := by
        rw [← shows.size]
        omega
      split at popped
      · cases popped
      · rename_i desc
        obtain ⟨returned, rfl⟩ := Prod.mk.inj popped
        obtain rfl := Except.ok.inj returned
        obtain ⟨admissible, ordered, -, ends, -, recorded, -⟩ :=
          shows.popDesc_step owner desc
        refine ⟨[index], .last inside admissible ends.symm, ?_, recorded⟩
        intro isWritable
        exact List.forall_mem_singleton.mpr (ordered isWritable)
      · rename_i desc
        obtain ⟨admissible, ordered, rfl, linked, owned, recorded, shown⟩ :=
          shows.popDesc_step owner desc
        obtain ⟨path, well, writes, rest⟩ := ih owned shown popped
        refine ⟨index :: path, well.step inside admissible linked.symm ?_, ?_, ?_⟩
        · intro isWrite
          exact writes (by rw [isWrite, Bool.or_true])
        · intro isWritable
          exact List.forall_mem_cons.mpr
            ⟨ordered isWritable, writes (by rw [isWritable, Bool.true_or])⟩
        · rw [rest, recorded, List.append_assoc, List.map_cons, List.singleton_append]

theorem VirtqueueChain.capacity_add (chain : VirtqueueChain) (write other : Bool)
    (length : Nat)
    : (chain.add write length).capacity other ≤ chain.capacity other + length := by
  cases write <;> cases other <;> simp [VirtqueueChain.add, VirtqueueChain.capacity]

theorem popWalk_accepts {memory : Nat → Byte} {vq : Virtqueue} {q room : Nat} {index : Nat}
    {path : List Nat} (owner : chain.queue = q) (shows : ShowsTable memory vq q w)
    (well : WellFormedPath ram.space memory vq index path)
    (writes : writable = true → ∀ index ∈ path, (descAt memory vq index).buf.isWrite = true)
    (slots : path.length ≤ room)
    (fits : ∀ write, chain.capacity write + path.length * 2 ^ 32 ≤ uint64Max)
    : ∃ result w', popWalk ram fixedGuest q room chain writable index w = (.ok result, w') := by
  induction room generalizing chain writable index w path with
  | zero =>
    have visited := List.length_pos_of_mem well.head_mem
    omega
  | succ room ih =>
    have visited := List.length_pos_of_mem well.head_mem
    have inside := well.inside index well.head_mem
    have admissible := well.admissible index well.head_mem
    have ordered : writable = true → (descAt memory vq index).buf.isWrite = true :=
      fun isWritable => writes isWritable index well.head_mem
    have short : (descAt memory vq index).len < 2 ^ 32 := VringDesc.len_lt _
    rw [← shows.fetchedDesc_eq index] at admissible ordered
    have totals : ∀ write, chain.capacity write + 2 ^ 32 ≤ uint64Max := by
      intro write
      have := fits write
      omega
    have accepted := popDesc_accepts admissible ordered totals
    obtain ⟨-, -, -, -, owned, -, shown⟩ := shows.popDesc_step owner accepted
    unfold popWalk
    rw [shows.size, if_neg (by omega), accepted]
    rw [shows.fetchedDesc_eq] at *
    have walk := well.walk
    cases walk with
    | last ends =>
      rw [ends]
      exact ⟨_, _, rfl⟩
    | @step _ next path linked rest =>
      rw [linked]
      refine ih owned shown (well.tail rest) ?_ ?_ ?_
      · intro isWritable later member
        rcases Bool.or_eq_true_iff.mp isWritable with before | here
        · exact writes before later (List.mem_cons_of_mem index member)
        · exact (List.pairwise_cons.mp well.ordered).1 later member here
      · simpa using slots
      · intro write
        have grown := chain.capacity_add (descAt memory vq index).buf.isWrite write
          (descAt memory vq index).len
        have before := fits write
        rw [List.length_cons] at before
        omega

/-! ### The whole pop -/

/-- Something is posted, no more than fits, and its head starts a well-formed path. -/
def Poppable (ram : RamMap) (memory : Nat → Byte) (vq : Virtqueue) (path : List Nat) : Prop :=
  1 ≤ postedCount memory vq
  ∧ postedCount memory vq ≤ vq.queueSize
  ∧ WellFormedPath ram.space memory vq (postedHead memory vq) path

def World.headFetched (w : World D F T) (q : Nat) : World D F T :=
  let vq := w.queue q
  ((w.loadLe fixedGuest q (ringGpa vq.availRing + 2) 2).2.loadLe fixedGuest q
    (ringGpa vq.availRing + 4 + 2 * (vq.lastAvailIdx % vq.queueSize)) 2).2

def VirtqueueChain.start (q head : Nat) : VirtqueueChain := ⟨q, 0, head, 0, 0⟩

theorem VirtqueueChain.start_queue (q head : Nat)
    : (VirtqueueChain.start q head).queue = q := rfl

def popWalkPosted (ram : RamMap) (q : Nat) (w : World D F T)
    : Except VmError VirtqueueChain × World D F T :=
  popWalk ram fixedGuest q (w.queue q).queueSize
    (VirtqueueChain.start q (postedHead w.guest.ram (w.queue q))) false
    (postedHead w.guest.ram (w.queue q)) (w.headFetched q)

theorem World.headFetched_fetches (w : World D F T) (q : Nat)
    : Fetches fixedGuest q w (w.headFetched q) :=
  .tail (.single (.load w _ 2)) (.load _ _ 2)

theorem World.headFetched_shows (w : World D F T) (q : Nat)
    : ShowsTable w.guest.ram (w.queue q) q (w.headFetched q) :=
  ⟨rfl, rfl, rfl⟩

theorem virtqueuePop_empty (ram : RamMap) {q : Nat} (live : w.Live q)
    (same : availIdxAt w.guest.ram (w.queue q) = (w.queue q).lastAvailIdx)
    : virtqueuePop ram fixedGuest q w
      = (.ok none, (w.loadLe fixedGuest q (ringGpa (w.queue q).availRing + 2) 2).2) := by
  unfold virtqueuePop
  dsimp only
  rw [live.1, live.2, if_neg (by decide), if_neg (by decide)]
  exact if_pos same

section

variable (ram : RamMap) {q : Nat} (live : w.Live q)
  (new : availIdxAt w.guest.ram (w.queue q) ≠ (w.queue q).lastAvailIdx)
include live new

theorem virtqueuePop_overrun (overrun : (w.queue q).queueSize < postedCount w.guest.ram (w.queue q))
    : virtqueuePop ram fixedGuest q w
      = (.error .efault,
        (w.loadLe fixedGuest q (ringGpa (w.queue q).availRing + 2) 2).2.breakQueue q) := by
  unfold virtqueuePop
  dsimp only
  rw [live.1, live.2, if_neg (by decide), if_neg (by decide)]
  exact (if_neg new).trans (if_pos overrun)

theorem virtqueuePop_walk (within : postedCount w.guest.ram (w.queue q) ≤ (w.queue q).queueSize)
    : virtqueuePop ram fixedGuest q w
      = match popWalkPosted ram q w with
        | (.error error, next) => (.error error, next.breakQueue q)
        | (.ok chain, next) => (.ok (some chain), next.advanceAvail q) := by
  unfold virtqueuePop
  dsimp only
  rw [live.1, live.2, if_neg (by decide), if_neg (by decide)]
  exact (if_neg new).trans (if_neg (Nat.not_lt.mpr within))

end

theorem popWalkPosted_succeeds_iff (ram : RamMap) {q : Nat} {w : World D F T}
    (sized : (w.queue q).queueSize < 2 ^ 16)
    : (∃ chain next, popWalkPosted ram q w = (.ok chain, next))
      ↔ ∃ path, WellFormedPath ram.space w.guest.ram (w.queue q)
          (postedHead w.guest.ram (w.queue q)) path := by
  constructor
  · rintro ⟨chain, next, walked⟩
    obtain ⟨path, well, -⟩ :=
      popWalk_path (VirtqueueChain.start_queue ..) (w.headFetched_shows q) walked
    exact ⟨path, well⟩
  · rintro ⟨path, well⟩
    have slots := well.length_le
    refine popWalk_accepts (VirtqueueChain.start_queue ..) (w.headFetched_shows q) well nofun
      slots ?_
    simp only [VirtqueueChain.capacity, VirtqueueChain.start, ite_self, uint64Max]
    omega

theorem popWalkPosted_records {ram : RamMap} {q : Nat} {w next : World D F T}
    {chain : VirtqueueChain} {path : List Nat}
    (walked : popWalkPosted ram q w = (.ok chain, next))
    (well : WellFormedPath ram.space w.guest.ram (w.queue q)
      (postedHead w.guest.ram (w.queue q)) path)
    : chain.head = postedHead w.guest.ram (w.queue q)
      ∧ chain.bufs next
        = path.map fun index => (descAt w.guest.ram (w.queue q) index).buf := by
  obtain ⟨-, -, sameHead, -⟩ :=
    popWalk_formed (VirtqueueChain.start_queue ..) (ChainFormed.nil ..)
      (by simp [VirtqueueChain.bufs, VirtqueueChain.start]) walked
  obtain ⟨followed, wellFollowed, -, recorded⟩ :=
    popWalk_path (VirtqueueChain.start_queue ..) (w.headFetched_shows q) walked
  refine ⟨sameHead, ?_⟩
  rw [recorded, wellFollowed.walk.unique well.walk]
  rfl

theorem postedCount_eq_zero_iff {memory : Nat → Byte} {vq : Virtqueue}
    (counted : vq.lastAvailIdx < 2 ^ 16)
    : postedCount memory vq = 0 ↔ availIdxAt memory vq = vq.lastAvailIdx := by
  have width : availIdxAt memory vq < 256 ^ 2 := leNat_readBytes_lt memory _ 2
  unfold postedCount
  omega

/-- `virtqueue_pop` over fixed guest memory accepts exactly the well-formed chains. It records the
path from the posted head in order and advances by one; it reports and changes nothing exactly when
nothing new is posted; in every other case it fails, breaks the queue and does not advance.
-/
theorem virtqueue_pop_exact (ram : RamMap) (q : Nat) (w : World D F T) (live : w.Live q)
    (sized : (w.queue q).queueSize < 2 ^ 16) (counted : (w.queue q).lastAvailIdx < 2 ^ 16)
    : let vq := w.queue q
      let memory := w.guest.ram
      let result := (virtqueuePop ram fixedGuest q w).1
      let next := (virtqueuePop ram fixedGuest q w).2
      ((∃ chain, result = .ok (some chain)) ↔ ∃ path, Poppable ram memory vq path)
      ∧ (∀ chain path, result = .ok (some chain) → Poppable ram memory vq path
          → chain.head = postedHead memory vq
            ∧ chain.bufs next = path.map (fun index => (descAt memory vq index).buf)
            ∧ (next.queue q).lastAvailIdx = (vq.lastAvailIdx + 1) % 2 ^ 16)
      ∧ (result = .ok none ↔ postedCount memory vq = 0)
      ∧ (result = .ok none → next.vdev = w.vdev)
      ∧ (∀ error, result = .error error
          → (next.queue q).broken = true
            ∧ (next.queue q).lastAvailIdx = vq.lastAvailIdx)
      ∧ next.guest = w.guest
      ∧ next.frontend = w.frontend
      ∧ next.transport = w.transport := by
  have zero := @postedCount_eq_zero_iff w.guest.ram (w.queue q) counted
  by_cases same : availIdxAt w.guest.ram (w.queue q) = (w.queue q).lastAvailIdx
  · -- Nothing new.
    have none := zero.mpr same
    rw [virtqueuePop_empty ram live same]
    refine ⟨⟨by simp, ?_⟩, by simp, ⟨fun _ => none, fun _ => rfl⟩, fun _ => rfl, by simp, rfl,
      rfl, rfl⟩
    rintro ⟨path, posted, -⟩
    omega
  · have some : postedCount w.guest.ram (w.queue q) ≠ 0 := fun none => same (zero.mp none)
    by_cases within : postedCount w.guest.ram (w.queue q) ≤ (w.queue q).queueSize
    · rw [virtqueuePop_walk ram live same within]
      have fetched : Fetches fixedGuest q w (popWalkPosted ram q w).2 :=
        (w.headFetched_fetches q).trans (popWalk_fetches ..)
      obtain ⟨bufs, unchanged⟩ := fetched.frame.1.queue q
      have index : ((popWalkPosted ram q w).2.queue q).lastAvailIdx
          = (w.queue q).lastAvailIdx := by
        rw [World.queue, unchanged]
        rfl
      have succeeds := @popWalkPosted_succeeds_iff _ _ _ ram q w sized
      cases walked : popWalkPosted ram q w with
      | mk result next =>
        rw [walked] at fetched index succeeds
        have guest := fetched.fixedGuest
        obtain ⟨-, frontend, transport⟩ := fetched.frame
        cases result with
        | error =>
          refine ⟨⟨by simp, ?_⟩, by simp, ⟨by simp, fun none => absurd none some⟩, by simp, ?_,
            guest, frontend, transport⟩
          · rintro ⟨path, -, -, well⟩
            obtain ⟨_, _, impossible⟩ := succeeds.mpr ⟨path, well⟩
            cases impossible
          · simp [World.breakQueue, index]
        | ok chain =>
          obtain ⟨path, well⟩ := succeeds.mp ⟨chain, next, rfl⟩
          refine ⟨⟨fun _ => ⟨path, by omega, within, well⟩, fun _ => ⟨chain, rfl⟩⟩, ?_,
            ⟨by simp, fun none => absurd none some⟩, by simp, by simp, guest, frontend,
            transport⟩
          rintro _ other ⟨⟩ ⟨-, -, otherWell⟩
          obtain ⟨head, bufs⟩ := popWalkPosted_records walked otherWell
          refine ⟨head, ?_, by simp [World.advanceAvail, index]⟩
          rw [← bufs]
          simp only [VirtqueueChain.bufs, advanceAvail_bufs]
    · -- More is posted than the queue can hold.
      rw [virtqueuePop_overrun ram live same (Nat.lt_of_not_le within)]
      refine ⟨⟨by simp, ?_⟩, by simp, ⟨by simp, fun none => absurd none some⟩, by simp, ?_, rfl,
        rfl, rfl⟩
      · rintro ⟨path, -, possible, -⟩
        exact absurd possible within
      · simp [World.breakQueue]
        rfl

/-- A readable descriptor linked to a writable one, posted as the only chain. -/
def fullTableMemory : Nat → Byte :=
  let first := toLe 8 0x4000 ++ toLe 4 16 ++ toLe 2 1 ++ toLe 2 1
  let second := toLe 8 0x5000 ++ toLe 4 8 ++ toLe 2 2 ++ toLe 2 0
  writeBytes (writeBytes (fun _ => 0) 0x1000 (first ++ second)) 0x2002 (toLe 2 1)

/-- A device whose queue has exactly those two descriptors. -/
def fullTableWorld : World Unit Unit Unit :=
  let vq := do
    let vq ← virtqueueCreate true 2
    (virtqueueSetAddrs demoRam vq 0x1000 0x2000 0x3000).toOption
  ⟨⟨fullTableMemory, ()⟩, 0,
    ⟨.active, 2, 0x0f#8, 0, fun _ => vq.getD (virtqueueReset default), 1⟩, (), (), []⟩

/-- A chain that fills the descriptor table is popped, so it is well-formed. -/
theorem virtqueue_pop_exact_full_table
    : (fullTableWorld.queue 0).queueSize = 2
      ∧ (virtqueuePop demoRam fixedGuest 0 fullTableWorld).1 = .ok (some ⟨0, 2, 0, 16, 8⟩)
      ∧ ∃ path, Poppable demoRam fullTableMemory (fullTableWorld.queue 0) path := by
  have popped : (virtqueuePop demoRam fixedGuest 0 fullTableWorld).1
      = .ok (some ⟨0, 2, 0, 16, 8⟩) := by decide +kernel
  have live : fullTableWorld.Live 0 := ⟨by decide +kernel, by decide +kernel⟩
  have exact := virtqueue_pop_exact demoRam 0 fullTableWorld live (by decide +kernel)
    (by decide +kernel)
  exact ⟨by decide +kernel, popped, exact.1.mp ⟨_, popped⟩⟩

end Modvm.Virtio
