import Modvm.Virtio.Chain
import Mathlib.Order.Interval.Finset.Nat

/-! The driver side of the virtqueues: what its steps keep of what both sides rely on in the rings.
-/

namespace Modvm.Virtio

open Function Modvm.Core Modvm.Lib

/-- The three parts of a split virtqueue. -/
inductive RingArea where
  | desc
  | avail
  | used
deriving DecidableEq, Repr

/-- Where the parts of a queue lie in guest memory, and how many slots they have. -/
structure Rings where
  size : Nat
  desc : Nat
  avail : Nat
  used : Nat
deriving DecidableEq, Repr

namespace Rings

variable (rings : Rings)

/-- All addresses of one part. -/
def area : RingArea → Span
  | .desc => ⟨rings.desc, 16 * rings.size⟩
  | .avail => ⟨rings.avail, 6 + 2 * rings.size⟩
  | .used => ⟨rings.used, 6 + 8 * rings.size⟩

def descAt (index : Nat) : Span := ⟨rings.desc + 16 * index, 16⟩

def availIdx : Span := ⟨rings.avail + 2, 2⟩

/-- The slot of the available ring for the `i`th chain. -/
def availSlot (i : Nat) : Span := ⟨rings.avail + 4 + 2 * (i % rings.size), 2⟩

def usedIdx : Span := ⟨rings.used + 2, 2⟩

def usedId (i : Nat) : Span := ⟨rings.used + 4 + 8 * (i % rings.size), 4⟩

def usedLen (i : Nat) : Span := ⟨rings.used + 4 + 8 * (i % rings.size) + 4, 4⟩

def usedSlot (i : Nat) : Span := ⟨rings.used + 4 + 8 * (i % rings.size), 8⟩

def usedElem (ram : Nat → Byte) (i : Nat) : Nat × Nat :=
  (readLe ram (rings.usedId i), readLe ram (rings.usedLen i))

theorem usedElem_congr {rings : Rings} {left right : Nat → Byte} {i : Nat}
    (id : AgreeOn left right (rings.usedId i)) (len : AgreeOn left right (rings.usedLen i))
    : rings.usedElem left i = rings.usedElem right i := by
  rw [usedElem, usedElem, readLe_congr id, readLe_congr len]

theorem agreeOn_elsewhere {rings : Rings} {own : RingArea}
    (separate : ∀ area, area ≠ own → (rings.area area).Apart (rings.area own))
    (ram : Nat → Byte) {base : Nat} {bytes : List Byte}
    (inside : (Span.mk base bytes.length).Within (rings.area own)) (area : RingArea)
    (span : Span) (other : area ≠ own) (within : span.Within (rings.area area))
    : AgreeOn (writeBytes ram base bytes) ram span :=
  .of_apart ram ((((separate area other).mono within).symm).mono inside).symm

section Within
variable {rings}

theorem availIdx_within
    : rings.availIdx.Within (rings.area .avail) := by
  simp only [Span.Within, availIdx, area]
  omega

theorem usedIdx_within
    : rings.usedIdx.Within (rings.area .used) := by
  simp only [Span.Within, usedIdx, area]
  omega

theorem descAt_within {index : Nat} (inside : index < rings.size)
    : (rings.descAt index).Within (rings.area .desc) := by
  simp only [Span.Within, descAt, area]
  omega

theorem usedId_slot (i : Nat)
    : (rings.usedId i).Within (rings.usedSlot i) := by
  simp only [Span.Within, usedId, usedSlot]
  omega

theorem usedLen_slot (i : Nat)
    : (rings.usedLen i).Within (rings.usedSlot i) := by
  simp only [Span.Within, usedLen, usedSlot]
  omega

/-- Slots of the used ring are apart until the ring comes round. -/
theorem usedSlot_apart {i j : Nat} (later : i < j) (near : j < i + rings.size)
    : (rings.usedSlot i).Apart (rings.usedSlot j) := by
  have different : i % rings.size ≠ j % rings.size := by
    intro same
    have equal := Nat.mod_injOn_Ico i rings.size
      (Finset.mem_coe.mpr (Finset.mem_Ico.mpr ⟨Nat.le_refl i, by omega⟩))
      (Finset.mem_coe.mpr (Finset.mem_Ico.mpr ⟨Nat.le_of_lt later, near⟩)) same
    omega
  simp only [Span.Apart, usedSlot]
  omega

variable (positive : 0 < rings.size) (i : Nat)
include positive

theorem availSlot_within
    : (rings.availSlot i).Within (rings.area .avail) := by
  have := Nat.mod_lt i positive
  simp only [Span.Within, availSlot, area]
  omega

theorem usedSlot_within
    : (rings.usedSlot i).Within (rings.area .used) := by
  have := Nat.mod_lt i positive
  simp only [Span.Within, usedSlot, area]
  omega

theorem usedId_within
    : (rings.usedId i).Within (rings.area .used) :=
  (usedId_slot i).trans (usedSlot_within positive i)

theorem usedLen_within
    : (rings.usedLen i).Within (rings.area .used) :=
  (usedLen_slot i).trans (usedSlot_within positive i)

end Within

end Rings

/-- The queues that the driver uses. -/
abbrev RingLayout := Nat → Option Rings

/-- No two parts overlap, of one queue or of two. -/
def RingLayout.Apart (layout : RingLayout) : Prop :=
  ∀ q rings area p other otherArea, layout q = some rings → layout p = some other
    → (q, area) ≠ (p, otherArea) → (rings.area area).Apart (other.area otherArea)

structure ChainLink where
  index : Nat
  desc : VringDesc

structure PostedChain where
  head : Nat
  links : List ChainLink

def PostedChain.bufs (chain : PostedChain) : List VirtqueueBuf :=
  chain.links.map fun link => link.desc.buf

/-- Descriptors inside the table, each of which continues with the next one. -/
inductive Linked (size : Nat) : Nat → List ChainLink → Prop
  | last {index : Nat} {desc : VringDesc} (inside : index < size) (ends : desc.follow = none)
    : Linked size index [⟨index, desc⟩]
  | next {index after : Nat} {desc : VringDesc} {rest : List ChainLink}
    (inside : index < size) (follow : desc.follow = some after)
    (linked : Linked size after rest)
    : Linked size index (⟨index, desc⟩ :: rest)

theorem Linked.inside {size index : Nat} {links : List ChainLink}
    (linked : Linked size index links)
    : ∀ link ∈ links, link.index < size := by
  induction linked with
  | last inside => simpa using inside
  | next inside follow linked ih => simpa using ⟨inside, ih⟩

/-- The first link of a chain, and what follows it. -/
theorem Linked.head {size index : Nat} {links : List ChainLink}
    (linked : Linked size index links)
    : ∃ desc rest, links = ⟨index, desc⟩ :: rest
        ∧ (desc.follow = none → rest = [])
        ∧ ∀ after, desc.follow = some after → Linked size after rest := by
  cases linked with
  | last inside ends => exact ⟨_, _, rfl, fun _ => rfl, by simp [ends]⟩
  | next inside follow linked => exact ⟨_, _, rfl, by simp [follow], by simpa [follow] using linked⟩

/-- The chain is linked, and its writable part is not in any ring. -/
structure PostedChain.WellFormed (layout : RingLayout) (size : Nat) (chain : PostedChain)
    : Prop where
  linked : Linked size chain.head chain.links
  clear : ∀ buf ∈ chain.bufs, buf.isWrite = true → ∀ address, buf.span.Has address
    → ∀ q rings area, layout q = some rings → ¬ (rings.area area).Has address

/-- The chains made available and the used elements read, from the beginning. -/
structure DriverQueue where
  posted : List PostedChain
  seen : List (Nat × Nat)

abbrev Driver := Nat → DriverQueue

/-- The memory holds the `i`th chain: its head in the available ring, its descriptors in the
table.
-/
def Rings.Holds (rings : Rings) (ram : Nat → Byte) (i : Nat) (chain : PostedChain) : Prop :=
  readLe ram (rings.availSlot i) = chain.head
  ∧ ∀ link ∈ chain.links,
      VringDesc.ofBytes (readBytes ram (rings.desc + 16 * link.index) 16) = link.desc

theorem Rings.Holds.congr {rings : Rings} {left right : Nat → Byte} {i : Nat}
    {chain : PostedChain} (held : rings.Holds right i chain)
    (slot : AgreeOn left right (rings.availSlot i))
    (descs : ∀ link ∈ chain.links, AgreeOn left right (rings.descAt link.index))
    : rings.Holds left i chain := by
  refine ⟨(readLe_congr slot).trans held.1, ?_⟩
  intro link member
  rw [← held.2 link member]
  exact congrArg _ (readBytes_congr (descs link member))

/-- Memory the driver leaves alone: indices, the used ring, and chains that have not come back. -/
inductive Reserved (rings : Rings) (queue : DriverQueue) : Span → Prop
  | availIdx : Reserved rings queue rings.availIdx
  | used : Reserved rings queue (rings.area .used)
  | slot {i : Nat} (unread : queue.seen.length ≤ i) (posted : i < queue.posted.length)
    : Reserved rings queue (rings.availSlot i)
  | desc {i : Nat} {chain : PostedChain} {link : ChainLink} (unread : queue.seen.length ≤ i)
    (posted : queue.posted[i]? = some chain) (member : link ∈ chain.links)
    : Reserved rings queue (rings.descAt link.index)

/-- One step of a driver that follows the protocol, with at most `size` chains outstanding. -/
inductive DriverStep (layout : RingLayout) (guest : Guest Driver) : Guest Driver → Prop
  | touch {ram : Nat → Byte}
    (kept : ∀ q rings span, layout q = some rings → Reserved rings (guest.driver q) span
      → AgreeOn ram guest.ram span)
    : DriverStep layout guest { guest with ram := ram }
  | publish {q : Nat} {rings : Rings} {chain : PostedChain} (here : layout q = some rings)
    (room : (guest.driver q).posted.length < (guest.driver q).seen.length + rings.size)
    (formed : chain.WellFormed layout rings.size)
    (placed : rings.Holds guest.ram (guest.driver q).posted.length chain)
    : DriverStep layout guest
        ⟨writeBytes guest.ram (rings.avail + 2) (toLe 2 ((guest.driver q).posted.length + 1)),
          update guest.driver q
            { guest.driver q with posted := (guest.driver q).posted ++ [chain] }⟩
  | poll {q : Nat} {rings : Rings} (here : layout q = some rings)
    (new : readLe guest.ram rings.usedIdx ≠ (guest.driver q).seen.length % 2 ^ 16)
    : DriverStep layout guest
        ⟨guest.ram, update guest.driver q
          { guest.driver q with
            seen := (guest.driver q).seen
              ++ [rings.usedElem guest.ram (guest.driver q).seen.length] }⟩

abbrev DriverSteps (layout : RingLayout) : Guest Driver → Guest Driver → Prop :=
  Relation.ReflTransGen (DriverStep layout)

/-- The queue agrees with its history: the driver has read a prefix of `returned`, which answer the
first chains in order; indices count modulo `2 ^ 16`, and the unread ones are in their slots.
-/
structure QueueConsistent (layout : RingLayout) (rings : Rings) (returned : List (Nat × Nat))
    (ram : Nat → Byte) (queue : DriverQueue) : Prop where
  read : queue.seen <+: returned
  heads : returned.map Prod.fst <+: queue.posted.map PostedChain.head
  bounded : queue.posted.length ≤ queue.seen.length + rings.size
  formed : ∀ chain ∈ queue.posted, chain.WellFormed layout rings.size
  availIdx : readLe ram rings.availIdx = queue.posted.length % 2 ^ 16
  usedIdx : readLe ram rings.usedIdx = returned.length % 2 ^ 16
  held : ∀ i chain, queue.seen.length ≤ i → queue.posted[i]? = some chain
    → rings.Holds ram i chain
  unread : ∀ i elem, queue.seen.length ≤ i → returned[i]? = some elem
    → rings.usedElem ram i = elem

def Consistent (layout : RingLayout) (returned : Nat → List (Nat × Nat))
    (guest : Guest Driver)
    : Prop :=
  ∀ q rings, layout q = some rings
    → QueueConsistent layout rings (returned q) guest.ram (guest.driver q)

/-- The memory that consistency is about. -/
inductive Relevant (rings : Rings) (count : Nat) (queue : DriverQueue) : Span → Prop
  | availIdx : Relevant rings count queue rings.availIdx
  | usedIdx : Relevant rings count queue rings.usedIdx
  | slot {i : Nat} (unread : queue.seen.length ≤ i) (posted : i < queue.posted.length)
    : Relevant rings count queue (rings.availSlot i)
  | desc {i : Nat} {chain : PostedChain} {link : ChainLink} (unread : queue.seen.length ≤ i)
    (posted : queue.posted[i]? = some chain) (member : link ∈ chain.links)
    : Relevant rings count queue (rings.descAt link.index)
  | usedId {i : Nat} (unread : queue.seen.length ≤ i) (published : i < count)
    : Relevant rings count queue (rings.usedId i)
  | usedLen {i : Nat} (unread : queue.seen.length ≤ i) (published : i < count)
    : Relevant rings count queue (rings.usedLen i)

section
variable {layout : RingLayout} {rings : Rings} {returned : List (Nat × Nat)}
  {ram other : Nat → Byte} {queue : DriverQueue}

section

variable (consistent : QueueConsistent layout rings returned ram queue)
include consistent

/-- Consistency depends on the relevant bytes only. -/
theorem QueueConsistent.congr
    (same : ∀ span, Relevant rings returned.length queue span → AgreeOn other ram span)
    : QueueConsistent layout rings returned other queue := by
  refine ⟨consistent.read, consistent.heads, consistent.bounded, consistent.formed, ?_, ?_, ?_,
    ?_⟩
  · rw [readLe_congr (same _ .availIdx), consistent.availIdx]
  · rw [readLe_congr (same _ .usedIdx), consistent.usedIdx]
  · intro i chain unread posted
    have counted : i < queue.posted.length := (List.getElem?_eq_some_iff.mp posted).1
    exact (consistent.held i chain unread posted).congr (same _ (.slot unread counted))
      fun _ member => same _ (.desc unread posted member)
  · intro i elem unread published
    have counted : i < returned.length := (List.getElem?_eq_some_iff.mp published).1
    rw [← consistent.unread i elem unread published]
    exact Rings.usedElem_congr (same _ (.usedId unread counted)) (same _ (.usedLen unread counted))

/-- Where the available index has moved on, the next chain is posted. -/
theorem QueueConsistent.next_posted (new : readLe ram rings.availIdx ≠ returned.length % 2 ^ 16)
    : ∃ chain, queue.posted[returned.length]? = some chain := by
  have bound := consistent.heads.length_le
  rw [List.length_map, List.length_map] at bound
  have counted : returned.length < queue.posted.length :=
    Nat.lt_of_le_of_ne bound fun same => new (by rw [consistent.availIdx, same])
  exact ⟨_, List.getElem?_eq_getElem counted⟩

theorem QueueConsistent.relevant_within (positive : 0 < rings.size) {span : Span}
    (relevant : Relevant rings returned.length queue span)
    : ∃ area, span.Within (rings.area area) := by
  cases relevant with
  | availIdx => exact ⟨_, Rings.availIdx_within⟩
  | usedIdx => exact ⟨_, Rings.usedIdx_within⟩
  | slot => exact ⟨_, Rings.availSlot_within positive _⟩
  | desc unread posted member =>
    have formed := consistent.formed _ (List.mem_of_getElem? posted)
    exact ⟨_, Rings.descAt_within (formed.linked.inside _ member)⟩
  | usedId => exact ⟨_, Rings.usedId_within positive _⟩
  | usedLen => exact ⟨_, Rings.usedLen_within positive _⟩

/-- The driver posts a chain in a slot that nobody reads yet. -/
theorem QueueConsistent.publish {chain : PostedChain}
    (separate : ∀ area, area ≠ .avail → (rings.area area).Apart (rings.area .avail))
    (positive : 0 < rings.size) (room : queue.posted.length < queue.seen.length + rings.size)
    (formed : chain.WellFormed layout rings.size)
    (placed : rings.Holds ram queue.posted.length chain)
    : QueueConsistent layout rings returned
        (writeBytes ram (rings.avail + 2) (toLe 2 (queue.posted.length + 1)))
        { queue with posted := queue.posted ++ [chain] } := by
  have width : (⟨rings.avail + 2, (toLe 2 (queue.posted.length + 1)).length⟩ : Span)
      = rings.availIdx := by
    rw [toLe_length, Rings.availIdx]
  have value := readLe_writeBytes ram (rings.avail + 2) 2 (queue.posted.length + 1)
  have elsewhere := Rings.agreeOn_elsewhere separate ram (width ▸ Rings.availIdx_within)
  have slot : ∀ i, AgreeOn
      (writeBytes ram (rings.avail + 2) (toLe 2 (queue.posted.length + 1))) ram
      (rings.availSlot i) := by
    intro i
    refine .of_apart ram (width ▸ ?_)
    simp only [Span.Apart, Rings.availSlot, Rings.availIdx]
    omega
  -- Only the index itself changes: the slots lie behind it, the rest in other parts.
  generalize writeBytes ram (rings.avail + 2) (toLe 2 (queue.posted.length + 1)) = next at *
  have used := fun span => elsewhere .used span (by decide)
  have holds : ∀ i other, other.WellFormed layout rings.size → rings.Holds ram i other
      → rings.Holds next i other := by
    intro i other fine held
    refine held.congr (slot i) ?_
    intro link member
    exact elsewhere .desc _ (by decide) (Rings.descAt_within (fine.linked.inside link member))
  refine ⟨consistent.read, consistent.heads.trans ?_, ?_, ?_, ?_, ?_, ?_, ?_⟩
  · rw [List.map_append]
    exact List.prefix_append _ _
  · rw [List.length_append, List.length_singleton]
    dsimp only
    omega
  · intro other member
    rcases List.mem_append.mp member with old | new
    · exact consistent.formed other old
    · rwa [List.mem_singleton.mp new]
  · rw [List.length_append]
    exact value
  · rw [readLe_congr (used _ Rings.usedIdx_within), consistent.usedIdx]
  · intro i other unread posted
    rcases Nat.lt_or_ge i queue.posted.length with old | last
    · rw [List.getElem?_append_left old] at posted
      exact holds i other (consistent.formed other (List.mem_of_getElem? posted))
        (consistent.held i other unread posted)
    · rw [List.getElem?_append_right last, List.getElem?_eq_some_iff] at posted
      obtain ⟨inside, rfl⟩ := posted
      have here : i = queue.posted.length := by
        rw [List.length_singleton] at inside
        omega
      subst here
      simpa using holds _ chain formed placed
  · intro i elem unread published
    rw [← consistent.unread i elem unread published]
    exact Rings.usedElem_congr (used _ (Rings.usedId_within positive i))
      (used _ (Rings.usedLen_within positive i))

/-- The driver takes a returned element that it has not seen. -/
theorem QueueConsistent.poll (new : readLe ram rings.usedIdx ≠ queue.seen.length % 2 ^ 16)
    : QueueConsistent layout rings returned ram
        { queue with seen := queue.seen ++ [rings.usedElem ram queue.seen.length] } := by
  have read : queue.seen ++ [rings.usedElem ram queue.seen.length] <+: returned := by
    obtain ⟨rest, all⟩ := consistent.read
    cases rest with
    -- With nothing left to read, the index would be the number of elements read.
    | nil =>
      rw [List.append_nil] at all
      rw [consistent.usedIdx, all] at new
      exact absurd rfl new
    | cons elem rest =>
      have next : returned[queue.seen.length]? = some elem := by simp [← all]
      rw [consistent.unread _ elem (Nat.le_refl _) next]
      exact ⟨rest, by simp [← all]⟩
  refine ⟨read, consistent.heads, ?_, consistent.formed, consistent.availIdx,
    consistent.usedIdx, ?_, ?_⟩
  · have := consistent.bounded
    rw [List.length_append]
    dsimp only
    omega
  · intro i chain unread posted
    refine consistent.held i chain ?_ posted
    rw [List.length_append] at unread
    exact Nat.le_of_add_right_le unread
  · intro i elem unread published
    refine consistent.unread i elem ?_ published
    rw [List.length_append] at unread
    exact Nat.le_of_add_right_le unread

end

theorem Relevant.reserved {count : Nat} (positive : 0 < rings.size) {span : Span}
    (relevant : Relevant rings count queue span)
    : ∃ outer, Reserved rings queue outer ∧ span.Within outer := by
  have self : ∀ span : Span, span.Within span := fun span =>
    ⟨Nat.le_refl _, Nat.le_refl _⟩
  cases relevant with
  | availIdx => exact ⟨_, .availIdx, self _⟩
  | usedIdx => exact ⟨_, .used, Rings.usedIdx_within⟩
  | slot unread posted => exact ⟨_, .slot unread posted, self _⟩
  | desc unread posted member => exact ⟨_, .desc unread posted member, self _⟩
  | usedId => exact ⟨_, .used, Rings.usedId_within positive _⟩
  | usedLen => exact ⟨_, .used, Rings.usedLen_within positive _⟩

section

variable (consistent : QueueConsistent layout rings returned ram queue) (positive : 0 < rings.size)
include consistent positive

theorem QueueConsistent.write_outside {base : Nat} {bytes : List Byte}
    (outside : ∀ address, (Span.mk base bytes.length).Has address
      → ∀ area, ¬ (rings.area area).Has address)
    : QueueConsistent layout rings returned (writeBytes ram base bytes) queue := by
  refine consistent.congr ?_
  intro span relevant address member
  obtain ⟨area, within⟩ := consistent.relevant_within positive relevant
  refine writeBytes_outside ram base bytes ?_
  intro written
  exact outside address written area (within.has member)

/-- The device writes an element that the driver has not been told of. -/
theorem QueueConsistent.write_elem
    (separate : ∀ area, area ≠ .used → (rings.area area).Apart (rings.area .used))
    (room : returned.length < queue.seen.length + rings.size) {base : Nat} {bytes : List Byte}
    (inside : (Span.mk base bytes.length).Within (rings.usedSlot returned.length))
    : QueueConsistent layout rings returned (writeBytes ram base bytes) queue := by
  refine consistent.congr ?_
  have near : ∀ span, span.Apart (rings.usedSlot returned.length)
      → AgreeOn (writeBytes ram base bytes) ram span :=
    fun span apart => .of_apart ram (apart.symm.mono inside).symm
  have elsewhere := Rings.agreeOn_elsewhere separate ram
    (inside.trans (Rings.usedSlot_within positive _))
  intro span relevant
  cases relevant with
  | availIdx => exact elsewhere .avail _ (by decide) Rings.availIdx_within
  | usedIdx =>
    refine near _ ?_
    simp only [Span.Apart, Rings.usedIdx, Rings.usedSlot]
    omega
  | slot => exact elsewhere .avail _ (by decide) (Rings.availSlot_within positive _)
  | desc unread posted member =>
    have formed := consistent.formed _ (List.mem_of_getElem? posted)
    exact elsewhere .desc _ (by decide) (Rings.descAt_within (formed.linked.inside _ member))
  | usedId unread published =>
    exact near _ ((Rings.usedSlot_apart published (by omega)).mono
      (Rings.usedId_slot _))
  | usedLen unread published =>
    exact near _ ((Rings.usedSlot_apart published (by omega)).mono
      (Rings.usedLen_slot _))

/-- The device returns the oldest chain that it has not returned. -/
theorem QueueConsistent.publish_used
    (separate : ∀ area, area ≠ .used → (rings.area area).Apart (rings.area .used))
    {chain : PostedChain} (posted : queue.posted[returned.length]? = some chain) {elem : Nat × Nat}
    (head : elem.1 = chain.head) (placed : rings.usedElem ram returned.length = elem) {index : Nat}
    (next : index % 2 ^ 16 = (returned.length + 1) % 2 ^ 16)
    : QueueConsistent layout rings (returned ++ [elem])
        (writeBytes ram (rings.used + 2) (toLe 2 index)) queue := by
  have width : (⟨rings.used + 2, (toLe 2 index).length⟩ : Span) = rings.usedIdx := by
    rw [toLe_length, Rings.usedIdx]
  have value : readLe _ rings.usedIdx = index % 2 ^ 16 :=
    readLe_writeBytes ram (rings.used + 2) 2 index
  have elsewhere := Rings.agreeOn_elsewhere separate ram (width ▸ Rings.usedIdx_within)
  have slot : ∀ i, AgreeOn (writeBytes ram (rings.used + 2) (toLe 2 index)) ram
      (rings.usedSlot i) := by
    intro i
    refine .of_apart ram (width ▸ ?_)
    simp only [Span.Apart, Rings.usedSlot, Rings.usedIdx]
    omega
  generalize writeBytes ram (rings.used + 2) (toLe 2 index) = after at *
  have elems : ∀ i, rings.usedElem after i = rings.usedElem ram i := fun i =>
    Rings.usedElem_congr ((slot i).mono (Rings.usedId_slot i))
      ((slot i).mono (Rings.usedLen_slot i))
  refine ⟨consistent.read.trans (List.prefix_append _ _), ?_, consistent.bounded,
    consistent.formed, ?_, ?_, ?_, ?_⟩
  -- The new identifier is the head of the chain behind those already returned.
  · obtain ⟨rest, all⟩ := consistent.heads
    have mapped : (queue.posted.map PostedChain.head)[returned.length]? = some elem.1 := by
      rw [List.getElem?_map, posted, head]
      rfl
    rw [← all, List.getElem?_append_right (by simp)] at mapped
    cases rest with
    | nil => cases mapped
    | cons first rest =>
      obtain rfl : first = elem.1 := by simpa using mapped
      exact ⟨rest, by simp [← all]⟩
  · rw [readLe_congr (elsewhere .avail _ (by decide) Rings.availIdx_within),
      consistent.availIdx]
  · rw [value, next, List.length_append, List.length_singleton]
  · intro i other unread isPosted
    have formed := consistent.formed _ (List.mem_of_getElem? isPosted)
    refine (consistent.held i other unread isPosted).congr
      (elsewhere .avail _ (by decide) (Rings.availSlot_within positive i)) ?_
    intro link member
    exact elsewhere .desc _ (by decide) (Rings.descAt_within (formed.linked.inside _ member))
  · intro i other unread published
    rw [elems]
    rcases Nat.lt_or_ge i returned.length with old | last
    · rw [List.getElem?_append_left old] at published
      exact consistent.unread i other unread published
    · rw [List.getElem?_append_right last, List.getElem?_eq_some_iff] at published
      obtain ⟨inside, rfl⟩ := published
      have here : i = returned.length := by
        rw [List.length_singleton] at inside
        omega
      subst here
      simpa using placed

end

end

section
variable {layout : RingLayout} {returned : Nat → List (Nat × Nat)} {guest next : Guest Driver}

def RingLayout.Positive (layout : RingLayout) : Prop :=
  ∀ q rings, layout q = some rings → 0 < rings.size

theorem RingLayout.Apart.within (apart : layout.Apart) {q : Nat} {rings : Rings}
    (here : layout q = some rings) {area other : RingArea} (different : area ≠ other)
    : (rings.area area).Apart (rings.area other) :=
  apart q rings area q rings other here here (by simpa using different)

theorem RingLayout.Apart.outside (apart : layout.Apart) {q p : Nat} {rings other : Rings}
    (here : layout q = some rings) (there : layout p = some other) (different : p ≠ q)
    {span : Span} {area : RingArea} (within : span.Within (rings.area area))
    : ∀ address, span.Has address → ∀ otherArea, ¬ (other.area otherArea).Has address := by
  intro address member otherArea
  refine Span.Apart.not_has ?_ (within.has member)
  exact apart q rings area p other otherArea here there (by simp [different.symm])

/-- A step of the driver keeps every queue consistent. -/
theorem DriverStep.consistent (apart : layout.Apart) (positive : layout.Positive)
    (step : DriverStep layout guest next) (consistent : Consistent layout returned guest)
    : Consistent layout returned next := by
  intro p other there
  have before := consistent p other there
  cases step with
  | touch kept =>
    refine before.congr ?_
    intro span relevant
    obtain ⟨outer, reserved, within⟩ := relevant.reserved (positive p other there)
    exact (kept p other outer there reserved).mono within
  | @publish q rings chain here room formed placed =>
    by_cases same : p = q
    · subst same
      obtain rfl := Option.some.inj (here.symm.trans there)
      dsimp only
      rw [update_self]
      exact before.publish (fun _ => apart.within here) (positive p _ here) room formed placed
    · dsimp only
      rw [update_of_ne same]
      refine before.write_outside (positive p other there) ?_
      exact apart.outside here there same Rings.availIdx_within
  | @poll q rings here new =>
    by_cases same : p = q
    · subst same
      obtain rfl := Option.some.inj (here.symm.trans there)
      dsimp only
      rw [update_self]
      exact before.poll new
    · dsimp only
      rw [update_of_ne same]
      exact before

theorem DriverStep.posted (step : DriverStep layout guest next) (q : Nat)
    : (guest.driver q).posted <+: (next.driver q).posted := by
  cases step with
  | touch => exact List.prefix_refl _
  | @publish p =>
    by_cases same : q = p
    · subst same
      simp
    · simp [same]
  | @poll p =>
    by_cases same : q = p
    · subst same
      simp
    · simp [same]

theorem DriverStep.used (apart : layout.Apart) (step : DriverStep layout guest next) {q : Nat}
    {rings : Rings} (here : layout q = some rings)
    : AgreeOn next.ram guest.ram (rings.area .used) := by
  cases step with
  | touch kept => exact kept q rings _ here .used
  | @publish p other chain there =>
    refine .of_apart guest.ram ?_
    have parts := apart p other .avail q rings .used there here (by simp)
    exact (parts.mono Rings.availIdx_within).symm
  | poll => exact fun _ _ => rfl

/-- Any number of steps of the driver, by induction. -/
theorem DriverSteps.keep (apart : layout.Apart) (positive : layout.Positive)
    (steps : DriverSteps layout guest next) (consistent : Consistent layout returned guest)
    : Consistent layout returned next
      ∧ (∀ q, (guest.driver q).posted <+: (next.driver q).posted)
      ∧ ∀ q rings, layout q = some rings → AgreeOn next.ram guest.ram (rings.area .used) := by
  induction steps with
  | refl => exact ⟨consistent, fun _ => List.prefix_refl _, fun _ _ _ _ _ => rfl⟩
  | tail _ step ih =>
    obtain ⟨before, posted, used⟩ := ih
    refine ⟨step.consistent apart positive before, fun q => (posted q).trans (step.posted q),
      ?_⟩
    intro q rings here address member
    exact (step.used apart here address member).trans (used q rings here address member)

end

end Modvm.Virtio
