import Modvm.Virtio.Driver
import Modvm.Virtio.Frame
import Modvm.Virtio.Transport

/-! The path of one chain through the device, while the driver acts in between. -/

namespace Modvm.Virtio

open Function Modvm.Core Modvm.Lib

variable {F T : Type}

/-- The driver follows the protocol, whenever the device gives it time to act. -/
def Follows (layout : RingLayout) (env : Env Driver) : Prop :=
  ∀ n guest, DriverSteps layout guest (env n guest)

/-- Ring slots survive the wrap of the 16-bit indices. -/
def RingLayout.Wraps (layout : RingLayout) : Prop :=
  ∀ q rings, layout q = some rings → rings.size ∣ 2 ^ 16

theorem RingLayout.Wraps.positive {layout : RingLayout} (wraps : layout.Wraps)
    : layout.Positive :=
  fun q rings here => Nat.pos_of_dvd_of_pos (wraps q rings here) (by decide)

def returned (log : List Event) (q : Nat) : List (Nat × Nat) :=
  log.filterMap fun event =>
    match event.activity with
    | .push id len => if event.queue = q then some (id, len % 2 ^ 32) else none
    | .load _ => none
    | .store _ => none
    | .backendRead => none
    | .backendWrite => none
    | .backendFlush => none

theorem returned_append_quiet (log : List Event) {events : List Event}
    (quiet : ∀ event ∈ events, ∀ id len, event.activity ≠ .push id len)
    : returned (log ++ events) = returned log := by
  funext q
  have none : returned events q = [] := by
    refine List.filterMap_eq_nil_iff.mpr ?_
    intro event member
    have other := quiet event member
    generalize event.activity = activity at other ⊢
    cases activity with
    | push id len => exact absurd rfl (other id len)
    | _ => rfl
  rw [returned, List.filterMap_append]
  exact (congrArg _ none).trans (List.append_nil _)

theorem returned_append_push (log : List Event) (q id len : Nat) (during : VirtioDevice)
    : returned (log ++ [⟨q, .push id len, during⟩])
      = update (returned log) q (returned log q ++ [(id, len % 2 ^ 32)]) := by
  funext p
  by_cases same : p = q
  · subst same
    simp [returned]
  · simp [returned, same, Ne.symm same]

/-- The next chain of a consistent queue: posted, and not yet returned. -/
structure Pending (layout : RingLayout) (published : Nat → List (Nat × Nat)) (q : Nat)
    (chain : PostedChain) (guest : Guest Driver) : Prop where
  consistent : Consistent layout published guest
  posted : (guest.driver q).posted[(published q).length]? = some chain

section
variable {layout : RingLayout} {env : Env Driver} {published : Nat → List (Nat × Nat)} {q : Nat}
  {rings : Rings} {chain : PostedChain} {guest next : Guest Driver} {w after : World Driver F T}

theorem Pending.steps (apart : layout.Apart) (positive : layout.Positive)
    (pending : Pending layout published q chain guest) (steps : DriverSteps layout guest next)
    : Pending layout published q chain next := by
  obtain ⟨consistent, posted, -⟩ := steps.keep apart positive pending.consistent
  obtain ⟨rest, all⟩ := posted q
  have counted := (List.getElem?_eq_some_iff.mp pending.posted).1
  exact ⟨consistent, by rw [← all, List.getElem?_append_left counted, pending.posted]⟩

theorem Pending.formed (pending : Pending layout published q chain guest)
    (here : layout q = some rings)
    : chain.WellFormed layout rings.size :=
  (pending.consistent q rings here).formed chain (List.mem_of_getElem? pending.posted)

theorem Pending.held (pending : Pending layout published q chain guest)
    (here : layout q = some rings)
    : rings.Holds guest.ram (published q).length chain := by
  have queue := pending.consistent q rings here
  exact queue.held _ chain queue.read.length_le pending.posted

theorem Fetches.driven (follows : Follows layout env) (fetched : Fetches env q w after)
    : DriverSteps layout w.guest after.guest := by
  induction fetched with
  | refl => exact .refl
  | tail _ step ih =>
    cases step with
    | load => exact ih.trans (follows _ _)
    | keep => exact ih

section

variable (apart : layout.Apart) (positive : layout.Positive) (follows : Follows layout env)
  (here : layout q = some rings)
include apart positive follows here

theorem Pending.fetchedDesc (table : ringGpa (w.queue q).descTable = rings.desc)
    (pending : Pending layout published q chain w.guest) {link : ChainLink}
    (member : link ∈ chain.links)
    : Modvm.Virtio.fetchedDesc env q link.index w = link.desc := by
  have later := pending.steps apart positive (follows w.clock w.guest)
  rw [Modvm.Virtio.fetchedDesc, table]
  exact (later.held here).2 link member

/-- A walk over a pending chain records the buffers posted. Witness: induction on the slots left. -/
theorem popWalk_bufs {ram : RamMap} {room : Nat} {start result : VirtqueueChain} {writable : Bool}
    {index : Nat} {links : List ChainLink} (owner : start.queue = q)
    (table : ringGpa (w.queue q).descTable = rings.desc)
    (pending : Pending layout published q chain w.guest) (linked : Linked rings.size index links)
    (part : ∀ link ∈ links, link ∈ chain.links)
    (popped : popWalk ram env q room start writable index w = (.ok result, after))
    : result.bufs after = start.bufs w ++ links.map fun link => link.desc.buf := by
  induction room generalizing start writable index links w with
  | zero =>
    unfold popWalk at popped
    split at popped <;> cases popped
  | succ room ih =>
    unfold popWalk at popped
    split at popped
    · cases popped
    · obtain ⟨posted, rest, rfl, ends, continues⟩ := linked.head
      have fetched := pending.fetchedDesc apart positive follows here table
        (part ⟨index, posted⟩ (by simp))
      dsimp only at fetched
      have grown : ∀ write length, (start.add write length).bufs
          (afterDesc env q start.nrBufs index w) = start.bufs w ++ [posted.buf] := by
        intro write length
        rw [← fetched]
        exact VirtqueueChain.bufs_add owner write length _ _
      split at popped
      · cases popped
      · rename_i desc
        obtain ⟨rfl, -, last, rfl, -⟩ := popDesc_ok desc
        obtain ⟨returned, rfl⟩ := Prod.mk.inj popped
        obtain rfl := Except.ok.inj returned
        rw [fetched] at last
        simp [grown, ends last.symm]
      · rename_i desc
        obtain ⟨rfl, -, more, rfl, -⟩ := popDesc_ok desc
        rw [fetched] at more
        have later := pending.steps apart positive (follows w.clock w.guest)
        have same : ringGpa ((afterDesc env q start.nrBufs index w).queue q).descTable
            = rings.desc := by
          rw [← table, afterDesc, World.recordBuf, World.queue_setQueue_self]
          rfl
        rw [ih ((start.add_fields _ _).1.trans owner) same later (continues _ more.symm)
          (fun link member => part link (List.mem_cons_of_mem _ member)) popped, grown]
        simp

end

structure QueueAt (rings : Rings) (vq : Virtqueue) : Prop where
  enabled : vq.enabled = true
  queueSize : vq.queueSize = rings.size
  ringsAt : vq.RingsAt rings.desc rings.avail rings.used

theorem QueueAt.gpa {vq : Virtqueue} (set : QueueAt rings vq)
    : ringGpa vq.descTable = rings.desc
      ∧ ringGpa vq.availRing = rings.avail
      ∧ ringGpa vq.usedRing = rings.used := by
  obtain ⟨desc, avail, used⟩ := set.ringsAt
  simp [ringGpa, desc, avail, used]

theorem QueueAt.mapped {vq : Virtqueue} (set : QueueAt rings vq)
    : vq.usedRing.isNone = false := by
  have used := set.ringsAt.2.2
  cases ring : vq.usedRing with
  | none => simp [ring] at used
  | some => rfl

theorem QueueAt.congr {vq other : Virtqueue} (set : QueueAt rings vq) (same : vq.SameSetup other)
    : QueueAt rings other := by
  refine ⟨same.enabled.trans set.enabled, same.queueSize.trans set.queueSize, ?_⟩
  unfold Virtqueue.RingsAt
  rw [same.descTable, same.availRing, same.usedRing]
  exact set.ringsAt

theorem virtqueuePop_pending {ram : RamMap} (apart : layout.Apart) (wraps : layout.Wraps)
    (follows : Follows layout env) (here : layout q = some rings)
    (set : QueueAt rings (w.queue q))
    (aligned : (w.queue q).lastAvailIdx = (published q).length % 2 ^ 16)
    (consistent : Consistent layout published w.guest) {popped : VirtqueueChain}
    (ok : virtqueuePop ram env q w = (.ok (some popped), after))
    : ∃ chain, Pending layout published q chain after.guest
        ∧ popped.head = chain.head
        ∧ popped.bufs after = chain.bufs := by
  have positive := wraps.positive
  obtain ⟨descGpa, availGpa, -⟩ := set.gpa
  unfold virtqueuePop at ok
  dsimp only at ok
  rw [availGpa, set.queueSize, aligned, Nat.mod_mod_of_dvd _ (wraps q rings here)] at ok
  obtain ⟨indexed, -⟩ := (follows w.clock w.guest).keep apart positive consistent
  split at ok
  · cases ok
  split at ok
  · cases ok
  split at ok
  · cases ok
  rename_i new
  split at ok
  · cases ok
  -- From the first load on, the chain is pending; the driver acts before each further load.
  obtain ⟨chain, next⟩ := (indexed q rings here).next_posted new
  have pending : Pending layout published q chain (env w.clock w.guest) := ⟨indexed, next⟩
  have read := pending.steps apart positive (follows (w.clock + 1) (env w.clock w.guest))
  have head := (read.held here).1
  have linked := (read.formed here).linked
  split at ok
  · cases ok
  · rename_i walked
    obtain ⟨result, rfl⟩ := Prod.mk.inj ok
    obtain rfl := Option.some.inj (Except.ok.inj result)
    have same : (World.loadLe env q
        (rings.avail + 4 + 2 * ((published q).length % rings.size)) 2
        (w.loadLe env q (rings.avail + 2) 2).2).1 = chain.head := head
    rw [same] at walked
    generalize loaded : (World.loadLe env q
        (rings.avail + 4 + 2 * ((published q).length % rings.size)) 2
        (w.loadLe env q (rings.avail + 2) 2).2).2 = second at walked
    have guest : second.guest = env (w.clock + 1) (env w.clock w.guest) := by rw [← loaded]; rfl
    have table : ringGpa (second.queue q).descTable = rings.desc := by
      rw [← descGpa, ← loaded]
      rfl
    rw [← guest] at read
    have fetched := popWalk_fetches ram env q rings.size ⟨q, 0, chain.head, 0, 0⟩ false
      chain.head second
    rw [walked] at fetched
    have driven := fetched.driven follows
    have bufs := popWalk_bufs apart positive follows here rfl table read linked
      (fun _ member => member) walked
    have kept := (popWalk_formed rfl (ChainFormed.nil ..) (by simp [VirtqueueChain.bufs])
      walked).2.2.1
    refine ⟨chain, read.steps apart positive driven, kept, ?_⟩
    simpa [VirtqueueChain.bufs, PostedChain.bufs, advanceAvail_bufs] using bufs

theorem Transfers.pending {keeps : F → F → Prop} (apart : layout.Apart)
    (positive : layout.Positive) (follows : Follows layout env) (here : layout q = some rings)
    (transfers : Transfers env q (Serves chain.bufs) keeps w after)
    (pending : Pending layout published q chain w.guest)
    : Pending layout published q chain after.guest := by
  induction transfers with
  | refl => exact pending
  | @tail middle _ _ step ih =>
    -- The driver acts first, then the device accesses the memory that it left.
    have acted := ih.steps apart positive (follows middle.clock middle.guest)
    cases step with
    | load => exact acted
    | store gpa bytes ok =>
      obtain ⟨buf, member, writable, within⟩ := ok
      refine ⟨?_, acted.posted⟩
      intro p other there
      refine (acted.consistent p other there).write_outside (positive p other there) ?_
      intro address written area
      exact (acted.formed here).clear buf member writable address (within.has written) p other
        area there
    | backend => exact ih
    | frontend => exact ih

section

variable (apart : layout.Apart) (positive : layout.Positive) (here : layout q = some rings)
  (pending : Pending layout published q chain guest)
include apart positive here pending

theorem Pending.write_elem {base : Nat} {bytes : List Byte}
    (inside : (Span.mk base bytes.length).Within (rings.usedSlot (published q).length))
    : Pending layout published q chain { guest with ram := writeBytes guest.ram base bytes } := by
  refine ⟨?_, pending.posted⟩
  intro p other there
  have queue := pending.consistent p other there
  by_cases same : p = q
  · subst same
    obtain rfl := Option.some.inj (here.symm.trans there)
    have counted := (List.getElem?_eq_some_iff.mp pending.posted).1
    exact queue.write_elem (positive p _ here) (fun _ => apart.within here)
      (Nat.lt_of_lt_of_le counted queue.bounded) inside
  · exact queue.write_outside (positive p other there) (apart.outside here there same
      (inside.trans (Rings.usedSlot_within (positive q rings here) _)))

theorem Pending.publish_used {elem : Nat × Nat} (head : elem.1 = chain.head)
    (placed : rings.usedElem guest.ram (published q).length = elem) {index : Nat}
    (next : index % 2 ^ 16 = ((published q).length + 1) % 2 ^ 16)
    : Consistent layout (update published q (published q ++ [elem]))
        { guest with ram := writeBytes guest.ram (rings.used + 2) (toLe 2 index) } := by
  intro p other there
  have queue := pending.consistent p other there
  by_cases same : p = q
  · subst same
    obtain rfl := Option.some.inj (here.symm.trans there)
    rw [update_self]
    exact queue.publish_used (positive p _ here) (fun _ => apart.within here) pending.posted head
      placed next
  · rw [update_of_ne same]
    refine queue.write_outside (positive p other there) ?_
    exact apart.outside here there same Rings.usedIdx_within

theorem Pending.stored (steps : DriverSteps layout guest next) {span : Span}
    (within : span.Within (rings.area .used))
    : readLe next.ram span = readLe guest.ram span :=
  readLe_congr (((steps.keep apart positive pending.consistent).2.2 q rings here).mono within)

theorem Pending.push {id index slot : Nat} (len : Nat) (head : id = chain.head)
    (small : id < 2 ^ 16) (place : slot = rings.used + 4 + 8 * ((published q).length % rings.size))
    (count : index % 2 ^ 16 = ((published q).length + 1) % 2 ^ 16)
    {first second third : Guest Driver} (before : DriverSteps layout guest first)
    (between : DriverSteps layout
      { first with ram := writeBytes first.ram slot (toLe 4 id) } second)
    (after : DriverSteps layout
      { second with ram := writeBytes second.ram (slot + 4) (toLe 4 len) } third)
    : Consistent layout (update published q (published q ++ [(id, len % 2 ^ 32)]))
        { third with ram := writeBytes third.ram (rings.used + 2) (toLe 2 index) } := by
  subst place
  have room := positive q rings here
  have idInside := (Rings.usedId_within room (published q).length)
  have lenInside := (Rings.usedLen_within room (published q).length)
  have first' := (pending.steps apart positive before).write_elem apart positive here
    (show (Span.mk _ (toLe 4 id).length).Within (rings.usedSlot (published q).length) by
      rw [toLe_length]; exact Rings.usedId_slot _)
  have second' := (first'.steps apart positive between).write_elem apart positive here
    (show (Span.mk _ (toLe 4 len).length).Within (rings.usedSlot (published q).length) by
      rw [toLe_length]; exact Rings.usedLen_slot _)
  -- The identifier survives the second store, and both fields survive until the index.
  have idFirst := first'.stored apart positive here between idInside
  have idThird := second'.stored apart positive here after idInside
  have lenThird := second'.stored apart positive here after lenInside
  refine (second'.steps apart positive after).publish_used apart positive here head ?_ count
  refine Prod.ext ?_ ?_
  · refine idThird.trans (Eq.trans ?_ (idFirst.trans ?_))
    · refine readLe_congr (.of_apart second.ram ?_)
      simp only [Span.Apart, Rings.usedId]
      omega
    · refine (readLe_writeBytes first.ram _ 4 id).trans (Nat.mod_eq_of_lt ?_)
      omega
  · exact lenThird.trans (readLe_writeBytes second.ram _ 4 len)

end

theorem virtqueuePush_consistent (apart : layout.Apart) (wraps : layout.Wraps)
    (follows : Follows layout env) (here : layout q = some rings)
    (set : QueueAt rings (w.queue q))
    (aligned : (w.queue q).lastUsedIdx = (published q).length % 2 ^ 16)
    (pending : Pending layout published q chain w.guest) {id : Nat} (len : Nat)
    (head : id = chain.head) (small : id < 2 ^ 16)
    : Consistent layout (update published q (published q ++ [(id, len % 2 ^ 32)]))
        (virtqueuePush env q id len w).guest := by
  obtain ⟨-, -, usedGpa⟩ := set.gpa
  unfold virtqueuePush
  rw [if_neg (by simp [set.enabled, set.mapped])]
  have used : ringGpa (((writeUsedElem env q id len w).advanceUsed q).queue q).usedRing
      = rings.used := by
    rw [← usedGpa, World.advanceUsed, World.queue_setQueue_self]
    rfl
  have index : (((writeUsedElem env q id len w).advanceUsed q).queue q).lastUsedIdx
      = ((w.queue q).lastUsedIdx + 1) % 2 ^ 16 := by
    rw [World.advanceUsed, World.queue_setQueue_self]
    rfl
  have slot : ringGpa (w.queue q).usedRing
      + 4 + 8 * ((w.queue q).lastUsedIdx % (w.queue q).queueSize)
      = rings.used + 4 + 8 * ((published q).length % rings.size) := by
    rw [usedGpa, set.queueSize, aligned, Nat.mod_mod_of_dvd _ (wraps q rings here)]
  have count : ((w.queue q).lastUsedIdx + 1) % 2 ^ 16 % 2 ^ 16
      = ((published q).length + 1) % 2 ^ 16 := by
    omega
  have result := pending.push apart wraps.positive here len head small slot count
    (follows w.clock w.guest) (follows (w.clock + 1) _) (follows (w.clock + 2) _)
  rw [← used, ← index] at result
  exact result

theorem virtqueuePush_returned (env : Env Driver) (set : QueueAt rings (w.queue q))
    (id len : Nat)
    : returned (virtqueuePush env q id len w).log
      = update (returned w.log) q (returned w.log q ++ [(id, len % 2 ^ 32)]) := by
  have stores : ∀ (log : List Event) (span : Span) (during : VirtioDevice),
      returned (log ++ [⟨q, .store span, during⟩]) = returned log := by
    intro log span during
    exact returned_append_quiet log (by simp)
  unfold virtqueuePush
  rw [if_neg (by simp [set.enabled, set.mapped])]
  refine (returned_append_push _ q id len _).trans ?_
  simp only [publishUsed, World.advanceUsed, writeUsedElem, World.store_log, World.setQueue_log,
    stores]

theorem virtqueuePush_indices (env : Env Driver) (set : QueueAt rings (w.queue q))
    (id len p : Nat)
    : ((virtqueuePush env q id len w).queue p).lastAvailIdx = (w.queue p).lastAvailIdx
      ∧ ((virtqueuePush env q id len w).queue p).lastUsedIdx
        = if p = q then ((w.queue q).lastUsedIdx + 1) % 2 ^ 16 else (w.queue p).lastUsedIdx := by
  unfold virtqueuePush
  rw [if_neg (by simp [set.enabled, set.mapped])]
  change ((w.advanceUsed q).queue p).lastAvailIdx = _
    ∧ ((w.advanceUsed q).queue p).lastUsedIdx = _
  unfold World.advanceUsed
  split
  · rename_i same
    subst same
    rw [World.queue_setQueue_self]
    exact ⟨rfl, rfl⟩
  · rename_i other
    rw [World.queue_setQueue_other _ _ other]
    exact ⟨rfl, rfl⟩

theorem Fetches.indices (fetched : Fetches env q w after) (p : Nat)
    : (after.queue p).lastAvailIdx = (w.queue p).lastAvailIdx
      ∧ (after.queue p).lastUsedIdx = (w.queue p).lastUsedIdx := by
  obtain ⟨bufs, same⟩ := fetched.frame.1.queue p
  unfold World.queue
  rw [same]
  exact ⟨rfl, rfl⟩

theorem Fetches.returned (fetched : Fetches env q w after)
    : Modvm.Virtio.returned after.log = Modvm.Virtio.returned w.log := by
  obtain ⟨events, log, loads⟩ := fetched.log
  rw [log]
  refine returned_append_quiet w.log ?_
  intro event member id len pushed
  obtain ⟨-, ⟨span, load⟩, -⟩ := loads event member
  rw [load] at pushed
  cases pushed

theorem Transfers.returned {keeps : F → F → Prop} {bufs : List VirtqueueBuf}
    (transfers : Transfers env q (Serves bufs) keeps w after)
    : Modvm.Virtio.returned after.log = Modvm.Virtio.returned w.log := by
  obtain ⟨events, log, all⟩ := transfers.log
  rw [log]
  refine returned_append_quiet w.log ?_
  intro event member id len pushed
  obtain ⟨-, served, -⟩ := all event member
  rw [pushed] at served
  exact served

theorem virtqueuePop_driven (ram : RamMap) (follows : Follows layout env) (q : Nat)
    (w : World Driver F T)
    : DriverSteps layout w.guest (virtqueuePop ram env q w).2.guest
      ∧ returned (virtqueuePop ram env q w).2.log = returned w.log := by
  have fetching : ∀ next : World Driver F T, Fetches env q w next
      → DriverSteps layout w.guest next.guest ∧ returned next.log = returned w.log :=
    fun _ fetched => ⟨fetched.driven follows, fetched.returned⟩
  have outcome := virtqueuePop_outcome ram env q w
  generalize virtqueuePop ram env q w = result at outcome
  cases outcome with
  | disabled => exact ⟨.refl, rfl⟩
  | stuck => exact ⟨.refl, rfl⟩
  | @empty next live fetched => exact fetching next fetched
  | @fails next error live fetched => exact fetching next fetched
  | @chain next popped live fetched => exact fetching next fetched

theorem virtqueuePop_indices {ram : RamMap} {popped : Option VirtqueueChain}
    (ok : virtqueuePop ram env q w = (.ok popped, after)) (p : Nat)
    : (after.queue p).lastAvailIdx
        = (if popped.isSome ∧ p = q then ((w.queue q).lastAvailIdx + 1) % 2 ^ 16
          else (w.queue p).lastAvailIdx)
      ∧ (after.queue p).lastUsedIdx = (w.queue p).lastUsedIdx := by
  have outcome := virtqueuePop_outcome ram env q w
  rw [ok] at outcome
  cases outcome with
  | disabled => simp
  | empty live fetched => simpa using fetched.indices p
  | @chain next popped live fetched =>
    obtain ⟨avail, used⟩ := fetched.indices p
    unfold World.advanceAvail
    by_cases same : p = q
    · subst same
      simpa [avail] using used
    · rw [World.queue_setQueue_other _ _ same]
      simpa [same] using ⟨avail, used⟩

end

end Modvm.Virtio
