import Modvm.Util.Cleanup

/-! A release runs what it found in reverse order, and ends, since nothing enters the pool
meanwhile.
-/

namespace Modvm.Util.Pools

open Function Modvm.Lib

variable {π φ δ : Type} [DecidableEq π]

/-- The obligation that an event runs for a release. -/
def Event.ranBy (number : Nat) : Event π → Option Nat
  | .ran other id => if other = number then some id else none
  | _ => none

def Event.iterates (number : Nat) : Event π → Bool
  | .ran other _ => other == number
  | .freed other => other == number
  | _ => false

def World.ranBy (w : World π φ δ) (number : Nat) : List Nat :=
  w.log.filterMap (Event.ranBy number)

def World.iterations (w : World π φ δ) (number : Nat) : Nat :=
  w.log.countP (Event.iterates number)

/-- The obligations that a release has still to run. -/
def World.remaining (w : World π φ δ) (number : Nat) (p : π) : List Nat :=
  if .release p number ∈ w.stack then w.ids p else []

def World.unvisited (w : World π φ δ) (number : Nat) (p : π) : Nat :=
  if .release p number ∈ w.stack then (w.pools p).resources.length else 0

/-- A release since it began: its obligations still in the pool, those it ran, its iterations, and
their order.
-/
structure Followed (w : World π φ δ) (number : Nat) (p : π) (held : List Nat) (size : Nat)
    : Prop where
  earlier : number < w.nextRelease
  issued : ∀ id ∈ held, id < w.nextId
  split : held.filter (fun id => w.cancels id == 0) = w.remaining number p ++ w.ranBy number
  bounded : w.iterations number + w.unvisited number p ≤ size
  ordered : held.Pairwise fun a b => entryTime p a w.log < entryTime p b w.log

/-- Two frames release different pools. -/
def Frame.Differ (a b : Frame π) : Prop :=
  ∀ p m n, a = .release p m → b ≠ .release p n

/-- The flags of the pools tell which are being released, each by one call, and every release
is followed.
-/
structure Tracked (w : World π φ δ) : Prop where
  flag : ∀ p, (w.pools p).releasing = true ↔ ∃ number, .release p number ∈ w.stack
  single : w.stack.Pairwise Frame.Differ
  frame : ∀ p number, .release p number ∈ w.stack → number < w.nextRelease
    ∧ ∀ q held size, .began number q held size ∈ w.log → q = p
  fresh : ∀ number, w.nextRelease ≤ number → w.ranBy number = [] ∧ w.iterations number = 0
  followed : ∀ number p held size, .began number p held size ∈ w.log
    → Followed w number p held size
  closed : ∀ number p, .ended number p ∈ w.log
    → number < w.nextRelease ∧ .release p number ∉ w.stack

variable {w next : World π φ δ}

omit [DecidableEq π] in
/-- What a release ran has run. -/
theorem runs_pos_of_ranBy {number id : Nat} (ran : id ∈ w.ranBy number)
    : 0 < w.runs id := by
  obtain ⟨event, member, found⟩ := List.mem_filterMap.mp ran
  refine List.countP_pos_iff.mpr ⟨event, member, ?_⟩
  cases event <;> simp_all [Event.ranBy, Event.runs]

/-- What a release found and has not left to do was run or cancelled. -/
theorem Followed.spent {number : Nat} {p : π} {held : List Nat} {size : Nat}
    (followed : Followed w number p held size) {id : Nat} (member : id ∈ held)
    (left : id ∉ w.remaining number p)
    : w.ledger.spent id ≠ 0 := by
  show w.runs id + w.cancels id ≠ 0
  by_cases cancelled : w.cancels id = 0
  · have kept : id ∈ held.filter (fun id => w.cancels id == 0) :=
      List.mem_filter.mpr ⟨member, by simpa using cancelled⟩
    rw [followed.split] at kept
    have ran := runs_pos_of_ranBy ((List.mem_append.mp kept).resolve_left left)
    omega
  · omega

/-- A step that does nothing to a release, its pool and its obligations lets it be followed. -/
theorem Followed.congr {w next : World π φ δ} {number : Nat} {p : π} {held : List Nat}
    {size : Nat} (followed : Followed w number p held size)
    (releases : w.nextRelease ≤ next.nextRelease) (issued : w.nextId ≤ next.nextId)
    (cancels : ∀ id ∈ held, next.cancels id = w.cancels id)
    (remaining : next.remaining number p = w.remaining number p)
    (ran : next.ranBy number = w.ranBy number)
    (iterations : next.iterations number + next.unvisited number p
      ≤ w.iterations number + w.unvisited number p)
    (entries : ∀ id ∈ held, entryTime p id next.log = entryTime p id w.log)
    : Followed next number p held size where
  earlier := Nat.lt_of_lt_of_le followed.earlier releases
  issued id member := Nat.lt_of_lt_of_le (followed.issued id member) issued
  split := by
    rw [remaining, ran, ← followed.split]
    refine List.filter_congr fun id member => ?_
    rw [cancels id member]
  bounded := Nat.le_trans iterations followed.bounded
  ordered := by
    refine followed.ordered.imp_of_mem fun {a b} first second before => ?_
    rw [entries a first, entries b second]
    exact before

/-- The rest of a release depends on its frame and its pool only. -/
theorem World.remaining_congr {number : Nat} {p : π}
    (stack : .release p number ∈ next.stack ↔ .release p number ∈ w.stack)
    (same : .release p number ∈ w.stack → (next.pools p).resources = (w.pools p).resources)
    : next.remaining number p = w.remaining number p
      ∧ next.unvisited number p = w.unvisited number p := by
  unfold World.remaining World.unvisited
  by_cases active : .release p number ∈ w.stack
  · have resources := same active
    rw [if_pos (stack.mpr active), if_pos (stack.mpr active), if_pos active, if_pos active,
      World.ids, Pool.obligations, resources]
    exact ⟨rfl, rfl⟩
  · have left : .release p number ∉ next.stack := fun found => active (stack.mp found)
    rw [if_neg left, if_neg left, if_neg active, if_neg active]
    exact ⟨rfl, rfl⟩

theorem init_tracked : Tracked (World.init : World π φ δ) where
  flag := by simp [World.init, resPoolInit]
  single := .nil
  frame := by simp [World.init]
  fresh := by simp [World.init, World.ranBy, World.iterations]
  followed := by simp [World.init]
  closed := by simp [World.init]

/-- The event concerns no release and cancels nothing. -/
structure Event.Passive (event : Event π) : Prop where
  ranBy : ∀ number, event.ranBy number = none
  iterates : ∀ number, event.iterates number = false
  cancels : ∀ id, event.cancels id = false
  began : ∀ number p held size, event ≠ .began number p held size
  ended : ∀ number p, event ≠ .ended number p

omit [DecidableEq π] in
/-- Entering a pool concerns no release. -/
theorem Event.passive_entered (p : π) (id : Nat)
    : Event.Passive (.entered p id) :=
  ⟨fun _ => rfl, fun _ => rfl, fun _ => rfl, nofun, nofun⟩

omit [DecidableEq π] in
theorem Event.passive_refused (call : Nat) (error : VmError)
    : Event.Passive (.refused call error : Event π) :=
  ⟨fun _ => rfl, fun _ => rfl, fun _ => rfl, nofun, nofun⟩

omit [DecidableEq π] in
theorem Event.passive_reset (call : Nat)
    : Event.Passive (.reset call : Event π) :=
  ⟨fun _ => rfl, fun _ => rfl, fun _ => rfl, nofun, nofun⟩

omit [DecidableEq π] in
theorem Frame.callback_differ (frame : Frame π)
    : Frame.Differ .callback frame := nofun

namespace Tracked

section

variable (tracked : Tracked w)
include tracked

/-- A pool with an active release has its flag set. -/
theorem releasing {p : π} {number : Nat} (active : .release p number ∈ w.stack)
    : (w.pools p).releasing = true :=
  (tracked.flag p).mpr ⟨number, active⟩

/-- No release begins or ends: it is enough to follow those that there are. -/
theorem of_followed
    (stack : ∀ p number, .release p number ∈ next.stack ↔ .release p number ∈ w.stack)
    (single : next.stack.Pairwise Frame.Differ)
    (flags : ∀ p, (next.pools p).releasing = (w.pools p).releasing)
    (releases : next.nextRelease = w.nextRelease)
    (began : ∀ number p held size, .began number p held size ∈ next.log
      → .began number p held size ∈ w.log)
    (ended : ∀ number p, .ended number p ∈ next.log → .ended number p ∈ w.log)
    (fresh : ∀ number, w.nextRelease ≤ number
      → next.ranBy number = [] ∧ next.iterations number = 0)
    (followed : ∀ number p held size, .began number p held size ∈ w.log
      → Followed next number p held size)
    : Tracked next := by
  refine ⟨?_, single, ?_, ?_, ?_, ?_⟩
  · intro p
    rw [flags, tracked.flag]
    exact exists_congr fun number => (stack p number).symm
  · intro p number active
    obtain ⟨earlier, owner⟩ := tracked.frame p number ((stack p number).mp active)
    exact ⟨releases ▸ earlier, fun q held size member => owner q held size (began _ _ _ _ member)⟩
  · exact fun number later => fresh number (releases ▸ later)
  · exact fun number p held size member => followed _ _ _ _ (began number p held size member)
  · intro number p member
    obtain ⟨earlier, left⟩ := tracked.closed number p (ended number p member)
    exact ⟨releases ▸ earlier, fun active => left ((stack p number).mp active)⟩

/-- Passive events, while pools with an active release stay as they are. -/
theorem quiet (events : List (Event π))
    (stack : ∀ p number, .release p number ∈ next.stack ↔ .release p number ∈ w.stack)
    (single : next.stack.Pairwise Frame.Differ)
    (flags : ∀ p, (next.pools p).releasing = (w.pools p).releasing)
    (kept : ∀ p, (w.pools p).releasing = true → next.pools p = w.pools p)
    (releases : next.nextRelease = w.nextRelease) (issued : w.nextId ≤ next.nextId)
    (log : next.log = events ++ w.log) (passive : ∀ event ∈ events, event.Passive)
    (outside : ∀ q id, .entered q id ∈ events
      → ∀ number p held size, .began number p held size ∈ w.log → id ∉ held)
    : Tracked next := by
  have ranBy : ∀ number, next.ranBy number = w.ranBy number := by
    intro number
    have none : events.filterMap (Event.ranBy number) = [] :=
      List.filterMap_eq_nil_iff.mpr fun event member => (passive event member).ranBy number
    rw [World.ranBy, log, List.filterMap_append, none]
    rfl
  have iterations : ∀ number, next.iterations number = w.iterations number := by
    intro number
    rw [World.iterations, log, countP_quiet fun e m => (passive e m).iterates number]
    rfl
  have cancels : ∀ id, next.cancels id = w.cancels id := by
    intro id
    rw [World.cancels, log, countP_quiet fun e m => (passive e m).cancels id]
    rfl
  refine tracked.of_followed stack single flags releases ?_ ?_ ?_ ?_
  · intro number p held size member
    rw [log] at member
    refine (List.mem_append.mp member).resolve_left fun new => ?_
    exact (passive _ new).began number p held size rfl
  · intro number p member
    rw [log] at member
    refine (List.mem_append.mp member).resolve_left fun new => ?_
    exact (passive _ new).ended number p rfl
  · intro number later
    rw [ranBy, iterations]
    exact tracked.fresh number later
  · intro number p held size old
    have followed := tracked.followed number p held size old
    -- a pool with an active release is as it was
    obtain ⟨remaining, unvisited⟩ := World.remaining_congr (stack p number)
      fun active => by rw [kept p (tracked.releasing active)]
    refine followed.congr (Nat.le_of_eq releases.symm) issued (fun id _ => cancels id) remaining
      (ranBy number) (Nat.le_of_eq (by rw [iterations, unvisited])) ?_
    intro id found
    rw [log]
    refine entryTime_quiet p id fun event member => ?_
    rintro rfl
    exact outside p id member number p held size old found

/-- The case of one pool that is not being released. -/
theorem quiet_pool {q : π} {pool : Pool π φ δ} (events : List (Event π))
    (pools : next.pools = update w.pools q pool) (open_pool : (w.pools q).releasing = false)
    (flag : pool.releasing = false) (stack : next.stack = w.stack)
    (releases : next.nextRelease = w.nextRelease) (issued : w.nextId ≤ next.nextId)
    (log : next.log = events ++ w.log) (passive : ∀ event ∈ events, event.Passive)
    (outside : ∀ q id, .entered q id ∈ events
      → ∀ number p held size, .began number p held size ∈ w.log → id ∉ held)
    : Tracked next := by
  refine tracked.quiet events (fun _ _ => by rw [stack]) (stack ▸ tracked.single) ?_ ?_ releases
    issued log passive outside
  · rw [pools]
    exact update_shared Pool.releasing (flag.trans open_pool.symm)
  · intro p releasing
    have elsewhere : p ≠ q := by
      rintro rfl
      rw [open_pool] at releasing
      cases releasing
    rw [pools, update_of_ne elsewhere]

/-- An obligation in an open pool was found by no release: releases spend what they find. -/
theorem not_found (accounted : Accounted w) {src : π} {id : Nat}
    (open_pool : (w.pools src).releasing = false) (member : id ∈ w.ids src) {number : Nat} {p : π}
    {held : List Nat} {size : Nat} (began : .began number p held size ∈ w.log)
    : id ∉ held := by
  intro found
  have unspent := (accounted.exact.live src id member).2
  have left : id ∈ w.remaining number p := by
    by_contra gone
    exact (tracked.followed number p held size began).spent found gone unspent
  unfold World.remaining at left
  split at left
  next active =>
    have same : p = src := accounted.exact.apart p src id left member
    have releasing := tracked.releasing active
    rw [same, open_pool] at releasing
    cases releasing
  · cases left

end

variable {callers : List (Frame π)} {number : Nat} {p : π}

section

variable (tracked : Tracked w)
include tracked

/-- Two active releases are of different pools. -/
theorem other_pool {q p : π} {number other : Nat} (top : w.stack = .release q other :: callers)
    (active : .release p number ∈ w.stack) (differ : number ≠ other)
    : p ≠ q := by
  rintro rfl
  have single := tracked.single
  rw [top] at active single
  rcases List.mem_cons.mp active with same | below
  · cases same
    exact differ rfl
  · exact (List.pairwise_cons.mp single).1 _ below p other number rfl rfl

/-- A release begins with all of the pool left to do. No release of that pool was active. -/
theorem began (accounted : Accounted w) (open_pool : (w.pools p).releasing = false)
    (pools : next.pools = update w.pools p { w.pools p with releasing := true })
    (stack : next.stack = .release p w.nextRelease :: w.stack)
    (releases : next.nextRelease = w.nextRelease + 1) (issued : next.nextId = w.nextId)
    (log : next.log = .began w.nextRelease p (w.ids p) (w.pools p).resources.length :: w.log)
    : Tracked next := by
  have noFrame : ∀ number, .release p number ∉ w.stack := by
    intro number active
    have releasing := tracked.releasing active
    rw [open_pool] at releasing
    cases releasing
  have resources : ∀ q, (next.pools q).resources = (w.pools q).resources := by
    rw [pools]
    exact update_shared Pool.resources rfl
  have ids : ∀ q, next.ids q = w.ids q := fun q => by
    rw [World.ids, World.ids, Pool.obligations, Pool.obligations, resources]
  have ranBy : ∀ number, next.ranBy number = w.ranBy number := fun number => by
    rw [World.ranBy, log]
    rfl
  have iterations : ∀ number, next.iterations number = w.iterations number := fun number => by
    rw [World.iterations, log]
    exact List.countP_cons_of_neg (by simp [Event.iterates])
  have cancels : ∀ id, next.cancels id = w.cancels id := fun id => by
    rw [World.cancels, log]
    exact List.countP_cons_of_neg (by simp [Event.cancels])
  have entries : ∀ q id, entryTime q id next.log = entryTime q id w.log := fun q id => by
    rw [log, entryTime, if_neg (by simp)]
  refine ⟨?_, ?_, ?_, ?_, ?_, ?_⟩
  · intro q
    rw [pools, stack]
    by_cases here : q = p
    · subst here
      simp
    · simp only [update_of_ne here, tracked.flag, List.mem_cons, Frame.release.injEq,
        here, false_and, false_or]
  · rw [stack]
    refine List.pairwise_cons.mpr ⟨?_, tracked.single⟩
    rintro frame member q m n ⟨⟩ rfl
    exact noFrame n member
  · intro q number active
    rw [stack] at active
    rw [releases, log]
    rcases List.mem_cons.mp active with same | below
    · cases same
      refine ⟨Nat.lt_succ_self _, fun r held size member => ?_⟩
      rcases List.mem_cons.mp member with new | old
      · cases new
        rfl
      · exact absurd (tracked.followed _ _ _ _ old).earlier (Nat.lt_irrefl _)
    · obtain ⟨earlier, owner⟩ := tracked.frame q number below
      refine ⟨Nat.lt_succ_of_lt earlier, fun r held size member => ?_⟩
      rcases List.mem_cons.mp member with new | old
      · cases new
        exact absurd earlier (Nat.lt_irrefl _)
      · exact owner r held size old
  · intro number later
    rw [ranBy, iterations]
    rw [releases] at later
    exact tracked.fresh number (Nat.le_of_succ_le later)
  · intro number q held size member
    rw [log] at member
    rcases List.mem_cons.mp member with new | old
    · cases new
      obtain ⟨noRuns, noIterations⟩ := tracked.fresh w.nextRelease (Nat.le_refl _)
      have active : .release p w.nextRelease ∈ next.stack := by
        rw [stack]
        exact List.mem_cons_self
      refine ⟨releases ▸ Nat.lt_succ_self _, ?_, ?_, ?_, ?_⟩
      · exact fun id here => issued ▸ (accounted.exact.live p id here).1
      · rw [World.remaining, if_pos active, ids, ranBy, noRuns, List.append_nil]
        refine List.filter_eq_self.mpr fun id here => ?_
        have unspent := (accounted.exact.live p id here).2
        rw [cancels, beq_iff_eq]
        exact Nat.eq_zero_of_add_eq_zero_left unspent
      · rw [World.unvisited, if_pos active, resources, iterations, noIterations]
        exact Nat.le_of_eq (Nat.zero_add _)
      · simp only [entries]
        exact accounted.ordered p
    · have followed := tracked.followed number q held size old
      have differ : number ≠ w.nextRelease := Nat.ne_of_lt followed.earlier
      have active : .release q number ∈ next.stack ↔ .release q number ∈ w.stack := by
        rw [stack]
        simp [differ]
      obtain ⟨remaining, unvisited⟩ := World.remaining_congr active fun _ => resources q
      exact followed.congr (by omega) (by omega) (fun id _ => cancels id) remaining (ranBy number)
        (Nat.le_of_eq (by rw [iterations, unvisited])) (fun id _ => entries q id)
  · intro number q member
    rw [log] at member
    obtain ⟨earlier, left⟩ := tracked.closed number q
      ((List.mem_cons.mp member).resolve_left (by simp))
    rw [releases, stack]
    refine ⟨Nat.lt_succ_of_lt earlier, fun active => ?_⟩
    rcases List.mem_cons.mp active with same | below
    · cases same
      exact Nat.lt_irrefl _ earlier
    · exact left below

/-- A release ends with an empty pool, so that nothing was left to do. -/
theorem ended (top : w.stack = .release p number :: callers) (empty : (w.pools p).resources = [])
    (pools : next.pools = update w.pools p { w.pools p with releasing := false })
    (stack : next.stack = callers) (releases : next.nextRelease = w.nextRelease)
    (issued : next.nextId = w.nextId) (log : next.log = .ended number p :: w.log)
    : Tracked next := by
  have single := tracked.single
  rw [top, List.pairwise_cons] at single
  have gone : ∀ other, .release p other ∉ callers := fun other below =>
    single.1 _ below p number other rfl rfl
  have resources : ∀ q, (next.pools q).resources = (w.pools q).resources := by
    rw [pools]
    exact update_shared Pool.resources rfl
  have ids : ∀ q, next.ids q = w.ids q := fun q => by
    rw [World.ids, World.ids, Pool.obligations, Pool.obligations, resources]
  have below : ∀ q other, .release q other ∈ callers → .release q other ∈ w.stack :=
    fun q other member => top ▸ List.mem_cons_of_mem _ member
  have began : ∀ {number q held size}, .began number q held size ∈ next.log
      → .began number q held size ∈ w.log := by
    intro number q held size member
    rw [log] at member
    exact (List.mem_cons.mp member).resolve_left (by simp)
  refine ⟨?_, stack ▸ single.2, ?_, ?_, ?_, ?_⟩
  · intro q
    rw [pools, stack]
    by_cases here : q = p
    · subst here
      simp [gone]
    · simp only [update_of_ne here, tracked.flag, top, List.mem_cons,
        Frame.release.injEq, here, false_and, false_or]
  · intro q other active
    rw [stack] at active
    obtain ⟨earlier, owner⟩ := tracked.frame q other (below q other active)
    exact ⟨releases ▸ earlier, fun r held size member => owner r held size (began member)⟩
  · intro other later
    rw [World.ranBy, World.iterations, log]
    exact tracked.fresh other (releases ▸ later)
  · intro other q held size member
    have followed := tracked.followed other q held size (began member)
    refine followed.congr (Nat.le_of_eq releases.symm) (Nat.le_of_eq issued.symm) ?_ ?_ ?_ ?_ ?_
    · intro id _
      rw [World.cancels, log]
      rfl
    · -- only the ended release loses its frame, and its pool is empty
      simp only [World.remaining, stack, ids]
      by_cases here : q = p
      · subst here
        rw [World.ids, Pool.obligations, empty]
        simp
      · simp [top, here]
    · rw [World.ranBy, log]
      rfl
    · rw [World.iterations, log]
      refine Nat.add_le_add_left ?_ _
      simp only [World.unvisited, stack, resources]
      split
      next active => exact Nat.le_of_eq (if_pos (below q other active)).symm
      · exact Nat.zero_le _
    · intro id _
      rw [log, entryTime, if_neg (by simp)]
  · intro other q member
    rw [log] at member
    rw [releases, stack]
    rcases List.mem_cons.mp member with new | old
    · cases new
      exact ⟨(tracked.frame p number (top ▸ List.mem_cons_self)).1, gone number⟩
    · obtain ⟨earlier, left⟩ := tracked.closed other q old
      exact ⟨earlier, fun active => left (below q other active)⟩

/-- A cancelled obligation leaves the pool and the list of every release that found it. -/
theorem cancelled (accounted : Accounted w) {pool : Pool π φ δ}
    {before after : List (Obligation φ δ)} {obligation : Obligation φ δ}
    (held : (w.pools p).obligations = before ++ obligation :: after)
    (left : pool.obligations = before ++ after)
    (shorter : pool.resources.Sublist (w.pools p).resources)
    (flag : pool.releasing = (w.pools p).releasing) (pools : next.pools = update w.pools p pool)
    (stack : next.stack = w.stack) (releases : next.nextRelease = w.nextRelease)
    (issued : next.nextId = w.nextId) (log : next.log = .cancelled obligation.id :: w.log)
    : Tracked next := by
  have here : w.ids p
      = before.map Obligation.id ++ obligation.id :: after.map Obligation.id := by
    rw [World.ids, held, List.map_append, List.map_cons]
  have member : obligation.id ∈ w.ids p := by simp [here]
  have unspent : w.runs obligation.id + w.cancels obligation.id = 0 :=
    (accounted.exact.live p _ member).2
  -- in every pool, exactly this obligation is taken out
  have ids : ∀ q, next.ids q = (w.ids q).filter (· ≠ obligation.id) := by
    intro q
    rw [ids_update pools, left, List.map_append]
    exact congrFun (accounted.exact.taken_eq_filter here) q
  have fewer : ∀ q, (next.pools q).resources.length ≤ (w.pools q).resources.length := by
    rw [pools]
    exact (Function.forall_update_iff w.pools
      fun q pool => pool.resources.length ≤ (w.pools q).resources.length).mpr
        ⟨shorter.length_le, fun _ _ => Nat.le_refl _⟩
  have flags : ∀ q, (next.pools q).releasing = (w.pools q).releasing := by
    rw [pools]
    exact update_shared Pool.releasing flag
  refine tracked.of_followed (fun _ _ => by rw [stack]) (stack ▸ tracked.single) flags releases
    ?_ ?_ ?_ ?_
  · intro number q held size found
    rw [log] at found
    exact (List.mem_cons.mp found).resolve_left (by simp)
  · intro number q found
    rw [log] at found
    exact (List.mem_cons.mp found).resolve_left (by simp)
  · intro number later
    rw [World.ranBy, World.iterations, log]
    exact tracked.fresh number later
  · intro number q found size event
    have followed := tracked.followed number q found size event
    have iterations : next.iterations number = w.iterations number := by
      rw [World.iterations, log]
      rfl
    refine ⟨releases ▸ followed.earlier, fun id inside => issued ▸ followed.issued id inside,
      ?_, ?_, ?_⟩
    · have cancels : ∀ id, (next.cancels id == 0)
          = (decide (id ≠ obligation.id) && (w.cancels id == 0)) := by
        intro id
        rw [World.cancels, log]
        by_cases same : id = obligation.id
        · simp [same, Event.cancels]
        · simp [same, Ne.symm same, Event.cancels, World.cancels]
      have ranOther : (w.ranBy number).filter (· ≠ obligation.id) = w.ranBy number := by
        refine List.filter_eq_self.mpr fun a ran => ?_
        have differ : a ≠ obligation.id := by
          rintro rfl
          have positive := runs_pos_of_ranBy ran
          omega
        simpa using differ
      have ranBy : next.ranBy number = w.ranBy number := by
        rw [World.ranBy, log]
        rfl
      have remaining : next.remaining number q
          = (w.remaining number q).filter (· ≠ obligation.id) := by
        simp only [World.remaining, stack, ids]
        split <;> rfl
      simp only [cancels]
      rw [← List.filter_filter, followed.split, List.filter_append, ranOther, remaining, ranBy]
    · rw [iterations]
      refine Nat.le_trans (Nat.add_le_add_left ?_ _) followed.bounded
      simp only [World.unvisited, stack]
      split
      · exact fewer q
      · exact Nat.le_refl 0
    · refine followed.ordered.imp fun {a b} earlier => ?_
      rw [log]
      exact earlier

/-- An iteration moves the last obligation from the pool to those that were run. -/
theorem iterated {rest : List (ResNode π φ δ)} {node : ResNode π φ δ} {event : Event π}
    (top : w.stack = .release p number :: callers) (last : (w.pools p).resources = rest ++ [node])
    (ran : ∀ other, event.ranBy other
      = if number = other then node.action.map Obligation.id else none)
    (iterates : ∀ other, event.iterates other = decide (number = other))
    (silent : (∀ id, event.cancels id = false) ∧ (∀ q id, event ≠ .entered q id)
      ∧ (∀ n q h s, event ≠ .began n q h s) ∧ ∀ n q, event ≠ .ended n q)
    (pools : next.pools = update w.pools p { w.pools p with resources := rest })
    (stack : ∀ q other, .release q other ∈ next.stack ↔ .release q other ∈ w.stack)
    (single : next.stack.Pairwise Frame.Differ) (releases : next.nextRelease = w.nextRelease)
    (issued : next.nextId = w.nextId) (log : next.log = event :: w.log)
    : Tracked next := by
  obtain ⟨noCancel, noEntry, noBegin, noEnd⟩ := silent
  have topActive : .release p number ∈ w.stack := top ▸ List.mem_cons_self
  have ranBy : ∀ other, next.ranBy other
      = (if number = other then (node.action.map Obligation.id).toList else [])
        ++ w.ranBy other := by
    intro other
    rw [World.ranBy, log, List.filterMap_cons, ran]
    by_cases own : number = other
    · cases action : node.action <;> simp [own, World.ranBy]
    · simp [own, World.ranBy]
  have iterations : ∀ other, next.iterations other
      = (if number = other then 1 else 0) + w.iterations other := by
    intro other
    rw [World.iterations, log, List.countP_cons, iterates, Nat.add_comm]
    simp [World.iterations]
  have elsewhere : ∀ q, q ≠ p → next.pools q = w.pools q := fun q differ => by
    rw [pools, update_of_ne differ]
  have flags : ∀ q, (next.pools q).releasing = (w.pools q).releasing := by
    rw [pools]
    exact update_shared Pool.releasing rfl
  refine tracked.of_followed stack single flags releases ?_ ?_ ?_ ?_
  · intro n q held size member
    rw [log] at member
    exact (List.mem_cons.mp member).resolve_left fun same => noBegin n q held size same.symm
  · intro n q member
    rw [log] at member
    exact (List.mem_cons.mp member).resolve_left fun same => noEnd n q same.symm
  · intro other later
    have differ : number ≠ other := by
      have earlier := (tracked.frame p number topActive).1
      omega
    obtain ⟨noRuns, noIterations⟩ := tracked.fresh other later
    rw [ranBy, iterations, if_neg differ, if_neg differ, noRuns, noIterations]
    exact ⟨rfl, rfl⟩
  · intro other q held size member
    have followed := tracked.followed other q held size member
    have cancels : ∀ id, next.cancels id = w.cancels id := fun id => by
      rw [World.cancels, log, List.countP_cons_of_neg (by simp [noCancel])]
      rfl
    have entries : ∀ id, entryTime q id next.log = entryTime q id w.log := fun id => by
      rw [log, entryTime, if_neg (noEntry q id)]
    by_cases own : number = other
    · -- the release itself: the last obligation moves from the pool to those it ran
      subst own
      obtain rfl : q = p := (tracked.frame p number topActive).2 q held size member
      have removed : next.ids q ++ (node.action.map Obligation.id).toList = w.ids q := by
        rw [World.ids, World.ids, pools, Pool.obligations,
          Pool.obligations, last]
        cases action : node.action <;> simp [action]
      refine ⟨releases ▸ followed.earlier, fun id inside => issued ▸ followed.issued id inside,
        ?_, ?_, ?_⟩
      · have split := followed.split
        rw [World.remaining, if_pos topActive, ← removed] at split
        simp only [cancels]
        rw [split, World.remaining, if_pos ((stack q number).mpr topActive), ranBy, if_pos rfl,
          List.append_assoc]
      · have bounded := followed.bounded
        rw [World.unvisited, if_pos topActive, last, List.length_append] at bounded
        rw [World.unvisited, if_pos ((stack q number).mpr topActive), pools,
          update_self, iterations, if_pos rfl]
        simp only [List.length_singleton] at bounded
        show 1 + w.iterations number + rest.length ≤ size
        omega
      · simp only [entries]
        exact followed.ordered
    · obtain ⟨remaining, unvisited⟩ := World.remaining_congr (stack q other) fun active => by
        rw [elsewhere q (tracked.other_pool top active (Ne.symm own))]
      refine followed.congr (Nat.le_of_eq releases.symm) (Nat.le_of_eq issued.symm)
        (fun id _ => cancels id) remaining ?_ ?_ (fun id _ => entries id)
      · rw [ranBy, if_neg own, List.nil_append]
      · exact Nat.le_of_eq (by rw [iterations, if_neg own, Nat.zero_add, unvisited])

end

end Tracked

/-- Every step keeps the releases tracked, by cases on its effect. -/
theorem Effect.tracked [DecidableEq φ] [DecidableEq δ] (effect : Effect w next)
    (accounted : Accounted w) (tracked : Tracked w)
    : Tracked next := by
  cases effect with
  | idle => exact tracked
  | memory open_pool =>
    exact tracked.quiet_pool [] rfl open_pool open_pool rfl rfl (Nat.le_refl _) rfl (by simp)
      (by simp)
  | @added p fn data open_pool =>
    refine tracked.quiet_pool [_] rfl open_pool open_pool rfl rfl (Nat.le_succ _) rfl ?_ ?_
    · rintro _ (_ | ⟨_, ⟨⟩⟩)
      exact Event.passive_entered ..
    · rintro q id (_ | ⟨_, ⟨⟩⟩) number r held size began found
      exact Nat.lt_irrefl _ ((tracked.followed _ _ _ _ began).issued _ found)
  | refused =>
    refine tracked.quiet [_] (fun _ _ => Iff.rfl) tracked.single (fun _ => rfl)
      (fun _ _ => rfl) rfl (Nat.le_refl _) rfl ?_ ?_
    · rintro _ (_ | ⟨_, ⟨⟩⟩)
      exact Event.passive_refused ..
    · rintro q id (_ | ⟨_, ⟨⟩⟩)
  | @reset error =>
    refine tracked.quiet [.reset w.nextCall, .refused w.nextCall error] (fun _ _ => ?_) ?_
      (fun _ => rfl) (fun _ _ => rfl) rfl (Nat.le_refl _) rfl ?_ ?_
    · simp [World.record]
    · exact List.pairwise_cons.mpr ⟨fun _ _ => Frame.callback_differ _, tracked.single⟩
    · intro event member
      rcases List.mem_pair.mp member with rfl | rfl
      · exact Event.passive_reset ..
      · exact Event.passive_refused ..
    · intro q id member
      rcases List.mem_pair.mp member with same | same <;> cases same
  | @moved src dst found openSrc openDst search differ =>
    obtain ⟨before, after, held, -⟩ := find_obligations search
    have member : found.id ∈ w.ids src := by simp [World.ids, held]
    refine tracked.quiet [.entered dst found.id] (fun _ _ => Iff.rfl) tracked.single ?_ ?_ rfl
      (Nat.le_refl _) rfl ?_ ?_
    · intro p
      simp only [World.moveNode, World.record, World.setPool]
      by_cases atDst : p = dst
      · subst atDst
        simp [Pool.addTail, update_of_ne (Ne.symm differ)]
      by_cases atSrc : p = src
      · subst atSrc
        simp [Pool.delete, differ]
      · simp [atDst, atSrc]
    · intro p releasing
      have notSrc : p ≠ src := by
        rintro rfl
        rw [openSrc] at releasing
        cases releasing
      have notDst : p ≠ dst := by
        rintro rfl
        rw [openDst] at releasing
        cases releasing
      simp [World.moveNode, World.record, World.setPool, notSrc, notDst]
    · rintro _ (_ | ⟨_, ⟨⟩⟩)
      exact Event.passive_entered ..
    · rintro q id (_ | ⟨_, ⟨⟩⟩) number r found' size began
      exact tracked.not_found accounted openSrc member began
  | @cancelled p fn data found search =>
    obtain ⟨before, after, held, left⟩ := find_obligations search
    obtain ⟨nodesBefore, nodesAfter, nodes, deleted, -⟩ := find_split search
    refine tracked.cancelled accounted held left ?_ rfl rfl rfl rfl rfl rfl
    rw [deleted, nodes]
    exact (List.Sublist.refl _).append (List.sublist_cons_self _ _)
  | began open_pool => exact tracked.began accounted open_pool rfl rfl rfl rfl rfl
  | ended top empty => exact tracked.ended top empty rfl rfl rfl rfl rfl
  | bugged member stray => exact absurd ((accounted.pools _).owned _ member) stray
  | freed top last =>
    refine tracked.iterated top last ?_ ?_ ?_ rfl (fun _ _ => Iff.rfl) tracked.single rfl rfl
      rfl
    · simp [Event.ranBy]
    · simp [Event.iterates, beq_eq_decide]
    · exact ⟨fun _ => rfl, by simp, by simp, by simp⟩
  | ran top last =>
    refine tracked.iterated top last ?_ ?_ ?_ rfl ?_ ?_ rfl rfl rfl
    · simp [Event.ranBy]
    · simp [Event.iterates, beq_eq_decide]
    · exact ⟨fun _ => rfl, by simp, by simp, by simp⟩
    · simp [World.record]
    · exact List.pairwise_cons.mpr ⟨fun _ _ => Frame.callback_differ _, tracked.single⟩
  | finished top =>
    have single := tracked.single
    rw [top, List.pairwise_cons] at single
    refine tracked.quiet [] ?_ single.2 (fun _ => rfl) (fun _ _ => rfl) rfl (Nat.le_refl _)
      rfl (by simp) (by simp)
    simp [top]

/-- The event is the function being run by a failed call. -/
def Event.resets (call : Nat) : Event π → Bool
  | .reset other => other == call
  | _ => false

/-- How often a failed call ran its function. -/
def World.resets (w : World π φ δ) (call : Nat) : Nat := w.log.countP (Event.resets call)

/-- Every failed `res_add_action_or_reset` ran its function once, or left it to the existing
obligation.
-/
structure Answered (w : World π φ δ) : Prop where
  refused : ∀ call error, .refused call error ∈ w.log
    → call < w.nextCall ∧ w.resets call = if error = .eexist then 0 else 1
  fresh : ∀ call, w.nextCall ≤ call → w.resets call = 0

omit [DecidableEq π] in
/-- Events that are not about failed calls. -/
theorem Answered.quiet {w next : World π φ δ} (answered : Answered w)
    (events : List (Event π)) (calls : next.nextCall = w.nextCall)
    (log : next.log = events ++ w.log)
    (other : ∀ event ∈ events, (∀ call, event.resets call = false)
      ∧ ∀ call error, event ≠ .refused call error)
    : Answered next := by
  have resets : ∀ call, next.resets call = w.resets call := fun call => by
    rw [World.resets, log, countP_quiet fun e m => (other e m).1 call]
    rfl
  refine ⟨fun call error member => ?_, fun call later => ?_⟩
  · rw [log] at member
    rw [calls, resets]
    refine answered.refused call error ((List.mem_append.mp member).resolve_left fun new => ?_)
    exact (other _ new).2 call error rfl
  · rw [resets]
    exact answered.fresh call (calls ▸ later)

/-- A call that fails runs its function at once, or finds that another call owns it. -/
theorem Effect.answered [DecidableEq φ] [DecidableEq δ] (effect : Effect w next)
    (answered : Answered w)
    : Answered next := by
  cases effect with
  | refused =>
    refine ⟨fun call error member => ?_, fun call later => ?_⟩
    · rcases List.mem_cons.mp member with new | old
      · cases new
        exact ⟨Nat.lt_succ_self _, answered.fresh w.nextCall (Nat.le_refl _)⟩
      · obtain ⟨earlier, count⟩ := answered.refused call error old
        exact ⟨Nat.lt_succ_of_lt earlier, count⟩
    · exact answered.fresh call (Nat.le_of_succ_le later)
  | @reset reason unlike =>
    have count : ∀ call, List.countP (Event.resets call)
        (.reset w.nextCall :: .refused w.nextCall reason :: w.log)
          = (if w.nextCall = call then 1 else 0) + w.resets call := by
      intro call
      rw [List.countP_cons, Nat.add_comm]
      simp [Event.resets, World.resets]
    refine ⟨fun call error member => ?_, fun call later => ?_⟩
    · refine (List.mem_cons.mp member).elim nofun fun member => ?_
      show call < w.nextCall + 1 ∧ List.countP _ (_ :: _ :: w.log) = _
      rw [count]
      rcases List.mem_cons.mp member with new | old
      · cases new
        rw [if_pos rfl, if_neg unlike, answered.fresh w.nextCall (Nat.le_refl _)]
        exact ⟨Nat.lt_succ_self _, rfl⟩
      · obtain ⟨earlier, amount⟩ := answered.refused call error old
        rw [if_neg (Nat.ne_of_gt earlier), amount, Nat.zero_add]
        exact ⟨Nat.lt_succ_of_lt earlier, rfl⟩
    · show List.countP _ (_ :: _ :: w.log) = 0
      have differ : w.nextCall ≠ call := Nat.ne_of_lt (Nat.lt_of_succ_le later)
      rw [count, if_neg differ, answered.fresh call (Nat.le_of_succ_le later)]
  | idle => exact answered
  | memory => exact answered.quiet [] rfl rfl (by simp)
  | finished => exact answered.quiet [] rfl rfl (by simp)
  | bugged => exact answered.quiet [] rfl rfl (by simp)
  | added => exact answered.quiet [_] rfl rfl (by simp [Event.resets])
  | moved => exact answered.quiet [_] rfl rfl (by simp [Event.resets])
  | cancelled => exact answered.quiet [_] rfl rfl (by simp [Event.resets])
  | began => exact answered.quiet [_] rfl rfl (by simp [Event.resets])
  | ended => exact answered.quiet [_] rfl rfl (by simp [Event.resets])
  | freed => exact answered.quiet [_] rfl rfl (by simp [Event.resets])
  | ran => exact answered.quiet [_] rfl rfl (by simp [Event.resets])

end Modvm.Util.Pools
