import Modvm.Util.ReleaseOrder

/-! The contract of resource pools over whole runs. -/

namespace Modvm.Util.Pools

open Modvm.Lib

variable {π φ δ : Type} [DecidableEq π]

/-- In exactly one pool and never spent, or in none and either run once or cancelled once. -/
def World.Once (w : World π φ δ) (id : Nat) : Prop :=
  (∃ p, (w.ids p).count id = 1 ∧ (∀ q, id ∈ w.ids q → q = p)
      ∧ w.runs id = 0 ∧ w.cancels id = 0)
  ∨ ((∀ p, id ∉ w.ids p) ∧ w.runs id = 1 ∧ w.cancels id = 0)
  ∨ ((∀ p, id ∉ w.ids p) ∧ w.runs id = 0 ∧ w.cancels id = 1)

omit [DecidableEq π] in
theorem World.once_of_exact {w : World π φ δ} (exact : w.ledger.Exact) {id : Nat}
    (issued : id < w.nextId)
    : w.Once id := by
  by_cases held : ∃ p, id ∈ w.ids p
  · obtain ⟨p, member⟩ := held
    have unspent : w.runs id + w.cancels id = 0 := (exact.live p id member).2
    refine .inl ⟨p, List.count_eq_one_of_mem (exact.nodup p) member, ?_, by omega, by omega⟩
    exact fun q other => exact.apart q p id other member
  · have nowhere : ∀ p, id ∉ w.ids p := not_exists.mp held
    have spent : w.runs id + w.cancels id = 1 := exact.retired id issued nowhere
    rcases Nat.eq_zero_or_pos (w.runs id) with none | some
    · exact .inr (.inr ⟨nowhere, none, by omega⟩)
    · exact .inr (.inl ⟨nowhere, by omega, by omega⟩)

variable [DecidableEq φ] [DecidableEq δ]

/-- The contract of the pools in a reached world.

* `once`: every added obligation is accounted for exactly once.
* `distinct`: no pool holds two obligations with one function and data.
* `answered`: a failed `res_add_action_or_reset` ran its function once, except after `EEXIST`.
* `transfer`: a failed transfer changes no pool.
* `reversed`: a release that ended ran what it found and nobody cancelled, last entry first.
* `emptied`: a release that returns leaves its pool as initialized.
* `bounded`, `progress`: a release takes no more iterations than it found resources, and neither
  a release nor a returning cleanup function is ever stuck.
-/
structure Contract (w : World π φ δ) : Prop where
  once : ∀ id, id < w.nextId → w.Once id
  distinct : ∀ p, ((w.pools p).obligations.map Obligation.key).Nodup
  answered : ∀ call error, .refused call error ∈ w.log
    → w.resets call = if error = .eexist then 0 else 1
  transfer : ∀ src dst fn data error next, resTransferAction w src dst fn data = .error error
    → Step w (.transferAction src dst fn data) next → next.pools = w.pools
  reversed : ∀ number p held size, .began number p held size ∈ w.log → .ended number p ∈ w.log
    → (w.ranBy number).reverse = (held.filter fun id => w.cancels id == 0).reverse
      ∧ held.Pairwise fun a b => entryTime p a w.log < entryTime p b w.log
  emptied : ∀ p number callers next, w.stack = .release p number :: callers
    → Step w .iterate next → next.stack = callers → next.pools p = resPoolInit
  bounded : ∀ number p held size, .began number p held size ∈ w.log
    → w.iterations number ≤ size
  progress : w.stack ≠ [] → ∃ act next, (act = .iterate ∨ act = .finish) ∧ Step w act next
  sane : w.bug = false

theorem transfer_failed {w next : World π φ δ} {src dst : Option π} {fn : Option φ} {data : δ}
    {error : VmError} (failed : resTransferAction w src dst fn data = .error error)
    (taken : Step w (.transferAction src dst fn data) next)
    : next = w := by
  simp only [Step, step, perform, failed, Option.ite_none_right_eq_some,
    Option.some.injEq] at taken
  exact taken.2.symm

theorem iterate_returns {w next : World π φ δ} {p : π} {number : Nat}
    {callers : List (Frame π)} (top : w.stack = .release p number :: callers)
    (taken : Step w .iterate next) (returned : next.stack = callers)
    : next.pools p = resPoolInit := by
  simp only [Step, step, top, Option.some.injEq] at taken
  subst taken
  have longer : w.stack.length = callers.length + 1 := by rw [top, List.length_cons]
  unfold releaseLoop at returned ⊢
  split
  next none =>
    have empty := List.getLast?_eq_none_iff.mp none
    simp [World.record, World.setPool, resPoolInit, empty]
  next node last =>
    -- any other iteration keeps the frame, with or without a cleanup function above it
    have lengths := congrArg List.length returned
    simp only [last] at lengths
    split at lengths
    · simp only at lengths
      omega
    split at lengths
    · simp only [World.record, World.setPool] at lengths
      omega
    · simp only [World.record, List.length_cons] at lengths
      omega

theorem stack_progress {w : World π φ δ} (busy : w.stack ≠ [])
    : ∃ act next, (act = .iterate ∨ act = .finish) ∧ Step w act next := by
  cases stack : w.stack with
  | nil => exact absurd stack busy
  | cons frame callers =>
    cases frame with
    | release p number =>
      exact ⟨.iterate, releaseLoop w p number callers, .inl rfl, by simp [Step, step, stack]⟩
    | callback =>
      exact ⟨.finish, { w with stack := callers }, .inr rfl, by simp [Step, step, stack]⟩

theorem run_invariants {acts : List (Act π φ δ)} {w : World π φ δ}
    (run : Run Step World.init acts w)
    : Accounted w ∧ Tracked w ∧ Answered w := by
  refine run.invariant (fun w => Accounted w ∧ Tracked w ∧ Answered w) ?_
    ⟨init_accounted, init_tracked, by simp [World.init], by simp [World.init, World.resets]⟩
  rintro s act t ⟨accounted, tracked, answered⟩ taken
  exact ⟨taken.effect.accounted accounted, taken.effect.tracked accounted tracked,
    taken.effect.answered answered⟩

/-- Over any run of pool operations, with any allocations and any cleanup functions that call them
again, the contract of the pools holds.
-/
theorem cleanup_exactly_once {acts : List (Act π φ δ)} {w : World π φ δ}
    (run : Run Step World.init acts w)
    : Contract w := by
  obtain ⟨accounted, tracked, answered⟩ := run_invariants run
  refine ⟨fun id issued => World.once_of_exact accounted.exact issued,
    fun p => (accounted.pools p).keys, fun call error member =>
      (answered.refused call error member).2, ?_, ?_, ?_, ?_, stack_progress, accounted.sane⟩
  · intro src dst fn data error next failed taken
    rw [transfer_failed failed taken]
  · intro number p held size began ended
    have followed := tracked.followed number p held size began
    have split := followed.split
    rw [World.remaining, if_neg (tracked.closed number p ended).2, List.nil_append] at split
    exact ⟨by rw [split], followed.ordered⟩
  · intro p number callers next top taken returned
    exact iterate_returns top taken returned
  · intro number p held size began
    exact Nat.le_trans (Nat.le_add_right _ _) (tracked.followed number p held size began).bounded

/-- Three obligations enter a pool and one moves on; the last one's function cancels the first, and
tries to release again and to add.
-/
def reentrantActs : List (Act Bool Nat Nat) :=
  [.addAction (some false) (some 1) 10 true, .addAction (some false) (some 2) 20 true,
    .addAction (some false) (some 3) 30 true,
    .transferAction (some false) (some true) (some 2) 20, .releaseAll (some false), .iterate,
    .cancelAction (some false) (some 1) 10, .releaseAll (some false),
    .addActionOrReset (some false) (some 4) 40 true, .finish, .finish, .iterate]

def reentrantWorld : World Bool Nat Nat :=
  (reentrantActs.foldlM step World.init).get (by decide)

/-- After the re-entrant release one obligation ran, one was cancelled and one is held. -/
theorem cleanup_exactly_once_reentrant
    : Contract reentrantWorld ∧ reentrantWorld.cancels 0 = 1 ∧ reentrantWorld.ids true = [1]
      ∧ reentrantWorld.runs 2 = 1 ∧ reentrantWorld.resets 0 = 1 :=
  ⟨cleanup_exactly_once (Run.of_foldlM (Option.some_get _).symm), by decide, by decide,
    by decide, by decide⟩

/-- A pool without its history and its back pointers. -/
def Pool.erase (pool : Pool π φ δ) : ResPool (φ × δ) :=
  ⟨pool.resources.map fun node => node.action.map Obligation.key, pool.releasing⟩

omit [DecidableEq φ] [DecidableEq δ] in
theorem resZalloc_erase (w : World π φ δ) (p : π) {size : Nat} (allocated : Bool)
    (positive : size ≠ 0) (fits : size ≤ sizeMax - resNodeSize)
    : (resZalloc w (some p) size allocated).map (fun next => (next.pools p).erase)
      = Util.resZalloc allocated (w.pools p).erase := by
  have small : decide (size > sizeMax - resNodeSize) = false := by simpa using fits
  have some_size : (size == 0) = false := by simpa using positive
  simp only [resZalloc, Util.resZalloc, small, some_size, Bool.or_false]
  cases releasing : (w.pools p).releasing <;> cases allocated <;>
    simp [Pool.erase, releasing, World.setPool, Pool.addTail]

theorem resAddAction_erase (w : World π φ δ) (p : π) (fn : φ) (data : δ) (allocated : Bool)
    : (resAddAction w (some p) (some fn) data allocated).map
        (fun next => (next.pools p).erase)
      = Util.resAddAction allocated (fn, data) (w.pools p).erase := by
  have present : (w.pools p).resources.any (ResNode.carries fn data) = true
      ↔ some (fn, data) ∈ (w.pools p).erase.resources := by
    simp only [any_carries_iff, Pool.erase, Pool.obligations, List.mem_map, List.mem_filterMap,
      Option.map_eq_some_iff]
    constructor
    · rintro ⟨obligation, ⟨node, member, action⟩, key⟩
      exact ⟨node, member, obligation, action, key⟩
    · rintro ⟨node, member, obligation, action, key⟩
      exact ⟨obligation, ⟨node, member, action⟩, key⟩
  simp only [resAddAction, Util.resAddAction, ← present]
  cases releasing : (w.pools p).releasing <;>
    cases (w.pools p).resources.any (ResNode.carries fn data) <;> cases allocated <;>
    simp [Pool.erase, releasing, World.setPool, World.record, Pool.addTail, Obligation.key,
      Except.map]

end Modvm.Util.Pools
