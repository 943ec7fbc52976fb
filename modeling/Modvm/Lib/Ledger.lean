import Mathlib.Data.List.Nodup
import Mathlib.Logic.Function.Basic

/-! Ledgers of numbered tokens, each of which is issued once, moved between places, and spent once.
-/

namespace Modvm.Lib

open Function

variable {π : Type*}

/-- `issued` tokens exist; `held` lists those in each place, `spent` counts spendings. -/
structure Ledger (π : Type*) where
  issued : Nat
  held : π → List Nat
  spent : Nat → Nat

namespace Ledger

/-- Every token is accounted for exactly once. -/
structure Exact (ledger : Ledger π) : Prop where
  nodup : ∀ p, (ledger.held p).Nodup
  apart : ∀ p q id, id ∈ ledger.held p → id ∈ ledger.held q → p = q
  live : ∀ p id, id ∈ ledger.held p → id < ledger.issued ∧ ledger.spent id = 0
  retired : ∀ id, id < ledger.issued → (∀ p, id ∉ ledger.held p) → ledger.spent id = 1
  fresh : ∀ id, ledger.issued ≤ id → ledger.spent id = 0

variable {ledger : Ledger π}

theorem exact_empty : Exact (⟨0, fun _ => [], fun _ => 0⟩ : Ledger π) :=
  ⟨fun _ => List.nodup_nil, by simp, by simp, by simp, by simp⟩

theorem mem_put [DecidableEq π] (held : π → List Nat) (p : π) (id : Nat) {q : π} {other : Nat}
    : other ∈ update held p (held p ++ [id]) q
      ↔ other ∈ held q ∨ q = p ∧ other = id := by
  by_cases here : q = p
  · subst here
    simp
  · simp [here]

theorem nodup_put [DecidableEq π] {held : π → List Nat} (nodup : ∀ p, (held p).Nodup) {p : π}
    {id : Nat} (absent : id ∉ held p) (q : π)
    : (update held p (held p ++ [id]) q).Nodup := by
  by_cases here : q = p
  · subst here
    rw [update_self]
    refine List.nodup_append.mpr ⟨nodup q, List.nodup_singleton _, ?_⟩
    intro a member b new same
    rw [List.mem_singleton] at new
    exact absent (new ▸ same ▸ member)
  · rw [update_of_ne here]
    exact nodup q

namespace Exact

variable [DecidableEq π]

/-- A token taken out of the middle of its place is filtered out of all places. -/
theorem taken_eq_filter (exact : ledger.Exact) {p : π} {before after : List Nat} {id : Nat}
    (here : ledger.held p = before ++ id :: after)
    : update ledger.held p (before ++ after)
      = fun q => (ledger.held q).filter (· ≠ id) := by
  have member : id ∈ ledger.held p := by simp [here]
  have keep : ∀ tokens : List Nat, id ∉ tokens → tokens.filter (· ≠ id) = tokens :=
    fun tokens absent => List.filter_eq_self.mpr fun other found => by
      simpa using fun same : other = id => absent (same ▸ found)
  funext q
  by_cases same : q = p
  · subst same
    have distinct := exact.nodup q
    rw [here, List.nodup_middle, List.nodup_cons, List.mem_append, not_or] at distinct
    obtain ⟨⟨notBefore, notAfter⟩, -⟩ := distinct
    rw [here, List.filter_append, List.filter_cons, keep _ notBefore,
      keep _ notAfter]
    simp
  · rw [update_of_ne same]
    exact (keep _ fun found => same (exact.apart q p id found member)).symm

theorem issue (exact : ledger.Exact) (p : π)
    : Exact ⟨ledger.issued + 1,
        update ledger.held p (ledger.held p ++ [ledger.issued]), ledger.spent⟩ := by
  have unheld : ∀ q, ledger.issued ∉ ledger.held q := fun q held =>
    Nat.lt_irrefl _ (exact.live q _ held).1
  refine ⟨nodup_put exact.nodup (unheld p), ?_, ?_, ?_, ?_⟩ <;> dsimp only
  · intro q r id first second
    rcases (mem_put ..).mp first with inFirst | ⟨rfl, rfl⟩
    · rcases (mem_put ..).mp second with inSecond | ⟨rfl, rfl⟩
      · exact exact.apart q r id inFirst inSecond
      · exact absurd inFirst (unheld q)
    · rcases (mem_put ..).mp second with inSecond | ⟨rfl, -⟩
      · exact absurd inSecond (unheld r)
      · rfl
  · intro q id held
    rcases (mem_put ..).mp held with held | ⟨-, rfl⟩
    · exact ⟨Nat.lt_succ_of_lt (exact.live q id held).1, (exact.live q id held).2⟩
    · exact ⟨Nat.lt_succ_self _, exact.fresh _ (Nat.le_refl _)⟩
  · intro id issued nowhere
    have old : id ≠ ledger.issued := fun new => nowhere p ((mem_put ..).mpr (.inr ⟨rfl, new⟩))
    refine exact.retired id (by omega) ?_
    exact fun q held => nowhere q ((mem_put ..).mpr (.inl held))
  · intro id later
    exact exact.fresh id (Nat.le_of_succ_le later)

theorem spend (exact : ledger.Exact) {p : π} {before after : List Nat} {id : Nat}
    (here : ledger.held p = before ++ id :: after)
    : Exact ⟨ledger.issued, update ledger.held p (before ++ after),
        update ledger.spent id (ledger.spent id + 1)⟩ := by
  have member : id ∈ ledger.held p := by simp [here]
  have held_iff : ∀ q other, other ∈ (ledger.held q).filter (· ≠ id)
      ↔ other ∈ ledger.held q ∧ other ≠ id := fun q other => by simp [List.mem_filter]
  rw [exact.taken_eq_filter here]
  refine ⟨fun q => (exact.nodup q).filter _, ?_, ?_, ?_, ?_⟩ <;> dsimp only
  · intro q r other first second
    exact exact.apart q r other ((held_iff q other).mp first).1 ((held_iff r other).mp second).1
  · intro q other held
    obtain ⟨held, differ⟩ := (held_iff q other).mp held
    rw [update_of_ne differ]
    exact exact.live q other held
  · intro other issued nowhere
    by_cases same : other = id
    · subst same
      rw [update_self, (exact.live p other member).2]
    · rw [update_of_ne same]
      exact exact.retired other issued fun q held => nowhere q ((held_iff q other).mpr ⟨held, same⟩)
  · intro other later
    have differ : other ≠ id := fun same =>
      absurd (exact.live p id member).1 (Nat.not_lt.mpr (same ▸ later))
    rw [update_of_ne differ]
    exact exact.fresh other later

theorem move (exact : ledger.Exact) {src dst : π} (differ : src ≠ dst)
    {before after : List Nat} {id : Nat} (here : ledger.held src = before ++ id :: after)
    : Exact ⟨ledger.issued,
        update (update ledger.held src (before ++ after)) dst
          (ledger.held dst ++ [id]),
        ledger.spent⟩ := by
  have member : id ∈ ledger.held src := by simp [here]
  let taken : π → List Nat := fun q => (ledger.held q).filter (· ≠ id)
  have taken_iff : ∀ q other, other ∈ taken q ↔ other ∈ ledger.held q ∧ other ≠ id :=
    fun q other => by simp [taken]
  have untouched : ledger.held dst = taken dst := by
    have kept := congrFun (exact.taken_eq_filter here) dst
    rwa [update_of_ne (Ne.symm differ)] at kept
  have absent : id ∉ taken dst := fun held => ((taken_iff dst id).mp held).2 rfl
  rw [exact.taken_eq_filter here, untouched]
  refine ⟨nodup_put (fun q => (exact.nodup q).filter _) absent, ?_, ?_, ?_, exact.fresh⟩ <;>
    dsimp only
  · intro q r other first second
    rcases (mem_put ..).mp first with first | ⟨rfl, rfl⟩
    · obtain ⟨first, different⟩ := (taken_iff q other).mp first
      rcases (mem_put ..).mp second with second | ⟨-, same⟩
      · exact exact.apart q r other first ((taken_iff r other).mp second).1
      · exact absurd same different
    · rcases (mem_put ..).mp second with second | ⟨rfl, -⟩
      · exact absurd rfl ((taken_iff r other).mp second).2
      · rfl
  · intro q other held
    rcases (mem_put ..).mp held with held | ⟨-, rfl⟩
    · exact exact.live q other ((taken_iff q other).mp held).1
    · exact exact.live src other member
  · intro other issued nowhere
    have different : other ≠ id := fun same => nowhere dst ((mem_put ..).mpr (.inr ⟨rfl, same⟩))
    exact exact.retired other issued fun q held =>
      nowhere q ((mem_put ..).mpr (.inl ((taken_iff q other).mpr ⟨held, different⟩)))

end Exact

end Ledger

end Modvm.Lib
