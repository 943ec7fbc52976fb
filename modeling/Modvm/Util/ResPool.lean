import Modvm.Core.Errno

/-! Resource pools: memory and cleanup obligations that end with their owner. -/

namespace Modvm.Util

variable {α σ : Type}

/-- `struct res_pool`: memory of the pool (`none`) and cleanup actions, as they were added. -/
structure ResPool (α : Type) where
  resources : List (Option α)
  releasing : Bool
deriving Repr

def resPoolInit : ResPool α := ⟨[], false⟩

/-- `res_zalloc` of a nonempty object; `allocated` is the outcome of `calloc`. -/
def resZalloc (allocated : Bool) (pool : ResPool α) : Option (ResPool α) :=
  if pool.releasing || !allocated then none
  else some { pool with resources := pool.resources ++ [none] }

/-- Whether an action is in a pool. -/
instance decideHeld [DecidableEq α] (action : α) (resources : List (Option α))
    : Decidable (some action ∈ resources) :=
  inferInstance

def resAddAction [DecidableEq α] (allocated : Bool) (action : α) (pool : ResPool α)
    : Except VmError (ResPool α) :=
  if pool.releasing then .error .eshutdown
  else if some action ∈ pool.resources then .error .eexist
  else if !allocated then .error .enomem
  else .ok { pool with resources := pool.resources ++ [some action] }

theorem resAddAction_cases [DecidableEq α] (allocated : Bool) (action : α) (pool : ResPool α)
    : resAddAction allocated action pool = .error .eshutdown
      ∨ (some action ∈ pool.resources ∧ resAddAction allocated action pool = .error .eexist)
      ∨ resAddAction allocated action pool = .error .enomem
      ∨ resAddAction allocated action pool
        = .ok { pool with resources := pool.resources ++ [some action] } := by
  unfold resAddAction
  split
  · exact .inl rfl
  split
  · rename_i known
    exact .inr (.inl ⟨known, rfl⟩)
  split
  · exact .inr (.inr (.inl rfl))
  · exact .inr (.inr (.inr rfl))

/-- The loop of `res_release_all`, over the resources from the last one to the first. -/
def resRelease (run : α → σ → σ) : List (Option α) → σ → σ
  | [], state => state
  | none :: rest, state => resRelease run rest state
  | some action :: rest, state => resRelease run rest (run action state)

theorem resRelease_keeps {run : α → σ → σ} (inv : σ → Prop)
    (kept : ∀ action state, inv state → inv (run action state))
    (resources : List (Option α)) {state : σ} (before : inv state)
    : inv (resRelease run resources state) := by
  induction resources generalizing state with
  | nil => exact before
  | cons resource rest ih =>
    cases resource with
    | none => exact ih before
    | some action => exact ih (kept action state before)

end Modvm.Util
