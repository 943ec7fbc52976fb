import Mathlib.Logic.Function.Basic
import Mathlib.Tactic.Common

/-! Banks of registers behind one window that a selector moves: what becomes of a bank depends on
the writes made while it was selected, and on nothing else.
-/

namespace Modvm.Lib

/-- What a write to the window is: a choice of bank, a write to a register of the chosen bank, or
nothing.
-/
inductive WindowWrite (κ ρ : Type) where
  | select (bank : κ)
  | register (write : ρ)
  | ignored

section Issued
variable {κ ρ ω : Type} [DecidableEq κ]

/-- The register writes that are made while a bank is selected. -/
def issued (decode : ω → WindowWrite κ ρ) (bank : κ) : κ → List ω → List ρ
  | _, [] => []
  | selected, write :: rest =>
      match decode write with
      | .select next => issued decode bank next rest
      | .register reg =>
          if selected = bank then reg :: issued decode bank selected rest
          else issued decode bank selected rest
      | .ignored => issued decode bank selected rest

end Issued

/-- How a write acts on the selected bank, and what it leaves alone; `Frame` relates states that
differ at most in banks and selector.
-/
structure Window (σ ω κ ρ β : Type) [DecidableEq κ] where
  step : ω → σ → σ
  decode : ω → WindowWrite κ ρ
  Admits : ω → Prop
  Valid : σ → Prop
  Frame : σ → σ → Prop
  selected : σ → κ
  bank : σ → κ → β
  /-- Banks that exist; the others keep what they have. -/
  Live : κ → Prop
  act : κ → ρ → β → β
  frame : Equivalence Frame
  valid_step : ∀ {write s}, Admits write → Valid s → Valid (step write s)
  frame_step : ∀ {write s}, Admits write → Valid s → Frame s (step write s)
  select_selected : ∀ {write s next}, Admits write → Valid s → decode write = .select next →
    selected (step write s) = next
  select_bank : ∀ {write s next}, Admits write → Valid s → decode write = .select next →
    bank (step write s) = bank s
  register_selected : ∀ {write s reg}, Admits write → Valid s → decode write = .register reg →
    selected (step write s) = selected s
  register_bank : ∀ {write s reg}, Admits write → Valid s → decode write = .register reg →
    bank (step write s)
      = Function.update (bank s) (selected s) (act (selected s) reg (bank s (selected s)))
  ignored_step : ∀ {write s}, Admits write → Valid s → decode write = .ignored →
    step write s = s
  dead : ∀ {bank reg content}, ¬ Live bank → act bank reg content = content
  /-- A choice of bank makes states equal that differ in the selector only. -/
  select_eq : ∀ {write s t next}, Admits write → decode write = .select next → Frame s t →
    bank s = bank t → step write s = step write t

namespace Window

variable {σ ω κ ρ β : Type} [DecidableEq κ] (win : Window σ ω κ ρ β)

def run (s : σ) (writes : List ω) : σ := writes.foldl (fun s write => win.step write s) s

variable {win} {s : σ}

section

variable {writes : List ω} (admitted : ∀ write ∈ writes, win.Admits write) (valid : win.Valid s)
include admitted valid

theorem run_frame
    : win.Frame s (win.run s writes) := by
  induction writes generalizing s with
  | nil => exact win.frame.refl s
  | cons write rest ih =>
    obtain ⟨first, later⟩ := List.forall_mem_cons.mp admitted
    exact win.frame.trans (win.frame_step first valid) (ih later (win.valid_step first valid))

/-- A bank ends as the writes issued to it make it, by induction on the writes. -/
theorem run_bank (bank : κ)
    : win.bank (win.run s writes) bank
      = (issued win.decode bank (win.selected s) writes).foldl
        (fun content reg => win.act bank reg content) (win.bank s bank) := by
  induction writes generalizing s with
  | nil => rfl
  | cons write rest ih =>
    obtain ⟨first, later⟩ := List.forall_mem_cons.mp admitted
    have tail := ih later (win.valid_step first valid)
    change win.bank (win.run (win.step write s) rest) bank = _
    rw [tail, issued]
    cases decoded : win.decode write with
    | select =>
      rw [win.select_selected first valid decoded, win.select_bank first valid decoded]
    | register =>
      rw [win.register_selected first valid decoded, win.register_bank first valid decoded]
      by_cases here : win.selected s = bank
      · subst here
        simp only [Function.update_self, if_true, List.foldl_cons]
      · simp only [Function.update_of_ne (Ne.symm here), if_neg here]
    | ignored => rw [win.ignored_step first valid decoded]

theorem run_dead {bank : κ} (dead : ¬ win.Live bank)
    : win.bank (win.run s writes) bank = win.bank s bank := by
  rw [win.run_bank admitted valid]
  refine List.foldlRecOn (motive := fun content => content = win.bank s bank) _ _ rfl ?_
  intro content same reg _
  rw [win.dead dead, same]

end

theorem run_bank_eq {left right : List ω} (leftAdmitted : ∀ write ∈ left, win.Admits write)
    (rightAdmitted : ∀ write ∈ right, win.Admits write) (valid : win.Valid s)
    (same : ∀ bank, win.Live bank → issued win.decode bank (win.selected s) left
      = issued win.decode bank (win.selected s) right)
    : win.bank (win.run s left) = win.bank (win.run s right) := by
  funext bank
  by_cases live : win.Live bank
  · rw [win.run_bank leftAdmitted valid, win.run_bank rightAdmitted valid, same bank live]
  · rw [win.run_dead leftAdmitted valid live, win.run_dead rightAdmitted valid live]

theorem run_eq {left right : List ω} (leftAdmitted : ∀ write ∈ left, win.Admits write)
    (rightAdmitted : ∀ write ∈ right, win.Admits write) (valid : win.Valid s)
    (same : ∀ bank, win.Live bank → issued win.decode bank (win.selected s) left
      = issued win.decode bank (win.selected s) right)
    {write : ω} (admitted : win.Admits write) {next : κ} (selects : win.decode write = .select next)
    : win.step write (win.run s left) = win.step write (win.run s right) :=
  win.select_eq admitted selects
    (win.frame.trans (win.frame.symm (run_frame leftAdmitted valid))
      (run_frame rightAdmitted valid))
    (run_bank_eq leftAdmitted rightAdmitted valid same)

theorem run_untouched {writes : List ω} (admitted : ∀ write ∈ writes, win.Admits write)
    (valid : win.Valid s) {bank : κ}
    (untouched : issued win.decode bank (win.selected s) writes = [])
    : win.bank (win.run s writes) bank = win.bank s bank := by
  rw [win.run_bank admitted valid, untouched]
  rfl

end Window

end Modvm.Lib
