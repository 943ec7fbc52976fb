import Mathlib.Logic.Relation
import Mathlib.Data.List.Induction

/-! Labelled runs of a step relation, with the induction and characterization rules that
every state-machine result of the development uses.
-/

namespace Modvm.Lib

variable {σ ι : Type*}

/-- `Run step start labels finish` performs the steps in order, added at the end, so that an
induction sees the last one.
-/
inductive Run (step : σ → ι → σ → Prop) (start : σ) : List ι → σ → Prop
  | nil : Run step start [] start
  | snoc {labels label middle finish} (earlier : Run step start labels middle)
    (last : step middle label finish)
    : Run step start (labels ++ [label]) finish

/-- The step relation of a transition function. -/
def Performs (step : σ → ι → σ) (s : σ) (label : ι) (t : σ) : Prop := t = step s label

namespace Run

variable {step : σ → ι → σ → Prop} {start middle finish : σ} {labels more : List ι}

theorem single {label : ι} (last : step start label finish)
    : Run step start [label] finish :=
  List.nil_append [label] ▸ nil.snoc last

theorem append (first : Run step start labels middle) (second : Run step middle more finish)
    : Run step start (labels ++ more) finish := by
  induction second with
  | nil => simpa using first
  | snoc _ last ih => simpa only [List.append_assoc] using ih.snoc last

theorem snoc_inv {label : ι} (run : Run step start (labels ++ [label]) finish)
    : ∃ before, Run step start labels before ∧ step before label finish := by
  generalize same : labels ++ [label] = all at run
  cases run with
  | nil => simp at same
  | snoc earlier last =>
    obtain ⟨rfl, rfl⟩ := List.append_singleton_inj.mp same
    exact ⟨_, earlier, last⟩

theorem of_nil (run : Run step start [] finish) : finish = start := by
  generalize none : [] = labels at run
  cases run with
  | nil => rfl
  | snoc => simp at none

/-- A run over appended labels passes through an intermediate state, by induction on the
later labels.
-/
theorem split (run : Run step start (labels ++ more) finish)
    : ∃ between, Run step start labels between ∧ Run step between more finish := by
  induction more using List.reverseRecOn generalizing finish with
  | nil => exact ⟨finish, by simpa using run, .nil⟩
  | append_singleton rest label ih =>
    rw [← List.append_assoc] at run
    obtain ⟨before, earlier, last⟩ := run.snoc_inv
    obtain ⟨between, first, second⟩ := ih earlier
    exact ⟨between, first, second.snoc last⟩

theorem foldl (next : σ → ι → σ) (start : σ) (labels : List ι)
    : Run (Performs next) start labels (labels.foldl next start) := by
  induction labels using List.reverseRecOn with
  | nil => exact .nil
  | append_singleton labels label ih =>
    rw [List.foldl_append]
    exact ih.snoc rfl

/-- Folding a transition function that refuses no label is a run, by induction from the last label.
-/
theorem of_foldlM {next : σ → ι → Option σ} {start finish : σ} {labels : List ι}
    (done : labels.foldlM next start = some finish)
    : Run (fun s label t => next s label = some t) start labels finish := by
  induction labels using List.reverseRecOn generalizing finish with
  | nil =>
    cases done
    exact .nil
  | append_singleton labels label ih =>
    rw [List.foldlM_append] at done
    obtain ⟨middle, before, last⟩ := Option.bind_eq_some_iff.mp done
    refine (ih before).snoc ?_
    simpa using last

/-- A property kept by admitted steps is kept by every run of them, by induction on the run. -/
theorem invariant_of {admitted : ι → Prop} (inv : σ → Prop)
    (kept : ∀ s label t, admitted label → inv s → step s label t → inv t)
    (run : Run step start labels finish) (every : ∀ label ∈ labels, admitted label)
    (initial : inv start)
    : inv finish := by
  induction run with
  | nil => exact initial
  | snoc _ last ih =>
    refine kept _ _ _ (every _ (by simp)) (ih ?_) last
    intro label member
    exact every label (List.mem_append_left _ member)

theorem invariant (inv : σ → Prop)
    (kept : ∀ s label t, inv s → step s label t → inv t)
    (run : Run step start labels finish) (initial : inv start)
    : inv finish :=
  run.invariant_of inv (fun s label t _ => kept s label t)
    (fun _ _ => trivial : ∀ label ∈ labels, True) initial

end Run

/-- Every step of every run over a prefix of `labels` starts in a state that admits it. -/
def StepsMeet (step : σ → ι → σ → Prop) (meets : σ → ι → Prop) (start : σ)
    (labels : List ι)
    : Prop :=
  ∀ done label s t, done ++ [label] <+: labels → Run step start done s → step s label t
    → meets s label

theorem StepsMeet.nil {step : σ → ι → σ → Prop} {meets : σ → ι → Prop} {start : σ}
    : StepsMeet step meets start [] := by
  intro done label s t within
  simp at within

theorem StepsMeet.cons {next : σ → ι → σ} {meets : σ → ι → Prop} {start : σ} {label : ι}
    {labels : List ι} (first : meets start label)
    (others : StepsMeet (Performs next) meets (next start label) labels)
    : StepsMeet (Performs next) meets start (label :: labels) := by
  intro done last s t within run step
  cases done with
  | nil =>
    obtain ⟨rfl, -⟩ := List.cons_prefix_cons.mp within
    cases run.of_nil
    exact first
  | cons head rest =>
    obtain ⟨rfl, inside⟩ := List.cons_prefix_cons.mp within
    have parts : Run (Performs next) start ([] ++ [head] ++ rest) s := run
    obtain ⟨between, one, more⟩ := parts.split
    obtain ⟨before, none, stepped⟩ := one.snoc_inv
    cases none.of_nil
    exact others rest last s t inside (stepped ▸ more) step

/-- Every state that a run over a prefix of `labels` reaches has the property. -/
def StatesHave (step : σ → ι → σ → Prop) (good : σ → Prop) (start : σ) (labels : List ι)
    : Prop :=
  ∀ done s, done <+: labels → Run step start done s → good s

/-- When a step from a good state ends in a good one exactly if it meets its condition, a run stays
good exactly if all its steps meet it. Witness: induction on the run.
-/
theorem statesHave_iff_stepsMeet {step : σ → ι → σ → Prop} {inv good : σ → Prop}
    {meets : σ → ι → Prop} {start : σ}
    (invStart : inv start) (goodStart : good start)
    (invKept : ∀ s label t, inv s → step s label t → inv t)
    (exact_step : ∀ s label t, inv s → good s → step s label t → (good t ↔ meets s label))
    (labels : List ι)
    : StatesHave step good start labels ↔ StepsMeet step meets start labels := by
  constructor
  · intro states done label s t within run last
    have before := states done s ((List.prefix_append done [label]).trans within) run
    have after := states (done ++ [label]) t within (run.snoc last)
    exact (exact_step s label t (run.invariant inv invKept invStart) before last).mp after
  · intro conditions done s within run
    induction run with
    | nil => exact goodStart
    | @snoc before label middle finish earlier last ih =>
      have held := ih ((List.prefix_append before [label]).trans within)
      have met := conditions before label middle finish within earlier last
      exact (exact_step middle label finish (earlier.invariant inv invKept invStart)
        held last).mpr met

end Modvm.Lib
