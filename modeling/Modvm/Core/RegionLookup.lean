import Modvm.Core.Vm

/-! What the region behind a handle is after the operations on the I/O map. -/

namespace Modvm.Core.IoMap

variable {map : IoMap} {handle : Nat}

theorem find_handle {reg : IoRegion} (found : map.find handle = some reg)
    : reg.handle = handle := by
  simpa using List.find?_some found

theorem find_add {reg : IoRegion} (unused : map.find reg.handle = none)
    : (map.add reg).find handle
      = if handle = reg.handle then some reg else map.find handle := by
  unfold find at unused ⊢
  rw [List.find?_append, Option.or_eq_none_iff] at unused
  by_cases same : handle = reg.handle
  · subst same
    cases type : reg.type <;> simp [add, type, unused]
  · have differ : ¬ (reg.handle == handle) = true := by simpa using Ne.symm same
    cases type : reg.type <;> simp [add, type, same, differ]

theorem find_remove (gone : Nat)
    : (map.remove gone).find handle = if handle = gone then none else map.find handle := by
  unfold find
  rw [remove, ← List.filter_append, List.find?_filter]
  split
  next same =>
    subst same
    simp
  next differ =>
    refine congrArg (List.find? · _) (funext fun reg => ?_)
    by_cases here : reg.handle = handle
    · simp [here, differ]
    · simp [here]

theorem find_modify (target : Nat) {update : IoRegion → IoRegion}
    (same : ∀ reg, (update reg).handle = reg.handle)
    : (map.modify target update).find handle
      = (map.find handle).map fun reg => if handle = target then update reg else reg := by
  unfold find
  have kept : ∀ reg : IoRegion,
      (if reg.handle = target then update reg else reg).handle = reg.handle := by
    intro reg
    split
    · exact same reg
    · rfl
  rw [modify, ← List.map_append, List.find?_map]
  have test : (fun reg => reg.handle == handle)
      ∘ (fun reg => if reg.handle = target then update reg else reg)
        = fun reg => reg.handle == handle := by
    funext reg
    simp [kept]
  rw [test]
  cases found : (map.regions .pio ++ map.regions .mmio).find? fun reg => reg.handle == handle with
  | none => rfl
  | some reg =>
    have name : reg.handle = handle := by simpa using List.find?_some found
    simp [name]

end Modvm.Core.IoMap
