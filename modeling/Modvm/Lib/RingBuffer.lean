import Mathlib.Data.Nat.ModEq

/-! Fixed-capacity ring buffers with two indices and a count, and their contents as lists. -/

namespace Modvm.Lib

/-- A ring buffer: `head` is the next slot written, `tail` the next read; others are stale. -/
structure Ring (cap : Nat) (α : Type) where
  slots : Nat → α
  head : Nat
  tail : Nat
  cnt : Nat

namespace Ring

variable {cap : Nat} {α : Type}

/-- Store at the write index and advance it; the caller checks that there is room. -/
def put (ring : Ring cap α) (value : α) : Ring cap α :=
  { ring with
    slots := fun i => if i = ring.head then value else ring.slots i
    head := (ring.head + 1) % cap
    cnt := ring.cnt + 1 }

def front (ring : Ring cap α) : α :=
  ring.slots ring.tail

/-- Advance the read index past the oldest element. -/
def take (ring : Ring cap α) : Ring cap α :=
  { ring with tail := (ring.tail + 1) % cap, cnt := ring.cnt - 1 }

def clear (ring : Ring cap α) : Ring cap α :=
  { ring with head := 0, tail := 0, cnt := 0 }

/-- The queued elements, oldest first. -/
def contents (ring : Ring cap α) : List α :=
  (List.range ring.cnt).map fun i => ring.slots ((ring.tail + i) % cap)

structure WellFormed (ring : Ring cap α) : Prop where
  bounded : ring.cnt ≤ cap
  tailBounded : ring.tail < cap
  headEq : ring.head = (ring.tail + ring.cnt) % cap

@[simp]
theorem put_cnt (ring : Ring cap α) (value : α) : (ring.put value).cnt = ring.cnt + 1 :=
  rfl

@[simp]
theorem take_cnt (ring : Ring cap α) : ring.take.cnt = ring.cnt - 1 :=
  rfl

@[simp]
theorem clear_cnt (ring : Ring cap α) : ring.clear.cnt = 0 :=
  rfl

@[simp]
theorem contents_clear (ring : Ring cap α) : ring.clear.contents = [] := by
  simp [contents]

theorem offset_ne {base i j : Nat} (less : i < j) (within : j < cap)
    : (base + i) % cap ≠ (base + j) % cap := by
  intro same
  have congruent : i ≡ j [MOD cap] := Nat.ModEq.add_left_cancel' base same
  exact less.ne (congruent.eq_of_lt_of_lt (less.trans within) within)

namespace WellFormed

variable {ring : Ring cap α}

theorem clear (positive : 0 < cap) (ring : Ring cap α) : ring.clear.WellFormed :=
  ⟨Nat.zero_le _, positive, by simp [Ring.clear]⟩

theorem put (formed : ring.WellFormed) (room : ring.cnt < cap) (value : α)
    : (ring.put value).WellFormed := by
  refine ⟨room, formed.tailBounded, ?_⟩
  simp only [Ring.put, formed.headEq, Nat.mod_add_mod, Nat.add_assoc]

theorem take (formed : ring.WellFormed) (some : 0 < ring.cnt) : ring.take.WellFormed := by
  have positive : 0 < cap := Nat.lt_of_lt_of_le some formed.bounded
  refine ⟨Nat.le_trans (Nat.sub_le _ _) formed.bounded, Nat.mod_lt _ positive, ?_⟩
  have shift : ring.tail + 1 + (ring.cnt - 1) = ring.tail + ring.cnt := by omega
  simp only [Ring.take, formed.headEq, Nat.mod_add_mod, shift]

/-- Storing appends. Witness: the write index differs from every occupied slot. -/
theorem contents_put (formed : ring.WellFormed) (room : ring.cnt < cap) (value : α)
    : (ring.put value).contents = ring.contents ++ [value] := by
  simp only [contents, Ring.put, List.range_succ, List.map_append]
  congr 1
  · apply List.map_congr_left
    intro i member
    have less : i < ring.cnt := List.mem_range.mp member
    rw [if_neg]
    rw [formed.headEq]
    exact offset_ne less room
  · simp [formed.headEq]

theorem contents_take (formed : ring.WellFormed) (some : 0 < ring.cnt)
    : ring.contents = ring.front :: ring.take.contents := by
  obtain ⟨n, count⟩ : ∃ n, ring.cnt = n + 1 := ⟨ring.cnt - 1, by omega⟩
  simp only [contents, Ring.take, count, List.range_succ_eq_map, List.map_cons,
    List.map_map, Nat.add_zero, Nat.mod_eq_of_lt formed.tailBounded]
  congr 1
  apply List.map_congr_left
  intro i _
  have shift : ring.tail + 1 + i = ring.tail + (i + 1) := by omega
  simp only [Function.comp, Nat.mod_add_mod, shift]

end WellFormed

/-- The zero-initialized ring is well formed and empty. -/
def empty (value : α) : Ring cap α :=
  ⟨fun _ => value, 0, 0, 0⟩

theorem empty_wellFormed (positive : 0 < cap) (value : α)
    : (empty value : Ring cap α).WellFormed :=
  ⟨Nat.zero_le _, positive, by simp [empty]⟩

end Ring

end Modvm.Lib
