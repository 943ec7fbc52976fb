import Modvm.Core.Errno
import Modvm.Lib.CString

/-! Options as text: fields of the form `key=value` with commas between them. -/

namespace Modvm.Util

open Modvm.Lib

def comma : Byte := 0x2c

def equals : Byte := 0x3d

/-- The loop over the fields: memory behind the equals sign of the field with the key. -/
def findValue (key start : List Byte) : Option (List Byte) :=
  if strncmp start key (strlen key) ≠ 0 ∨ start.getD (strlen key) 0 ≠ equals then
    match _found : strchr start comma with
    | none => none
    | some field => findValue key field.tail
  else some (start.drop (strlen key + 1))
termination_by start.length
decreasing_by exact strchr_tail_lt _found

def valueLength (start : List Byte) : Nat :=
  match strchr start comma with
  | some stop => start.length - stop.length
  | none => strlen start

/-- `cmdline_extract_opt`; `allocated` is the outcome of `malloc`, the result the new string's
memory.
-/
def cmdlineExtractOpt (opts key : Option (List Byte)) (allocated : Bool)
    : Except VmError (Option (List Byte)) :=
  match opts, key with
  | some opts, some key =>
      if key.headD 0 = 0 then .ok none
      else
        match findValue key opts with
        | none => .ok none
        | some start =>
            if allocated then .ok (some (strncpy (cstr start) (valueLength start) ++ [0]))
            else .error .enomem
  | _, _ => .ok none

/-- The value of a field with the key: what follows its first equals sign. -/
def fieldValue (key field : List Byte) : Option (List Byte) :=
  if equals ∈ field ∧ field.takeWhile (· ≠ equals) = key then
    some (field.dropWhile (· ≠ equals)).tail
  else none

/-- The value of the first field with the key. -/
def optionValue (key text : List Byte) : Option (List Byte) :=
  (text.splitOn comma).findSome? (fieldValue key)

theorem fieldValue_eq_some_iff {key field value : List Byte} (plain : equals ∉ key)
    : fieldValue key field = some value ↔ field = key ++ equals :: value := by
  unfold fieldValue
  constructor
  · intro found
    split at found
    next has =>
      obtain ⟨member, same⟩ := has
      obtain rfl := Option.some.inj found
      have left : field.dropWhile (· ≠ equals) ≠ [] := by
        intro none
        have whole := List.takeWhile_append_dropWhile (p := (· ≠ equals)) (l := field)
        rw [none, List.append_nil, same] at whole
        exact plain (whole ▸ member)
      have head : (field.dropWhile (· ≠ equals)).head left = equals := by
        simpa using List.head_dropWhile_not (· ≠ equals) left
      have rebuilt := List.cons_head_tail left
      rw [head] at rebuilt
      rw [rebuilt, ← same, List.takeWhile_append_dropWhile]
    · cases found
  · rintro rfl
    have before := takeWhile_first plain value
    refine (if_pos ⟨by simp, before⟩).trans ?_
    rw [List.dropWhile_append_of_pos, List.dropWhile_cons_of_neg (by simp), List.tail_cons]
    intro item member
    simp only [decide_eq_true_eq]
    rintro rfl
    exact plain member

theorem fieldValue_eq_none {key field : List Byte} (plain : equals ∉ key)
    (other : ¬ key ++ [equals] <+: field)
    : fieldValue key field = none := by
  refine Option.eq_none_iff_forall_ne_some.mpr fun value found => other ?_
  rw [(fieldValue_eq_some_iff plain).mp found]
  exact ⟨value, by simp⟩

theorem optionValue_first {key first : List Byte} (single : comma ∉ first) (rest : List Byte)
    : optionValue key (first ++ comma :: rest)
      = (fieldValue key first).or (optionValue key rest) := by
  unfold optionValue
  rw [List.splitOn_append_cons_self_of_not_mem single, List.findSome?_cons]
  cases fieldValue key first with
  | none => rfl
  | some => rfl

theorem optionValue_single {key text : List Byte} (single : comma ∉ text)
    : optionValue key text = fieldValue key text := by
  unfold optionValue
  rw [List.splitOn_eq_singleton single, List.findSome?_cons]
  cases fieldValue key text with
  | none => rfl
  | some => rfl

def upToComma (text : List Byte) : List Byte := text.takeWhile (· ≠ comma)

theorem strncpy_valueLength (start : List Byte)
    : strncpy (cstr start) (valueLength start) = upToComma (cstr start) := by
  have copied : ∀ {text rest : List Byte}, strncpy (text ++ rest) text.length = text := by
    simp [strncpy]
  unfold valueLength upToComma
  cases search : strchr start comma with
  | none =>
    rw [takeWhile_single (strchr_none search)]
    have whole := @copied (cstr start) []
    rw [List.append_nil] at whole
    exact whole
  | some =>
    obtain ⟨first, rest, rfl, rfl, single, clean⟩ := strchr_some (by decide) search
    have length : (first ++ comma :: rest).length - (comma :: rest).length = first.length := by
      rw [List.length_append, Nat.add_sub_cancel]
    rw [cstr_append clean, cstr_cons (by decide), takeWhile_first single]
    dsimp only
    rw [length]
    exact copied

theorem cstr_drop_key {key start value : List Byte}
    (whole : cstr start = cstr key ++ equals :: value)
    : cstr (start.drop (strlen key + 1)) = value := by
  rw [cstr_drop, whole]
  · rw [List.append_cons]
    exact List.drop_left' (by simp [strlen])
  · rw [strlen, strlen, whole, List.length_append, List.length_cons]
    omega

/-- The scan finds the value of the first field with the key, by induction on the scan. -/
theorem findValue_eq {key start : List Byte} (unsplit : comma ∉ cstr key)
    (plain : equals ∉ cstr key)
    : (findValue key start).map (fun value => upToComma (cstr value))
      = optionValue (cstr key) (cstr start) := by
  have keyUnsplit : comma ∉ cstr key ++ [equals] := by
    rw [List.mem_append, List.mem_singleton]
    rintro (inside | same)
    · exact unsplit inside
    · cases same
  induction start using findValue.induct key with
  | case1 start other missing =>
    rw [findValue, if_pos other]
    have single := strchr_none missing
    rw [optionValue_single single, fieldValue_eq_none plain]
    · generalize strchr start comma = search at missing ⊢
      subst missing
      rfl
    · rw [← begins_iff (by decide)]
      exact not_and_or.mpr other
  | case2 start other field found ih =>
    rw [findValue, if_pos other]
    obtain ⟨first, rest, rfl, rfl, single, clean⟩ := strchr_some (by decide) found
    have whole : cstr (first ++ comma :: rest) = first ++ comma :: cstr rest := by
      rw [cstr_append clean, cstr_cons (by decide)]
    have none : fieldValue (cstr key) first = none := by
      refine fieldValue_eq_none plain ?_
      rw [← prefix_first_iff keyUnsplit, ← whole, ← begins_iff (by decide)]
      exact not_and_or.mpr other
    rw [List.tail_cons] at ih
    rw [whole, optionValue_first single, none, ← ih]
    generalize strchr (first ++ comma :: rest) comma = search at found ⊢
    subst found
    rfl
  | case3 start here =>
    rw [findValue, if_neg here, Option.map_some]
    have begins : cstr key ++ [equals] <+: cstr start :=
      (begins_iff (by decide)).mp ⟨not_not.mp (not_or.mp here).1, not_not.mp (not_or.mp here).2⟩
    cases search : strchr start comma with
    | none =>
      obtain ⟨value, same⟩ := begins
      have whole : cstr start = cstr key ++ equals :: value := by rw [← same]; simp
      have single := strchr_none search
      rw [optionValue_single single, (fieldValue_eq_some_iff plain).mpr whole,
        cstr_drop_key whole, upToComma, takeWhile_single]
      intro inside
      rw [whole] at single
      exact single (List.mem_append_right _ (List.mem_cons_of_mem _ inside))
    | some =>
      obtain ⟨first, rest, rfl, rfl, single, clean⟩ := strchr_some (by decide) search
      have split : cstr (first ++ comma :: rest) = first ++ comma :: cstr rest := by
        rw [cstr_append clean, cstr_cons (by decide)]
      rw [split, prefix_first_iff keyUnsplit] at begins
      obtain ⟨value, same⟩ := begins
      have field : first = cstr key ++ equals :: value := by rw [← same]; simp
      have whole : cstr (first ++ comma :: rest)
          = cstr key ++ equals :: (value ++ comma :: cstr rest) := by
        rw [split, field]
        simp
      rw [split, optionValue_first single, (fieldValue_eq_some_iff plain).mpr field,
        cstr_drop_key whole, upToComma, takeWhile_first]
      · rfl
      · intro inside
        rw [field] at single
        exact single (List.mem_append_right _ (List.mem_cons_of_mem _ inside))

/-- A new string with the value, if there is one. -/
def copyValue (value : Option (List Byte)) (allocated : Bool)
    : Except VmError (Option (List Byte)) :=
  match value with
  | none => .ok none
  | some text => if allocated then .ok (some (text ++ [0])) else .error .enomem

theorem copyValue_error {value : Option (List Byte)} {allocated : Bool} {error : VmError}
    (failed : copyValue value allocated = .error error)
    : allocated = false := by
  cases allocated with
  | false => rfl
  | true =>
    cases value with
    | none => cases failed
    | some => cases failed

theorem copyValue_ok {value copy : Option (List Byte)} {allocated : Bool}
    (copied : copyValue value allocated = .ok copy)
    : copy = value.map (· ++ [0]) := by
  cases value with
  | none => exact (Except.ok.inj copied).symm
  | some =>
    cases allocated with
    | false => cases copied
    | true => exact (Except.ok.inj copied).symm

theorem optionValue_clean {key opts value : List Byte} (unsplit : comma ∉ cstr key)
    (plain : equals ∉ cstr key) (found : optionValue (cstr key) (cstr opts) = some value)
    : 0 ∉ value := by
  rw [← findValue_eq unsplit plain, Option.map_eq_some_iff] at found
  obtain ⟨start, -, rfl⟩ := found
  exact fun inside => zero_not_mem_cstr start ((List.takeWhile_prefix _).subset inside)

theorem cmdlineExtractOpt_eq {opts key : List Byte} (allocated : Bool) (named : cstr key ≠ [])
    (unsplit : comma ∉ cstr key) (plain : equals ∉ cstr key)
    : cmdlineExtractOpt (some opts) (some key) allocated
      = copyValue (optionValue (cstr key) (cstr opts)) allocated := by
  have nonempty : key.headD 0 ≠ 0 := by
    intro ends
    cases key with
    | nil => exact named rfl
    | cons first rest =>
      obtain rfl : first = 0 := ends
      exact named (cstr_zero rest)
  rw [cmdlineExtractOpt, if_neg nonempty, ← findValue_eq unsplit plain]
  cases findValue key opts with
  | none => rfl
  | some => simp only [Option.map_some, strncpy_valueLength, copyValue]

end Modvm.Util
