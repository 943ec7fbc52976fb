import Mathlib.Data.List.Basic
import Mathlib.Data.List.TakeWhile
import Mathlib.Tactic.Common

/-! Strings of C in memory, and the fields of a text that a scan with `strchr` goes over. -/

namespace Modvm.Lib

variable {mem : List (BitVec 8)} {char : BitVec 8}

/-- The string in memory. What lies behind the list counts as NUL. -/
def cstr (mem : List (BitVec 8)) : List (BitVec 8) := mem.takeWhile (· ≠ 0)

def strlen (mem : List (BitVec 8)) : Nat := (cstr mem).length

/-- `strchr`: memory from the first such character on. -/
def strchr (mem : List (BitVec 8)) (char : BitVec 8) : Option (List (BitVec 8)) :=
  match mem with
  | [] => none
  | first :: rest =>
      if first = char then some (first :: rest)
      else if first = 0 then none
      else strchr rest char

def strncmp (left right : List (BitVec 8)) : Nat → Int
  | 0 => 0
  | count + 1 =>
      if left.headD 0 ≠ right.headD 0 then (left.headD 0).toNat - (right.headD 0).toNat
      else if left.headD 0 = 0 then 0
      else strncmp left.tail right.tail count

/-- The bytes that `strncpy` stores for a string. -/
def strncpy (text : List (BitVec 8)) (count : Nat) : List (BitVec 8) :=
  text.take count ++ List.replicate (count - text.length) 0

@[simp]
theorem cstr_nil : cstr [] = [] := rfl

@[simp]
theorem cstr_zero (mem : List (BitVec 8))
    : cstr (0#8 :: mem) = [] :=
  List.takeWhile_cons_of_neg (by simp)

theorem cstr_cons {byte : BitVec 8} (live : byte ≠ 0) (mem : List (BitVec 8))
    : cstr (byte :: mem) = byte :: cstr mem :=
  List.takeWhile_cons_of_pos (by simpa using live)

theorem zero_not_mem_cstr (mem : List (BitVec 8))
    : 0 ∉ cstr mem := by
  intro member
  simpa using List.mem_takeWhile_imp member

theorem cstr_append {before : List (BitVec 8)} (clean : 0 ∉ before) (mem : List (BitVec 8))
    : cstr (before ++ mem) = before ++ cstr mem := by
  refine List.takeWhile_append_of_pos fun byte member => ?_
  simp only [decide_eq_true_eq]
  rintro rfl
  exact clean member

theorem cstr_terminated {text : List (BitVec 8)} (clean : 0 ∉ text) (mem : List (BitVec 8))
    : cstr (text ++ 0 :: mem) = text := by
  rw [cstr_append clean]
  simp

theorem cstr_prefix (mem : List (BitVec 8))
    : cstr mem <+: mem :=
  List.takeWhile_prefix _

theorem cstr_drop {count : Nat} (inside : count ≤ strlen mem)
    : cstr (mem.drop count) = (cstr mem).drop count := by
  have clean : 0 ∉ (cstr mem).take count := fun member =>
    zero_not_mem_cstr mem (List.mem_of_mem_take member)
  have start : mem.take count = (cstr mem).take count := by
    obtain ⟨rest, whole⟩ := cstr_prefix mem
    conv_lhs => rw [← whole]
    exact List.take_append_of_le_length inside
  have whole : cstr mem = (cstr mem).take count ++ cstr (mem.drop count) := by
    rw [← cstr_append clean, ← start, List.take_append_drop]
  conv_rhs => rw [whole]
  rw [List.drop_left' (List.length_take_of_le inside)]

theorem cstr_take (mem : List (BitVec 8))
    : cstr (mem.take (strlen mem + 1)) = cstr mem := by
  induction mem with
  | nil => rfl
  | cons first rest ih =>
    by_cases ends : first = 0
    · simp [ends]
    · have length : strlen (first :: rest) = strlen rest + 1 := by
        rw [strlen, cstr_cons ends, List.length_cons, strlen]
      rw [length, List.take_succ_cons, cstr_cons ends, cstr_cons ends, ih]

theorem strncmp_cons (left : List (BitVec 8)) (byte : BitVec 8) (right : List (BitVec 8))
    (count : Nat)
    : strncmp left (byte :: right) (count + 1)
      = if left.headD 0 ≠ byte then ((left.headD 0).toNat : Int) - byte.toNat
        else if left.headD 0 = 0 then 0
        else strncmp left.tail right count := rfl

/-- `strncmp` over a whole key tells whether the string begins with it, by induction on the key. -/
theorem strncmp_eq_zero_iff {key mem : List (BitVec 8)}
    : strncmp mem key (strlen key) = 0 ↔ cstr key <+: cstr mem := by
  induction key generalizing mem with
  | nil => simp [strlen, strncmp]
  | cons first rest ih =>
    by_cases ends : first = 0
    · have empty : cstr (first :: rest) = [] := ends ▸ cstr_zero rest
      rw [strlen, empty]
      exact iff_of_true rfl List.nil_prefix
    have length : strlen (first :: rest) = strlen rest + 1 := by
      rw [strlen, cstr_cons ends, List.length_cons, strlen]
    rw [length, strncmp_cons, cstr_cons ends]
    by_cases same : mem.headD 0 = first
    · rw [if_neg (not_not.mpr same), same, if_neg ends, ih]
      cases mem with
      | nil => exact absurd same.symm ends
      | cons head =>
        obtain rfl : head = first := same
        rw [cstr_cons ends]
        simp
    · have differ : ((mem.headD 0).toNat : Int) - first.toNat ≠ 0 := by
        intro equal
        exact same (BitVec.toNat_inj.mp (by omega))
      rw [if_pos same]
      refine iff_of_false differ ?_
      rintro ⟨suffix, whole⟩
      obtain ⟨beyond, start⟩ := cstr_prefix mem
      rw [← start, ← whole] at same
      exact same rfl

theorem begins_iff {key mem : List (BitVec 8)} (printed : char ≠ 0)
    : (strncmp mem key (strlen key) = 0 ∧ mem.getD (strlen key) 0 = char)
      ↔ cstr key ++ [char] <+: cstr mem := by
  rw [strncmp_eq_zero_iff]
  constructor
  · rintro ⟨⟨rest, whole⟩, found⟩
    have inside : strlen key ≤ strlen mem := by
      rw [strlen, strlen, ← whole, List.length_append]
      omega
    have after : cstr (mem.drop (strlen key)) = rest := by
      rw [cstr_drop inside, ← whole]
      exact List.drop_left' rfl
    cases behind : mem.drop (strlen key) with
    | nil =>
      rw [List.getD_eq_getElem?_getD, List.getElem?_eq_none (List.drop_eq_nil_iff.mp behind)]
        at found
      exact absurd found.symm printed
    | cons head tail =>
      have same : head = char := by
        rw [← found, List.getD_eq_getElem?_getD, ← List.head?_drop, behind]
        rfl
      subst same
      rw [behind, cstr_cons printed] at after
      exact ⟨cstr tail, by rw [← whole, ← after]; simp⟩
  · rintro ⟨rest, whole⟩
    have inside : strlen key ≤ strlen mem := by
      rw [strlen, strlen, ← whole, List.length_append, List.length_append]
      omega
    refine ⟨⟨char :: rest, by rw [← whole]; simp⟩, ?_⟩
    have after : cstr (mem.drop (strlen key)) = char :: rest := by
      rw [cstr_drop inside, ← whole, List.append_assoc]
      exact List.drop_left' rfl
    have found : (mem.drop (strlen key)).head? = some char := by
      obtain ⟨beyond, start⟩ := cstr_prefix (mem.drop (strlen key))
      rw [← start, after]
      rfl
    rw [List.head?_drop] at found
    rw [List.getD_eq_getElem?_getD, found]
    rfl

theorem strchr_some (printed : char ≠ 0) {found : List (BitVec 8)}
    (search : strchr mem char = some found)
    : ∃ before rest, found = char :: rest ∧ mem = before ++ char :: rest ∧ char ∉ before
      ∧ 0 ∉ before := by
  induction mem with
  | nil => cases search
  | cons first rest ih =>
    rw [strchr] at search
    split at search
    next here =>
      obtain rfl := Option.some.inj search
      subst here
      exact ⟨[], rest, rfl, rfl, List.not_mem_nil, List.not_mem_nil⟩
    next other =>
      split at search
      · cases search
      next live =>
        obtain ⟨before, after, same, split, absent, clean⟩ := ih search
        refine ⟨first :: before, after, same, by rw [split, List.cons_append], ?_, ?_⟩
        · exact List.not_mem_cons_of_ne_of_not_mem (Ne.symm other) absent
        · exact List.not_mem_cons_of_ne_of_not_mem (Ne.symm live) clean

theorem strchr_none (search : strchr mem char = none)
    : char ∉ cstr mem := by
  induction mem with
  | nil => exact List.not_mem_nil
  | cons first rest ih =>
    rw [strchr] at search
    split at search
    · cases search
    next other =>
      split at search
      next ends =>
        have empty : cstr (first :: rest) = [] := ends ▸ cstr_zero rest
        rw [empty]
        exact List.not_mem_nil
      next live =>
        rw [cstr_cons live]
        exact List.not_mem_cons_of_ne_of_not_mem (Ne.symm other) (ih search)

theorem strchr_tail_lt {found : List (BitVec 8)} (search : strchr mem char = some found)
    : found.tail.length < mem.length := by
  induction mem with
  | nil => cases search
  | cons first rest ih =>
    rw [strchr] at search
    split at search
    · obtain rfl := Option.some.inj search
      exact Nat.lt_succ_self _
    · split at search
      · cases search
      · exact (ih search).trans (Nat.lt_succ_self _)

variable {α : Type*} {sep : α}

theorem prefix_first_iff {key before rest : List α} (plain : sep ∉ key)
    : key <+: before ++ sep :: rest ↔ key <+: before := by
  refine ⟨fun begins => ?_, fun begins => begins.trans (List.prefix_append _ _)⟩
  rcases Nat.lt_or_ge before.length key.length with longer | shorter
  · -- then the key goes over the separator
    have crosses : before ++ [sep] <+: key := by
      refine List.prefix_of_prefix_length_le ?_ begins ?_
      · exact ⟨rest, by simp⟩
      · rw [List.length_append]
        exact longer
    exact absurd (crosses.subset (by simp)) plain
  · exact List.prefix_of_prefix_length_le begins (List.prefix_append _ _) shorter

theorem exists_first_field [DecidableEq α] (sep : α) (text : List α)
    : ∃ first rest, text.splitOn sep = first :: rest
      ∧ ∀ key, sep ∉ key → (key <+: text ↔ key <+: first) := by
  by_cases single : sep ∈ text
  · obtain ⟨before, after, whole, absent⟩ := List.eq_append_cons_of_mem single
    subst whole
    exact ⟨before, _, List.splitOn_append_cons_self_of_not_mem absent after,
      fun key plain => prefix_first_iff plain⟩
  · exact ⟨text, [], List.splitOn_eq_singleton single, fun key _ => Iff.rfl⟩

theorem takeWhile_first [DecidableEq α] {before : List α} (first : sep ∉ before) (rest : List α)
    : (before ++ sep :: rest).takeWhile (· ≠ sep) = before := by
  rw [List.takeWhile_append_of_pos, List.takeWhile_cons_of_neg (by simp), List.append_nil]
  intro item member
  simp only [decide_eq_true_eq]
  rintro rfl
  exact first member

theorem takeWhile_single [DecidableEq α] {text : List α} (single : sep ∉ text)
    : text.takeWhile (· ≠ sep) = text := by
  refine List.takeWhile_eq_self_iff.mpr fun item member => ?_
  simp only [decide_eq_true_eq]
  rintro rfl
  exact single member

end Modvm.Lib
