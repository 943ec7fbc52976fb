import Modvm.Lib.ByteMemory
import Mathlib.Data.List.Nodup
import Mathlib.Logic.Function.Basic

/-! Byte streams scattered over a list of addresses. -/

namespace Modvm.Lib

open Function

variable {memory : Nat → BitVec 8} {addresses more : List Nat} {bytes rest : List (BitVec 8)}

/-- The bytes at the given addresses, in order. -/
def readEach (memory : Nat → BitVec 8) (addresses : List Nat) : List (BitVec 8) :=
  addresses.map memory

def storeEach (memory : Nat → BitVec 8) (addresses : List Nat) (bytes : List (BitVec 8))
    : Nat → BitVec 8 :=
  (addresses.zip bytes).foldl (fun memory entry => update memory entry.1 entry.2) memory

@[simp]
theorem readEach_length
    : (readEach memory addresses).length = addresses.length :=
  List.length_map ..

theorem readEach_append
    : readEach memory (addresses ++ more) = readEach memory addresses ++ readEach memory more :=
  List.map_append ..

theorem readBytes_eq_readEach (memory : Nat → BitVec 8) (base n : Nat)
    : readBytes memory base n = readEach memory (List.range' base n) := by
  rw [readEach, List.range'_eq_map_range, List.map_map]
  rfl

theorem readBytes_add (memory : Nat → BitVec 8) (base m n : Nat)
    : readBytes memory base (m + n)
      = readBytes memory base m ++ readBytes memory (base + m) n := by
  simp only [readBytes_eq_readEach, ← List.range'_append_1, readEach_append]

theorem readBytes_middle {base n : Nat} {before middle after : List (BitVec 8)}
    (stored : readBytes memory base n = before ++ (middle ++ after))
    : readBytes memory (base + before.length) middle.length = middle := by
  have total := congrArg List.length stored
  simp only [readBytes_length, List.length_append] at total
  subst total
  rw [readBytes_add, readBytes_add] at stored
  obtain ⟨-, rest⟩ := List.append_inj stored (readBytes_length ..)
  exact (List.append_inj rest (readBytes_length ..)).1

@[simp]
theorem storeEach_nil
    : storeEach memory addresses [] = memory := by
  simp [storeEach]

theorem storeEach_cons (address : Nat) (byte : BitVec 8)
    : storeEach memory (address :: addresses) (byte :: bytes)
      = storeEach (update memory address byte) addresses bytes := rfl

theorem storeEach_append (same : addresses.length = bytes.length)
    : storeEach memory (addresses ++ more) (bytes ++ rest)
      = storeEach (storeEach memory addresses bytes) more rest := by
  rw [storeEach, List.zip_append same, List.foldl_append]
  rfl

theorem storeEach_of_notMem {address : Nat} (outside : address ∉ addresses)
    : storeEach memory addresses bytes address = memory address := by
  induction addresses generalizing memory bytes with
  | nil => rfl
  | cons first addresses ih =>
    rw [List.mem_cons, not_or] at outside
    cases bytes with
    | nil => rfl
    | cons =>
      rw [storeEach_cons, ih outside.2, update_of_ne outside.1]

theorem readEach_storeEach_disjoint (disjoint : more.Disjoint addresses)
    : readEach (storeEach memory addresses bytes) more = readEach memory more :=
  List.map_congr_left fun _ member => storeEach_of_notMem (disjoint member)

theorem readEach_storeEach (distinct : addresses.Nodup) (same : addresses.length = bytes.length)
    : readEach (storeEach memory addresses bytes) addresses = bytes := by
  induction addresses generalizing memory bytes with
  | nil => exact (List.eq_nil_of_length_eq_zero same.symm).symm
  | cons address addresses ih =>
    obtain ⟨fresh, distinct⟩ := List.nodup_cons.mp distinct
    cases bytes with
    | nil => simp at same
    | cons byte =>
      rw [storeEach_cons, readEach, List.map_cons, storeEach_of_notMem fresh,
        update_self]
      exact congrArg (byte :: ·) (ih distinct (Nat.succ.inj same))

/-- A bulk write stores to the addresses of its span, by induction on the bytes. -/
theorem writeBytes_eq_storeEach (memory : Nat → BitVec 8) (base : Nat)
    (bytes : List (BitVec 8))
    : writeBytes memory base bytes
      = storeEach memory (List.range' base bytes.length) bytes := by
  induction bytes generalizing memory base with
  | nil =>
    funext address
    simp [writeBytes]
  | cons byte bytes ih =>
    have first : writeBytes memory base [byte] = update memory base byte := by
      funext address
      by_cases here : address = base
      · simp [writeBytes, here]
      · rw [update_of_ne here]
        refine writeBytes_outside memory base [byte] ?_
        simp only [Span.Has, List.length_singleton]
        omega
    rw [← List.singleton_append, writeBytes_append, first, ih]
    rfl

theorem readEach_storeEach_middle {before after : List Nat}
    (distinct : (before ++ addresses ++ after).Nodup)
    (same : addresses.length = bytes.length)
    : readEach (storeEach memory addresses bytes) (before ++ addresses ++ after)
      = readEach memory before ++ bytes ++ readEach memory after := by
  obtain ⟨front, -, apart⟩ := List.nodup_append'.mp distinct
  obtain ⟨-, middle, left⟩ := List.nodup_append'.mp front
  have right : after.Disjoint addresses :=
    fun _ member inside => apart (List.mem_append_right before inside) member
  rw [readEach_append, readEach_append, readEach_storeEach_disjoint left,
    readEach_storeEach middle same, readEach_storeEach_disjoint right]

theorem readEach_storeEach_slice {stream : List Nat} (distinct : stream.Nodup) {offset : Nat}
    (inside : offset + bytes.length ≤ stream.length)
    : readEach (storeEach memory ((stream.drop offset).take bytes.length) bytes) stream
      = (readEach memory stream).take offset ++ bytes
        ++ (readEach memory stream).drop (offset + bytes.length) := by
  have parts : stream = stream.take offset ++ (stream.drop offset).take bytes.length
      ++ stream.drop (offset + bytes.length) := by
    rw [← List.take_add, List.take_append_drop]
  have same : ((stream.drop offset).take bytes.length).length = bytes.length := by
    rw [List.length_take, List.length_drop]
    omega
  have replaced := @readEach_storeEach_middle memory _ _ _ _ (parts ▸ distinct) same
  rw [← parts] at replaced
  simpa only [readEach, List.map_take, List.map_drop] using replaced

end Modvm.Lib
