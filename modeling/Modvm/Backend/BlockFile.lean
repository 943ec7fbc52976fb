import Mathlib.Algebra.Ring.Int.Defs
import Mathlib.Algebra.Ring.Nat
import Mathlib.Data.List.Basic
import Mathlib.Tactic.Common

/-! The block backend on a file of the host: a loop of `pread` or `pwrite` calls, which are
recorded.
-/

namespace Modvm.Backend.BlockFile

/-! ### The host -/

/-- A call of `pwrite` or `pread`: place in the buffer, length, and file offset as an `off_t`. -/
structure HostRequest where
  write : Bool
  place : Nat
  count : Nat
  offset : Int
deriving DecidableEq, Repr

/-- What a call returns: a count (zero at the end of the file), `EINTR`, or a host error. -/
inductive HostAnswer where
  | moved (bytes : Nat)
  | interrupted
  | failed (error : Nat)
deriving DecidableEq, Repr

structure HostCall where
  request : HostRequest
  answer : HostAnswer
deriving DecidableEq, Repr

/-- The host answers as it likes, in view of the calls before; it moves at most what was asked. -/
structure Host where
  answer : List HostCall → HostRequest → HostAnswer
  within : ∀ calls request bytes, answer calls request = .moved bytes → bytes ≤ request.count
  positive : ∀ calls request error, answer calls request = .failed error → 0 < error

def Host.call (host : Host) (calls : List HostCall) (request : HostRequest) : HostCall :=
  ⟨request, host.answer calls request⟩

/-! ### Transfers -/

def eioResult : Int := -5

def einvalResult : Int := -22

def erofsResult : Int := -30

/-- `INT64_MAX`, which is also `SSIZE_MAX` and `PTRDIFF_MAX` of a 64-bit host. -/
def int64Max : BitVec 64 := 0x7fffffffffffffff

structure BlockLinuxCtx where
  capacity : BitVec 64
  readonly : Bool
deriving DecidableEq, Repr

/-- The request of one round of the loop. -/
def transferRequest (write : Bool) (count offset done : BitVec 64) : HostRequest where
  write := write
  place := done.toNat
  count := (if count - done > int64Max then int64Max else count - done).toNat
  offset := (offset + done).toInt

/-- The loop of `linux_transfer`, with a bound on its calls: the result if the bound suffices, and
the calls so far.
-/
def transferLoop (host : Host) (write : Bool) (count offset : BitVec 64) (fuel : Nat)
    (done : BitVec 64) (calls : List HostCall)
    : Option Int × List HostCall :=
  if done < count then
    match fuel with
    | 0 => (none, calls)
    | fuel + 1 =>
        let call := host.call calls (transferRequest write count offset done)
        let calls := calls ++ [call]
        match call.answer with
        | .interrupted => transferLoop host write count offset fuel done calls
        | .failed error => (some (-error), calls)
        | .moved bytes =>
            if bytes = 0 then (some eioResult, calls)
            else transferLoop host write count offset fuel (done + .ofNat 64 bytes) calls
  else (some done.toInt, calls)

def linuxTransfer (ctx : BlockLinuxCtx) (host : Host) (fuel : Nat) (count offset : BitVec 64)
    (write : Bool)
    : Option Int × List HostCall :=
  if write = true ∧ ctx.readonly = true then (some erofsResult, [])
  else if offset > ctx.capacity ∨ count > ctx.capacity - offset ∨ offset > int64Max
      ∨ count > int64Max - offset ∨ count > int64Max then
    (some einvalResult, [])
  else transferLoop host write count offset fuel 0 []

def blockLinuxRead (ctx : BlockLinuxCtx) (host : Host) (fuel : Nat) (count offset : BitVec 64)
    : Option Int × List HostCall :=
  linuxTransfer ctx host fuel count offset false

def blockLinuxWrite (ctx : BlockLinuxCtx) (host : Host) (fuel : Nat) (count offset : BitVec 64)
    : Option Int × List HostCall :=
  linuxTransfer ctx host fuel count offset true

/-! ### What calls move -/

def HostAnswer.bytes : HostAnswer → Nat
  | .moved bytes => bytes
  | _ => 0

/-- The bytes that a call moved: their places in the buffer and in the file. -/
def HostCall.bytes (call : HostCall) : List (Nat × Int) :=
  (List.range call.answer.bytes).map fun i => (call.request.place + i, call.request.offset + i)

def movedBytes (calls : List HostCall) : List (Nat × Int) := calls.flatMap HostCall.bytes

def firstBytes (offset total : Nat) : List (Nat × Int) :=
  (List.range total).map fun i => (i, (offset + i : Int))

def HostCall.interrupted (call : HostCall) : Bool := call.answer = .interrupted

def HostCall.ends (call : HostCall) : Bool :=
  match call.answer with
  | .moved bytes => bytes = 0
  | .interrupted => false
  | .failed _ => true

theorem Host.call_bytes_le (host : Host) (calls : List HostCall) (request : HostRequest)
    : (host.call calls request).answer.bytes ≤ request.count := by
  unfold Host.call
  cases answer : host.answer calls request with
  | moved bytes => exact host.within calls request bytes answer
  | interrupted => exact Nat.zero_le _
  | failed => exact Nat.zero_le _

def Host.next (host : Host) (write : Bool) (count offset : Nat) (calls : List HostCall)
    (done : Nat) : HostCall :=
  host.call calls ⟨write, done, count - done, (offset + done : Nat)⟩

inductive Issued (host : Host) (write : Bool) (count offset : Nat) : List HostCall → Nat → Prop
  | start : Issued host write count offset [] 0
  | call {calls : List HostCall} {done : Nat} (before : Issued host write count offset calls done)
      (left : done < count)
      : Issued host write count offset (calls ++ [host.next write count offset calls done])
        (done + (host.next write count offset calls done).answer.bytes)

namespace Issued

variable {host : Host} {write : Bool} {count offset total : Nat} {calls : List HostCall}

section

variable (issued : Issued host write count offset calls total)
include issued

theorem le
    : total ≤ count := by
  induction issued with
  | start => exact Nat.zero_le _
  | @call calls done =>
    have short : (host.next write count offset calls done).answer.bytes ≤ count - done :=
      host.call_bytes_le ..
    omega

theorem moved
    : movedBytes calls = firstBytes offset total := by
  induction issued with
  | start => rfl
  | call =>
    unfold movedBytes firstBytes at *
    rw [List.flatMap_append, List.range_add, List.map_append, List.map_map,
      List.flatMap_singleton]
    congr 1
    refine List.map_congr_left fun i _ => Prod.ext rfl ?_
    simp only [Host.next, Host.call, Function.comp_apply]
    omega

theorem inside
    : ∀ call ∈ calls, call.request.write = write
      ∧ call.request.offset = offset + call.request.place
      ∧ call.request.place + call.request.count ≤ count := by
  induction issued with
  | start => exact fun _ member => absurd member List.not_mem_nil
  | call before left ih =>
    intro call member
    rcases List.mem_append.mp member with earlier | last
    · exact ih call earlier
    · obtain rfl := List.mem_singleton.mp last
      refine ⟨rfl, rfl, ?_⟩
      simp only [Host.next, Host.call]
      omega

theorem contiguous
    : ∀ before call after, calls = before ++ call :: after
      → call.request.place = (movedBytes before).length := by
  induction issued with
  | start =>
    intro before call after split
    exact absurd split.symm (by simp)
  | @call calls done earlier left ih =>
    intro before call after split
    rcases List.eq_nil_or_concat after with rfl | ⟨initial, last, rfl⟩
    · obtain ⟨rfl, same⟩ := List.append_inj' split rfl
      obtain rfl := List.singleton_inj.mp same
      simp [earlier.moved, firstBytes, Host.next, Host.call]
    · refine ih before call initial ?_
      rw [List.concat_eq_append, ← List.cons_append, ← List.append_assoc] at split
      exact (List.append_inj' split rfl).1

theorem length_le (going : ∀ call ∈ calls, call.ends = false)
    : calls.length ≤ total + calls.countP HostCall.interrupted := by
  induction issued with
  | start => exact Nat.le_refl _
  | call before left ih =>
    obtain ⟨earlier, last⟩ := List.forall_mem_append.mp going
    have bound := ih earlier
    have ends := last _ (List.mem_singleton_self _)
    rw [List.length_append, List.countP_append, List.length_singleton, List.countP_singleton]
    generalize host.next _ _ _ _ _ = call at ends ⊢
    cases answer : call.answer with
    | moved bytes =>
      have positive : bytes ≠ 0 := by simpa [HostCall.ends, answer] using ends
      simp only [HostAnswer.bytes]
      omega
    | interrupted =>
      have flag : call.interrupted = true := by simp [HostCall.interrupted, answer]
      rw [if_pos flag]
      omega
    | failed => simp [HostCall.ends, answer] at ends

end

end Issued

/-! ### The loop -/

section
variable {host : Host} {write : Bool} {count offset done : BitVec 64} {calls : List HostCall}

theorem transferRequest_eq (bounded : offset.toNat + count.toNat < 2 ^ 63)
    (left : done.toNat < count.toNat)
    : transferRequest write count offset done
      = ⟨write, done.toNat, count.toNat - done.toNat, (offset.toNat + done.toNat : Nat)⟩ := by
  have remaining : (count - done).toNat = count.toNat - done.toNat :=
    BitVec.toNat_sub_of_le (Nat.le_of_lt left)
  have sum : (offset + done).toNat = offset.toNat + done.toNat :=
    BitVec.toNat_add_of_lt (by omega)
  unfold transferRequest
  congr 1
  · rw [if_neg, remaining]
    rw [gt_iff_lt, BitVec.lt_def]
    have limit : int64Max.toNat = 2 ^ 63 - 1 := rfl
    omega
  · rw [BitVec.toInt_eq_toNat_of_lt (by omega), sum]

/-- How the loop stops: all is moved, or something is missing and there is an error, or the calls
have run out.
-/
structure Settled (count fuel : Nat) (calls : List HostCall) (total : Nat)
    (outcome : Option Int × List HostCall)
    : Prop where
  returned : ∀ result, outcome.1 = some result
    → (result = count ∧ total = count) ∨ (result < 0 ∧ total < count)
  stopped : outcome.1 = none → total < count ∧ outcome.2.length = calls.length + fuel
    ∧ ∀ call ∈ outcome.2, call.ends = false

theorem Settled.failed {count fuel total : Nat} {calls issued : List HostCall} {result : Int}
    (negative : result < 0) (missing : total < count)
    : Settled count fuel calls total (some result, issued) where
  returned _ same := .inr ⟨Option.some.inj same ▸ negative, missing⟩
  stopped none := by cases none

theorem Settled.later {count fuel total : Nat} {calls : List HostCall} {call : HostCall}
    {outcome : Option Int × List HostCall}
    (settled : Settled count fuel (calls ++ [call]) total outcome)
    : Settled count (fuel + 1) calls total outcome where
  returned := settled.returned
  stopped none := by
    obtain ⟨missing, length, going⟩ := settled.stopped none
    refine ⟨missing, ?_, going⟩
    rw [length, List.length_append, List.length_singleton, Nat.add_assoc, Nat.add_comm 1]

theorem settled_all {fuel : Nat} (bounded : offset.toNat + count.toNat < 2 ^ 63)
    (issued : Issued host write count.toNat offset.toNat calls done.toNat)
    (all : ¬ done < count)
    : ∃ total, Issued host write count.toNat offset.toNat calls total
      ∧ Settled count.toNat fuel calls total (some done.toInt, calls) := by
  have short := issued.le
  have same : done.toNat = count.toNat := by
    rw [BitVec.lt_def] at all
    omega
  refine ⟨done.toNat, issued, fun result returned => .inl ⟨?_, same⟩, fun stopped => ?_⟩
  · rw [← Option.some.inj returned, BitVec.toInt_eq_toNat_of_lt (by omega), same]
  · cases stopped

theorem transferLoop_done (fuel : Nat) (all : ¬ done < count)
    : transferLoop host write count offset fuel done calls = (some done.toInt, calls) := by
  unfold transferLoop
  rw [if_neg all]

theorem transferLoop_round (bounded : offset.toNat + count.toNat < 2 ^ 63) (fuel : Nat)
    (left : done < count)
    : let call := host.next write count.toNat offset.toNat calls done.toNat
      transferLoop host write count offset (fuel + 1) done calls
      = match call.answer with
        | .interrupted => transferLoop host write count offset fuel done (calls ++ [call])
        | .failed error => (some (-error), calls ++ [call])
        | .moved bytes =>
          if bytes = 0 then (some eioResult, calls ++ [call])
          else
            transferLoop host write count offset fuel (done + .ofNat 64 bytes)
              (calls ++ [call]) := by
  rw [transferLoop, if_pos left, transferRequest_eq bounded left]
  rfl

/-- The loop goes on from the calls that it has made, by induction on their bound. -/
theorem transferLoop_settled (bounded : offset.toNat + count.toNat < 2 ^ 63) (fuel : Nat)
    (issued : Issued host write count.toNat offset.toNat calls done.toNat)
    (going : ∀ call ∈ calls, call.ends = false)
    : ∃ total, Issued host write count.toNat offset.toNat
        (transferLoop host write count offset fuel done calls).2 total
      ∧ Settled count.toNat fuel calls total
        (transferLoop host write count offset fuel done calls) := by
  induction fuel generalizing done calls with
  | zero =>
    by_cases left : done < count
    · have out : transferLoop host write count offset 0 done calls = (none, calls) := by
        rw [transferLoop, if_pos left]
      rw [out]
      refine ⟨done.toNat, issued, fun result returned => ?_, fun _ => ⟨left, rfl, going⟩⟩
      cases returned
    · rw [transferLoop_done 0 left]
      exact settled_all bounded issued left
  | succ fuel ih =>
    by_cases left : done < count
    · rw [transferLoop_round bounded fuel left]
      have issued := issued.call left
      have short : (host.next write count.toNat offset.toNat calls done.toNat).answer.bytes
          ≤ count.toNat - done.toNat := host.call_bytes_le ..
      have positive : ∀ error, (host.next write count.toNat offset.toNat calls done.toNat).answer
          = .failed error → 0 < error := host.positive _ _
      generalize host.next write count.toNat offset.toNat calls done.toNat = call
        at issued short positive ⊢
      have still : call.ends = false → ∀ earlier ∈ calls ++ [call], earlier.ends = false := by
        intro goes
        refine List.forall_mem_append.mpr ⟨going, ?_⟩
        rintro _ (_ | ⟨_, ⟨⟩⟩)
        exact goes
      cases answer : call.answer with
      | interrupted =>
        rw [answer] at issued
        obtain ⟨total, more, settled⟩ := ih issued (still (by simp [HostCall.ends, answer]))
        exact ⟨total, more, settled.later⟩
      | failed error =>
        rw [answer] at issued
        have negative : -(error : Int) < 0 :=
          Int.neg_neg_of_pos (mod_cast positive error answer)
        exact ⟨_, issued, .failed negative left⟩
      | moved bytes =>
        rw [answer] at issued short
        dsimp only [HostAnswer.bytes] at issued short ⊢
        by_cases zero : bytes = 0
        · rw [if_pos zero]
          rw [zero] at issued
          exact ⟨_, issued, .failed (by decide) left⟩
        · have moved : (done + BitVec.ofNat 64 bytes).toNat = done.toNat + bytes := by
            rw [BitVec.toNat_add, BitVec.toNat_ofNat]
            omega
          rw [if_neg zero]
          rw [← moved] at issued
          obtain ⟨total, more, settled⟩ :=
            ih issued (still (by simp [HostCall.ends, answer, zero]))
          exact ⟨total, more, settled.later⟩
    · rw [transferLoop_done (fuel + 1) left]
      exact settled_all bounded issued left

end

/-- The checks: no write to a read-only backend, and a range in the file and below the limit of
offsets.
-/
structure Admitted (ctx : BlockLinuxCtx) (count offset : BitVec 64) (write : Bool) : Prop where
  permitted : ¬ (write = true ∧ ctx.readonly = true)
  inside : offset.toNat + count.toNat ≤ ctx.capacity.toNat
  bounded : offset.toNat + count.toNat < 2 ^ 63

theorem linuxTransfer_eq (ctx : BlockLinuxCtx) (host : Host) (fuel : Nat)
    (count offset : BitVec 64) (write : Bool)
    : (Admitted ctx count offset write
        ∧ linuxTransfer ctx host fuel count offset write
          = transferLoop host write count offset fuel 0 [])
      ∨ (¬ Admitted ctx count offset write
        ∧ ∃ error < 0, linuxTransfer ctx host fuel count offset write = (some error, [])) := by
  have limit : int64Max.toNat = 2 ^ 63 - 1 := rfl
  unfold linuxTransfer
  split
  next refused => exact .inr ⟨fun admitted => admitted.permitted refused, _, by decide, rfl⟩
  next permitted =>
    split
    next outside =>
      refine .inr ⟨?_, _, by decide, rfl⟩
      rintro ⟨-, inside, bounded⟩
      have left : (ctx.capacity - offset).toNat = ctx.capacity.toNat - offset.toNat :=
        BitVec.toNat_sub_of_le (by rw [BitVec.le_def]; omega)
      have room : (int64Max - offset).toNat = int64Max.toNat - offset.toNat :=
        BitVec.toNat_sub_of_le (by rw [BitVec.le_def]; omega)
      simp only [BitVec.lt_def] at outside
      omega
    next inside =>
      simp only [not_or, BitVec.not_lt] at inside
      obtain ⟨first, second, third, fourth, -⟩ := inside
      have left : (ctx.capacity - offset).toNat = ctx.capacity.toNat - offset.toNat :=
        BitVec.toNat_sub_of_le first
      have room : (int64Max - offset).toNat = int64Max.toNat - offset.toNat :=
        BitVec.toNat_sub_of_le third
      rw [BitVec.le_def] at first second third fourth
      exact .inl ⟨⟨permitted, by omega, by omega⟩, rfl⟩

/-- The calls of a transfer that moved `total` bytes: in its direction and range, each where the one
before ended, moving the first bytes of the range once and in order.
-/
structure Exact (ctx : BlockLinuxCtx) (count offset : Nat) (write : Bool) (calls : List HostCall)
    (total : Nat)
    : Prop where
  direction : ∀ call ∈ calls, call.request.write = write
  range : ∀ call ∈ calls, (offset : Int) ≤ call.request.offset
    ∧ call.request.offset + call.request.count ≤ (offset + count : Nat)
  file : ∀ call ∈ calls, call.request.offset + call.request.count ≤ ctx.capacity.toNat
    ∧ call.request.offset + call.request.count < 2 ^ 63
  buffer : ∀ call ∈ calls, call.request.place + call.request.count ≤ count
  contiguous : ∀ (before : List HostCall) (call : HostCall) (after : List HostCall),
    calls = before ++ call :: after
    → call.request.place = (movedBytes before).length
      ∧ call.request.offset = (offset + (movedBytes before).length : Nat)
  moved : movedBytes calls = firstBytes offset total

theorem Exact.empty {ctx : BlockLinuxCtx} {count offset : Nat} {write : Bool}
    : Exact ctx count offset write [] 0 := by
  refine ⟨by simp, by simp, by simp, by simp, ?_, rfl⟩
  intro before call after split
  exact absurd split.symm (by simp)

theorem Issued.exact {ctx : BlockLinuxCtx} {host : Host} {count offset : BitVec 64} {write : Bool}
    {calls : List HostCall} {total : Nat} (admitted : Admitted ctx count offset write)
    (issued : Issued host write count.toNat offset.toNat calls total)
    : Exact ctx count.toNat offset.toNat write calls total := by
  have inside := issued.inside
  have file := admitted.inside
  have bounded := admitted.bounded
  refine ⟨fun call member => (inside call member).1, ?_, ?_, fun call member =>
    (inside call member).2.2, ?_, issued.moved⟩
  · intro call member
    obtain ⟨-, offset, short⟩ := inside call member
    omega
  · intro call member
    obtain ⟨-, offset, short⟩ := inside call member
    omega
  · intro before call after split
    have place := issued.contiguous before call after split
    obtain ⟨-, offset, -⟩ := inside call (by simp [split])
    exact ⟨place, by rw [offset, place]; push_cast; rfl⟩

theorem firstBytes_eq_iff {offset total count : Nat}
    : firstBytes offset total = firstBytes offset count ↔ total = count := by
  constructor
  · intro same
    simpa [firstBytes] using congrArg List.length same
  · rintro rfl
    rfl

/-- Transfers of a file backend are exact, for every host: the calls stay in the range and move its
first bytes, each once; the result is the count if the checks pass and every byte is moved, and a
negative error otherwise. A read-only backend is never written. A transfer that has not returned was
interrupted in all calls but fewer than the count.
-/
theorem file_transfer_exact (ctx : BlockLinuxCtx) (host : Host) (fuel : Nat)
    (count offset : BitVec 64) (write : Bool)
    : let outcome := linuxTransfer ctx host fuel count offset write
      (∃ total ≤ count.toNat, Exact ctx count.toNat offset.toNat write outcome.2 total)
      ∧ (∀ result, outcome.1 = some result
          → (result = count.toNat ↔ Admitted ctx count offset write
              ∧ movedBytes outcome.2 = firstBytes offset.toNat count.toNat)
            ∧ (result ≠ count.toNat → result < 0))
      ∧ (ctx.readonly = true → ∀ call ∈ outcome.2, call.request.write = false)
      ∧ (outcome.1 = none
          → fuel < count.toNat + outcome.2.countP HostCall.interrupted) := by
  rcases linuxTransfer_eq ctx host fuel count offset write with ⟨admitted, passed⟩ | refused
  · rw [passed]
    obtain ⟨total, issued, settled⟩ := @transferLoop_settled host write count offset 0 []
      admitted.bounded fuel .start (fun _ member => absurd member List.not_mem_nil)
    have exact := issued.exact admitted
    refine ⟨⟨total, issued.le, exact⟩, fun result returned => ?_, fun readonly call member => ?_,
      fun stopped => ?_⟩
    · rw [exact.moved, firstBytes_eq_iff]
      rcases settled.returned result returned with ⟨all, moved⟩ | ⟨negative, missing⟩
      · exact ⟨iff_of_true all ⟨admitted, moved⟩, fun other => absurd all other⟩
      · refine ⟨iff_of_false (by omega) fun both => by omega, fun _ => negative⟩
    · rw [exact.direction call member, ← Bool.not_eq_true]
      exact fun writes => admitted.permitted ⟨writes, readonly⟩
    · obtain ⟨missing, length, going⟩ := settled.stopped stopped
      have bound := issued.length_le going
      omega
  · obtain ⟨rejected, error, negative, failed⟩ := refused
    rw [failed]
    refine ⟨⟨0, Nat.zero_le _, .empty⟩, fun result returned => ?_, fun _ => by simp,
      fun stopped => by cases stopped⟩
    obtain rfl : error = result := Option.some.inj returned
    exact ⟨iff_of_false (by omega) fun both => rejected both.1, fun _ => negative⟩

def haltingHost : Host where
  answer calls request :=
    if calls.length = 1 then .interrupted else .moved (min 3 request.count)
  within calls request bytes answer := by
    split at answer
    · cases answer
    · cases answer
      exact Nat.min_le_right ..
  positive calls request error answer := by
    split at answer
    · cases answer
    · cases answer

def smallFile : BlockLinuxCtx := ⟨8, false⟩

/-- A transfer of five bytes in three calls. -/
theorem file_transfer_exact_small
    : movedBytes (linuxTransfer smallFile haltingHost 3 5 2 false).2
      = [(0, 2), (1, 3), (2, 4), (3, 5), (4, 6)] := by
  have returned : (linuxTransfer smallFile haltingHost 3 5 2 false).1 = some 5 := by decide
  have exact := (file_transfer_exact smallFile haltingHost 3 5 2 false).2.1 5 returned
  exact (exact.1.mp rfl).2

/-- A write of no bytes to a read-only backend is refused, though no byte is missing. -/
theorem file_transfer_refuses_empty
    : ¬ ∀ (ctx : BlockLinuxCtx) (host : Host) (fuel : Nat) (count offset : BitVec 64)
        (write : Bool) (result : Int),
        (linuxTransfer ctx host fuel count offset write).1 = some result
        → (result = count.toNat
          ↔ movedBytes (linuxTransfer ctx host fuel count offset write).2
            = firstBytes offset.toNat count.toNat) := by
  intro exact
  have returned := (exact ⟨8, true⟩ haltingHost 0 0 0 true erofsResult rfl).mpr rfl
  exact absurd returned (by decide)

end Modvm.Backend.BlockFile
