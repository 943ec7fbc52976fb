import Modvm.Backend.Receive

/-! Console input over successive reads: the escape filter acts on the whole stream, but for the
bytes that it collected in the read in which it asks to exit.
-/

namespace Modvm.Backend

open Modvm.Host Modvm.Io

/-! ### What the filter is for -/

/-- The byte after `ESCAPE_CHAR` that asks to exit: `x` or `X`. -/
def asksExit (byte : Byte) : Bool := decide (byte = 0x78) || decide (byte = 0x58)

/-- The bytes of a stream for the guest: those before the exit sequence, with escapes resolved. -/
def forwarded : List Byte → List Byte
  | [] => []
  | [byte] => if byte = escapeChar then [] else [byte]
  | byte :: next :: rest =>
      if byte = escapeChar then
        if asksExit next then []
        else if next = escapeChar then escapeChar :: forwarded rest
        else forwarded rest
      else byte :: forwarded (next :: rest)

/-- The place of the byte that ends the exit sequence of a stream. -/
def exitPosition : List Byte → Option Nat
  | [] => none
  | [_] => none
  | byte :: next :: rest =>
      if byte = escapeChar then
        if asksExit next then some 1 else (exitPosition rest).map (· + 2)
      else (exitPosition (next :: rest)).map (· + 1)

/-! ### Successive reads -/

/-- The index at which the loop of `char_posix_rx_cb` over the bytes of a read asks to exit. -/
def exitIndex (pending : Bool) : List Byte → Option Nat
  | [] => none
  | byte :: rest =>
      if pending then
        if asksExit byte then some 0 else (exitIndex false rest).map (· + 1)
      else (exitIndex (decide (byte = escapeChar)) rest).map (· + 1)

/-- The callback for a source that is ready to be read. -/
def consoleRead (ctx : CharPosixCtx) (bytes : List Byte) : Reaction CharPosixCtx :=
  charPosixRxCb ctx ⟨true, false, false⟩ ⟨.bytes bytes, []⟩

/-- What the callbacks for successive reads submit until one asks to exit, and where in the stream
it did.
-/
def consoleReads (ctx : CharPosixCtx) : List (List Byte) → List (List Byte) × Option Nat
  | [] => ([], none)
  | read :: rest =>
      let reaction := consoleRead ctx read
      let later := consoleReads reaction.ctx rest
      match reaction.post with
      | some (.notify _) => ([], exitIndex ctx.escapePending read)
      | some (.submit bytes) => (bytes :: later.1, later.2.map (· + read.length))
      | none => (later.1, later.2.map (· + read.length))

/-- A read returns bytes, no more than were asked for. -/
def ReadOk (ctx : CharPosixCtx) (read : List Byte) : Prop :=
  read ≠ [] ∧ read.length ≤ min ctx.rxLimit 64

/-! ### The filter, byte by byte -/

def kept (pending : Bool) : List Byte → List Byte
  | [] => []
  | byte :: rest =>
      if pending then
        if asksExit byte then []
        else if byte = escapeChar then escapeChar :: kept false rest
        else kept false rest
      else if byte = escapeChar then kept true rest
      else byte :: kept false rest

def pendingAfter (pending : Bool) : List Byte → Bool
  | [] => pending
  | byte :: rest => pendingAfter (!pending && decide (byte = escapeChar)) rest

theorem asksExit_iff {byte : Byte} : asksExit byte = true ↔ byte = 0x78 ∨ byte = 0x58 := by
  unfold asksExit
  rw [Bool.or_eq_true, decide_eq_true_iff, decide_eq_true_iff]

@[simp]
theorem asksExit_escapeChar : asksExit escapeChar = false := by decide

theorem filterInput_eq (pending : Bool) (filtered bytes : List Byte)
    : filterInput pending filtered bytes
      = if (exitIndex pending bytes).isSome then none
        else some (pendingAfter pending bytes, filtered ++ kept pending bytes) := by
  induction bytes generalizing pending filtered with
  | nil => simp [filterInput, exitIndex, pendingAfter, kept]
  | cons byte rest ih =>
    cases pending with
    | true =>
      by_cases asks : asksExit byte
      · rw [filterInput, if_pos (asksExit_iff.mp asks), exitIndex, if_pos asks]
        rfl
      · rw [filterInput, if_neg (mt asksExit_iff.mpr asks), ih, ih]
        by_cases escape : byte = escapeChar
        · simp [exitIndex, pendingAfter, kept, escape]
        · simp [exitIndex, pendingAfter, kept, asks, escape]
    | false =>
      by_cases escape : byte = escapeChar
      · simp [filterInput, exitIndex, pendingAfter, kept, escape, ih]
      · simp [filterInput, exitIndex, pendingAfter, kept, escape, ih]

theorem exitIndex_append (pending : Bool) (first second : List Byte)
    : exitIndex pending (first ++ second)
      = (exitIndex pending first).or
          ((exitIndex (pendingAfter pending first) second).map (· + first.length)) := by
  induction first generalizing pending with
  | nil => simp [exitIndex, pendingAfter]
  | cons byte rest ih =>
    rw [List.cons_append, exitIndex, exitIndex, pendingAfter]
    cases pending with
    | true =>
      by_cases asks : asksExit byte
      · simp [asks]
      · simp [asks, ih, Option.map_or]
    | false => simp [ih, Option.map_or]

theorem kept_append {pending : Bool} {first : List Byte} (none : exitIndex pending first = none)
    (second : List Byte)
    : kept pending (first ++ second)
      = kept pending first ++ kept (pendingAfter pending first) second := by
  induction first generalizing pending with
  | nil => rfl
  | cons byte rest ih =>
    rw [exitIndex] at none
    rw [List.cons_append, kept, kept, pendingAfter]
    cases pending with
    | true =>
      by_cases asks : asksExit byte
      · simp [asks] at none
      · simp only [asks, if_true, Bool.false_eq_true, if_false, Option.map_eq_none_iff] at none
        by_cases escape : byte = escapeChar
        · simp [escape, ih none]
        · simp [asks, escape, ih none]
    | false =>
      simp only [Bool.false_eq_true, if_false, Option.map_eq_none_iff] at none
      by_cases escape : byte = escapeChar
      · rw [decide_eq_true escape] at none
        simp [escape, ih none]
      · rw [decide_eq_false escape] at none
        simp [escape, ih none]

theorem kept_exit {pending : Bool} {first : List Byte}
    (exits : (exitIndex pending first).isSome = true) (second : List Byte)
    : kept pending (first ++ second) = kept pending first := by
  induction first generalizing pending with
  | nil => cases exits
  | cons byte rest ih =>
    rw [exitIndex] at exits
    rw [List.cons_append, kept, kept]
    cases pending with
    | true =>
      by_cases asks : asksExit byte
      · simp [asks]
      · simp only [asks, if_true, Bool.false_eq_true, if_false, Option.isSome_map] at exits
        simp [ih exits]
    | false =>
      simp only [Bool.false_eq_true, if_false, Option.isSome_map] at exits
      by_cases escape : byte = escapeChar
      · rw [decide_eq_true escape] at exits
        simp [escape, ih exits]
      · rw [decide_eq_false escape] at exits
        simp [escape, ih exits]

theorem kept_length_le (pending : Bool) (bytes : List Byte)
    : (kept pending bytes).length ≤ bytes.length := by
  induction bytes generalizing pending with
  | nil => exact Nat.le_refl _
  | cons byte rest ih =>
    have later := ih false
    have escaped := ih true
    rw [kept]
    split_ifs <;> simp only [List.length_cons, List.length_nil] <;> omega

theorem kept_eq_forwarded (stream : List Byte)
    : kept false stream = forwarded stream ∧ exitIndex false stream = exitPosition stream := by
  induction stream using forwarded.induct with
  | case1 => exact ⟨rfl, rfl⟩
  | case2 => simp [kept, forwarded, exitIndex, exitPosition]
  | case3 => simp [kept, forwarded, exitIndex, exitPosition]
  | case4 next rest asks => simp [kept, forwarded, exitIndex, exitPosition, asks]
  | case5 rest _ ih => simp [kept, forwarded, exitIndex, exitPosition, ih]
  | case6 next rest stays other ih =>
    simp [kept, forwarded, exitIndex, exitPosition, stays, ih]
  | case7 byte next rest other ih =>
    obtain ⟨bytes, place⟩ := ih
    rw [kept, if_neg Bool.false_ne_true, if_neg other, forwarded, if_neg other, exitIndex,
      decide_eq_false other, exitPosition, if_neg other, bytes, place]
    exact ⟨rfl, rfl⟩

/-! ### Any split of a stream into reads -/

variable {ctx : CharPosixCtx} {reads : List (List Byte)}

theorem consoleRead_exit {read : List Byte} (valid : ReadOk ctx read)
    (exits : (exitIndex ctx.escapePending read).isSome = true)
    : (consoleRead ctx read).post = some (.notify 0) := by
  have whole : read.take (min ctx.rxLimit 64) = read := List.take_of_length_le valid.2
  have filter := filterInput_eq ctx.escapePending [] read
  rw [if_pos exits] at filter
  obtain ⟨byte, rest, rfl⟩ := List.exists_cons_of_ne_nil valid.1
  simp [consoleRead, charPosixRxCb, whole, filter]

theorem consoleRead_stays {read : List Byte} (valid : ReadOk ctx read)
    (stays : exitIndex ctx.escapePending read = none)
    : (consoleRead ctx read).ctx
        = { ctx with escapePending := pendingAfter ctx.escapePending read }
      ∧ (consoleRead ctx read).post
        = if kept ctx.escapePending read = [] then none
          else some (.submit (kept ctx.escapePending read)) := by
  have whole : read.take (min ctx.rxLimit 64) = read := List.take_of_length_le valid.2
  have filter := filterInput_eq ctx.escapePending [] read
  rw [stays] at filter
  obtain ⟨byte, rest, rfl⟩ := List.exists_cons_of_ne_nil valid.1
  cases collected : kept ctx.escapePending (byte :: rest) with
  | nil => simp [consoleRead, charPosixRxCb, whole, filter, collected]
  | cons => simp [consoleRead, charPosixRxCb, whole, filter, collected]

/-- No byte for the guest stands before the end of the exit sequence in the read that holds it. -/
def Lossless (pending : Bool) : List (List Byte) → Prop
  | [] => True
  | read :: rest =>
      if (exitIndex pending read).isSome then kept pending read = []
      else Lossless (pendingAfter pending read) rest

/-- The read that ends the exit sequence of a stream brings nothing for the guest. -/
def NothingLost (reads : List (List Byte)) : Prop :=
  ∀ before read after, reads = before ++ read :: after →
    exitPosition before.flatten = none →
    (exitPosition (before.flatten ++ read)).isSome →
    forwarded (before.flatten ++ read) = forwarded before.flatten

theorem lossless_iff {pending : Bool}
    : Lossless pending reads
      ↔ ∀ before read after, reads = before ++ read :: after →
        exitIndex pending before.flatten = none →
        (exitIndex pending (before.flatten ++ read)).isSome →
        kept pending (before.flatten ++ read) = kept pending before.flatten := by
  induction reads generalizing pending with
  | nil => simp [Lossless]
  | cons first rest ih =>
    rw [Lossless]
    by_cases exits : (exitIndex pending first).isSome
    · rw [if_pos exits]
      constructor
      · rintro nothing (_ | ⟨_, before⟩) read after split none some
        · obtain ⟨rfl, rfl⟩ := List.cons.inj split
          exact nothing
        · -- the exit sequence is in an earlier read
          obtain ⟨rfl, -⟩ := List.cons.inj split
          rw [List.flatten_cons, exitIndex_append, Option.or_eq_none_iff] at none
          rw [none.1] at exits
          cases exits
      · intro all
        exact all [] first rest rfl rfl exits
    · have stays := Option.not_isSome_iff_eq_none.mp exits
      rw [if_neg exits, ih]
      constructor
      · rintro all (_ | ⟨_, before⟩) read after split none some
        · obtain ⟨rfl, rfl⟩ := List.cons.inj split
          exact absurd some exits
        · obtain ⟨rfl, tail⟩ := List.cons.inj split
          rw [List.flatten_cons, exitIndex_append, stays, Option.none_or,
            Option.map_eq_none_iff] at none
          rw [List.flatten_cons, List.append_assoc, exitIndex_append, stays, Option.none_or,
            Option.isSome_map] at some
          rw [List.flatten_cons, List.append_assoc, kept_append stays, kept_append stays,
            all before read after tail none some]
      · intro all before read after split none some
        have here := all (first :: before) read after (by rw [split, List.cons_append])
        rw [List.flatten_cons, List.append_assoc, exitIndex_append, exitIndex_append, stays,
          Option.none_or, Option.none_or, none, Option.isSome_map, kept_append stays,
          kept_append stays] at here
        exact List.append_cancel_left (here rfl some)

theorem lossless_iff_nothingLost
    : Lossless false reads ↔ NothingLost reads := by
  rw [lossless_iff, NothingLost]
  simp only [kept_eq_forwarded]

theorem nothingLost_of_stays (stays : exitPosition reads.flatten = none)
    : NothingLost reads := by
  rintro before read after rfl - some
  rw [List.flatten_append, List.flatten_cons, ← List.append_assoc, ← (kept_eq_forwarded _).2,
    exitIndex_append, Option.or_eq_none_iff, (kept_eq_forwarded _).2] at stays
  rw [stays.1] at some
  cases some

theorem consoleReads_eq (valid : ∀ read ∈ reads, ReadOk ctx read)
    : (consoleReads ctx reads).2 = exitIndex ctx.escapePending reads.flatten
      ∧ ((consoleReads ctx reads).1.flatten = kept ctx.escapePending reads.flatten
        ↔ Lossless ctx.escapePending reads) := by
  induction reads generalizing ctx with
  | nil => simp [consoleReads, exitIndex, kept, Lossless]
  | cons read rest ih =>
    have first := valid read List.mem_cons_self
    rw [List.flatten_cons, exitIndex_append, Lossless]
    by_cases exits : (exitIndex ctx.escapePending read).isSome = true
    · obtain ⟨index, found⟩ := Option.isSome_iff_exists.mp exits
      rw [kept_exit exits, consoleReads, consoleRead_exit first exits, found]
      exact ⟨rfl, eq_comm⟩
    · have stays := Option.not_isSome_iff_eq_none.mp exits
      obtain ⟨left, posted⟩ := consoleRead_stays first stays
      -- the later callbacks start with the escape bit that this one leaves
      have later := @ih { ctx with escapePending := pendingAfter ctx.escapePending read }
        (fun other member => valid other (List.mem_cons_of_mem _ member))
      rw [kept_append stays, ← later.2, consoleReads, left, posted]
      by_cases nothing : kept ctx.escapePending read = []
      · simp [nothing, later.1, stays]
      · simp [nothing, later.1, stays]

theorem consoleReads_accepted (valid : ∀ read ∈ reads, ReadOk ctx read)
    : ∀ buf ∈ (consoleReads ctx reads).1, buf ≠ [] ∧ buf.length ≤ ctx.rxLimit := by
  induction reads generalizing ctx with
  | nil => nofun
  | cons read rest ih =>
    have first := valid read List.mem_cons_self
    by_cases exits : (exitIndex ctx.escapePending read).isSome = true
    · simp [consoleReads, consoleRead_exit first exits]
    · have stays := Option.not_isSome_iff_eq_none.mp exits
      obtain ⟨left, posted⟩ := consoleRead_stays first stays
      have later := @ih { ctx with escapePending := pendingAfter ctx.escapePending read }
        (fun other member => valid other (List.mem_cons_of_mem _ member))
      have short : (kept ctx.escapePending read).length ≤ ctx.rxLimit :=
        (kept_length_le _ read).trans (first.2.trans (Nat.min_le_left _ _))
      rw [consoleReads, left, posted]
      by_cases nothing : kept ctx.escapePending read = []
      · simpa [nothing] using later
      · simpa [nothing, short] using later

/-- However a stream is split into reads, the console asks to exit at its exit sequence. The guest
gets every byte before it, with escapes resolved, exactly when none is read together with the end of
the sequence; so all splits of a stream without one submit the same bytes. The receiver accepts
every buffer.
-/
theorem console_input_splits {ctx : CharPosixCtx} (fresh : ctx.escapePending = false)
    {reads others : List (List Byte)} (same : others.flatten = reads.flatten)
    (valid : ∀ read ∈ reads, ReadOk ctx read) (otherValid : ∀ read ∈ others, ReadOk ctx read)
    : (consoleReads ctx reads).2 = exitPosition reads.flatten
      ∧ (consoleReads ctx others).2 = (consoleReads ctx reads).2
      ∧ ((consoleReads ctx reads).1.flatten = forwarded reads.flatten ↔ NothingLost reads)
      ∧ (exitPosition reads.flatten = none → NothingLost reads)
      ∧ (NothingLost reads → NothingLost others →
        (consoleReads ctx others).1.flatten = (consoleReads ctx reads).1.flatten)
      ∧ ∀ buf ∈ (consoleReads ctx reads).1, ∀ b memory,
        ioReceiverSubmit b ctx.rxLimit buf memory ≠ [] := by
  obtain ⟨bytes, place⟩ := kept_eq_forwarded reads.flatten
  obtain ⟨position, submitted⟩ := consoleReads_eq valid
  obtain ⟨otherPosition, otherSubmitted⟩ := consoleReads_eq otherValid
  rw [fresh, place] at position
  rw [fresh, bytes, lossless_iff_nothingLost] at submitted
  rw [fresh, same, place] at otherPosition
  rw [fresh, same, bytes, lossless_iff_nothingLost] at otherSubmitted
  refine ⟨position, otherPosition.trans position.symm, submitted, ?_, ?_, ?_⟩
  · exact nothingLost_of_stays
  · intro kept otherKept
    exact (otherSubmitted.mpr otherKept).trans (submitted.mpr kept).symm
  · intro buf member b memory
    obtain ⟨nonempty, short⟩ := consoleReads_accepted valid buf member
    unfold ioReceiverSubmit
    rw [if_neg (not_or.mpr ⟨nonempty, Nat.not_lt.mpr short⟩)]
    split_ifs <;> exact List.cons_ne_nil _ _

/-- The stream `a`, Ctrl-A, `b`, Ctrl-A, Ctrl-A, read in two ways. -/
theorem console_input_splits_pairs
    : (consoleReads ⟨16, 0, false, false⟩ [[0x61, 0x01], [0x62, 0x01, 0x01]]).1.flatten
      = (consoleReads ⟨16, 0, false, false⟩ [[0x61, 0x01, 0x62, 0x01], [0x01]]).1.flatten :=
  (console_input_splits rfl rfl (by simp [ReadOk]) (by simp [ReadOk])).2.2.2.2.1
    (nothingLost_of_stays (by decide)) (nothingLost_of_stays (by decide))

/-- The stream `a`, Ctrl-A, `x`: in one read the guest gets nothing, in two it gets the `a`. -/
theorem console_input_lost
    : let ctx : CharPosixCtx := ⟨16, 0, false, false⟩
      (consoleReads ctx [[0x61, 0x01, 0x78]]).1.flatten = []
      ∧ (consoleReads ctx [[0x61], [0x01, 0x78]]).1.flatten = [0x61]
      ∧ forwarded [0x61, 0x01, 0x78] = [0x61]
      ∧ (∀ read ∈ [[0x61, 0x01, 0x78], [0x61], [0x01, 0x78]], ReadOk ctx read) := by
  refine ⟨rfl, rfl, rfl, ?_⟩
  simp [ReadOk]

end Modvm.Backend
