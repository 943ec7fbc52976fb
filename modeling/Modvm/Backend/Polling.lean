import Modvm.Backend.Receive

/-! What the revision of the read source is good for: if it is unchanged between a snapshot and the
callback for its report, so is the mask, although revisions wrap around.
-/

namespace Modvm.Backend

open Modvm.Host
open Modvm.Io hiding Event Step

/-- Every read callback is for an armed source, after a snapshot that polled it, with no change of
its mask since.
-/
def FreshCalls (log : List Event) : Prop :=
  ∀ before after binding armed, log = before ++ .called binding 0 armed :: after →
    armed = true ∧ ∃ earlier later, before = earlier ++ .snapshot true :: later
      ∧ .updated 0 ∉ later ∧ ∀ enabled, .snapshot enabled ∉ later

/-- After a service was destroyed, callbacks are made for later bindings only. -/
def NoLateCalls (log : List Event) : Prop :=
  ∀ before after b, log = before ++ .destroyed b :: after →
    ∀ binding source armed, .called binding source armed ∈ after →
      ∃ later, binding = some later ∧ later ≠ b

theorem split_append {α : Type} {log events before after : List α} {event : α}
    (same : log ++ events = before ++ event :: after)
    : (∃ rest, log = before ++ event :: rest ∧ after = rest ++ events)
      ∨ ∃ front, before = log ++ front ∧ events = front ++ event :: after := by
  rcases List.append_eq_append_iff.mp same with ⟨front, old, new⟩ | ⟨rest, old, new⟩
  · exact .inr ⟨front, old, new⟩
  · cases rest with
    | nil => exact .inr ⟨[], by simpa using old.symm, by simpa using new.symm⟩
    | cons first rest =>
      obtain ⟨rfl, rfl⟩ := List.cons.inj new
      exact .inl ⟨rest, old, rfl⟩

theorem FreshCalls.append {log events : List Event} (fresh : FreshCalls log)
    (quiet : ∀ binding armed, .called binding 0 armed ∉ events)
    : FreshCalls (log ++ events) := by
  intro before after binding armed same
  rcases split_append same with ⟨rest, old, -⟩ | ⟨front, -, new⟩
  · exact fresh before rest binding armed old
  · exact absurd (by simp [new]) (quiet binding armed)

theorem NoLateCalls.append {log events : List Event} (late : NoLateCalls log)
    (undestroyed : ∀ b, .destroyed b ∉ events)
    (others : ∀ b, .destroyed b ∈ log → ∀ binding source armed,
      .called binding source armed ∈ events → ∃ later, binding = some later ∧ later ≠ b)
    : NoLateCalls (log ++ events) := by
  intro before after b same binding source armed member
  rcases split_append same with ⟨rest, old, rfl⟩ | ⟨front, -, new⟩
  · rcases List.mem_append.mp member with earlier | now
    · exact late before rest b old binding source armed earlier
    · exact others b (by simp [old]) binding source armed now
  · exact absurd (by simp [new]) (undestroyed b)

theorem NoLateCalls.destroyed {log : List Event} (late : NoLateCalls log) (b : Nat)
    : NoLateCalls (log ++ [.destroyed b]) := by
  intro before after other same binding source armed member
  rcases split_append same with ⟨rest, old, rfl⟩ | ⟨front, -, new⟩
  · rcases List.mem_append.mp member with earlier | now
    · exact late before rest other old binding source armed earlier
    · cases List.mem_singleton.mp now
  · cases front with
    | nil =>
      obtain ⟨-, rfl⟩ := List.cons.inj new
      cases member
    | cons => simp at new

/-- A snapshot took `version` of source 0 and polled it if `enabled`; since then it was armed at
most once.
-/
def Linked (read : Source) (log : List Event) (enabled : Bool) (version : BitVec 64) : Prop :=
  ∃ earlier later, log = earlier ++ .snapshot enabled :: later
    ∧ (∀ other, .snapshot other ∉ later)
    ∧ ((.updated 0 ∉ later ∧ version = read.revision
          ∧ (enabled = true → read.events.read = true))
      ∨ (read.events.read = true ∧ version + 1 = read.revision))

def Polled (read : Source) (log : List Event) : ServicePc Op → Prop
  | .polling fds => ∃ enabled version others, fds = ⟨0, enabled, version⟩ :: others
      ∧ (∀ fd ∈ others, fd.source ≠ 0) ∧ Linked read log enabled version
  | .scanning reports => (∀ report ∈ reports, report.source ≠ 0)
      ∨ ∃ enabled version revents others, reports = ⟨0, version, revents⟩ :: others
        ∧ (∀ report ∈ others, report.source ≠ 0) ∧ (enabled = false → revents = .zero)
        ∧ Linked read log enabled version
  | .calling _ reports => ∀ report ∈ reports, report.source ≠ 0
  | _ => True

/-- The service of a backend: ended while unbound, reading source 0 only, and posting to the current
binding.
-/
structure Serves (service : Service Op) (binding : Option Nat) (log : List Event) : Prop where
  ended : binding = none → service.pc = .ended
  sources : binding ≠ none → 0 < service.count
  reads : (service.sources 0).events.write = false
  posts : ∀ op ∈ service.pc.script, ∀ b kind allocated, op = .post b kind allocated →
    binding = some b
  polled : Polled (service.sources 0) log service.pc

section
variable {read : Source} {log : List Event} {enabled : Bool} {version : BitVec 64}

theorem Linked.append (linked : Linked read log enabled version) {events : List Event}
    (updates : .updated 0 ∉ events) (snapshots : ∀ other, .snapshot other ∉ events)
    : Linked read (log ++ events) enabled version := by
  obtain ⟨earlier, later, rfl, alone, since⟩ := linked
  refine ⟨earlier, later ++ events, by simp, fun other member => ?_, ?_⟩
  · rcases List.mem_append.mp member with old | new
    · exact alone other old
    · exact snapshots other new
  · refine since.imp_left fun ⟨same, rest⟩ => ⟨fun member => ?_, rest⟩
    rcases List.mem_append.mp member with old | new
    · exact same old
    · exact updates new

theorem Linked.arm (linked : Linked read log enabled version)
    (disarmed : read.events.read = false)
    : Linked ⟨.readOnly, read.revision + 1⟩ (log ++ [.updated 0]) enabled version := by
  obtain ⟨earlier, later, rfl, alone, since⟩ := linked
  refine ⟨earlier, later ++ [.updated 0], by simp, fun other member => ?_, .inr ⟨rfl, ?_⟩⟩
  · rcases List.mem_append.mp member with old | new
    · exact alone other old
    · cases List.mem_singleton.mp new
  · rcases since with ⟨-, same, -⟩ | ⟨armed, -⟩
    · rw [same]
    · rw [disarmed] at armed
      cases armed

theorem Polled.append {pc : ServicePc Op} (polled : Polled read log pc) {events : List Event}
    (updates : .updated 0 ∉ events) (snapshots : ∀ other, .snapshot other ∉ events)
    : Polled read (log ++ events) pc := by
  cases pc with
  | polling =>
    obtain ⟨enabled, version, others, shape, rest, linked⟩ := polled
    exact ⟨enabled, version, others, shape, rest, linked.append updates snapshots⟩
  | scanning =>
    rcases polled with passed | ⟨enabled, version, revents, others, shape, rest, zero, linked⟩
    · exact .inl passed
    · exact .inr ⟨enabled, version, revents, others, shape, rest, zero,
        linked.append updates snapshots⟩
  | calling => exact polled
  | _ => trivial

theorem Polled.arm {pc : ServicePc Op} (polled : Polled read log pc)
    (disarmed : read.events.read = false)
    : Polled ⟨.readOnly, read.revision + 1⟩ (log ++ [.updated 0]) pc := by
  cases pc with
  | polling =>
    obtain ⟨enabled, version, others, shape, rest, linked⟩ := polled
    exact ⟨enabled, version, others, shape, rest, linked.arm disarmed⟩
  | scanning =>
    rcases polled with passed | ⟨enabled, version, revents, others, shape, rest, zero, linked⟩
    · exact .inl passed
    · exact .inr ⟨enabled, version, revents, others, shape, rest, zero, linked.arm disarmed⟩
  | calling => exact polled
  | _ => trivial

/-- A result of the current revision is of a poll that saw the source armed. -/
theorem Linked.current (linked : Linked read log enabled version)
    (same : version = read.revision) (polled : enabled = true)
    : read.events.read = true
      ∧ ∃ earlier later, log = earlier ++ .snapshot true :: later ∧ .updated 0 ∉ later
        ∧ ∀ other, .snapshot other ∉ later := by
  obtain ⟨earlier, later, rfl, alone, since⟩ := linked
  rcases since with ⟨unchanged, -, armed⟩ | ⟨-, advanced⟩
  · subst polled
    exact ⟨armed rfl, earlier, later, rfl, unchanged, alone⟩
  · -- one change cannot bring a 64-bit revision back
    bv_omega

end

theorem fds_first {service : Service Op} (some_ : 0 < service.count)
    : ∃ others, service.fds
        = ⟨0, (service.sources 0).events.read || (service.sources 0).events.write,
            (service.sources 0).revision⟩ :: others
      ∧ ∀ fd ∈ others, fd.source ≠ 0 := by
  obtain ⟨count, counted⟩ := Nat.exists_eq_succ_of_ne_zero (Nat.ne_of_gt some_)
  unfold Service.fds
  rw [counted, List.range_succ_eq_map]
  refine ⟨_, rfl, fun fd member => ?_⟩
  obtain ⟨i, inside, rfl⟩ := List.mem_map.mp member
  obtain ⟨j, -, rfl⟩ := List.mem_map.mp inside
  exact Nat.succ_ne_zero j

theorem poll_first {enabled : Bool} {version : BitVec 64} {others : List PollFd}
    (rest : ∀ fd ∈ others, fd.source ≠ 0) (revents : Nat → Revents)
    : ∃ reported reports, poll (⟨0, enabled, version⟩ :: others) revents
        = ⟨0, version, reported⟩ :: reports
      ∧ (∀ report ∈ reports, report.source ≠ 0) ∧ (enabled = false → reported = .zero) := by
  refine ⟨if enabled then revents 0 else .zero, poll others revents, rfl, ?_, ?_⟩
  · intro report member
    obtain ⟨fd, inside, rfl⟩ := List.mem_map.mp member
    exact rest fd inside
  · rintro rfl
    rfl

end Modvm.Backend
