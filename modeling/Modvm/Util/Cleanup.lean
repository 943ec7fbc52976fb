import Modvm.Lib.Ledger
import Modvm.Lib.Runs
import Modvm.Util.PoolEffects

/-! Cleanup obligations as the tokens of a ledger, whose places are the pools. -/

namespace Modvm.Util.Pools

open Function Modvm.Lib

variable {π φ δ : Type} [DecidableEq π]

def Event.runs (id : Nat) : Event π → Bool
  | .ran _ other => other == id
  | _ => false

def Event.cancels (id : Nat) : Event π → Bool
  | .cancelled other => other == id
  | _ => false

def World.runs (w : World π φ δ) (id : Nat) : Nat := w.log.countP (Event.runs id)

def World.cancels (w : World π φ δ) (id : Nat) : Nat := w.log.countP (Event.cancels id)

def World.ledger (w : World π φ δ) : Ledger π :=
  ⟨w.nextId, w.ids, fun id => w.runs id + w.cancels id⟩

/-- When an obligation last entered a pool, counted in events; the history is newest first. -/
def entryTime (p : π) (id : Nat) : List (Event π) → Nat
  | [] => 0
  | event :: earlier =>
      if event = .entered p id then earlier.length + 1 else entryTime p id earlier

theorem entryTime_le (p : π) (id : Nat) (log : List (Event π))
    : entryTime p id log ≤ log.length := by
  induction log with
  | nil => exact Nat.le_refl 0
  | cons event earlier ih =>
    unfold entryTime
    split
    · exact Nat.le_refl _
    · exact Nat.le_succ_of_le ih

/-- A pool holds only its own nodes, no two of them with one function and data. -/
structure Pool.Ok (p : π) (pool : Pool π φ δ) : Prop where
  owned : ∀ node ∈ pool.resources, node.pool = some p
  keys : (pool.obligations.map Obligation.key).Nodup

omit [DecidableEq π] in
theorem Pool.Ok.sublist {p : π} {pool smaller : Pool π φ δ} (ok : pool.Ok p)
    (removed : smaller.resources.Sublist pool.resources)
    : smaller.Ok p where
  owned node member := ok.owned node (removed.subset member)
  keys := ((removed.filterMap ResNode.action).map Obligation.key).nodup ok.keys

omit [DecidableEq π] in
theorem Pool.Ok.addTail {p : π} {pool : Pool π φ δ} (ok : pool.Ok p)
    {action : Option (Obligation φ δ)}
    (new : ∀ obligation ∈ action, obligation.key ∉ pool.obligations.map Obligation.key)
    : (pool.addTail ⟨some p, action⟩).Ok p where
  owned := by
    intro node member
    simp only [Pool.addTail, List.mem_append, List.mem_singleton] at member
    rcases member with old | rfl
    · exact ok.owned node old
    · rfl
  keys := by
    rw [obligations_addTail, List.map_append]
    cases action with
    | none => simpa using ok.keys
    | some obligation =>
      refine List.nodup_append.mpr ⟨ok.keys, List.nodup_singleton _, ?_⟩
      intro a member b last same
      rw [Option.toList_some, List.map_singleton, List.mem_singleton] at last
      exact new obligation rfl (last ▸ same ▸ member)

/-- Every obligation is in one pool and unspent, or spent once; pools list theirs as they entered.
-/
structure Accounted (w : World π φ δ) : Prop where
  pools : ∀ p, (w.pools p).Ok p
  exact : w.ledger.Exact
  ordered : ∀ p, (w.ids p).Pairwise fun a b => entryTime p a w.log < entryTime p b w.log
  sane : w.bug = false

/-- The event neither moves nor spends an obligation. -/
def Event.Quiet (event : Event π) : Prop :=
  (∀ id, event.runs id = false ∧ event.cancels id = false)
  ∧ ∀ p id, event ≠ .entered p id

theorem entryTime_quiet {events log : List (Event π)} (p : π) (id : Nat)
    (quiet : ∀ event ∈ events, event ≠ .entered p id)
    : entryTime p id (events ++ log) = entryTime p id log := by
  induction events with
  | nil => rfl
  | cons event rest ih =>
    rw [List.cons_append, entryTime, if_neg (quiet event List.mem_cons_self)]
    exact ih fun other member => quiet other (List.mem_cons_of_mem _ member)

omit [DecidableEq π] in
theorem countP_quiet {events log : List (Event π)} {counts : Event π → Bool}
    (quiet : ∀ event ∈ events, counts event = false)
    : (events ++ log).countP counts = log.countP counts := by
  rw [List.countP_append, List.countP_eq_zero.mpr, Nat.zero_add]
  intro event member
  simp [quiet event member]

/-- A new entry is the last of its pool. -/
theorem pairwise_entered {lists : π → List Nat} {log : List (Event π)} {p : π} {id : Nat}
    (old : ∀ q, (lists q).Pairwise fun a b => entryTime q a log < entryTime q b log)
    (absent : id ∉ lists p) (q : π)
    : (update lists p (lists p ++ [id]) q).Pairwise fun a b =>
        entryTime q a (.entered p id :: log) < entryTime q b (.entered p id :: log) := by
  have kept : ∀ a ∈ lists q, entryTime q a (.entered p id :: log) = entryTime q a log := by
    intro a member
    rw [entryTime, if_neg]
    rintro ⟨⟩
    exact absent member
  have before : (lists q).Pairwise fun a b =>
      entryTime q a (.entered p id :: log) < entryTime q b (.entered p id :: log) := by
    refine (old q).imp_of_mem fun {a b} first second earlier => ?_
    rw [kept a first, kept b second]
    exact earlier
  by_cases here : q = p
  · subst here
    rw [update_self, List.pairwise_append]
    refine ⟨before, List.pairwise_singleton _ _, ?_⟩
    intro a held b last
    rw [List.mem_singleton] at last
    rw [kept a held, last, entryTime, if_pos rfl]
    exact Nat.lt_succ_of_le (entryTime_le q a log)
  · rw [update_of_ne here]
    exact before

theorem update_shared {β : Type} (quantity : Pool π φ δ → β) {pools : π → Pool π φ δ} {p : π}
    {pool : Pool π φ δ} (shared : quantity pool = quantity (pools p)) (q : π)
    : quantity (update pools p pool q) = quantity (pools q) := by
  by_cases here : q = p
  · subst here
    rw [update_self, shared]
  · rw [update_of_ne here]

theorem init_accounted : Accounted (World.init : World π φ δ) where
  pools _ :=
    ⟨by simp [World.init, resPoolInit], by simp [World.init, resPoolInit, Pool.obligations]⟩
  exact := Ledger.exact_empty
  ordered := by simp [World.init, resPoolInit, Pool.obligations, World.ids]
  sane := rfl

namespace Accounted

variable {w next : World π φ δ}

/-- Events that enter, run and cancel nothing. -/
theorem quiet (accounted : Accounted w) (events : List (Event π))
    (same : ∀ p, (next.pools p).obligations = (w.pools p).obligations)
    (pools : ∀ p, (next.pools p).Ok p)
    (issued : next.nextId = w.nextId) (log : next.log = events ++ w.log)
    (quiet : ∀ event ∈ events, event.Quiet) (sane : next.bug = w.bug)
    : Accounted next := by
  have ids : next.ids = w.ids := funext fun p => by rw [World.ids, World.ids, same]
  have ledger : next.ledger = w.ledger := by
    simp only [World.ledger, issued, ids, Ledger.mk.injEq, true_and]
    funext id
    rw [World.runs, World.cancels, log, countP_quiet fun e m => ((quiet e m).1 id).1,
      countP_quiet fun e m => ((quiet e m).1 id).2]
    rfl
  refine ⟨pools, ledger ▸ accounted.exact, ?_, sane.trans accounted.sane⟩
  intro p
  rw [ids, log]
  refine (accounted.ordered p).imp fun {a b} earlier => ?_
  rw [entryTime_quiet p a fun e m => (quiet e m).2 p a,
    entryTime_quiet p b fun e m => (quiet e m).2 p b]
  exact earlier

variable {p : π} {pool : Pool π φ δ}

theorem update_ok (accounted : Accounted w) (ok : pool.Ok p) (q : π)
    : (update w.pools p pool q).Ok q := by
  by_cases here : q = p
  · subst here
    rw [update_self]
    exact ok
  · rw [update_of_ne here]
    exact accounted.pools q

theorem quiet_pool (accounted : Accounted w) (events : List (Event π))
    (pools : next.pools = update w.pools p pool) (same : pool.obligations = (w.pools p).obligations)
    (ok : pool.Ok p) (issued : next.nextId = w.nextId) (log : next.log = events ++ w.log)
    (quiet : ∀ event ∈ events, event.Quiet) (sane : next.bug = w.bug)
    : Accounted next := by
  refine accounted.quiet events ?_ (fun q => pools ▸ accounted.update_ok ok q) issued log quiet
    sane
  rw [pools]
  exact update_shared Pool.obligations same

theorem spent (accounted : Accounted w) {event : Event π} {before after : List (Obligation φ δ)}
    {obligation : Obligation φ δ} (pools : next.pools = update w.pools p pool)
    (held : (w.pools p).obligations = before ++ obligation :: after)
    (left : pool.obligations = before ++ after) (ok : pool.Ok p) (issued : next.nextId = w.nextId)
    (log : next.log = event :: w.log)
    (spends : ∀ id, (event.runs id).toNat + (event.cancels id).toNat
      = if id = obligation.id then 1 else 0) (stays : ∀ q id, event ≠ .entered q id)
    (sane : next.bug = w.bug)
    : Accounted next := by
  have ids : next.ids
      = update w.ids p (before.map Obligation.id ++ after.map Obligation.id) := by
    rw [ids_update pools, left, List.map_append]
  have here : w.ids p
      = before.map Obligation.id ++ obligation.id :: after.map Obligation.id := by
    rw [World.ids, held, List.map_append, List.map_cons]
  refine ⟨fun q => pools ▸ accounted.update_ok ok q, ?_, ?_, sane.trans accounted.sane⟩
  · have spend := @Ledger.Exact.spend π w.ledger _ accounted.exact p _ _ _ here
    convert spend using 1
    simp only [World.ledger, Ledger.mk.injEq]
    refine ⟨issued, ids, funext fun id => ?_⟩
    have amount := spends id
    simp only [World.runs, World.cancels, log]
    by_cases same : id = obligation.id
    · subst same
      cases runs : event.runs obligation.id <;> cases cancels : event.cancels obligation.id <;>
        simp [runs, cancels] at amount ⊢ <;> omega
    · rw [update_of_ne same]
      simp only [same] at amount
      cases runs : event.runs id <;> cases cancels : event.cancels id <;>
        simp [runs, cancels] at amount ⊢
  · intro q
    rw [ids, log]
    have kept : ((w.ids q).Pairwise fun a b =>
        entryTime q a (event :: w.log) < entryTime q b (event :: w.log)) := by
      refine (accounted.ordered q).imp fun {a b} earlier => ?_
      rw [entryTime, if_neg (stays q a), entryTime, if_neg (stays q b)]
      exact earlier
    rw [show w.ids = w.ledger.held from rfl, accounted.exact.taken_eq_filter here]
    exact kept.filter _

variable [DecidableEq φ] [DecidableEq δ]

theorem added (accounted : Accounted w) {fn : φ} {data : δ}
    (new : (w.pools p).resources.any (ResNode.carries fn data) = false)
    : Accounted
        ({ w.setPool p ((w.pools p).addTail ⟨some p, some ⟨fn, data, w.nextId⟩⟩) with
            nextId := w.nextId + 1 }.record (.entered p w.nextId)) := by
  have fresh : (fn, data) ∉ (w.pools p).obligations.map Obligation.key := by
    rw [← any_carries_iff, new]
    exact Bool.false_ne_true
  have ids : (w.setPool p ((w.pools p).addTail ⟨some p, some ⟨fn, data, w.nextId⟩⟩)).ids
      = update w.ids p (w.ids p ++ [w.nextId]) := by
    rw [ids_update rfl, obligations_addTail, List.map_append]
    rfl
  refine ⟨accounted.update_ok ((accounted.pools p).addTail ?_), ?_, ?_, accounted.sane⟩
  · rintro obligation ⟨⟩
    exact fresh
  · have issued := accounted.exact.issue p
    convert issued using 1
    simp only [World.ledger, Ledger.mk.injEq]
    refine ⟨rfl, ids, funext fun id => ?_⟩
    simp [World.runs, World.cancels, World.record, Event.runs, Event.cancels, World.setPool]
  · intro q
    have entered := pairwise_entered accounted.ordered
      (fun held => Nat.lt_irrefl _ (accounted.exact.live p w.nextId held).1) q
    rw [← ids] at entered
    exact entered

theorem moved (accounted : Accounted w) {src dst : π} {found : Obligation φ δ}
    (search : (w.pools src).find found.fn found.data = some (some src, found))
    (differ : src ≠ dst)
    (new : (w.pools dst).resources.any (ResNode.carries found.fn found.data) = false)
    : Accounted (w.moveNode src dst found) := by
  obtain ⟨before, after, held, left⟩ := find_obligations search
  obtain ⟨nodesBefore, nodesAfter, nodes, deleted, -⟩ := find_split search
  have fresh : found.key ∉ (w.pools dst).obligations.map Obligation.key := by
    rw [Obligation.key, ← any_carries_iff, new]
    exact Bool.false_ne_true
  have here : w.ids src = before.map Obligation.id ++ found.id :: after.map Obligation.id := by
    rw [World.ids, held, List.map_append, List.map_cons]
  let removed := w.setPool src ((w.pools src).delete found.fn found.data)
  have untouched : removed.pools dst = w.pools dst :=
    update_of_ne (Ne.symm differ) _ _
  have removedIds : removed.ids
      = update w.ids src (before.map Obligation.id ++ after.map Obligation.id) := by
    rw [ids_update rfl, left, List.map_append]
  have ids : (w.moveNode src dst found).ids
      = update removed.ids dst (removed.ids dst ++ [found.id]) := by
    rw [ids_update rfl, obligations_addTail, List.map_append]
    rfl
  have dstIds : removed.ids dst = w.ids dst := by rw [World.ids, World.ids, untouched]
  refine ⟨?_, ?_, ?_, accounted.sane⟩
  · intro q
    show (update removed.pools dst ((removed.pools dst).addTail _) q).Ok q
    by_cases atDst : q = dst
    · subst atDst
      rw [update_self, untouched]
      refine (accounted.pools q).addTail ?_
      rintro obligation ⟨⟩
      exact fresh
    · rw [update_of_ne atDst]
      refine accounted.update_ok ((accounted.pools src).sublist ?_) q
      rw [deleted, nodes]
      exact (List.Sublist.refl _).append (List.sublist_cons_self _ _)
  · have move := @Ledger.Exact.move π w.ledger _ accounted.exact src dst differ _ _ _ here
    convert move using 1
    simp only [World.ledger, Ledger.mk.injEq]
    refine ⟨rfl, ?_, funext fun id => ?_⟩
    · rw [ids, dstIds, removedIds]
    · simp [World.runs, World.cancels, World.record, World.moveNode, Event.runs, Event.cancels,
        World.setPool]
  · intro q
    have old : ∀ q, (removed.ids q).Pairwise fun a b =>
        entryTime q a w.log < entryTime q b w.log := by
      intro q
      rw [removedIds, show w.ids = w.ledger.held from rfl, accounted.exact.taken_eq_filter here]
      exact (accounted.ordered q).filter _
    have absent : found.id ∉ removed.ids dst := by
      rw [dstIds]
      exact fun held => differ (accounted.exact.apart src dst _ (by
        show found.id ∈ w.ids src
        simp [here]) held)
    rw [ids]
    exact pairwise_entered old absent q

end Accounted

/-- Every effect keeps the account, by cases. -/
theorem Effect.accounted [DecidableEq φ] [DecidableEq δ] {w next : World π φ δ}
    (effect : Effect w next) (accounted : Accounted w)
    : Accounted next := by
  cases effect with
  | idle => exact accounted
  | @memory p =>
    refine accounted.quiet_pool [] rfl ?_ ((accounted.pools p).addTail (by simp)) rfl rfl
      (by simp) rfl
    simp [obligations_addTail]
  | added _ new => exact accounted.added new
  | refused =>
    refine accounted.quiet [_] (fun _ => rfl) accounted.pools rfl rfl ?_ rfl
    simp [Event.Quiet, Event.runs, Event.cancels]
  | reset =>
    refine accounted.quiet [_, _] (fun _ => rfl) accounted.pools rfl rfl ?_ rfl
    simp [Event.Quiet, Event.runs, Event.cancels]
  | moved _ _ search differ new => exact accounted.moved search differ new
  | @cancelled p fn data found search =>
    obtain ⟨before, after, held, left⟩ := find_obligations search
    obtain ⟨nodesBefore, nodesAfter, nodes, deleted, -⟩ := find_split search
    refine accounted.spent rfl held left ((accounted.pools p).sublist ?_) rfl rfl ?_
      (by simp) rfl
    · rw [deleted, nodes]
      exact (List.Sublist.refl _).append (List.sublist_cons_self _ _)
    · intro id
      by_cases same : found.id = id
      · simp [Event.runs, Event.cancels, same]
      · simp [Event.runs, Event.cancels, same, Ne.symm same]
  | @began p =>
    refine accounted.quiet_pool [_] rfl rfl ((accounted.pools p).sublist (.refl _)) rfl rfl
      ?_ rfl
    simp [Event.Quiet, Event.runs, Event.cancels]
  | @ended p =>
    refine accounted.quiet_pool [_] rfl rfl ((accounted.pools p).sublist (.refl _)) rfl rfl
      ?_ rfl
    simp [Event.Quiet, Event.runs, Event.cancels]
  | bugged member stray => exact absurd ((accounted.pools _).owned _ member) stray
  | @freed p _ _ rest _ last =>
    refine accounted.quiet_pool [_] rfl ?_ ((accounted.pools p).sublist ?_) rfl rfl ?_ rfl
    · simp [Pool.obligations, last]
    · rw [last]
      exact List.sublist_append_left _ _
    · simp [Event.Quiet, Event.runs, Event.cancels]
  | @ran p _ _ rest obligation _ last =>
    have held : (w.pools p).obligations
        = rest.filterMap ResNode.action ++ obligation :: [] := by
      simp [Pool.obligations, last]
    refine accounted.spent rfl held (by simp [Pool.obligations])
      ((accounted.pools p).sublist ?_) rfl rfl ?_ (by simp) rfl
    · rw [last]
      exact List.sublist_append_left _ _
    · intro id
      by_cases same : obligation.id = id
      · simp [Event.runs, Event.cancels, same]
      · simp [Event.runs, Event.cancels, same, Ne.symm same]
  | finished => exact accounted.quiet [] (fun _ => rfl) accounted.pools rfl rfl (by simp) rfl

end Modvm.Util.Pools
