import Modvm.Util.ResPools

/-! What the pool operations do, said once: every step of client code, of a release or of a
cleanup function has one of a dozen effects.
-/

namespace Modvm.Util.Pools

variable {π φ δ : Type} [DecidableEq π] [DecidableEq φ] [DecidableEq δ]

def World.ids (w : World π φ δ) (p : π) : List Nat :=
  (w.pools p).obligations.map Obligation.id

section Lists

omit [DecidableEq π]

variable {found : Obligation φ δ}

theorem matched_eq_some {fn : φ} {data : δ} {node : ResNode π φ δ} {owner : Option π}
    : node.matched fn data = some (owner, found)
      ↔ node = ⟨owner, some found⟩ ∧ found.key = (fn, data) := by
  obtain ⟨pool, action⟩ := node
  cases action with
  | none => simp [ResNode.matched]
  | some =>
    simp only [ResNode.matched, Option.ite_none_right_eq_some, Option.some.injEq,
      Prod.mk.injEq, ResNode.mk.injEq, Obligation.key]
    constructor
    · rintro ⟨key, rfl, rfl⟩
      exact ⟨⟨rfl, rfl⟩, key⟩
    · rintro ⟨⟨rfl, rfl⟩, key⟩
      exact ⟨key, rfl, rfl⟩

theorem any_carries_iff (pool : Pool π φ δ) (fn : φ) (data : δ)
    : pool.resources.any (ResNode.carries fn data) = true
      ↔ (fn, data) ∈ pool.obligations.map Obligation.key := by
  simp only [List.any_eq_true, Pool.obligations, List.mem_map, List.mem_filterMap,
    ResNode.carries, Option.isSome_iff_exists]
  constructor
  · rintro ⟨node, member, ⟨owner, found⟩, matched⟩
    obtain ⟨rfl, key⟩ := matched_eq_some.mp matched
    exact ⟨found, ⟨_, member, rfl⟩, key⟩
  · rintro ⟨found, ⟨⟨owner, action⟩, member, rfl⟩, key⟩
    exact ⟨_, member, (owner, found), matched_eq_some.mpr ⟨rfl, key⟩⟩

section

variable {pool : Pool π φ δ} {fn : φ} {data : δ} {owner : Option π}
  (search : pool.find fn data = some (owner, found))
include search

/-- The entry that is found is the one that is deleted. -/
theorem find_split
    : ∃ before after, pool.resources = before ++ ⟨owner, some found⟩ :: after
        ∧ (pool.delete fn data).resources = before ++ after
        ∧ found.key = (fn, data) := by
  obtain ⟨resources, releasing⟩ := pool
  simp only [Pool.find, Pool.delete] at search ⊢
  induction resources with
  | nil => simp at search
  | cons node rest ih =>
    rw [List.findSome?_cons] at search
    cases matched : node.matched fn data with
    | some =>
      simp only [matched, Option.some.injEq] at search
      subst search
      obtain ⟨rfl, key⟩ := matched_eq_some.mp matched
      refine ⟨[], rest, rfl, ?_, key⟩
      exact List.eraseP_cons_of_pos (by simp [ResNode.carries, matched])
    | none =>
      simp only [matched] at search
      obtain ⟨before, after, split, deleted, key⟩ := ih search
      refine ⟨node :: before, after, by rw [split]; rfl, ?_, key⟩
      rw [List.eraseP_cons_of_neg (by simp [ResNode.carries, matched]), deleted]
      rfl

theorem find_obligations
    : ∃ before after, pool.obligations = before ++ found :: after
        ∧ (pool.delete fn data).obligations = before ++ after := by
  obtain ⟨before, after, split, deleted, -⟩ := find_split search
  refine ⟨before.filterMap ResNode.action, after.filterMap ResNode.action, ?_, ?_⟩
  · simp [Pool.obligations, split]
  · simp [Pool.obligations, deleted]

end

end Lists

section Fields

omit [DecidableEq φ] [DecidableEq δ]

omit [DecidableEq π] in
theorem obligations_addTail (pool : Pool π φ δ) (node : ResNode π φ δ)
    : (pool.addTail node).obligations = pool.obligations ++ node.action.toList := by
  cases action : node.action <;> simp [Pool.addTail, Pool.obligations, action]

theorem ids_update {w next : World π φ δ} {p : π} {pool : Pool π φ δ}
    (pools : next.pools = Function.update w.pools p pool)
    : next.ids = Function.update w.ids p (pool.obligations.map Obligation.id) := by
  funext q
  by_cases here : q = p
  · subst here
    simp [World.ids, pools]
  · simp [World.ids, pools, here]

end Fields

/-- What one step does, said once. -/
inductive Effect (w : World π φ δ) : World π φ δ → Prop
  | idle : Effect w w
  | memory {p : π} (open_pool : (w.pools p).releasing = false)
    : Effect w (w.setPool p ((w.pools p).addTail ⟨some p, none⟩))
  | added {p : π} {fn : φ} {data : δ} (open_pool : (w.pools p).releasing = false)
    (new : (w.pools p).resources.any (ResNode.carries fn data) = false)
    : Effect w
        ({ w.setPool p ((w.pools p).addTail ⟨some p, some ⟨fn, data, w.nextId⟩⟩) with
            nextId := w.nextId + 1 }.record (.entered p w.nextId))
  | refused
    : Effect w
        ({ w with nextCall := w.nextCall + 1 }.record (.refused w.nextCall .eexist))
  | reset {error : VmError} (other : error ≠ .eexist)
    : Effect w
        ({ ({ w with nextCall := w.nextCall + 1 } : World π φ δ).record
              (.refused w.nextCall error) with
            stack := .callback :: w.stack }.record (.reset w.nextCall))
  | moved {src dst : π} {found : Obligation φ δ}
    (openSrc : (w.pools src).releasing = false) (openDst : (w.pools dst).releasing = false)
    (search : (w.pools src).find found.fn found.data = some (some src, found))
    (differ : src ≠ dst)
    (new : (w.pools dst).resources.any (ResNode.carries found.fn found.data) = false)
    : Effect w (w.moveNode src dst found)
  | cancelled {p : π} {fn : φ} {data : δ} {found : Obligation φ δ}
    (search : (w.pools p).find fn data = some (some p, found))
    : Effect w ((w.setPool p ((w.pools p).delete fn data)).record (.cancelled found.id))
  | began {p : π} (open_pool : (w.pools p).releasing = false)
    : Effect w
        ({ w.setPool p { w.pools p with releasing := true } with
            stack := .release p w.nextRelease :: w.stack
            nextRelease := w.nextRelease + 1 }.record
          (.began w.nextRelease p (w.ids p) (w.pools p).resources.length))
  | ended {p : π} {number : Nat} {callers : List (Frame π)}
    (top : w.stack = .release p number :: callers) (empty : (w.pools p).resources = [])
    : Effect w
        ({ w.setPool p { w.pools p with releasing := false } with stack := callers }.record
          (.ended number p))
  | bugged {p : π} {node : ResNode π φ δ} (member : node ∈ (w.pools p).resources)
    (stray : node.pool ≠ some p)
    : Effect w { w with bug := true }
  | freed {p : π} {number : Nat} {callers : List (Frame π)} {rest : List (ResNode π φ δ)}
    (top : w.stack = .release p number :: callers)
    (last : (w.pools p).resources = rest ++ [⟨some p, none⟩])
    : Effect w ((w.setPool p { w.pools p with resources := rest }).record (.freed number))
  | ran {p : π} {number : Nat} {callers : List (Frame π)} {rest : List (ResNode π φ δ)}
    {obligation : Obligation φ δ} (top : w.stack = .release p number :: callers)
    (last : (w.pools p).resources = rest ++ [⟨some p, some obligation⟩])
    : Effect w
        ({ w.setPool p { w.pools p with resources := rest } with
            stack := .callback :: w.stack }.record (.ran number obligation.id))
  | finished {callers : List (Frame π)} (top : w.stack = .callback :: callers)
    : Effect w { w with stack := callers }

theorem resZalloc_effect (w : World π φ δ) (pool : Option π) (size : Nat) (allocated : Bool)
    : Effect w ((resZalloc w pool size allocated).getD w) := by
  unfold resZalloc
  split
  · exact .idle
  split
  · exact .idle
  next passed =>
    split
    · exact .idle
    · simp only [Bool.or_eq_true, not_or, Bool.not_eq_true] at passed
      exact .memory passed.1.1

variable {next w : World π φ δ}

theorem resAddAction_effect {pool : Option π} {fn : Option φ} {data : δ} {allocated : Bool}
    (done : resAddAction w pool fn data allocated = .ok next)
    : Effect w next := by
  unfold resAddAction at done
  split at done
  · split at done
    · cases done
    split at done
    · cases done
    split at done
    · cases done
    next releasing present _ =>
      cases done
      exact .added (by simpa using releasing) (by simpa using present)
  · cases done

theorem resAddActionOrReset_effect (w : World π φ δ) (pool : Option π) (fn : Option φ)
    (data : δ) (allocated : Bool)
    : Effect w (resAddActionOrReset w pool fn data allocated) := by
  unfold resAddActionOrReset
  split
  next added => exact resAddAction_effect added
  next error _ =>
    split
    · exact .idle
    split
    next exists_ => exact exists_ ▸ .refused
    next other => exact .reset other

/-- A transfer moves one obligation between open pools, or does nothing. -/
theorem resTransferAction_effect {src dst : Option π} {fn : Option φ} {data : δ}
    (done : resTransferAction w src dst fn data = .ok next)
    : Effect w next := by
  unfold resTransferAction at done
  split at done
  case h_2 => cases done
  split at done
  · cases done
  next closed =>
    simp only [Bool.or_eq_true, not_or, Bool.not_eq_true] at closed
    split at done
    · cases done
    next owner found search =>
      split at done
      · cases done
      next owned =>
        rw [not_not] at owned
        subst owned
        obtain ⟨-, -, -, -, key⟩ := find_split search
        obtain ⟨rfl, rfl⟩ := Prod.mk.inj key
        split at done
        · cases done
          exact .idle
        next differ =>
          split at done
          · cases done
          next new =>
            cases done
            exact .moved closed.1 closed.2 search differ (by simpa using new)

theorem resCancelAction_effect {pool : Option π} {fn : Option φ} {data : δ}
    (done : resCancelAction w pool fn data = .ok next)
    : Effect w next := by
  unfold resCancelAction at done
  split at done
  case h_2 => cases done
  split at done
  · cases done
  next owner found search =>
    split at done
    · cases done
    next owned =>
      rw [not_not] at owned
      subst owned
      cases done
      exact .cancelled search

theorem orElseSame_effect {result : Except VmError (World π φ δ)}
    (succeeded : ∀ next, result = .ok next → Effect w next)
    : Effect w (orElseSame w result) := by
  cases result with
  | error => exact .idle
  | ok next => exact succeeded next rfl

/-- Every call of client code has one of the effects. -/
theorem perform_effect (w : World π φ δ) (act : Act π φ δ) : Effect w (perform w act) := by
  cases act with
  | zalloc pool size allocated => exact resZalloc_effect w pool size allocated
  | addAction =>
    exact orElseSame_effect fun _ done => resAddAction_effect done
  | addActionOrReset pool fn data allocated =>
    exact resAddActionOrReset_effect w pool fn data allocated
  | transferAction =>
    exact orElseSame_effect fun _ done => resTransferAction_effect done
  | cancelAction =>
    exact orElseSame_effect fun _ done => resCancelAction_effect done
  | releaseAll =>
    simp only [perform, resReleaseAll]
    split
    · exact .idle
    split
    · exact .idle
    next closed => exact .began (by simpa using closed)
  | iterate => exact .idle
  | finish => exact .idle

/-- So has every iteration of a release. -/
theorem releaseLoop_effect {p : π} {number : Nat} {callers : List (Frame π)}
    (top : w.stack = .release p number :: callers)
    : Effect w (releaseLoop w p number callers) := by
  unfold releaseLoop
  split
  next none => exact .ended top (List.getLast?_eq_none_iff.mp none)
  next node last =>
    obtain ⟨rest, split⟩ := List.getLast?_eq_some_iff.mp last
    have dropped : (w.pools p).resources.dropLast = rest := by
      rw [split, List.dropLast_concat]
    split
    next stray =>
      exact .bugged (by rw [split]; exact List.mem_append_right _ List.mem_cons_self) stray
    next owned =>
      rw [not_not] at owned
      obtain ⟨owner, action⟩ := node
      subst owned
      rw [dropped]
      cases action with
      | none => exact .freed top split
      | some => exact .ran top split

/-- So has every step. -/
theorem Step.effect {act : Act π φ δ} (taken : Step w act next)
    : Effect w next := by
  unfold Step step at taken
  split at taken
  next top =>
    cases taken
    exact releaseLoop_effect top
  · cases taken
  next top =>
    cases taken
    exact .finished top
  · cases taken
  · split at taken
    · cases taken
      exact perform_effect w _
    · cases taken

end Modvm.Util.Pools
