import Mathlib.Algebra.Ring.Nat
import Mathlib.Logic.Function.Basic
import Modvm.Util.ResPool

/-! Resource pools with re-entrant cleanup: the calls in progress form a stack, and between two
calls the code decides freely what to call next, which covers every cleanup function.
-/

namespace Modvm.Util.Pools

variable {π φ δ : Type}

/-- The cleanup function of a node; `id` is a history variable that numbers additions. -/
structure Obligation (φ δ : Type) where
  fn : φ
  data : δ
  id : Nat
deriving DecidableEq, Repr

def Obligation.key (obligation : Obligation φ δ) : φ × δ := (obligation.fn, obligation.data)

/-- `struct res_node`; a node without an action is memory. -/
structure ResNode (π φ δ : Type) where
  pool : Option π
  action : Option (Obligation φ δ)
deriving DecidableEq, Repr

structure Pool (π φ δ : Type) where
  resources : List (ResNode π φ δ)
  releasing : Bool
deriving DecidableEq, Repr

def resPoolInit : Pool π φ δ := ⟨[], false⟩

def Pool.obligations (pool : Pool π φ δ) : List (Obligation φ δ) :=
  pool.resources.filterMap ResNode.action

/-- A call in progress: a release between two iterations of its loop, or a cleanup function. -/
inductive Frame (π : Type) where
  | release (pool : π) (number : Nat)
  | callback
deriving DecidableEq, Repr

/-- What happened; `began` records the obligations and the number of resources found. -/
inductive Event (π : Type) where
  | entered (pool : π) (id : Nat)
  | cancelled (id : Nat)
  | began (release : Nat) (pool : π) (held : List Nat) (size : Nat)
  | freed (release : Nat)
  | ran (release id : Nat)
  | ended (release : Nat) (pool : π)
  | refused (call : Nat) (error : VmError)
  | reset (call : Nat)
deriving DecidableEq, Repr

/-- All pools, the calls in progress, and the history, newest first; `bug` records `BUG_ON`. -/
structure World (π φ δ : Type) where
  pools : π → Pool π φ δ
  stack : List (Frame π)
  bug : Bool
  nextId : Nat
  nextRelease : Nat
  nextCall : Nat
  log : List (Event π)

def World.init : World π φ δ := ⟨fun _ => resPoolInit, [], false, 0, 0, 0, []⟩

def World.clientRuns (w : World π φ δ) : Bool :=
  match w.stack with
  | [] => true
  | .callback :: _ => true
  | .release _ _ :: _ => false

/-- `SIZE_MAX` and the size of a node. -/
abbrev sizeMax : Nat := 2 ^ 64 - 1
abbrev resNodeSize : Nat := 48

section Operations

variable [DecidableEq π] [DecidableEq φ] [DecidableEq δ]

def World.setPool (w : World π φ δ) (p : π) (pool : Pool π φ δ) : World π φ δ :=
  { w with pools := Function.update w.pools p pool }

def World.record (w : World π φ δ) (event : Event π) : World π φ δ :=
  { w with log := event :: w.log }

/-- The `pool` field and the obligation of a node that carries this function with this data. -/
def ResNode.matched (fn : φ) (data : δ) (node : ResNode π φ δ)
    : Option (Option π × Obligation φ δ) :=
  match node.action with
  | none => none
  | some obligation =>
      if obligation.fn = fn ∧ obligation.data = data then some (node.pool, obligation)
      else none

def ResNode.carries (fn : φ) (data : δ) (node : ResNode π φ δ) : Bool :=
  (node.matched fn data).isSome

def Pool.find (pool : Pool π φ δ) (fn : φ) (data : δ) : Option (Option π × Obligation φ δ) :=
  pool.resources.findSome? (ResNode.matched fn data)

def Pool.addTail (pool : Pool π φ δ) (node : ResNode π φ δ) : Pool π φ δ :=
  { pool with resources := pool.resources ++ [node] }

/-- `list_del` of the first node that carries the function with the data. -/
def Pool.delete (pool : Pool π φ δ) (fn : φ) (data : δ) : Pool π φ δ :=
  { pool with resources := pool.resources.eraseP (ResNode.carries fn data) }

/-- `res_zalloc`; `allocated` is the outcome of `calloc`, `none` a null pointer. -/
def resZalloc (w : World π φ δ) (pool : Option π) (size : Nat) (allocated : Bool)
    : Option (World π φ δ) :=
  match pool with
  | none => none
  | some p =>
      if (w.pools p).releasing || size == 0 || decide (size > sizeMax - resNodeSize) then none
      else if !allocated then none
      else some (w.setPool p ((w.pools p).addTail ⟨some p, none⟩))

def resAddAction (w : World π φ δ) (pool : Option π) (fn : Option φ) (data : δ)
    (allocated : Bool)
    : Except VmError (World π φ δ) :=
  match pool, fn with
  | some p, some fn =>
      if (w.pools p).releasing then .error .eshutdown
      else if (w.pools p).resources.any (ResNode.carries fn data) then .error .eexist
      else if !allocated then .error .enomem
      else
        let added :=
          w.setPool p ((w.pools p).addTail ⟨some p, some ⟨fn, data, w.nextId⟩⟩)
        .ok ({ added with nextId := w.nextId + 1 }.record (.entered p w.nextId))
  | _, _ => .error .einval

/-- `res_add_action_or_reset`; a failure that could run a function is recorded, and enters it. -/
def resAddActionOrReset (w : World π φ δ) (pool : Option π) (fn : Option φ) (data : δ)
    (allocated : Bool)
    : World π φ δ :=
  match resAddAction w pool fn data allocated with
  | .ok added => added
  | .error error =>
      if fn.isNone then w
      else
        let call := { w with nextCall := w.nextCall + 1 }.record (.refused w.nextCall error)
        -- an existing obligation already owns the data
        if error = .eexist then call
        else { call with stack := .callback :: w.stack }.record (.reset w.nextCall)

def World.moveNode (w : World π φ δ) (src dst : π) (found : Obligation φ δ) : World π φ δ :=
  let removed := w.setPool src ((w.pools src).delete found.fn found.data)
  (removed.setPool dst ((removed.pools dst).addTail ⟨some dst, some found⟩)).record
    (.entered dst found.id)

def resTransferAction (w : World π φ δ) (src dst : Option π) (fn : Option φ) (data : δ)
    : Except VmError (World π φ δ) :=
  match src, dst, fn with
  | some src, some dst, some fn =>
      if (w.pools src).releasing || (w.pools dst).releasing then .error .eshutdown
      else
        match (w.pools src).find fn data with
        | none => .error .enoent
        | some (pool, found) =>
            if pool ≠ some src then .error .einval
            else if src = dst then .ok w
            else if (w.pools dst).resources.any (ResNode.carries fn data) then .error .eexist
            else .ok (w.moveNode src dst found)
  | _, _, _ => .error .einval

/-- `res_cancel_action`; it does not ask whether the pool is being released. -/
def resCancelAction (w : World π φ δ) (pool : Option π) (fn : Option φ) (data : δ)
    : Except VmError (World π φ δ) :=
  match pool, fn with
  | some p, some fn =>
      match (w.pools p).find fn data with
      | none => .error .enoent
      | some (pool, found) =>
          if pool ≠ some p then .error .einval
          else .ok ((w.setPool p ((w.pools p).delete fn data)).record (.cancelled found.id))
  | _, _ => .error .einval

/-- `res_release_all` up to its loop. -/
def resReleaseAll (w : World π φ δ) (pool : Option π) : World π φ δ :=
  match pool with
  | none => w
  | some p =>
      if (w.pools p).releasing then w
      else
        let entered := w.setPool p { w.pools p with releasing := true }
        { entered with
          stack := .release p w.nextRelease :: w.stack
          nextRelease := w.nextRelease + 1 }.record
            (.began w.nextRelease p ((w.pools p).obligations.map Obligation.id)
              (w.pools p).resources.length)

/-- One iteration of `res_release_all`: remove the last node and run its action, or return. -/
def releaseLoop (w : World π φ δ) (p : π) (number : Nat) (callers : List (Frame π))
    : World π φ δ :=
  match (w.pools p).resources.getLast? with
  | none =>
      { w.setPool p { w.pools p with releasing := false } with stack := callers }.record
        (.ended number p)
  | some node =>
      if node.pool ≠ some p then { w with bug := true }
      else
        let removed :=
          w.setPool p { w.pools p with resources := (w.pools p).resources.dropLast }
        match node.action with
        | none => removed.record (.freed number)
        | some obligation =>
            { removed with stack := .callback :: w.stack }.record (.ran number obligation.id)

end Operations

/-- Operations of client code, an iteration of a release, the return of a cleanup function. -/
inductive Act (π φ δ : Type) where
  | zalloc (pool : Option π) (size : Nat) (allocated : Bool)
  | addAction (pool : Option π) (fn : Option φ) (data : δ) (allocated : Bool)
  | addActionOrReset (pool : Option π) (fn : Option φ) (data : δ) (allocated : Bool)
  | transferAction (src dst : Option π) (fn : Option φ) (data : δ)
  | cancelAction (pool : Option π) (fn : Option φ) (data : δ)
  | releaseAll (pool : Option π)
  | iterate
  | finish

variable [DecidableEq π] [DecidableEq φ] [DecidableEq δ]

def orElseSame (w : World π φ δ) : Except VmError (World π φ δ) → World π φ δ
  | .ok next => next
  | .error _ => w

def perform (w : World π φ δ) : Act π φ δ → World π φ δ
  | .zalloc pool size allocated => (resZalloc w pool size allocated).getD w
  | .addAction pool fn data allocated => orElseSame w (resAddAction w pool fn data allocated)
  | .addActionOrReset pool fn data allocated => resAddActionOrReset w pool fn data allocated
  | .transferAction src dst fn data => orElseSame w (resTransferAction w src dst fn data)
  | .cancelAction pool fn data => orElseSame w (resCancelAction w pool fn data)
  | .releaseAll pool => resReleaseAll w pool
  | .iterate => w
  | .finish => w

def step (w : World π φ δ) (act : Act π φ δ) : Option (World π φ δ) :=
  match act, w.stack with
  | .iterate, .release p number :: callers => some (releaseLoop w p number callers)
  | .iterate, _ => none
  | .finish, .callback :: callers => some { w with stack := callers }
  | .finish, _ => none
  | act, _ => if w.clientRuns then some (perform w act) else none

def Step (w : World π φ δ) (act : Act π φ δ) (next : World π φ δ) : Prop :=
  step w act = some next

end Modvm.Util.Pools
