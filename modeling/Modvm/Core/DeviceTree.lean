import Mathlib.Logic.Function.Basic
import Modvm.Util.ResPool

/-! The devices of a virtual machine: their list, parents, realization and destruction. Hooks and
cleanup functions run any code that leaves the list alone while devices are torn down.
-/

namespace Modvm.Core.Tree

open Modvm.Util

inductive DeviceState where
  | new
  | initializing
  | active
  | failed
  | destroying
deriving DecidableEq, Repr

/-- `struct device_ops`, of which only the presence of `stop` matters here. -/
structure DeviceOps where
  stop : Bool
deriving DecidableEq, Repr

/-- `struct device`. The last field is a history variable. -/
structure Device (α : Type) where
  parent : Option Nat
  state : DeviceState
  ops : Option DeviceOps
  priv : Bool
  resources : ResPool α
  freed : Bool

/-- What happens to devices, as the history records it. -/
inductive Event (α : Type) where
  | stopped (dev : Nat)
  | ran (dev : Nat) (action : α)
  | freed (dev : Nat)
deriving DecidableEq, Repr

/-- The devices in order of allocation, the state of the device models, and the history. -/
structure Machine (α σ : Type) where
  devices : List Nat
  device : Nat → Device α
  env : σ
  log : List (Event α)

variable {α σ : Type}

namespace Machine

def modify (m : Machine α σ) (dev : Nat) (update : Device α → Device α) : Machine α σ :=
  { m with device := Function.update m.device dev (update (m.device dev)) }

def setResources (m : Machine α σ) (dev : Nat) (resources : ResPool α) : Machine α σ :=
  m.modify dev fun device => { device with resources := resources }

def setState (m : Machine α σ) (dev : Nat) (state : DeviceState) : Machine α σ :=
  m.modify dev fun device => { device with state := state }

def record (m : Machine α σ) (event : Event α) : Machine α σ :=
  { m with log := m.log ++ [event] }

end Machine

/-- A call of a pool operation by a hook; `allocated` is the outcome of `calloc`. -/
inductive PoolCall (α : Type) where
  | zalloc (dev : Nat) (allocated : Bool)
  | addAction (dev : Nat) (action : α) (allocated : Bool)
  | transferAction (src dst : Nat) (action : α)
  | cancelAction (dev : Nat) (action : α)

/-- What a hook does: the new state of the device models, and its pool operations in order. -/
abbrev HookEffect (α σ : Type) := σ × List (PoolCall α)

/-- The code of the device models; `realize` may be absent, and sets up devices freely. -/
structure Hooks (α σ : Type) where
  realize : Nat → Option (Machine α σ → Except VmError Unit × Machine α σ)
  stop : Nat → Machine α σ → HookEffect α σ
  cleanup : Nat → α → Machine α σ → HookEffect α σ

variable [DecidableEq α]

/-- One pool operation. A freed device has no pool to call it on. -/
def PoolCall.apply (call : PoolCall α) (m : Machine α σ) : Machine α σ :=
  match call with
  | .zalloc dev allocated =>
      if (m.device dev).freed then m
      else
        match resZalloc allocated (m.device dev).resources with
        | none => m
        | some pool => m.setResources dev pool
  | .addAction dev action allocated =>
      if (m.device dev).freed then m
      else
        match resAddAction allocated action (m.device dev).resources with
        | .error _ => m
        | .ok pool => m.setResources dev pool
  | .transferAction src dst action =>
      let fromPool := (m.device src).resources
      let toPool := (m.device dst).resources
      if (m.device src).freed || (m.device dst).freed then m
      else if fromPool.releasing || toPool.releasing then m
      else if some action ∉ fromPool.resources ∨ src = dst ∨ some action ∈ toPool.resources then m
      else
        (m.setResources src { fromPool with resources := fromPool.resources.erase (some action) })
          |>.setResources dst { toPool with resources := toPool.resources ++ [some action] }
  | .cancelAction dev action =>
      if (m.device dev).freed then m
      else
        m.setResources dev { (m.device dev).resources with
          resources := (m.device dev).resources.resources.erase (some action) }

def Machine.hook (m : Machine α σ) (effect : HookEffect α σ) : Machine α σ :=
  effect.2.foldl (fun m call => call.apply m) { m with env := effect.1 }

variable (hooks : Hooks α σ)

/-- `if (dev->ops && dev->ops->stop) dev->ops->stop(dev)`. -/
def callStop (dev : Nat) (m : Machine α σ) : Machine α σ :=
  match (m.device dev).ops with
  | some ⟨true⟩ => (m.record (.stopped dev)).hook (hooks.stop dev m)
  | _ => m

/-- Rounds of the loop of `res_release_all`: unlink the last resource and run its action. -/
def releaseLoop (dev : Nat) : Nat → Machine α σ → Machine α σ
  | 0, m => m
  | rounds + 1, m =>
      match (m.device dev).resources.resources.getLast? with
      | none => m
      | some resource =>
          let m := m.setResources dev { (m.device dev).resources with
            resources := (m.device dev).resources.resources.dropLast }
          match resource with
          | none => releaseLoop dev rounds m
          | some action =>
              releaseLoop dev rounds
                ((m.record (.ran dev action)).hook (hooks.cleanup dev action m))

/-- `res_release_all` of a device; the number of resources bounds the rounds. -/
def resReleaseAll (dev : Nat) (m : Machine α σ) : Machine α σ :=
  if (m.device dev).resources.releasing then m
  else
    let m := m.setResources dev { (m.device dev).resources with releasing := true }
    let m := releaseLoop hooks dev (m.device dev).resources.resources.length m
    m.setResources dev { (m.device dev).resources with releasing := false }

/-- `device_destroy_locked` after the children are gone. -/
def destroySelf (dev : Nat) (m : Machine α σ) : Machine α σ :=
  let m := m.setState dev .destroying
  let m := { m with devices := m.devices.erase dev }
  let m := resReleaseAll hooks dev (callStop hooks dev m)
  (m.modify dev fun device => { device with freed := true }).record (.freed dev)

mutual

/-- `device_destroy_locked`. Parent pointers could form a cycle: `none` is more calls than `fuel`.
-/
def deviceDestroy : Nat → Nat → Machine α σ → Option (Machine α σ)
  | 0, _, _ => none
  | fuel + 1, dev, m => (deviceDestroyChildren fuel dev m).map (destroySelf hooks dev)

/-- `device_destroy_children`: the scan restarts after each child. -/
def deviceDestroyChildren : Nat → Nat → Machine α σ → Option (Machine α σ)
  | 0, _, _ => none
  | fuel + 1, dev, m =>
      match m.devices.find? fun child => (m.device child).parent == some dev with
      | none => some m
      | some found => (deviceDestroy fuel found m).bind (deviceDestroyChildren fuel dev)

end

def unrealizeSelf (dev : Nat) (m : Machine α σ) : Machine α σ :=
  (resReleaseAll hooks dev (callStop hooks dev m)).modify dev fun device =>
    { device with ops := none, priv := false, parent := none }

/-- `device_realize_locked` of an allocated device. -/
def deviceRealize (fuel dev : Nat) (m : Machine α σ)
    : Option (Except VmError Unit × Machine α σ) :=
  if (m.device dev).state ≠ .new then some (.error .ealready, m)
  else
    let m := m.setState dev .initializing
    match hooks.realize dev with
    | none => some (.ok (), m.setState dev .active)
    | some realize =>
        match realize m with
        | (.ok _, m) => some (.ok (), m.setState dev .active)
        | (.error error, m) =>
            (deviceDestroyChildren hooks fuel dev (m.setState dev .failed)).map fun m =>
              (.error error, unrealizeSelf hooks dev m)

end Modvm.Core.Tree
