import Modvm.Core.VmLifecycle

/-! The order of teardown, whatever step of the construction failed. -/

namespace Modvm.Core.Lifecycle

open Modvm.Util Modvm.Lib Modvm.Core.Tree

variable {α β σ : Type}

/-! ### What is scheduled -/

def coreOf : Option (VmCleanup β) → Option CoreCleanup
  | some (.core cleanup) => some cleanup
  | _ => none

def Vm.scheduled (vm : Vm α β σ) : List CoreCleanup := vm.resources.resources.filterMap coreOf

def coreOrder : List CoreCleanup := [.io, .mutex, .memory, .accel]

/-- How far the construction came: `level` of the four cleanups, then those of `vcpus` processors.
-/
structure Stage (level vcpus : Nat) (vm : Vm α β σ) : Prop where
  scheduled : vm.scheduled = coreOrder.take level ++ (List.range vcpus).map .vcpu
  vcpusLast : vcpus = 0 ∨ level = 4
  atRest : vm.resources.releasing = false
  forest : Forest vm.machine.parent vm.machine.devices
  idle : vm.machine.Idle
  ram : level < 4 → vm.ctx.memSpace.regions = [] ∧ vm.ctx.memSpace.totalRam = 0

/-- An object whose cleanup could not be scheduled, which the construction undid itself. -/
def Undone (level : Nat) (log : List (VmEvent α β)) : Prop :=
  log = [] ∨ (level = 0 ∧ log = [.ioDestroyed]) ∨ (level = 1 ∧ log = [.lockDestroyed])

def Building (level vcpus : Nat) (vm : Vm α β σ) : Prop :=
  Stage level vcpus vm ∧ vm.log = []

def Ended (vm : Vm α β σ) : Prop :=
  ∃ level vcpus, level ≤ 4 ∧ Stage level vcpus vm ∧ Undone level vm.log

theorem Building.ended {level vcpus : Nat} (bound : level ≤ 4) (vm : Vm α β σ)
    (building : Building level vcpus vm)
    : Ended vm :=
  ⟨level, vcpus, bound, building.1, .inl building.2⟩

theorem Building.cleared (device : Nat → Tree.Device α) (env : σ)
    : Building 0 0 (Vm.cleared device env : Vm α β σ) := by
  refine ⟨⟨rfl, .inl rfl, rfl, ?_, ?_, fun _ => ⟨rfl, rfl⟩⟩, rfl⟩
  · exact ⟨List.nodup_nil, by simp [Vm.cleared], by simp [Vm.cleared]⟩
  · intro dev member
    simp [Vm.cleared] at member

theorem Stage.congr {level vcpus : Nat} {vm next : Vm α β σ} (stage : Stage level vcpus vm)
    (scheduled : next.scheduled = vm.scheduled)
    (releasing : next.resources.releasing = vm.resources.releasing)
    (machine : next.machine = vm.machine)
    (memSpace : level < 4 → next.ctx.memSpace.regions = vm.ctx.memSpace.regions
      ∧ next.ctx.memSpace.totalRam = vm.ctx.memSpace.totalRam)
    : Stage level vcpus next where
  scheduled := scheduled.trans stage.scheduled
  vcpusLast := stage.vcpusLast
  atRest := releasing.trans stage.atRest
  forest := by
    rw [machine]
    exact stage.forest
  idle := by
    rw [machine]
    exact stage.idle
  ram := fun early => ⟨(memSpace early).1.trans (stage.ram early).1,
    (memSpace early).2.trans (stage.ram early).2⟩

/-! ### The steps of the construction -/

section Steps
variable {level vcpus : Nat}

theorem call_building (bound : level ≤ 4) (result : Except VmError Unit)
    : Triple (Building level vcpus) (call result : Fallible VmError (Vm α β σ))
        (Building level vcpus) Ended := by
  intro vm building
  cases result with
  | ok => exact building
  | error => exact building.ended bound

theorem require_building (bound : level ≤ 4) (condition : Bool) (error : VmError)
    : Triple (Building level vcpus)
        (Fallible.require condition error : Fallible VmError (Vm α β σ))
        (Building level vcpus) Ended :=
  .require fun _ building => building.ended bound

theorem ite_building {condition : Prop} [Decidable condition] {step : Fallible VmError (Vm α β σ)}
    (triple : Triple (Building level vcpus) step (Building level vcpus) Ended)
    : Triple (Building level vcpus) (if condition then step else .skip)
        (Building level vcpus) Ended := by
  split
  · exact triple
  · exact .skip fun _ building => building

def Vm.push (vm : Vm α β σ) (resource : Option (VmCleanup β)) : Vm α β σ :=
  { vm with resources := { vm.resources with
      resources := vm.resources.resources ++ [resource] } }

theorem Vm.push_scheduled (vm : Vm α β σ) (resource : Option (VmCleanup β))
    : (vm.push resource).scheduled = vm.scheduled ++ (coreOf resource).toList := by
  unfold Vm.push Vm.scheduled
  rw [List.filterMap_append]
  cases resource with
  | none => rfl
  | some cleanup => cases cleanup <;> rfl

theorem vmZalloc_cases (allocated : Bool) (vm : Vm α β σ)
    : vmZalloc allocated vm = (.error .enomem, vm)
      ∨ vmZalloc allocated vm = (.ok (), vm.push none) := by
  unfold vmZalloc resZalloc
  by_cases refused : (vm.resources.releasing || !allocated) = true
  · rw [if_pos refused]
    exact .inl rfl
  · rw [if_neg refused]
    exact .inr rfl

theorem Stage.push {vm : Vm α β σ} (stage : Stage level vcpus vm)
    {resource : Option (VmCleanup β)} (foreign : coreOf resource = none)
    : Stage level vcpus (vm.push resource) := by
  refine stage.congr ?_ rfl rfl fun _ => ⟨rfl, rfl⟩
  rw [Vm.push_scheduled, foreign, Option.toList_none, List.append_nil]

theorem Stage.raise {vm : Vm α β σ} (stage : Stage level 0 vm) {cleanup : CoreCleanup}
    (next : coreOrder[level]? = some cleanup)
    : Stage (level + 1) 0 (vm.push (some (.core cleanup))) := by
  refine ⟨?_, .inl rfl, stage.atRest, stage.forest, stage.idle, fun early => ?_⟩
  · rw [Vm.push_scheduled, stage.scheduled, List.take_add_one, next]
    simp [coreOf]
  · exact stage.ram (by omega)

theorem Stage.vcpu {vm : Vm α β σ} (stage : Stage 4 vcpus vm)
    : Stage 4 (vcpus + 1) (vm.push (some (.core (.vcpu vcpus)))) := by
  refine ⟨?_, .inr rfl, stage.atRest, stage.forest, stage.idle, fun early => ?_⟩
  · rw [Vm.push_scheduled, stage.scheduled, List.range_succ, List.map_append]
    rfl
  · omega

theorem vmZalloc_building (bound : level ≤ 4) (allocated : Bool)
    : Triple (Building level vcpus) (vmZalloc allocated : Fallible VmError (Vm α β σ))
        (Building level vcpus) Ended := by
  intro vm building
  rcases vmZalloc_cases allocated vm with refused | added
  · rw [refused]
    exact building.ended bound
  · rw [added]
    exact ⟨building.1.push rfl, building.2⟩

theorem memSpaceInit_building (early : level < 4) (pageSize : Nat)
    : Triple (Building level vcpus) (memSpaceInit pageSize : Fallible VmError (Vm α β σ))
        (Building level vcpus) Ended := by
  intro vm building
  have after : Building level vcpus
      { vm with ctx := { vm.ctx with memSpace := ⟨[], 0, pageSize⟩ } } := by
    obtain ⟨stage, log⟩ := building
    obtain ⟨regions, totalRam⟩ := stage.ram early
    exact ⟨stage.congr rfl rfl rfl fun _ => ⟨regions.symm, totalRam.symm⟩, log⟩
  unfold memSpaceInit
  split
  · rename_i done
    split at done
    · cases done
    · cases done
      exact after
  · rename_i done
    split at done
    · cases done
      exact after.ended (Nat.le_of_lt early)
    · cases done

theorem accelInit_building (bound : level ≤ 4) (desc : Option AccelDesc)
    (result : Except VmError Unit)
    : Triple (Building level vcpus) (accelInit desc result : Fallible VmError (Vm α β σ))
        (Building level vcpus) Ended := by
  intro vm building
  have after : Building level vcpus { vm with ctx := { vm.ctx with accel := desc } } :=
    ⟨building.1.congr rfl rfl rfl fun _ => ⟨rfl, rfl⟩, building.2⟩
  cases desc with
  | none => exact after.ended bound
  | some =>
    cases result with
    | ok => exact after
    | error => exact after.ended bound

theorem allocVcpuArrays_building (bound : level ≤ 4) (first second : Bool)
    : Triple (Building level vcpus)
        (allocVcpuArrays first second : Fallible VmError (Vm α β σ))
        (Building level vcpus) Ended := by
  have either : ∀ (allocated : Bool) (vm : Vm α β σ), Building level vcpus vm
      → Building level vcpus (vmZalloc allocated vm).2 := by
    intro allocated vm building
    rcases vmZalloc_cases allocated vm with refused | added
    · rw [refused]
      exact building
    · rw [added]
      exact ⟨building.1.push rfl, building.2⟩
  intro vm building
  have after := either second _ (either first vm building)
  unfold allocVcpuArrays
  dsimp only
  split
  · rename_i done
    split at done
    · cases done
      exact after
    · cases done
  · rename_i done
    split at done
    · cases done
    · cases done
      exact after.ended bound

theorem becomeReady_building (bound : level ≤ 4) (runError : Option VmError)
    : Triple (Building level vcpus) (becomeReady runError : Fallible VmError (Vm α β σ)) Ended
        Ended := by
  intro vm building
  cases runError with
  | some => exact building.ended bound
  | none =>
    have after : Building level vcpus { vm with ctx := { vm.ctx with state := .ready } } :=
      ⟨building.1.congr rfl rfl rfl fun _ => ⟨rfl, rfl⟩, building.2⟩
    exact after.ended bound

end Steps

section Pool
variable [DecidableEq β]

variable {level vcpus : Nat}

theorem resAddAction_refused_or_added (allocated : Bool) (cleanup : VmCleanup β)
    (pool : ResPool (VmCleanup β))
    : (∃ error, resAddAction allocated cleanup pool = .error error)
      ∨ resAddAction allocated cleanup pool
        = .ok { pool with resources := pool.resources ++ [some cleanup] } := by
  rcases resAddAction_cases allocated cleanup pool with refused | ⟨-, refused⟩ | refused | added
  · exact .inl ⟨_, refused⟩
  · exact .inl ⟨_, refused⟩
  · exact .inl ⟨_, refused⟩
  · exact .inr added

theorem vmAddAction_cases (allocated : Bool) (cleanup : VmCleanup β) (vm : Vm α β σ)
    : (∃ error, vmAddAction allocated cleanup vm = (.error error, vm))
      ∨ vmAddAction allocated cleanup vm = (.ok (), vm.push (some cleanup)) := by
  unfold vmAddAction
  rcases resAddAction_refused_or_added allocated cleanup vm.resources with
    ⟨error, refused⟩ | added
  · rw [refused]
    exact .inl ⟨error, rfl⟩
  · rw [added]
    exact .inr rfl

theorem vmAddAction_building (level : Nat) {cleanup : CoreCleanup}
    (next : coreOrder[level]? = some cleanup) (allocated : Bool)
    : Triple (Building level 0)
        (vmAddAction allocated (.core cleanup) : Fallible VmError (Vm α β σ))
        (Building (level + 1) 0) Ended := by
  have bound : level < coreOrder.length := (List.getElem?_eq_some_iff.mp next).1
  intro vm building
  rcases vmAddAction_cases allocated (.core cleanup) vm with ⟨error, refused⟩ | added
  · rw [refused]
    exact building.ended (Nat.le_of_lt bound)
  · rw [added]
    exact ⟨building.1.raise next, building.2⟩

theorem vmAddActionOrReset_building (level : Nat) {cleanup : CoreCleanup}
    (next : coreOrder[level]? = some cleanup) (early : level < 2) (allocated : Bool)
    : Triple (Building level 0)
        (vmAddActionOrReset allocated cleanup : Fallible VmError (Vm α β σ))
        (Building (level + 1) 0) Ended := by
  intro vm building
  unfold vmAddActionOrReset
  rcases resAddAction_refused_or_added allocated (.core cleanup) vm.resources with
    ⟨error, refused⟩ | added
  · rw [refused]
    have undone : Ended (vm.runCore cleanup) := by
      obtain ⟨stage, log⟩ := building
      rcases (by omega : level = 0 ∨ level = 1) with rfl | rfl
      · cases next
        refine ⟨0, 0, by decide, stage.congr rfl rfl rfl fun _ => ⟨rfl, rfl⟩, .inr (.inl ⟨rfl, ?_⟩)⟩
        simp [Vm.runCore, Vm.record, log]
      · cases next
        refine ⟨1, 0, by decide, stage.congr rfl rfl rfl fun _ => ⟨rfl, rfl⟩, .inr (.inr ⟨rfl, ?_⟩)⟩
        simp [Vm.runCore, Vm.record, log]
    -- Only an action that exists already is left alone.
    cases error <;> first | exact building.ended (by omega) | exact undone
  · rw [added]
    exact ⟨building.1.raise next, building.2⟩

theorem createVcpu_building (host : InitHost α β σ) (index : Nat)
    : Triple (Building 4 index) (createVcpu host index) (Building 4 (index + 1)) Ended := by
  have scheduled : Triple (Building 4 index)
      (vmAddAction (host.vcpuAction index) (.core (.vcpu index)) : Fallible VmError (Vm α β σ))
      (Building 4 (index + 1)) Ended := by
    intro vm building
    rcases vmAddAction_cases (host.vcpuAction index) (.core (.vcpu index)) vm with
      ⟨error, refused⟩ | added
    · rw [refused]
      exact building.ended (Nat.le_refl 4)
    · rw [added]
      exact ⟨building.1.vcpu, building.2⟩
  exact (vmZalloc_building (Nat.le_refl 4) _).andThen
    (scheduled.andThen (call_building (Nat.le_refl 4) _))

theorem filterMap_coreOf_erase (action : β) (resources : List (Option (VmCleanup β)))
    : (resources.erase (some (.board action))).filterMap coreOf
      = resources.filterMap coreOf := by
  induction resources with
  | nil => rfl
  | cons first rest ih =>
    by_cases here : first = some (.board action)
    · subst here
      rw [List.erase_cons_head]
      rfl
    · rw [List.erase_cons_tail (by simpa using here), List.filterMap_cons,
        List.filterMap_cons, ih]

theorem BoardOp.apply_building (op : BoardOp α β σ) {vm : Vm α β σ}
    (building : Building 4 vcpus vm)
    : Building 4 vcpus (op.apply vm) := by
  obtain ⟨stage, log⟩ := building
  cases op with
  | build devices =>
    exact ⟨⟨stage.scheduled, stage.vcpusLast, stage.atRest, devices.forest, devices.idle,
      fun early => absurd early (Nat.lt_irrefl 4)⟩, log⟩
  | addRam =>
    exact ⟨stage.congr rfl rfl rfl fun early => absurd early (Nat.lt_irrefl 4), log⟩
  | zalloc allocated =>
    change Building 4 vcpus (vmZalloc allocated vm).2
    rcases vmZalloc_cases allocated vm with refused | added
    · rw [refused]
      exact ⟨stage, log⟩
    · rw [added]
      exact ⟨stage.push rfl, log⟩
  | addAction action allocated =>
    change Building 4 vcpus (vmAddAction allocated (.board action) vm).2
    rcases vmAddAction_cases allocated (.board action) vm with ⟨error, refused⟩ | added
    · rw [refused]
      exact ⟨stage, log⟩
    · rw [added]
      exact ⟨stage.push rfl, log⟩
  | cancelAction action =>
    exact ⟨stage.congr (filterMap_coreOf_erase action _) rfl rfl fun _ => ⟨rfl, rfl⟩, log⟩
  | requestStop => exact ⟨stage.congr rfl rfl rfl fun _ => ⟨rfl, rfl⟩, log⟩

theorem BoardRun.run_building (hook : BoardRun α β σ)
    : Triple (Building 4 vcpus) hook.run (Building 4 vcpus) Ended := by
  intro vm building
  have after : Building 4 vcpus (hook.ops.foldl (fun vm op => op.apply vm) vm) :=
    List.foldlRecOn (motive := Building 4 vcpus) hook.ops _ building
      fun _ before op _ => op.apply_building before
  unfold BoardRun.run
  cases hook.result with
  | ok => exact after
  | error => exact after.ended (Nat.le_refl 4)

theorem vmInit_ended (config : Option VmConfig) (host : InitHost α β σ)
    : Triple (Building 0 0) (vmInit config host) Ended Ended := by
  cases config with
  | none =>
    exact (call_building (Nat.zero_le 4) _).weaken (fun _ building => building)
      (fun vm building => building.ended (Nat.zero_le 4) vm) (fun _ ended => ended)
  | some config =>
    have check : Triple (Building 0 0) (checkConfig config : Fallible VmError (Vm α β σ))
        (Building 0 0) Ended :=
      (require_building (Nat.zero_le 4) _ _).andThen
        ((require_building (Nat.zero_le 4) _ _).andThen
          (require_building (Nat.zero_le 4) _ _))
    have alloc : ∀ allocated, Triple (Building 0 0)
        (vmZalloc allocated : Fallible VmError (Vm α β σ)) (Building 0 0) Ended :=
      vmZalloc_building (Nat.zero_le 4)
    have copy : Triple (Building 0 0) (copyConfig config host) (Building 0 0) Ended := by
      have optional : ∀ (absent allocated : Bool), Triple (Building 0 0)
          (if absent then .skip else vmZalloc allocated : Fallible VmError (Vm α β σ))
          (Building 0 0) Ended := by
        intro absent allocated
        cases absent with
        | true => exact .skip fun _ building => building
        | false => exact alloc allocated
      exact (Triple.each fun entry _ => ite_building (alloc _)).andThen
        ((optional _ _).andThen (optional _ _))
    have backends : Triple (Building 0 0) (checkBackends config host) (Building 0 0) Ended := by
      refine (require_building (Nat.zero_le 4) _ _).andThen
        ((Triple.each fun _ _ => require_building (Nat.zero_le 4) _ _).andThen
          (Triple.each fun n _ => (require_building (Nat.zero_le 4) _ _).andThen ?_))
      split
      · exact call_building (Nat.zero_le 4) _
      · refine Triple.each fun j _ => ?_
        split
        · exact call_building (Nat.zero_le 4) _
        · exact require_building (Nat.zero_le 4) _ _
    have vcpus : Triple (Building 4 0)
        (Fallible.each (createVcpu host) (List.range' 0 config.nrVcpus.toNat))
        (Building 4 (0 + config.nrVcpus.toNat)) Ended :=
      Triple.count 0 _ (createVcpu_building host)
    exact check.andThen <| copy.andThen <| backends.andThen <|
      (call_building (by decide) _).andThen <|
      (vmAddActionOrReset_building 0 rfl (by decide) _).andThen <|
      (call_building (by decide) _).andThen <|
      (vmAddActionOrReset_building 1 rfl (by decide) _).andThen <|
      (vmAddAction_building 2 rfl _).andThen <|
      (memSpaceInit_building (by decide) _).andThen <|
      (vmAddAction_building 3 rfl _).andThen <|
      (accelInit_building (by decide) _ _).andThen <|
      (ite_building host.boardInit.run_building).andThen <|
      (allocVcpuArrays_building (by decide) _ _).andThen <|
      vcpus.andThen <|
      (ite_building host.lateInit.run_building).andThen <|
      becomeReady_building (by decide) _

end Pool

/-! ### The pool of the machine -/

def VmEvent.isDevice : VmEvent α β → Bool
  | .device _ => true
  | _ => false

def VmEvent.isBoard : VmEvent α β → Bool
  | .boardRan _ => true
  | _ => false

def CoreCleanup.events (regions : List MemRegion) : CoreCleanup → List (VmEvent α β)
  | .io => [.ioDestroyed]
  | .mutex => [.lockDestroyed]
  | .memory => regions.map .ramFreed
  | .accel => [.accelDestroyed]
  | .vcpu index => [.vcpuDestroyed index]

def CoreCleanup.remaining (regions : List MemRegion) : CoreCleanup → List MemRegion
  | .memory => []
  | _ => regions

def coreEvents (regions : List MemRegion) : List CoreCleanup → List (VmEvent α β)
  | [] => []
  | cleanup :: rest =>
      cleanup.events regions ++ coreEvents (cleanup.remaining regions) rest

theorem CoreCleanup.events_core (regions : List MemRegion) (cleanup : CoreCleanup)
    : ∀ event ∈ (cleanup.events regions : List (VmEvent α β)),
        event.isDevice = false ∧ event.isBoard = false := by
  intro event member
  cases cleanup with
  | memory =>
    obtain ⟨region, -, rfl⟩ := List.mem_map.mp member
    exact ⟨rfl, rfl⟩
  | _ =>
    obtain rfl := List.mem_singleton.mp member
    exact ⟨rfl, rfl⟩

structure Released (vm next : Vm α β σ) (cleanups : List CoreCleanup) : Prop where
  devices : next.machine.devices = vm.machine.devices
  regions : .memory ∈ cleanups ∨ vm.ctx.memSpace.regions = []
    → next.ctx.memSpace.regions = []
  totalRam : .memory ∈ cleanups ∨ vm.ctx.memSpace.totalRam = 0
    → next.ctx.memSpace.totalRam = 0
  history : ∃ events, next.log = vm.log ++ events
    ∧ (∀ event ∈ events, event.isDevice = false)
    ∧ events.filter (fun event => !event.isBoard) = coreEvents vm.ctx.memSpace.regions cleanups

theorem Released.core {vm next : Vm α β σ} {cleanup : CoreCleanup} {rest : List CoreCleanup}
    (later : Released (vm.runCore cleanup) next rest)
    : Released vm next (cleanup :: rest) := by
  have machine : (vm.runCore cleanup).machine = vm.machine := by
    cases cleanup <;> rfl
  have regions : (vm.runCore cleanup).ctx.memSpace.regions
      = cleanup.remaining vm.ctx.memSpace.regions := by
    cases cleanup <;> rfl
  have log : (vm.runCore cleanup).log = vm.log ++ cleanup.events vm.ctx.memSpace.regions := by
    cases cleanup <;> rfl
  obtain ⟨events, after, foreign, core⟩ := later.history
  refine ⟨by rw [later.devices, machine], fun empty => later.regions ?_,
    fun empty => later.totalRam ?_, cleanup.events vm.ctx.memSpace.regions ++ events, ?_, ?_, ?_⟩
  · rcases empty with member | none
    · rcases List.mem_cons.mp member with rfl | inRest
      · exact .inr regions
      · exact .inl inRest
    · rw [regions, none]
      cases cleanup <;> exact .inr rfl
  · rcases empty with member | none
    · rcases List.mem_cons.mp member with rfl | inRest
      · exact .inr rfl
      · exact .inl inRest
    · refine .inr ?_
      cases cleanup with
      | memory => rfl
      | _ => exact none
  · rw [after, log, List.append_assoc]
  · intro event member
    rcases List.mem_append.mp member with mine | other
    · exact (cleanup.events_core _ event mine).1
    · exact foreign event other
  · rw [List.filter_append, core, regions]
    refine congrArg (· ++ _) (List.filter_eq_self.mpr fun event member => ?_)
    rw [(cleanup.events_core _ event member).2]
    rfl

theorem resRelease_released (board : β → σ → σ) (resources : List (Option (VmCleanup β)))
    (vm : Vm α β σ)
    : Released vm (resRelease (Vm.runCleanup board) resources vm)
        (resources.filterMap coreOf) := by
  induction resources generalizing vm with
  | nil =>
    refine ⟨rfl, fun empty => ?_, fun empty => ?_, [], (List.append_nil _).symm, by simp, rfl⟩
    · exact empty.resolve_left List.not_mem_nil
    · exact empty.resolve_left List.not_mem_nil
  | cons resource rest ih =>
    rcases resource with _ | cleanup | action
    · exact ih vm
    · exact Released.core (ih (vm.runCore cleanup))
    · -- The cleanup of another records itself alone.
      obtain ⟨devices, regions, totalRam, events, log, foreign, core⟩ :=
        ih (vm.runCleanup board (.board action))
      refine ⟨devices, regions, totalRam, .boardRan action :: events, ?_, ?_, core⟩
      · exact log.trans (List.append_assoc vm.log [.boardRan action] events)
      · exact List.forall_mem_cons.mpr ⟨rfl, foreign⟩

theorem coreEvents_stage {level : Nat} (vcpus : Nat) (bound : level ≤ 4)
    {regions : List MemRegion} (ram : level < 4 → regions = [])
    : (coreEvents regions
        (coreOrder.take level ++ (List.range vcpus).map CoreCleanup.vcpu).reverse
        : List (VmEvent α β))
      = (List.range vcpus).reverse.map .vcpuDestroyed
        ++ (if 4 ≤ level then [.accelDestroyed] else [])
        ++ regions.map .ramFreed
        ++ (if 2 ≤ level then [.lockDestroyed] else [])
        ++ (if 1 ≤ level then [.ioDestroyed] else []) := by
  have processors : ∀ (indices : List Nat) (rest : List CoreCleanup),
      (coreEvents regions (indices.map CoreCleanup.vcpu ++ rest) : List (VmEvent α β))
      = indices.map .vcpuDestroyed ++ coreEvents regions rest := by
    intro indices rest
    induction indices with
    | nil => rfl
    | cons index indices ih => exact congrArg (.vcpuDestroyed index :: ·) ih
  rw [List.reverse_append, ← List.map_reverse, processors]
  simp only [List.append_assoc]
  rcases (by omega : level < 4 ∨ level = 4) with early | rfl
  · obtain rfl := ram early
    rcases (by omega : level = 0 ∨ level = 1 ∨ level = 2 ∨ level = 3) with rfl | rfl | rfl | rfl
      <;> rfl
  · rfl

/-! ### The devices of the machine -/

section Destroy
variable [DecidableEq α] (hooks : Hooks α σ) (board : β → σ → σ)

/-- The device loop destroys all devices, children first, by induction on the rounds. -/
theorem destroyDevices_all (fuel rounds : Nat) (vm : Vm α β σ)
    (forest : Forest vm.machine.parent vm.machine.devices) (idle : vm.machine.Idle)
    (calls : 2 * vm.machine.devices.length ≤ fuel) (enough : vm.machine.devices.length < rounds)
    : ∃ next order parts, destroyDevices hooks fuel rounds vm = some next
      ∧ ChildrenFirst vm.machine.parent vm.machine.devices (fun _ => True) order
      ∧ Destructions hooks vm.machine.device vm.machine order parts next.machine
      ∧ next.log = vm.log ++ parts.flatten.map .device
      ∧ next.machine.devices = []
      ∧ next.ctx = vm.ctx
      ∧ next.resources = vm.resources := by
  induction rounds generalizing vm with
  | zero => omega
  | succ rounds ih =>
    cases found : vm.machine.devices.getLast? with
    | none =>
      have empty := List.getLast?_eq_none_iff.mp found
      refine ⟨vm, [], [], ?_, ?_, .nil _, (List.append_nil _).symm, empty, rfl, rfl⟩
      · rw [destroyDevices, found]
      · refine ⟨List.nodup_nil, fun entry => ?_, .nil⟩
        simp [empty]
    | some dev =>
      have member := List.mem_of_getLast? found
      obtain ⟨machine, first, destroyed, subtree, torn⟩ :=
        deviceDestroy_subtree hooks forest idle member calls
      have inFirst : dev ∈ first := (subtree.mem_iff dev).mpr ⟨member, .inl rfl⟩
      have remaining : Forest machine.parent machine.devices := by
        rw [torn.parent_eq, torn.devices]
        exact forest.without subtree
      have shorter : machine.devices.length < vm.machine.devices.length := by
        rw [torn.devices]
        exact List.length_filter_lt_length_iff_exists.mpr ⟨dev, member, by simpa using inFirst⟩
      obtain ⟨parts, shape, log⟩ := torn.history
      obtain ⟨next, rest, restParts, returned, below, restShape, restLog, empty, ctx, pool⟩ :=
        ih (vm.observe machine) remaining (torn.idle idle)
          (Nat.le_trans (Nat.mul_le_mul_left 2 (Nat.le_of_lt shorter)) calls)
          (show machine.devices.length < rounds by omega)
      have observed : (vm.observe machine).machine = machine := rfl
      rw [observed, torn.parent_eq, torn.devices] at below
      have all := ChildrenFirst.append (fun _ _ => trivial) subtree below
      refine ⟨next, first ++ rest, parts ++ restParts, ?_, all, ?_, ?_, empty, ctx, pool⟩
      · rw [destroyDevices, found]
        dsimp only
        rw [destroyed, Option.bind_some, returned]
      · refine shape.append (restShape.congr fun other later => ?_)
        refine (torn.others other fun early => ?_).ops
        exact (List.nodup_append'.mp all.nodup).2.2 early later
      · rw [restLog]
        simp [Vm.observe, Vm.record, log]

/-- A machine torn down in order: `level` of the four cleanups, and those of the first `vcpus`
processors.
-/
structure OrderedTeardown (hooks : Hooks α σ) (built next : Vm α β σ) (level vcpus : Nat)
    : Prop where
  registered : built.scheduled = coreOrder.take level ++ (List.range vcpus).map .vcpu
  undone : Undone level built.log
  history : ∃ order parts machine events,
    ChildrenFirst built.machine.parent built.machine.devices (fun _ => True) order
    ∧ Destructions hooks built.machine.device built.machine order parts machine
    ∧ next.log = built.log ++ parts.flatten.map .device ++ events
    ∧ (∀ event ∈ events, event.isDevice = false)
    ∧ events.filter (fun event => !event.isBoard)
      = (List.range vcpus).reverse.map .vcpuDestroyed
        ++ (if 4 ≤ level then [.accelDestroyed] else [])
        ++ built.ctx.memSpace.regions.map .ramFreed
        ++ (if 2 ≤ level then [.lockDestroyed] else [])
        ++ (if 1 ≤ level then [.ioDestroyed] else [])
  devices : next.machine.devices = []
  regions : next.ctx.memSpace.regions = []
  totalRam : next.ctx.memSpace.totalRam = 0

theorem vmDestroy_ordered {level vcpus fuel : Nat} {built : Vm α β σ} (bound : level ≤ 4)
    (stage : Stage level vcpus built) (undone : Undone level built.log)
    (enough : 2 * built.machine.devices.length + 1 ≤ fuel)
    : ∃ next, vmDestroy hooks board fuel built = some next
      ∧ OrderedTeardown hooks built next level vcpus := by
  obtain ⟨mid, order, parts, destroyed, all, shape, midLog, empty, ctx, pool⟩ :=
    destroyDevices_all hooks fuel fuel built stage.forest stage.idle (by omega) (by omega)
  have released := resRelease_released board mid.resources.resources.reverse mid
  have cleanups : mid.resources.resources.reverse.filterMap coreOf
      = (coreOrder.take level ++ (List.range vcpus).map CoreCleanup.vcpu).reverse := by
    rw [List.filterMap_reverse, pool]
    exact congrArg List.reverse stage.scheduled
  rw [cleanups] at released
  have memory : CoreCleanup.memory
        ∈ (coreOrder.take level ++ (List.range vcpus).map CoreCleanup.vcpu).reverse
      ∨ level < 4 := by
    rcases (by omega : level < 4 ∨ level = 4) with early | rfl
    · exact .inr early
    · exact .inl (by simp [coreOrder])
  obtain ⟨events, log, foreign, core⟩ := released.history
  have result : vmDestroy hooks board fuel built
      = some { resRelease (Vm.runCleanup board) mid.resources.resources.reverse mid with
          resources := ⟨[], false⟩
          ctx := { (resRelease (Vm.runCleanup board) mid.resources.resources.reverse mid).ctx with
            state := .stopped } } := by
    unfold vmDestroy
    rw [destroyed, Option.map_some]
    unfold releaseVmPool
    rw [pool, stage.atRest]
    rfl
  refine ⟨_, result, ⟨stage.scheduled, undone, ⟨order, parts, _, events, all, shape, ?_, foreign,
    ?_⟩, ?_, ?_, ?_⟩⟩
  · exact log.trans (by rw [midLog])
  · rw [core, ctx, coreEvents_stage vcpus bound fun early => (stage.ram early).1]
  · exact released.devices.trans empty
  · refine released.regions (memory.imp_right fun early => ?_)
    rw [ctx]
    exact (stage.ram early).1
  · refine released.totalRam (memory.imp_right fun early => ?_)
    rw [ctx]
    exact (stage.ram early).2

/-- Teardown after any construction. For every configuration, host and board, and whichever step of
`vm_init` fails, `vm_destroy` returns and all devices go first, then the processors from the last to
the first, then accelerator, RAM, lock and I/O context, each once if it was registered and else not
at all.
-/
theorem vm_teardown_order [DecidableEq β] (config : Option VmConfig) (host : InitHost α β σ)
    (device : Nat → Tree.Device α) (env : σ) (fuel : Nat)
    (enough : 2 * (vmInit config host (Vm.cleared device env)).2.machine.devices.length + 1
      ≤ fuel)
    : ∃ next level vcpus,
        vmDestroy hooks board fuel (vmInit config host (Vm.cleared device env)).2 = some next
        ∧ level ≤ 4
        ∧ OrderedTeardown hooks (vmInit config host (Vm.cleared device env)).2 next level
            vcpus := by
  have ended : Ended (vmInit config host (Vm.cleared device env)).2 := by
    have reached := vmInit_ended config host _ (Building.cleared device env)
    split at reached
    · rename_i done
      rw [done]
      exact reached
    · rename_i done
      rw [done]
      exact reached
  obtain ⟨level, vcpus, bound, stage, undone⟩ := ended
  obtain ⟨next, returned, ordered⟩ :=
    vmDestroy_ordered hooks board bound stage undone enough
  exact ⟨next, level, vcpus, returned, bound, ordered⟩

end Destroy

def twoProcessors : VmConfig where
  accelName := some "kvm"
  nrVcpus := 2
  loaderName := none
  loaderOpts := none
  board := some ⟨true, false⟩
  consoleIsErr := false
  drives := none
  nrDrives := 0
  nets := none
  nrNets := 0

/-- Everything succeeds until the second processor; the board has nested devices, RAM and a cleanup.
-/
def secondProcessorFails : InitHost Nat Nat Unit where
  strings := fun _ => true
  driveArray := true
  netArray := true
  mac := fun _ _ => .ok []
  ioCtx := .ok ()
  ioAction := true
  threadLock := .ok ()
  lockAction := true
  memoryAction := true
  pageSize := 4096
  accelAction := true
  accelDesc := some ⟨true⟩
  accelInit := .ok ()
  boardInit :=
    { ops :=
        [.build ⟨nestedDevices, nestedDevices_forest, fun _ _ => ⟨rfl, rfl⟩⟩ ⟨fun _ => [], 0⟩,
          .addRam ⟨true, .ok (), .ok ()⟩ 0 4096 0, .addAction 7 true]
      result := .ok () }
  vcpuArray := true
  threadArray := true
  vcpuNode := fun _ => true
  vcpuAction := fun _ => true
  vcpuInit := fun index => if index = 1 then .error .eio else .ok ()
  lateInit := ⟨[], .ok ()⟩
  runError := none

/-- The machine that this leaves: both processors are registered, and there is RAM. Its devices are
stopped and release their two cleanups before anything else goes.
-/
theorem vm_teardown_order_second
    : let built := (vmInit (some twoProcessors) secondProcessorFails
        (Vm.cleared nestedDevices.device ())).2
      built.scheduled = [.io, .mutex, .memory, .accel, .vcpu 0, .vcpu 1]
      ∧ built.ctx.memSpace.regions = [⟨0, 4096, 0⟩]
      ∧ ∃ next level vcpus, vmDestroy passiveHooks (fun _ => id) 9 built = some next
        ∧ level ≤ 4
        ∧ OrderedTeardown passiveHooks built next level vcpus
        ∧ next.log = [.device (.stopped 3), .device (.ran 3 13), .device (.ran 3 3),
            .device (.freed 3), .device (.stopped 2), .device (.ran 2 12), .device (.ran 2 2),
            .device (.freed 2), .device (.stopped 1), .device (.ran 1 11), .device (.ran 1 1),
            .device (.freed 1), .device (.stopped 0), .device (.ran 0 10), .device (.ran 0 0),
            .device (.freed 0), .vcpuDestroyed 1, .vcpuDestroyed 0, .boardRan 7, .accelDestroyed,
            .ramFreed ⟨0, 4096, 0⟩, .lockDestroyed, .ioDestroyed] := by
  refine ⟨by decide, by decide, ?_⟩
  obtain ⟨next, level, vcpus, returned, bound, ordered⟩ :=
    vm_teardown_order passiveHooks (fun _ => id) (some twoProcessors) secondProcessorFails
      nestedDevices.device () 9 (by decide)
  refine ⟨next, level, vcpus, returned, bound, ordered, ?_⟩
  have log := congrArg (Option.map (·.log)) returned
  exact Option.some.inj (log.symm.trans (by decide +kernel))

end Modvm.Core.Lifecycle
