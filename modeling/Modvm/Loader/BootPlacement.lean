import Modvm.Loader.LinuxBoot

/-! Placement of a Linux kernel, its workspace and its initrd in low RAM. -/

namespace Modvm.Loader

open Modvm.Core Modvm.Lib

namespace LinuxHeader

/-- Where the kernel runs: its preferred address, at least 1 MiB, aligned if it is relocatable. -/
structure RunsAt (header : LinuxHeader) (start : Nat) : Prop where
  fixed : header.relocatable = 0 → start = header.prefAddress
  moved : header.relocatable ≠ 0 →
    IsLeast {place | header.alignment ∣ place ∧ max kernelGpa header.prefAddress ≤ place} start

structure Accepted (header : LinuxHeader) : Prop where
  magic : header.magic = linuxMagicHdr
  version : 0x020a ≤ header.version
  workspace : 0 < header.initSize
  aligned : header.relocatable ≠ 0 → header.alignment.isPowerOfTwo
    ∧ max kernelGpa header.prefAddress + (header.alignment - 1) ≤ uint64Max

variable {header : LinuxHeader} {start : Nat}

theorem RunsAt.unique {other : Nat} (here : header.RunsAt start) (there : header.RunsAt other)
    : start = other := by
  by_cases movable : header.relocatable ≠ 0
  · exact (here.moved movable).unique (there.moved movable)
  · have fixed := not_not.mp movable
    rw [here.fixed fixed, there.fixed fixed]

theorem runtimeStart_relocatable (movable : header.relocatable ≠ 0)
    (power : header.alignment.isPowerOfTwo)
    : header.runtimeStart
      = if max kernelGpa header.prefAddress > uint64Max - (header.alignment - 1) then
          .error einvalResult
        else
          .ok (BitVec.ofNat 64 (max kernelGpa header.prefAddress + header.alignment - 1)
            &&& ~~~ BitVec.ofNat 64 (header.alignment - 1)).toNat := by
  have positive : 0 < header.alignment := Nat.pos_of_isPowerOfTwo power
  have valid : ¬ (header.alignment = 0 ∨ notPowerOfTwo header.alignment = true) := by
    rw [not_or, Bool.not_eq_true]
    exact ⟨Nat.ne_of_gt positive, (notPowerOfTwo_eq_false_iff positive).mpr power⟩
  have raised : (if header.prefAddress < kernelGpa then kernelGpa else header.prefAddress)
      = max kernelGpa header.prefAddress := by
    split
    · omega
    · omega
  unfold runtimeStart
  rw [if_pos movable, if_neg valid, raised]

theorem runtimeStart_runsAt (found : header.runtimeStart = .ok start)
    : header.RunsAt start := by
  refine ⟨fun fixed => ?_, fun movable => ?_⟩
  · unfold runtimeStart at found
    rw [if_neg (not_not_intro fixed)] at found
    exact (Except.ok.inj found).symm
  · by_cases valid : header.alignment = 0 ∨ notPowerOfTwo header.alignment = true
    · unfold runtimeStart at found
      rw [if_pos movable, if_pos valid] at found
      cases found
    · rw [not_or, Bool.not_eq_true] at valid
      have positive : 0 < header.alignment := Nat.pos_of_ne_zero valid.1
      have power := (notPowerOfTwo_eq_false_iff positive).mp valid.2
      rw [runtimeStart_relocatable movable power] at found
      split at found
      · cases found
      next below =>
        cases found
        refine roundUp_mask_isLeast power ?_
        have above : 0 < max kernelGpa header.prefAddress :=
          Nat.lt_of_lt_of_le (by decide) (Nat.le_max_left ..)
        unfold uint64Max at below
        omega

theorem Accepted.runtimeStart_eq (accepted : header.Accepted) (runs : header.RunsAt start)
    : header.runtimeStart = .ok start := by
  have found : ∃ found, header.runtimeStart = .ok found := by
    by_cases movable : header.relocatable ≠ 0
    · obtain ⟨power, below⟩ := accepted.aligned movable
      rw [runtimeStart_relocatable movable power, if_neg (by omega)]
      exact ⟨_, rfl⟩
    · unfold runtimeStart
      rw [if_neg movable]
      exact ⟨_, rfl⟩
  obtain ⟨place, found⟩ := found
  rw [found, (runtimeStart_runsAt found).unique runs]

end LinuxHeader

section
variable {space : MemSpace} {header : LinuxHeader} {start payload size place : Nat}

/-- The kernel and the workspace that it asks for lie in low RAM. -/
structure KernelFits (space : MemSpace) (header : LinuxHeader) (start payload : Nat) : Prop where
  payload : InLowRam space ⟨kernelGpa, payload⟩
  workspace : InLowRam space ⟨start, header.initSize⟩

/-- A place for an initrd: low RAM, on a page, above the kernel's workspace, below the kernel's
limit.
-/
structure InitrdFits (space : MemSpace) (header : LinuxHeader) (start payload size place : Nat)
    : Prop where
  inside : InLowRam space ⟨place, size⟩
  aligned : 4096 ∣ place
  aboveKernel : kernelGpa + payload ≤ place
  aboveWorkspace : start + header.initSize ≤ place
  last : place + size - 1 ≤ header.initrdMax

theorem kernelGpa_le_lowRam (layout : space.Layout)
    : kernelGpa ≤ lowRam space := by
  have reach := (lowRamLoop_reach layout kernelGpa).above
  unfold lowRam
  dsimp only
  split
  · decide
  · exact reach

theorem kernelFits_iff (layout : space.Layout) (start payload : Nat)
    (positive : 0 < header.initSize)
    : KernelFits space header start payload
      ↔ kernelGpa + payload ≤ lowRam space
        ∧ ¬ (header.initSize = 0 ∨ start < kernelGpa ∨ start ≥ lowRam space
          ∨ header.initSize > lowRam space - start) := by
  have workspace : InLowRam space ⟨start, header.initSize⟩ ↔ _ := inLowRam_iff layout positive
  constructor
  · rintro ⟨kernel, work⟩
    refine ⟨?_, by have := workspace.mp work; omega⟩
    by_cases empty : payload = 0
    · rw [empty]
      exact kernelGpa_le_lowRam layout
    · exact ((inLowRam_iff layout (Nat.pos_of_ne_zero empty)).mp kernel).2
  · rintro ⟨below, fits⟩
    refine ⟨?_, workspace.mpr (by omega)⟩
    rintro address ⟨low, high⟩
    exact (lowRam_iff layout).mpr ⟨low, Nat.lt_of_lt_of_le high below⟩

theorem initrdGpa_eq {limit : Nat} (bounded : limit ≤ 2 ^ 32) (size : Nat)
    : initrdGpa limit size = (limit - size) / 4096 * 4096 := by
  have rounded := and_not_mask (BitVec.ofNat 64 (limit - size)) 12
  rw [BitVec.toNat_ofNat, Nat.mod_eq_of_lt (by omega)] at rounded
  exact rounded

theorem Checked.initrdLimit_eq {image : LinuxImage} (checked : Checked space image)
    : image.header.initrdLimit image.lowRam
      = min (lowRam space) (image.header.initrdMax + 1) := by
  unfold LinuxHeader.initrdLimit
  rw [checked.low]
  split
  · omega
  · omega

theorem Checked.passes_fits {image : LinuxImage} (layout : space.Layout)
    (checked : Checked space image) (positive : 0 < size)
    (chosen : initrdGpa (image.header.initrdLimit image.lowRam) size = place)
    (passes : InitrdPasses image size place)
    : InitrdFits space image.header image.runtimeStart image.payloadSize size place := by
  have below := lowRam_le space
  have limit := checked.initrdLimit_eq
  rw [initrdGpa_eq (by omega)] at chosen
  obtain ⟨small, above⟩ := passes
  refine ⟨(inLowRam_iff layout positive).mpr (by omega), ?_, by omega, by omega, by omega⟩
  rw [← chosen]
  exact Nat.dvd_mul_left ..

theorem Checked.passes_of_fits {image : LinuxImage} (layout : space.Layout)
    (checked : Checked space image) (positive : 0 < size)
    (fits : InitrdFits space image.header image.runtimeStart image.payloadSize size place)
    : InitrdPasses image size (initrdGpa (image.header.initrdLimit image.lowRam) size) := by
  have below := lowRam_le space
  have limit := checked.initrdLimit_eq
  obtain ⟨inside, ⟨pages, rfl⟩, aboveKernel, aboveWorkspace, last⟩ := fits
  obtain ⟨-, within⟩ := (inLowRam_iff layout positive).mp inside
  rw [initrdGpa_eq (by omega)]
  unfold InitrdPasses
  omega

end

theorem initrd_memory {page place : Nat} (ram : Nat → Byte) (kernel content : List Byte)
    (below : page + 0x220 ≤ kernelGpa) (above : kernelGpa + kernel.length ≤ place)
    (some : 0 < content.length) (fits : place + content.length ≤ 2 ^ 32)
    : let after := writeBytes (writeBytes (writeBytes (writeBytes ram kernelGpa kernel) place
        content) (page + 0x218) (toLe 4 place)) (page + 0x21c) (toLe 4 content.length)
      readLe after ⟨page + 0x218, 4⟩ = place
        ∧ readLe after ⟨page + 0x21c, 4⟩ = content.length
        ∧ readBytes after place content.length = content
        ∧ readBytes after kernelGpa kernel.length = kernel := by
  intro after
  have power : (256 : Nat) ^ 4 = 2 ^ 32 := by decide
  refine ⟨?_, ?_, ?_, ?_⟩
  · have apart : (Span.mk (page + 0x218) 4).Apart
        ⟨page + 0x21c, (toLe 4 content.length).length⟩ := .inl (by simp)
    rw [readLe_congr (AgreeOn.of_apart _ apart), readLe_writeBytes]
    exact Nat.mod_eq_of_lt (by omega)
  · rw [readLe_writeBytes]
    exact Nat.mod_eq_of_lt (by omega)
  · rw [readBytes_writeBytes_apart _ (.inr (by simp only [toLe_length]; omega)),
      readBytes_writeBytes_apart _ (.inr (by simp only [toLe_length]; omega)),
      readBytes_writeBytes]
  · have apart : (Span.mk kernelGpa kernel.length).Apart ⟨place, content.length⟩ := .inl above
    rw [readBytes_writeBytes_apart _ (.inr (by simp only [toLe_length]; omega)),
      readBytes_writeBytes_apart _ (.inr (by simp only [toLe_length]; omega)),
      readBytes_writeBytes_apart _ apart, readBytes_writeBytes]

/-- The initrd is in memory, at the address and with the size that the boot parameters give. -/
structure InitrdLoaded (space : MemSpace) (header : LinuxHeader) (start payload : Nat)
    (content : List Byte) (ram : Nat → Byte)
    : Prop where
  fits : InitrdFits space header start payload content.length
    (readLe ram ⟨zeroPageGpa + 0x218, 4⟩)
  size : readLe ram ⟨zeroPageGpa + 0x21c, 4⟩ = content.length
  bytes : readBytes ram (readLe ram ⟨zeroPageGpa + 0x218, 4⟩) content.length = content

section
variable {space : MemSpace} {options : LinuxOptions} {allocates : Bool} {ram : Nat → Byte}
  {image : LinuxImage} {after : Nat → Byte}

theorem injectLinux_loads (layout : space.Layout) (checked : Checked space image)
    (done : injectLinux space image options allocates ram = (.ok (), after))
    : let payload := image.file.content.drop image.header.setupSize
      KernelFits space image.header image.runtimeStart payload.length
        ∧ readBytes after kernelGpa payload.length = payload
        ∧ ∀ opened ∈ options.initrd, ∃ initrd, opened = .ok initrd
          ∧ InitrdLoaded space image.header image.runtimeStart payload.length initrd.content
            after := by
  intro payload
  obtain ⟨params, -, rest⟩ := Fallible.andThen_eq_ok.mp done
  obtain ⟨kernel, loaded, rest⟩ := Fallible.andThen_eq_ok.mp rest
  obtain ⟨between, placed, allocated⟩ := Fallible.andThen_eq_ok.mp rest
  obtain rfl : between = after := by
    unfold Fallible.require at allocated
    split at allocated
    · exact congrArg Prod.snd allocated
    · cases allocated
  obtain ⟨below, stored⟩ := loadPayload_stores checked loaded
  have length : payload.length = image.payloadSize := by
    have size := checked.size
    rw [List.length_drop]
    omega
  have workspace := checked.workspace
  rw [checked.low] at workspace
  have fits : KernelFits space image.header image.runtimeStart payload.length :=
    (kernelFits_iff layout _ _ (by omega)).mpr ⟨by omega, workspace⟩
  refine ⟨fits, ?_⟩
  cases named : options.initrd with
  | none =>
    rw [named] at placed
    cases placed
    refine ⟨?_, nofun⟩
    rw [stored, readBytes_writeBytes]
  | some =>
    rw [named] at placed
    obtain ⟨file, rfl, chosen⟩ := loadInitrd_places placed
    obtain ⟨positive, passes, written⟩ := placeInitrd_stores chosen
    have found := checked.passes_fits layout positive rfl passes
    rw [← length] at found
    obtain ⟨-, top⟩ := (inLowRam_iff layout positive).mp found.inside
    have limit := lowRam_le space
    rw [stored, checked.zeroPage] at written
    obtain ⟨address, size, bytes, kept⟩ := initrd_memory params payload file.content
      (by decide : zeroPageGpa + 0x220 ≤ kernelGpa) found.aboveKernel positive
      (by omega)
    rw [← written] at address size bytes kept
    refine ⟨kept, ?_⟩
    rintro _ ⟨⟩
    refine ⟨file, rfl, ?_, size, ?_⟩
    · rw [address]
      exact found
    · rw [address]
      exact bytes

/-- Everything but the placement is in order: files, header, initrd, room in the E820 map, and pages
for boot parameters and command line.
-/
structure Ready (space : MemSpace) (options : LinuxOptions) (file : HostFile)
    (initrd : Option HostFile)
    : Prop where
  kernelOpened : options.kernel = .ok file
  initrdOpened : options.initrd = initrd.map .ok
  healthy : file.Healthy
  header : (LinuxHeader.decode (file.fread 0 1024)).Accepted
  large : (LinuxHeader.decode (file.fread 0 1024)).setupSize ≤ file.content.length
  initrdHealthy : ∀ rd ∈ initrd, rd.Healthy ∧ 0 < rd.content.length
  regions : space.regions.length ≤ 128
  zeroPage : (memMapRange space zeroPageGpa 4096 true).isSome
  cmdline : (memMapRange space cmdlineGpa 4096 true).isSome

/-- There is a place for everything. -/
def Fits (space : MemSpace) (header : LinuxHeader) (start payload : Nat)
    (initrd : Option HostFile)
    : Prop :=
  KernelFits space header start payload
    ∧ ∀ rd ∈ initrd, ∃ place,
      InitrdFits space header start payload rd.content.length place

theorem injectLinux_ready (layout : space.Layout) (checked : Checked space image)
    (healthy : image.file.Healthy) {initrd : Option HostFile}
    (named : options.initrd = initrd.map .ok)
    (initrdHealthy : ∀ rd ∈ initrd, rd.Healthy ∧ 0 < rd.content.length)
    (few : space.regions.length ≤ 128) (ram : Nat → Byte)
    : (Fits space image.header image.runtimeStart image.payloadSize initrd →
        (injectLinux space image options true ram).1 = .ok ())
      ∧ (¬ Fits space image.header image.runtimeStart image.payloadSize initrd →
        (injectLinux space image options true ram).1 = .error enospcResult) := by
  have workspace := checked.workspace
  rw [checked.low] at workspace
  have kernel := kernelFits_iff layout image.runtimeStart image.payloadSize
    (by omega : 0 < image.header.initSize)
  unfold injectLinux
  rw [Fallible.andThen_of_ok (storeBootParams_succeeds few image options.cmdline ram)]
  generalize (storeBootParams space image options.cmdline ram).2 = params
  have payload := loadPayload_ready layout checked healthy params
  by_cases below : kernelGpa + image.payloadSize ≤ lowRam space
  · rw [if_pos below] at payload
    rw [Fallible.andThen_of_ok payload]
    generalize (loadPayload space image params).2 = loaded
    have fits := kernel.mpr ⟨below, workspace⟩
    cases initrd with
    | none =>
      rw [named]
      exact ⟨fun _ => rfl, fun unfit => absurd ⟨fits, nofun⟩ unfit⟩
    | some file =>
      obtain ⟨well, positive⟩ := initrdHealthy file rfl
      have placed := loadInitrd_ready layout well positive rfl (fun passes address has =>
        ((checked.passes_fits layout positive rfl passes).inside address has).grants) loaded
      rw [named]
      change (_ → (Fallible.andThen (loadInitrd space image (.ok file)) _ _).1 = _)
        ∧ (_ → (Fallible.andThen (loadInitrd space image (.ok file)) _ _).1 = _)
      constructor
      · rintro ⟨-, places⟩
        obtain ⟨place, found⟩ := places file rfl
        rw [if_pos (checked.passes_of_fits layout positive found)] at placed
        rw [Fallible.andThen_of_ok placed]
        rfl
      · intro unfit
        have refused : ¬ InitrdPasses image file.content.length
            (initrdGpa (image.header.initrdLimit image.lowRam) file.content.length) := by
          intro passes
          refine unfit ⟨fits, ?_⟩
          rintro _ ⟨⟩
          exact ⟨_, checked.passes_fits layout positive rfl passes⟩
        rw [if_neg refused] at placed
        rw [Fallible.andThen_of_error placed]
  · rw [if_neg below] at payload
    rw [Fallible.andThen_of_error payload]
    refine ⟨fun fits => absurd (kernel.mp fits.1).1 below, fun _ => rfl⟩

end

/-- Linux boot placement. If a load succeeds, payload, workspace and initrd lie in low RAM; the
workspace begins where the kernel runs; the initrd lies on a page above both, below the kernel's
limit, and the boot parameters give its address and size; payload and initrd are in memory.
Conversely, if all else is in order, a load succeeds whenever there is such a place, and otherwise
fails for want of space.
-/
theorem linux_boot_placement {space : MemSpace} (layout : space.Layout) (options : LinuxOptions)
    (ram : Nat → Byte)
    : (∀ allocates ctx, (linuxLoaderLoad space options allocates ram).1 = .ok ctx →
        ∃ file start, options.kernel = .ok file
          ∧ let header := LinuxHeader.decode (file.fread 0 1024)
            let payload := file.content.drop header.setupSize
            let after := (linuxLoaderLoad space options allocates ram).2
            header.RunsAt start
            ∧ KernelFits space header start payload.length
            ∧ readBytes after kernelGpa payload.length = payload
            ∧ ∀ opened ∈ options.initrd, ∃ initrd, opened = .ok initrd
              ∧ InitrdLoaded space header start payload.length initrd.content after)
      ∧ ∀ file initrd start, Ready space options file initrd →
        (LinuxHeader.decode (file.fread 0 1024)).RunsAt start →
        let header := LinuxHeader.decode (file.fread 0 1024)
        let payload := file.content.drop header.setupSize
        (Fits space header start payload.length initrd →
          (linuxLoaderLoad space options true ram).1 = .ok ⟨kernelGpa, zeroPageGpa⟩)
        ∧ (¬ Fits space header start payload.length initrd →
          (linuxLoaderLoad space options true ram).1 = .error enospcResult) := by
  constructor
  · intro allocates ctx done
    unfold linuxLoaderLoad at done ⊢
    cases found : linuxImage space options.kernel with
    | error =>
      rw [found] at done
      cases done
    | ok image =>
      rw [found] at done
      obtain ⟨opened, checked⟩ := linuxImage_checked found
      dsimp only at done ⊢
      cases injected : injectLinux space image options allocates ram with
      | mk result =>
        rw [injected] at done
        cases result with
        | error => cases done
        | ok =>
          obtain ⟨fits, kept, initrd⟩ := injectLinux_loads layout checked injected
          refine ⟨image.file, image.runtimeStart, opened, ?_⟩
          rw [← checked.header]
          exact ⟨LinuxHeader.runtimeStart_runsAt checked.start, fits, kept, initrd⟩
  · intro file initrd start ready runs header payload
    obtain ⟨zeroPage, page⟩ := Option.isSome_iff_exists.mp ready.zeroPage
    obtain ⟨cmdlinePage, text⟩ := Option.isSome_iff_exists.mp ready.cmdline
    have length : payload.length = file.content.length - header.setupSize := List.length_drop ..
    have image := linuxImage_ready ready.healthy rfl ready.header.magic ready.header.version
      (ready.header.runtimeStart_eq runs) ready.large page text
    have kernel := kernelFits_iff layout start payload.length ready.header.workspace
    unfold linuxLoaderLoad
    rw [ready.kernelOpened]
    split_ifs at image with full
    · rw [image]
      exact ⟨fun fits => absurd full (kernel.mp fits.1).2, fun _ => rfl⟩
    · obtain ⟨-, checked⟩ := linuxImage_checked image
      have injected := injectLinux_ready layout checked ready.healthy ready.initrdOpened
        ready.initrdHealthy ready.regions ram
      rw [image, length]
      dsimp only at injected ⊢
      generalize injectLinux space _ options true ram = outcome at injected ⊢
      obtain ⟨result, after⟩ := outcome
      constructor
      · intro fits
        obtain rfl := injected.1 fits
        rfl
      · intro unfit
        obtain rfl := injected.2 unfit
        rfl

def scatteredRam : MemSpace where
  regions := [⟨0x106000, 0x2000, 0⟩, ⟨0x90000, 0x1000, 0⟩, ⟨0x100000, 0x1000, 0⟩,
    ⟨0x9e000, 0x1000, 0⟩, ⟨0x101000, 0x5000, 0⟩]
  totalRam := 0xa000
  hostPageSize := 0x1000

def smallKernel : HostFile where
  content :=
    let fields := [(0x1f1, toLe 1 1), (0x202, toLe 4 linuxMagicHdr), (0x206, toLe 2 0x020a),
      (0x22c, toLe 4 0x37ffffff), (0x230, toLe 4 0x1000), (0x234, toLe 1 1),
      (0x258, toLe 8 0x80000), (0x260, toLe 4 0x2000)]
    readBytes (fields.foldl (fun image field => writeBytes image field.1 field.2) fun _ => 0) 0 1040
  readable := 1040
  tells := true
  seekEnd := .ok ()
  seekSet := .ok ()
  addressable := by rw [readBytes_length]; decide

def smallInitrd : HostFile where
  content := [0x30, 0x37, 0x30, 0x37, 0x30]
  readable := 5
  tells := true
  seekEnd := .ok ()
  seekSet := .ok ()
  addressable := by decide

theorem smallKernel_header
    : LinuxHeader.decode (smallKernel.fread 0 1024)
      = ⟨1, linuxMagicHdr, 0x020a, 0x37ffffff, 0x1000, 1, 0x80000, 0x2000⟩ := by
  decide +kernel

theorem smallKernel_payload
    : (smallKernel.content.drop
        (LinuxHeader.decode (smallKernel.fread 0 1024)).setupSize).length = 16 := by
  decide +kernel

/-- The small kernel and its initrd are loaded, the initrd behind the workspace. -/
theorem linux_boot_placement_scattered
    : let outcome := linuxLoaderLoad scatteredRam
        ⟨.ok smallKernel, some (.ok smallInitrd), none⟩ true fun _ => 0
      let place := readLe outcome.2 ⟨0x90218, 4⟩
      outcome.1 = .ok ⟨0x100000, 0x90000⟩ ∧ 4096 ∣ place ∧ 0x102000 ≤ place
        ∧ readLe outcome.2 ⟨0x9021c, 4⟩ = 5
        ∧ readBytes outcome.2 place 5 = [0x30, 0x37, 0x30, 0x37, 0x30] := by
  have formed : scatteredRam.WellFormed := ⟨by decide, by decide, by decide, by decide⟩
  have ready : Ready scatteredRam ⟨.ok smallKernel, some (.ok smallInitrd), none⟩ smallKernel
      (some smallInitrd) := by
    refine ⟨rfl, rfl, ⟨by decide +kernel, rfl, rfl, rfl⟩, ?_, ?_, ?_, by decide, by decide,
      by decide⟩
    · rw [smallKernel_header]
      exact ⟨rfl, by decide, by decide, fun _ => ⟨⟨12, rfl⟩, by decide⟩⟩
    · decide +kernel
    · rintro _ ⟨⟩
      exact ⟨⟨by decide, rfl, rfl, rfl⟩, by decide⟩
  have runs : (LinuxHeader.decode (smallKernel.fread 0 1024)).RunsAt 0x100000 := by
    rw [smallKernel_header]
    exact ⟨nofun, fun _ => ⟨⟨by decide, by decide⟩, fun place bounds => bounds.2⟩⟩
  have low : ∀ address, 0x100000 ≤ address → address < 0x108000
      → LowRam scatteredRam address := by
    intro address above below
    refine ⟨above, by omega, fun other first last => ?_⟩
    by_cases one : other < 0x101000
    · exact ⟨⟨0x100000, 0x1000, 0⟩, by decide, ⟨first, one⟩, rfl⟩
    · by_cases two : other < 0x106000
      · exact ⟨⟨0x101000, 0x5000, 0⟩, by decide, ⟨Nat.le_of_not_lt one, two⟩, rfl⟩
      · have three : other < 0x108000 := by omega
        exact ⟨⟨0x106000, 0x2000, 0⟩, by decide, ⟨Nat.le_of_not_lt two, three⟩, rfl⟩
  have fits : Fits scatteredRam (LinuxHeader.decode (smallKernel.fread 0 1024)) 0x100000
      (smallKernel.content.drop
        (LinuxHeader.decode (smallKernel.fread 0 1024)).setupSize).length (some smallInitrd) := by
    rw [smallKernel_payload, smallKernel_header]
    refine ⟨⟨fun address has => low address has.1 (has.2.trans (by decide)),
      fun address has => low address has.1 (has.2.trans (by decide))⟩, ?_⟩
    rintro _ ⟨⟩
    exact ⟨0x107000, fun address has => low address (Nat.le_trans (by decide) has.1)
      (has.2.trans (by decide)), by decide, by decide, by decide, by decide⟩
  obtain ⟨sound, complete⟩ := linux_boot_placement formed.layout
    ⟨.ok smallKernel, some (.ok smallInitrd), none⟩ fun _ => 0
  have loaded := (complete smallKernel (some smallInitrd) 0x100000 ready runs).1 fits
  obtain ⟨file, start, opened, here, -, -, initrd⟩ := sound true _ loaded
  obtain rfl : smallKernel = file := Except.ok.inj opened
  obtain ⟨file, opened, place, size, bytes⟩ := initrd (.ok smallInitrd) rfl
  obtain rfl : smallInitrd = file := Except.ok.inj opened
  have above := place.aboveWorkspace
  rw [here.unique runs, smallKernel_header] at above
  exact ⟨loaded, place.aligned, above, size, bytes⟩

end Modvm.Loader
