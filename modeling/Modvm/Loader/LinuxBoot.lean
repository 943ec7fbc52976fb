import Modvm.Core.Translation
import Modvm.Lib.CString
import Modvm.Lib.Fallible
import Modvm.Loader.LowRam

/-! The Linux loader behind its options. -/

namespace Modvm.Loader

open Modvm.Core Modvm.Lib

/-! ### The host's files -/

def eioResult : Int := -5

def enomemResult : Int := -12

def efaultResult : Int := -14

def einvalResult : Int := -22

def enospcResult : Int := -28

/-- An open file, and how the host treats it: short reads from `readable` on, and failures of
`ftell` and `fseek`.
-/
structure HostFile where
  content : List Byte
  readable : Nat
  tells : Bool
  seekEnd : Except Int Unit
  seekSet : Except Int Unit
  addressable : content.length < 2 ^ 63

namespace HostFile

def fread (file : HostFile) (pos count : Nat) : List Byte :=
  ((file.content.take file.readable).drop pos).take count

def ftell (file : HostFile) : Int :=
  if file.tells then file.content.length else -1

end HostFile

/-! ### The header -/

def linuxMagicHdr : Nat := 0x53726448

/-- The fields of the setup header that the loader reads. -/
structure LinuxHeader where
  setupSects : Nat
  magic : Nat
  version : Nat
  initrdMax : Nat
  alignment : Nat
  relocatable : Nat
  prefAddress : Nat
  initSize : Nat
deriving DecidableEq, Repr

def headerField (buf : List Byte) (offset size : Nat) : Nat := leNat ((buf.drop offset).take size)

namespace LinuxHeader

def decode (buf : List Byte) : LinuxHeader where
  setupSects := headerField buf 0x1f1 1
  magic := headerField buf 0x202 4
  version := headerField buf 0x206 2
  initrdMax := headerField buf 0x22c 4
  alignment := headerField buf 0x230 4
  relocatable := headerField buf 0x234 1
  prefAddress := headerField buf 0x258 8
  initSize := headerField buf 0x260 4

def setupSize (header : LinuxHeader) : Nat :=
  ((if header.setupSects = 0 then 4 else header.setupSects) + 1) * 512

def runtimeStart (header : LinuxHeader) : Except Int Nat :=
  if header.relocatable ≠ 0 then
    if header.alignment = 0 ∨ notPowerOfTwo header.alignment = true then .error einvalResult
    else
      let start := if header.prefAddress < kernelGpa then kernelGpa else header.prefAddress
      if start > uint64Max - (header.alignment - 1) then .error einvalResult
      else
        .ok (BitVec.ofNat 64 (start + header.alignment - 1)
          &&& ~~~ BitVec.ofNat 64 (header.alignment - 1)).toNat
  else .ok header.prefAddress

def initrdLimit (header : LinuxHeader) (low : Nat) : Nat :=
  if header.initrdMax + 1 > low then low else header.initrdMax + 1

end LinuxHeader

/-! ### The loader -/

def zeroPageGpa : Nat := 0x90000

def cmdlineGpa : Nat := 0x9e000

/-- What the options name: the kernel's and the initrd's `fopen`, and the command line. -/
structure LinuxOptions where
  kernel : Except Int HostFile
  initrd : Option (Except Int HostFile)
  cmdline : Option (List Byte)

structure LinuxLoaderCtx where
  entryPc : Nat
  zeroPage : Nat
deriving DecidableEq, Repr

/-- What the loader has found when it begins to write: the header, the places, and two pages. -/
structure LinuxImage where
  file : HostFile
  buf : List Byte
  header : LinuxHeader
  lowRam : Nat
  runtimeStart : Nat
  payloadSize : Nat
  zeroPage : Hva
  cmdlinePage : Hva

/-- The checks up to the mapping of the pages. Nothing is written before. -/
def linuxImage (space : MemSpace) (kernel : Except Int HostFile) : Except Int LinuxImage :=
  match kernel with
  | .error error => .error error
  | .ok file =>
      let buf := file.fread 0 1024
      let header := LinuxHeader.decode buf
      let low := lowRam space
      if buf.length ≠ 1024 then .error eioResult
      else if header.magic ≠ linuxMagicHdr then .error einvalResult
      else if header.version < 0x020a then .error einvalResult
      else
        match header.runtimeStart with
        | .error error => .error error
        | .ok start =>
            if header.initSize = 0 ∨ start < kernelGpa ∨ start ≥ low
                ∨ header.initSize > low - start then .error enospcResult
            else
              match file.seekEnd with
              | .error error => .error error
              | .ok _ =>
                  if file.ftell < header.setupSize then .error einvalResult
                  else
                    match memMapRange space zeroPageGpa 4096 true,
                      memMapRange space cmdlineGpa 4096 true with
                    | some zeroPage, some cmdlinePage =>
                        .ok ⟨file, buf, header, low, start, file.ftell.toNat - header.setupSize,
                          zeroPage, cmdlinePage⟩
                    | _, _ => .error efaultResult

/-- The command line and the pointer to it. -/
def storeCmdline (image : LinuxImage) (cmdline : Option (List Byte)) (ram : Nat → Byte)
    : Nat → Byte :=
  let page := image.zeroPage.gpa
  match cmdline with
  | some text =>
      let ram := writeBytes ram image.cmdlinePage.gpa (strncpy text 4095)
      let ram := writeBytes ram (image.cmdlinePage.gpa + 4095) [0]
      writeBytes ram (page + 0x228) (toLe 4 cmdlineGpa)
  | none => writeBytes ram (page + 0x228) (toLe 4 0)

/-- The boot parameters: a page of zeros, header, loader type, command line and E820 map. -/
def storeBootParams (space : MemSpace) (image : LinuxImage) (cmdline : Option (List Byte))
    : Fallible Int (Nat → Byte) := fun ram =>
  let page := image.zeroPage.gpa
  let ram := writeBytes ram page (List.replicate 4096 0)
  let ram := writeBytes ram (page + 0x1f1) (image.buf.drop 0x1f1)
  let ram := writeBytes ram (page + 0x210) [0xff]
  let ram := storeCmdline image cmdline ram
  let built := linuxX86E820TableBuild space fun offset => ram (page + offset)
  let ram := fun address => if page ≤ address then built.2 (address - page) else ram address
  if built.1 < 0 then (.error built.1, ram) else (.ok (), ram)

/-- The loop that reads `len` bytes of a file, from a position on, into guest memory. -/
def streamFile (space : MemSpace) (file : HostFile) (pos gpa len : Nat) (ram : Nat → Byte)
    : Except Int Unit × (Nat → Byte) :=
  if len = 0 then (.ok (), ram)
  else
    match _mapped : memMapChunk space gpa len true with
    | none => (.error efaultResult, ram)
    | some (hva, chunk) =>
        let bytes := file.fread pos chunk
        let ram := writeBytes ram hva.gpa bytes
        if bytes.length ≠ chunk then (.error eioResult, ram)
        else streamFile space file (pos + chunk) (gpa + chunk) (len - chunk) ram
termination_by len
decreasing_by
  -- a chunk is never empty
  obtain ⟨-, -, positive, short, -⟩ := memMapChunk_sound _mapped
  omega

/-- The kernel behind its setup sectors, at 1 MiB. -/
def loadPayload (space : MemSpace) (image : LinuxImage) : Fallible Int (Nat → Byte) := fun ram =>
  match image.file.seekSet with
  | .error error => (.error error, ram)
  | .ok _ =>
      if kernelGpa + image.payloadSize > image.lowRam then (.error enospcResult, ram)
      else streamFile space image.file image.header.setupSize kernelGpa image.payloadSize ram

def initrdGpa (limit size : Nat) : Nat :=
  (BitVec.ofNat 64 (limit - size) &&& ~~~ 4095#64).toNat

def storeInitrdFields (image : LinuxImage) (gpa size : Nat)
    : Fallible Int (Nat → Byte) := fun ram =>
  let ram := writeBytes ram (image.zeroPage.gpa + 0x218) (toLe 4 gpa)
  (.ok (), writeBytes ram (image.zeroPage.gpa + 0x21c) (toLe 4 size))

def placeInitrd (space : MemSpace) (image : LinuxImage) (file : HostFile)
    : Fallible Int (Nat → Byte) := fun ram =>
  let limit := image.header.initrdLimit image.lowRam
  let size := file.ftell.toNat
  let gpa := initrdGpa limit size
  if file.ftell ≤ 0 then (.error einvalResult, ram)
  else if size > limit then (.error enospcResult, ram)
  else if gpa < image.runtimeStart + image.header.initSize
      ∨ gpa < kernelGpa + image.payloadSize then (.error enospcResult, ram)
  else
    Fallible.andThen (streamFile space file 0 gpa size) (storeInitrdFields image gpa size) ram

def loadInitrd (space : MemSpace) (image : LinuxImage) (initrd : Except Int HostFile)
    : Fallible Int (Nat → Byte) := fun ram =>
  match initrd with
  | .error error => (.error error, ram)
  | .ok file =>
      match file.seekEnd, file.seekSet with
      | .error error, _ => (.error error, ram)
      | .ok _, .error error => (.error error, ram)
      | .ok _, .ok _ => placeInitrd space image file ram

/-- What the loader does from its first write on; `allocates` says whether it gets memory for its
context.
-/
def injectLinux (space : MemSpace) (image : LinuxImage) (options : LinuxOptions) (allocates : Bool)
    : Fallible Int (Nat → Byte) :=
  let initrd := match options.initrd with
    | none => Fallible.skip
    | some opened => loadInitrd space image opened
  (storeBootParams space image options.cmdline).andThen
    ((loadPayload space image).andThen
      (initrd.andThen (Fallible.require allocates enomemResult)))

/-- `linux_loader_load`, behind its options. -/
def linuxLoaderLoad (space : MemSpace) (options : LinuxOptions) (allocates : Bool)
    (ram : Nat → Byte)
    : Except Int LinuxLoaderCtx × (Nat → Byte) :=
  match linuxImage space options.kernel with
  | .error error => (.error error, ram)
  | .ok image =>
      match injectLinux space image options allocates ram with
      | (.error error, ram) => (.error error, ram)
      | (.ok _, ram) => (.ok ⟨kernelGpa, zeroPageGpa⟩, ram)

/-! ### The loop over the chunks -/

theorem HostFile.fread_add (file : HostFile) (pos m n : Nat)
    : file.fread pos (m + n) = file.fread pos m ++ file.fread (pos + m) n := by
  unfold HostFile.fread
  rw [List.take_add, List.drop_drop]

theorem HostFile.fread_eq_drop {file : HostFile} {pos count : Nat}
    (full : (file.fread pos count).length = count) (whole : pos + count = file.content.length)
    : file.fread pos count = file.content.drop pos := by
  unfold HostFile.fread at full ⊢
  rw [List.drop_take, List.take_take] at full ⊢
  have length := List.length_drop (i := pos) (l := file.content)
  rw [List.length_take] at full
  exact List.take_of_length_le (by omega)

theorem HostFile.ftell_eq {file : HostFile} (told : 0 ≤ file.ftell)
    : file.ftell = file.content.length := by
  cases tells : file.tells with
  | true => simp [HostFile.ftell, tells]
  | false => simp [HostFile.ftell, tells] at told

structure HostFile.Healthy (file : HostFile) : Prop where
  readable : file.content.length ≤ file.readable
  tells : file.tells = true
  seekEnd : file.seekEnd = .ok ()
  seekSet : file.seekSet = .ok ()

theorem HostFile.Healthy.ftell {file : HostFile} (healthy : file.Healthy)
    : file.ftell = file.content.length :=
  if_pos healthy.tells

theorem HostFile.Healthy.fread_length {file : HostFile} (healthy : file.Healthy) {pos count : Nat}
    (within : pos + count ≤ file.content.length)
    : (file.fread pos count).length = count := by
  unfold HostFile.fread
  rw [List.take_of_length_le healthy.readable, List.length_take, List.length_drop]
  omega

theorem HostFile.fread_length_le (file : HostFile) (pos count : Nat)
    : (file.fread pos count).length ≤ count :=
  List.length_take_le ..

section
variable {space : MemSpace} {file : HostFile} {pos gpa len : Nat} {ram : Nat → Byte}

/-- A stream that succeeds has stored all of its bytes, by induction on the chunks. -/
theorem streamFile_stores (done : (streamFile space file pos gpa len ram).1 = .ok ())
    : (streamFile space file pos gpa len ram).2 = writeBytes ram gpa (file.fread pos len)
      ∧ (file.fread pos len).length = len := by
  fun_induction streamFile space file pos gpa len ram with
  | case1 =>
    refine ⟨?_, by simp [HostFile.fread]⟩
    funext address
    simp [HostFile.fread, writeBytes]
  | case2 => cases done
  | case3 => cases done
  | case4 pos gpa len ram nonempty hva chunk mapped bytes next whole ih =>
    obtain ⟨-, same, -, short, -⟩ := memMapChunk_sound mapped
    obtain ⟨stored, length⟩ := ih done
    have read : file.fread pos len = bytes ++ file.fread (pos + chunk) (len - chunk) := by
      rw [← file.fread_add, Nat.add_sub_cancel' short]
    have full : bytes.length = chunk := not_not.mp whole
    refine ⟨?_, ?_⟩
    · rw [stored, read, writeBytes_append, full]
      exact congrArg (fun base => writeBytes (writeBytes ram base bytes) _ _) same
    · rw [read, List.length_append, length, full, Nat.add_sub_cancel' short]

/-- A stream of a whole file into granted memory succeeds. -/
theorem streamFile_succeeds (layout : space.Layout)
    (granted : ∀ address, (Span.mk gpa len).Has address → space.Grants true address)
    (whole : (file.fread pos len).length = len)
    : (streamFile space file pos gpa len ram).1 = .ok () := by
  fun_induction streamFile space file pos gpa len ram with
  | case1 => rfl
  | case2 pos gpa len ram nonempty failed =>
    obtain ⟨address, has, refused⟩ := layout.refused failed nonempty
    exact absurd (granted address has) refused
  | case3 pos gpa len ram nonempty hva chunk mapped bytes next short =>
    obtain ⟨-, -, -, part, -⟩ := memMapChunk_sound mapped
    have read := file.fread_add pos chunk (len - chunk)
    rw [Nat.add_sub_cancel' part] at read
    have first : bytes.length ≤ chunk := file.fread_length_le pos chunk
    have rest := file.fread_length_le (pos + chunk) (len - chunk)
    rw [read, List.length_append] at whole
    change bytes.length + _ = len at whole
    exact absurd (show bytes.length = chunk by omega) short
  | case4 pos gpa len ram nonempty hva chunk mapped bytes next full ih =>
    obtain ⟨-, -, -, part, -⟩ := memMapChunk_sound mapped
    have read := file.fread_add pos chunk (len - chunk)
    rw [Nat.add_sub_cancel' part] at read
    rw [read, List.length_append] at whole
    change bytes.length + _ = len at whole
    refine ih ?_ (by omega)
    rintro address ⟨low, high⟩
    dsimp only at low high
    exact granted address ⟨by dsimp only; omega, by dsimp only; omega⟩

end

/-! ### The checks -/

section
variable {space : MemSpace} {image : LinuxImage}

structure Checked (space : MemSpace) (image : LinuxImage) : Prop where
  header : image.header = LinuxHeader.decode (image.file.fread 0 1024)
  low : image.lowRam = lowRam space
  start : image.header.runtimeStart = .ok image.runtimeStart
  workspace : ¬ (image.header.initSize = 0 ∨ image.runtimeStart < kernelGpa
    ∨ image.runtimeStart ≥ image.lowRam
    ∨ image.header.initSize > image.lowRam - image.runtimeStart)
  size : image.header.setupSize + image.payloadSize = image.file.content.length
  zeroPage : image.zeroPage.gpa = zeroPageGpa

/-- An image that is accepted passed all checks. -/
theorem linuxImage_checked {kernel : Except Int HostFile}
    (found : linuxImage space kernel = .ok image)
    : kernel = .ok image.file ∧ Checked space image := by
  rcases kernel with error | file
  · cases found
  · cases started : (LinuxHeader.decode (file.fread 0 1024)).runtimeStart with
    | error =>
      simp only [linuxImage, started] at found
      split_ifs at found
    | ok =>
      cases seeks : file.seekEnd with
      | error =>
        simp only [linuxImage, started, seeks] at found
        split_ifs at found
      | ok =>
        cases page : memMapRange space zeroPageGpa 4096 true with
        | none =>
          simp only [linuxImage, started, seeks, page] at found
          split_ifs at found
        | some =>
          cases text : memMapRange space cmdlineGpa 4096 true with
          | none =>
            simp only [linuxImage, started, seeks, page, text] at found
            split_ifs at found
          | some =>
            simp only [linuxImage, started, seeks, page, text] at found
            split_ifs at found with _ _ _ workspace truncated
            cases found
            have told := HostFile.ftell_eq (show 0 ≤ file.ftell by omega)
            obtain ⟨-, here, -⟩ := memMapChunk_sound (memMapRange_sound page)
            refine ⟨rfl, rfl, rfl, started, workspace, ?_, here⟩
            dsimp only
            omega

theorem LinuxHeader.le_setupSize (header : LinuxHeader)
    : 1024 ≤ header.setupSize := by
  unfold LinuxHeader.setupSize
  split
  · decide
  · omega

/-- An image that passes all checks is accepted. -/
theorem linuxImage_ready {file : HostFile} (healthy : file.Healthy) {header : LinuxHeader}
    (decoded : LinuxHeader.decode (file.fread 0 1024) = header)
    (magic : header.magic = linuxMagicHdr) (version : 0x020a ≤ header.version) {start : Nat}
    (started : header.runtimeStart = .ok start) (large : header.setupSize ≤ file.content.length)
    {zeroPage cmdlinePage : Hva}
    (page : memMapRange space zeroPageGpa 4096 true = some zeroPage)
    (text : memMapRange space cmdlineGpa 4096 true = some cmdlinePage)
    : linuxImage space (.ok file)
      = if header.initSize = 0 ∨ start < kernelGpa ∨ start ≥ lowRam space
            ∨ header.initSize > lowRam space - start then .error enospcResult
        else .ok ⟨file, file.fread 0 1024, header, lowRam space, start,
          file.content.length - header.setupSize, zeroPage, cmdlinePage⟩ := by
  have room := header.le_setupSize
  have full : (file.fread 0 1024).length = 1024 := healthy.fread_length (by omega)
  have untruncated : ¬ file.ftell < header.setupSize := by
    rw [healthy.ftell]
    omega
  simp only [linuxImage, decoded, started, healthy.seekEnd, page, text]
  rw [if_neg (not_not_intro full), if_neg (not_not_intro magic), if_neg (Nat.not_lt.mpr version),
    if_neg untruncated, healthy.ftell, Int.toNat_natCast]

/-! ### The steps that write -/

variable {ram after : Nat → Byte}

theorem storeBootParams_succeeds (few : space.regions.length ≤ 128) (image : LinuxImage)
    (cmdline : Option (List Byte)) (ram : Nat → Byte)
    : (storeBootParams space image cmdline ram).1 = .ok () := by
  have built : ∀ page, (linuxX86E820TableBuild space page).1 = 0 := by
    intro page
    have room : 0 + space.regions.length ≤ e820Max := (Nat.zero_add _).trans_le few
    have count := e820Fill_fits page room
    unfold linuxX86E820TableBuild
    generalize e820Fill 0 page space.regions = filled at count ⊢
    obtain ⟨_, next⟩ := filled
    subst count
    rfl
  unfold storeBootParams
  rw [if_neg (by rw [built]; decide)]

theorem loadPayload_stores (checked : Checked space image)
    (done : loadPayload space image ram = (.ok (), after))
    : kernelGpa + image.payloadSize ≤ lowRam space
      ∧ after = writeBytes ram kernelGpa (image.file.content.drop image.header.setupSize) := by
  unfold loadPayload at done
  cases seeks : image.file.seekSet with
  | error =>
    rw [seeks] at done
    cases done
  | ok =>
    rw [seeks] at done
    dsimp only at done
    split_ifs at done with beyond
    · cases done
    · obtain ⟨stored, full⟩ := streamFile_stores (congrArg Prod.fst done)
      rw [checked.low] at beyond
      refine ⟨Nat.le_of_not_lt beyond, ?_⟩
      rw [← HostFile.fread_eq_drop full checked.size, ← stored, done]

/-- The payload of a healthy file is loaded exactly if it ends in low RAM. -/
theorem loadPayload_ready (layout : space.Layout) (checked : Checked space image)
    (healthy : image.file.Healthy) (ram : Nat → Byte)
    : (loadPayload space image ram).1
      = if kernelGpa + image.payloadSize ≤ lowRam space then .ok () else .error enospcResult := by
  unfold loadPayload
  rw [healthy.seekSet]
  rw [checked.low]
  by_cases fits : kernelGpa + image.payloadSize ≤ lowRam space
  · rw [if_neg (Nat.not_lt.mpr fits), if_pos fits]
    refine streamFile_succeeds layout ?_ (healthy.fread_length (Nat.le_of_eq checked.size))
    rintro address ⟨low, high⟩
    exact ((lowRam_iff layout).mpr ⟨low, Nat.lt_of_lt_of_le high fits⟩).grants
  · rw [if_pos (Nat.lt_of_not_le fits), if_neg fits]

/-- The tests that decide whether an initrd of the given size is stored at the place. -/
def InitrdPasses (image : LinuxImage) (size place : Nat) : Prop :=
  size ≤ image.header.initrdLimit image.lowRam
    ∧ ¬ (place < image.runtimeStart + image.header.initSize
      ∨ place < kernelGpa + image.payloadSize)

instance (image : LinuxImage) (size place : Nat) : Decidable (InitrdPasses image size place) :=
  inferInstanceAs (Decidable (_ ∧ _))

/-- The initrd and its place and size in the boot parameters are all that is stored. -/
theorem placeInitrd_stores {file : HostFile}
    (done : placeInitrd space image file ram = (.ok (), after))
    : let size := file.content.length
      let place := initrdGpa (image.header.initrdLimit image.lowRam) size
      0 < size ∧ InitrdPasses image size place
        ∧ after = writeBytes (writeBytes (writeBytes ram place file.content)
            (image.zeroPage.gpa + 0x218) (toLe 4 place))
            (image.zeroPage.gpa + 0x21c) (toLe 4 size) := by
  unfold placeInitrd at done
  dsimp only at done ⊢
  split_ifs at done with empty large low
  · cases done
  · cases done
  · cases done
  · have told := HostFile.ftell_eq (show 0 ≤ file.ftell by omega)
    rw [told] at large low done
    obtain ⟨between, streamed, stored⟩ := Fallible.andThen_eq_ok.mp done
    obtain ⟨written, full⟩ := streamFile_stores (congrArg Prod.fst streamed)
    rw [HostFile.fread_eq_drop full (Nat.zero_add _), streamed] at written
    refine ⟨by omega, ⟨Nat.le_of_not_lt large, low⟩, ?_⟩
    cases stored
    cases written
    rfl

theorem loadInitrd_places {initrd : Except Int HostFile}
    (done : loadInitrd space image initrd ram = (.ok (), after))
    : ∃ file, initrd = .ok file ∧ placeInitrd space image file ram = (.ok (), after) := by
  rcases initrd with error | file
  · cases done
  · refine ⟨file, rfl, ?_⟩
    unfold loadInitrd at done
    dsimp only at done
    generalize file.seekEnd = ends, file.seekSet = back at done
    rcases ends with error | _
    · cases done
    · rcases back with error | _
      · cases done
      · exact done

theorem loadInitrd_ready (layout : space.Layout) {file : HostFile} (healthy : file.Healthy)
    (positive : 0 < file.content.length) {place : Nat}
    (chosen : initrdGpa (image.header.initrdLimit image.lowRam) file.content.length = place)
    (granted : InitrdPasses image file.content.length place →
      ∀ address, (Span.mk place file.content.length).Has address → space.Grants true address)
    (ram : Nat → Byte)
    : (loadInitrd space image (.ok file) ram).1
      = if InitrdPasses image file.content.length place then .ok ()
        else .error enospcResult := by
  have some : ¬ (file.content.length : Int) ≤ 0 := by omega
  unfold loadInitrd
  simp only [healthy.seekEnd, healthy.seekSet]
  unfold placeInitrd
  simp only [healthy.ftell, if_neg some, Int.toNat_natCast, chosen]
  by_cases passes : InitrdPasses image file.content.length place
  · have streamed : (streamFile space file 0 place file.content.length ram).1 = .ok () :=
      streamFile_succeeds layout (granted passes) (healthy.fread_length (by omega))
    rw [if_neg (Nat.not_lt.mpr passes.1), if_neg passes.2, if_pos passes,
      Fallible.andThen_of_ok streamed]
    rfl
  · rw [if_neg passes]
    by_cases large : file.content.length > image.header.initrdLimit image.lowRam
    · rw [if_pos large]
    · have low := not_and.mp passes (Nat.le_of_not_lt large)
      rw [if_neg large, if_pos (not_not.mp low)]

end

end Modvm.Loader
