import Modvm.Loader.LinuxBoot
import Modvm.Util.Cmdline

/-! The options of the Linux loader: `append=` takes the rest of the text. -/

namespace Modvm.Loader

open Modvm.Core Modvm.Lib Modvm.Util

/-! ### Model -/

def appendKey : List Byte := [0x61, 0x70, 0x70, 0x65, 0x6e, 0x64, 0x3d]

def kernelKey : List Byte := [0x6b, 0x65, 0x72, 0x6e, 0x65, 0x6c]

def initrdKey : List Byte := [0x69, 0x6e, 0x69, 0x74, 0x72, 0x64]

/-- The loop over the fields; `before` is the buffer in front. It gives the buffer, cut at the field
found, and the copy of what follows.
-/
def cutAppend (before field : List Byte) : List Byte × Option (List Byte) :=
  if strncmp field appendKey 7 = 0 then
    let text := field.drop 7
    (before ++ 0 :: field.tail, some (text.take (strlen text + 1)))
  else
    match _found : strchr field comma with
    | none => (before ++ field, none)
    | some stop =>
        cutAppend (before ++ field.take (field.length - stop.tail.length)) stop.tail
termination_by field.length
decreasing_by exact strchr_tail_lt _found

/-- Which allocations for the options succeed. -/
structure OptionAllocs where
  options : Bool
  cmdline : Bool
  kernel : Bool
  initrd : Bool
deriving DecidableEq, Repr

structure LinuxStrings where
  kernel : List Byte
  initrd : Option (List Byte)
  cmdline : Option (List Byte)
deriving DecidableEq, Repr

/-- The options as `linux_loader_load` reads them; the pointer to them may be null. -/
def parseOptions (opts : Option (List Byte)) (allocs : OptionAllocs) : Except Int LinuxStrings :=
  if allocs.options = false then .error enomemResult
  else
    let text := opts.getD []
    let (options, cmdline) := cutAppend [] (text.take (strlen text + 1))
    let kernelPath := cmdlineExtractOpt (some options) (some kernelKey) allocs.kernel
    let initrdPath := cmdlineExtractOpt (some options) (some initrdKey) allocs.initrd
    match kernelPath, initrdPath with
    | .ok kernelPath, .ok initrdPath =>
        if cmdline.isSome ∧ allocs.cmdline = false then .error enomemResult
        else
          match kernelPath with
          | none => .error einvalResult
          | some path => .ok ⟨path, initrdPath, cmdline⟩
    | _, _ => .error enomemResult

structure HostFiles where
  kernel : List Byte → Except Int HostFile
  initrd : List Byte → Except Int HostFile

/-- `linux_loader_load`. -/
def linuxLoaderLoadOpts (host : HostFiles) (space : MemSpace) (opts : Option (List Byte))
    (allocs : OptionAllocs) (allocates : Bool) (ram : Nat → Byte)
    : Except Int LinuxLoaderCtx × (Nat → Byte) :=
  match parseOptions opts allocs with
  | .error error => (.error error, ram)
  | .ok strings =>
      let options : LinuxOptions :=
        ⟨host.kernel (cstr strings.kernel), strings.initrd.map fun path => host.initrd (cstr path),
          strings.cmdline.map cstr⟩
      linuxLoaderLoad space options allocates ram

/-! ### The grammar -/

def isAppend (field : List Byte) : Bool := appendKey.isPrefixOf field

/-- The fields before the first one that begins with `append=`. -/
def namedFields (text : List Byte) : List (List Byte) :=
  (text.splitOn comma).takeWhile (!isAppend ·)

/-- Everything after the first `append=` that begins a field, with the commas. -/
def appendedText (text : List Byte) : Option (List Byte) :=
  match (text.splitOn comma).dropWhile (!isAppend ·) with
  | [] => none
  | first :: rest => some (([comma].intercalate (first :: rest)).drop appendKey.length)

/-- The value of the first field with the key before `append=`. -/
def namedValue (key text : List Byte) : Option (List Byte) :=
  (namedFields text).findSome? (fieldValue key)

/-! ### The loop follows the grammar -/

theorem strncmp_append_iff {mem : List Byte}
    : strncmp mem appendKey 7 = 0 ↔ isAppend (cstr mem) = true := by
  rw [isAppend, List.isPrefixOf_iff_prefix]
  exact @strncmp_eq_zero_iff appendKey mem

/-- What the loop makes of the text from a field on, behind the part `before` of the buffer. -/
structure Cut (before text : List Byte) (outcome : List Byte × Option (List Byte)) : Prop where
  options : ∃ left, cstr outcome.1 = before ++ left
    ∧ ∀ key, optionValue key left = namedValue key text
  cmdline : outcome.2.map cstr = appendedText text

theorem Cut.here {before field : List Byte} (clean : 0 ∉ before)
    (found : isAppend (cstr field) = true)
    : Cut before (cstr field) (before ++ 0 :: field.tail,
      some ((field.drop 7).take (strlen (field.drop 7) + 1))) := by
  rw [isAppend, List.isPrefixOf_iff_prefix] at found
  obtain ⟨first, rest, split, same⟩ := exists_first_field comma (cstr field)
  have begins : isAppend first = true := by
    rw [isAppend, List.isPrefixOf_iff_prefix]
    exact (same appendKey (by decide)).mp found
  refine ⟨⟨[], ?_, fun key => ?_⟩, ?_⟩
  · rw [cstr_terminated clean, List.append_nil]
  · rw [namedValue, namedFields, split, List.takeWhile_cons_of_neg (by simp [begins])]
    rfl
  · have inside : 7 ≤ strlen field := found.length_le
    have whole := @List.intercalate_splitOn _ (cstr field) _ _ comma
    rw [split] at whole
    rw [Option.map_some, cstr_take, cstr_drop inside, appendedText, split,
      List.dropWhile_cons_of_neg (by simp [begins])]
    exact congrArg (fun text => some (text.drop 7)) whole.symm

theorem Cut.last {before field : List Byte} (clean : 0 ∉ before)
    (other : isAppend (cstr field) = false) (single : comma ∉ cstr field)
    : Cut before (cstr field) (before ++ field, none) := by
  refine ⟨⟨cstr field, cstr_append clean field, fun key => ?_⟩, ?_⟩
  · rw [namedValue, namedFields, List.splitOn_eq_singleton single,
      List.takeWhile_cons_of_pos (by simp [other]), optionValue,
      List.splitOn_eq_singleton single]
    rfl
  · rw [appendedText, List.splitOn_eq_singleton single,
      List.dropWhile_cons_of_pos (by simp [other])]
    rfl

theorem Cut.next {before first text : List Byte} {outcome : List Byte × Option (List Byte)}
    (other : isAppend first = false) (single : comma ∉ first)
    (rest : Cut (before ++ (first ++ [comma])) text outcome)
    : Cut before (first ++ comma :: text) outcome := by
  obtain ⟨⟨left, buffer, options⟩, cmdline⟩ := rest
  refine ⟨⟨first ++ comma :: left, ?_, fun key => ?_⟩, ?_⟩
  · rw [buffer]
    simp
  · rw [optionValue_first single, options, namedValue, namedValue, namedFields, namedFields,
      List.splitOn_append_cons_self_of_not_mem single,
      List.takeWhile_cons_of_pos (by simp [other]), List.findSome?_cons]
    cases fieldValue key first with
    | none => rfl
    | some => rfl
  · rw [cmdline, appendedText, appendedText, List.splitOn_append_cons_self_of_not_mem single,
      List.dropWhile_cons_of_pos (by simp [other])]

theorem cutAppend_cut {before field : List Byte} (clean : 0 ∉ before)
    : Cut before (cstr field) (cutAppend before field) := by
  induction before, field using cutAppend.induct with
  | case1 before field found =>
    rw [cutAppend, if_pos found]
    exact Cut.here clean (strncmp_append_iff.mp found)
  | case2 before field other missing =>
    have outcome : cutAppend before field = (before ++ field, none) := by
      rw [cutAppend, if_neg other]
      generalize strchr field comma = search at missing ⊢
      subst missing
      rfl
    rw [outcome]
    refine Cut.last clean ?_ (strchr_none missing)
    rwa [strncmp_append_iff, Bool.not_eq_true] at other
  | case3 before field other stop found ih =>
    obtain ⟨first, rest, rfl, rfl, single, firstClean⟩ := strchr_some (by decide) found
    have passed : (first ++ comma :: rest).take ((first ++ comma :: rest).length - rest.length)
        = first ++ [comma] := by
      rw [List.append_cons, List.length_append, Nat.add_sub_cancel]
      exact List.take_left' rfl
    have outcome : cutAppend before (first ++ comma :: rest)
        = cutAppend (before ++ (first ++ [comma])) rest := by
      rw [cutAppend, if_neg other]
      generalize strchr (first ++ comma :: rest) comma = search at found ⊢
      subst found
      dsimp only [List.tail_cons]
      rw [passed]
    rw [List.tail_cons, passed] at ih
    have whole : cstr (first ++ comma :: rest) = first ++ comma :: cstr rest := by
      rw [cstr_append firstClean, cstr_cons (by decide)]
    rw [outcome, whole]
    refine Cut.next ?_ single (ih ?_)
    · rw [strncmp_append_iff, whole, Bool.not_eq_true] at other
      rw [← Bool.not_eq_true, isAppend, List.isPrefixOf_iff_prefix] at other ⊢
      rwa [prefix_first_iff (by decide)] at other
    · simp only [List.mem_append, List.mem_singleton]
      rintro (inside | inside | same)
      · exact clean inside
      · exact firstClean inside
      · cases same

/-! ### The loader takes what the options say -/

theorem Cut.extract {text key : List Byte} {outcome : List Byte × Option (List Byte)}
    (cut : Cut [] text outcome) (allocated : Bool) (named : cstr key ≠ [])
    (unsplit : comma ∉ cstr key) (plain : equals ∉ cstr key)
    : cmdlineExtractOpt (some outcome.1) (some key) allocated
        = copyValue (namedValue (cstr key) text) allocated
      ∧ ∀ value, namedValue (cstr key) text = some value → 0 ∉ value := by
  obtain ⟨left, buffer, options⟩ := cut.options
  have same : optionValue (cstr key) (cstr outcome.1) = namedValue (cstr key) text := by
    rw [buffer, List.nil_append, options]
  refine ⟨?_, fun value found => optionValue_clean unsplit plain (same.trans found)⟩
  rw [cmdlineExtractOpt_eq allocated named unsplit plain, same]

theorem parseOptions_cases (opts : Option (List Byte)) (allocs : OptionAllocs)
    : let text := cstr (opts.getD [])
      (parseOptions opts allocs = .error enomemResult ∧ allocs ≠ ⟨true, true, true, true⟩)
      ∨ (parseOptions opts allocs = .error einvalResult ∧ namedValue kernelKey text = none)
      ∨ ∃ strings, parseOptions opts allocs = .ok strings
        ∧ namedValue kernelKey text = some (cstr strings.kernel)
        ∧ namedValue initrdKey text = strings.initrd.map cstr
        ∧ appendedText text = strings.cmdline.map cstr := by
  obtain ⟨options, cmdline, kernel, initrd⟩ := allocs
  unfold parseOptions
  dsimp only
  cases options with
  | false => exact .inl ⟨rfl, by simp⟩
  | true =>
    rw [if_neg (by decide)]
    have cut := @cutAppend_cut []
      ((opts.getD []).take (strlen (opts.getD []) + 1)) List.not_mem_nil
    rw [cstr_take] at cut
    generalize cutAppend [] _ = outcome at cut ⊢
    generalize cstr (opts.getD []) = text at cut ⊢
    obtain ⟨buffer, appended⟩ := outcome
    have append : appended.map cstr = appendedText text := cut.cmdline
    obtain ⟨kernelPath, kernelClean⟩ :=
      @Cut.extract text kernelKey _ cut kernel (by decide) (by decide) (by decide)
    obtain ⟨initrdPath, initrdClean⟩ :=
      @Cut.extract text initrdKey _ cut initrd (by decide) (by decide) (by decide)
    rw [kernelPath, initrdPath]
    change ∀ value, namedValue kernelKey text = some value → 0 ∉ value at kernelClean
    change ∀ value, namedValue initrdKey text = some value → 0 ∉ value at initrdClean
    cases kernelCopy : copyValue (namedValue (cstr kernelKey) text) kernel with
    | error => exact .inl ⟨rfl, by simp [copyValue_error kernelCopy]⟩
    | ok kernelText =>
      cases initrdCopy : copyValue (namedValue (cstr initrdKey) text) initrd with
      | error => exact .inl ⟨rfl, by simp [copyValue_error initrdCopy]⟩
      | ok initrdText =>
        dsimp only
        split
        next lacking => exact .inl ⟨rfl, by simp [lacking.2]⟩
        next found =>
          have kernelSame : kernelText = (namedValue kernelKey text).map (· ++ [0]) :=
            copyValue_ok kernelCopy
          have initrdSame : initrdText = (namedValue initrdKey text).map (· ++ [0]) :=
            copyValue_ok initrdCopy
          generalize namedValue kernelKey text = kernelValue at kernelSame kernelClean ⊢
          generalize namedValue initrdKey text = initrdValue at initrdSame initrdClean ⊢
          subst kernelSame initrdSame
          cases kernelValue with
          | none => exact .inr (.inl ⟨rfl, rfl⟩)
          | some path =>
            refine .inr (.inr ⟨_, rfl, ?_, ?_, append.symm⟩)
            · exact congrArg some (cstr_terminated (kernelClean path rfl) []).symm
            · cases initrdValue with
              | none => rfl
              | some path =>
                exact congrArg some (cstr_terminated (initrdClean path rfl) []).symm

/-- Options follow their grammar. `cmdline_extract_opt` gives the value of the first field with the
key. The Linux loader takes as paths the first `kernel=` and `initrd=` before the first field that
begins with `append=`, and as command line all that follows it. Without memory it fails.
-/
theorem option_grammar
    : (∀ (opts key : List Byte) (allocated : Bool),
        cstr key ≠ [] → comma ∉ cstr key → equals ∉ cstr key
        → cmdlineExtractOpt (some opts) (some key) allocated
          = copyValue (optionValue (cstr key) (cstr opts)) allocated)
      ∧ ∀ (host : HostFiles) (space : MemSpace) (opts : Option (List Byte)) (allocs : OptionAllocs)
          (allocates : Bool) (ram : Nat → Byte),
        let text := cstr (opts.getD [])
        let outcome := linuxLoaderLoadOpts host space opts allocs allocates ram
        outcome
          = (match namedValue kernelKey text with
            | none => (.error einvalResult, ram)
            | some kernel =>
              linuxLoaderLoad space ⟨host.kernel kernel,
                (namedValue initrdKey text).map host.initrd, appendedText text⟩ allocates ram)
        ∨ (outcome = (.error enomemResult, ram) ∧ allocs ≠ ⟨true, true, true, true⟩) := by
  refine ⟨fun opts key allocated named unsplit plain =>
    cmdlineExtractOpt_eq allocated named unsplit plain, ?_⟩
  intro host space opts allocs allocates ram
  dsimp only
  unfold linuxLoaderLoadOpts
  rcases parseOptions_cases opts allocs with ⟨failed, lacking⟩ | ⟨failed, missing⟩
    | ⟨strings, parsed, kernel, initrd, cmdline⟩
  · rw [failed]
    exact .inr ⟨rfl, lacking⟩
  · rw [failed, missing]
    exact .inl rfl
  · refine .inl ?_
    rw [parsed, kernel, initrd, cmdline, Option.map_map]
    rfl

/-- The text `kernel=k,append=a,initrd=i`, whose command line is `a,initrd=i`. -/
def appendedOptions : List Byte :=
  kernelKey ++ [0x3d, 0x6b, 0x2c] ++ appendKey ++ [0x61, 0x2c] ++ initrdKey ++ [0x3d, 0x69]

def shortFile : HostFile := ⟨[0x4d, 0x5a], 2, true, .ok (), .ok (), by decide⟩

/-- A host with one file, `k`. -/
def singleFileHost : HostFiles where
  kernel := fun path => if path = [0x6b] then .ok shortFile else .error (-2)
  initrd := fun _ => .error (-2)

/-- In `,aa=b,a=c=` the key `a` has the value `c=`. With `kernel=k,append=a,initrd=i` the loader
takes the file `k`, no initrd, and the command line `a,initrd=i`.
-/
theorem option_grammar_key
    : cmdlineExtractOpt (some [0x2c, 0x61, 0x61, 0x3d, 0x62, 0x2c, 0x61, 0x3d, 0x63, 0x3d])
        (some [0x61]) true
      = .ok (some [0x63, 0x3d, 0])
      ∧ linuxLoaderLoadOpts singleFileHost ⟨[], 0, 0x1000⟩ (some appendedOptions)
          ⟨true, true, true, true⟩ true (fun _ => 0)
        = linuxLoaderLoad ⟨[], 0, 0x1000⟩
          ⟨.ok shortFile, none, some ([0x61, 0x2c] ++ initrdKey ++ [0x3d, 0x69])⟩ true
          (fun _ => 0) := by
  constructor
  · rw [option_grammar.1 _ _ _ (by decide) (by decide) (by decide)]
    decide
  · rcases option_grammar.2 singleFileHost ⟨[], 0, 0x1000⟩ (some appendedOptions)
        ⟨true, true, true, true⟩ true (fun _ => 0) with loaded | ⟨-, lacking⟩
    · exact loaded
    · exact absurd rfl lacking

end Modvm.Loader
