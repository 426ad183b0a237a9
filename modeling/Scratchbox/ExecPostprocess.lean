import Scratchbox.ExecEnvironment
import Scratchbox.Lib.Calls

/-!
# Exec postprocessing

`exec_postprocess.c`: how a binary is started is decided by an exec policy and by the
settings for CPU transparency. The new argument and environment vectors are allocated with
a number of extra elements, and the function that adds a string to a vector asserts that
there is room for it (`add_string_to_strv`).

`strv_capacity_iff`: there always is, with one exception. Without `qemu_argv` the command
itself takes an element that was not counted.
-/

namespace Scratchbox

open Environ List Except

/-! ## Settings in the rule tree -/

structure ExecPolicy where
  nativeAppLdSo : Option CStr := none
  nativeAppLdSoRpathPrefix : Option CStr := none
  nativeAppLdSoSupportsRpathPrefix : Bool := false
  nativeAppLdSoSupportsNodefaultdirs : Bool := false
  nativeAppLdSoSupportsArgv0 : Bool := false
  nativeAppLdLibraryPath : Option CStr := none
  nativeAppLdLibraryPathPrefix : Option CStr := none
  nativeAppLdLibraryPathSuffix : Option CStr := none
  nativeAppLdPreload : Option CStr := none
  nativeAppLdPreloadPrefix : Option CStr := none
  nativeAppLdPreloadSuffix : Option CStr := none
  nativeAppLocalePath : Option CStr := none
  nativeAppGconvPath : Option CStr := none
  execFlags : BitVec 32 := 0
  scriptDenyExec : Bool := false
  scriptSetArgv0ToMappedInterpreter : Bool := false
  /-- `script_interpreter_rules`, as `custom_map_abstract_path` evaluates them for a script and its
  interpreter: the path, and perhaps another policy. -/
  scriptInterpreterRules : Option (CStr → CStr → Option (CStr × Option CStr)) := none

/-- The settings of one `cputransparency` catalog. A member of a list may be faulty. -/
structure CpuTransparency where
  cmd : Option CStr := none
  arch : Option CStr := none
  hasArgv0Flag : Bool := false
  qemuHasEnvControlFlags : Bool := false
  qemuHasLibattrHackFlag : Bool := false
  qemuLdLibraryPath : Option CStr := none
  qemuLdPreload : Option CStr := none
  qemuArgv : List (Option CStr) := []
  qemuEnv : List (Option CStr) := []

inductive CpuTransparencyName
  | target
  | native

structure ExecConfig where
  /-- `find_exec_policy_handle`, in the mode of the session. -/
  findExecPolicy : CStr → Option ExecPolicy
  cputransparency : CpuTransparencyName → CpuTransparency
  hostLdLibraryPath : Option CStr
  hostLdPreload : Option CStr

/-- `struct binary_info`. -/
structure BinaryInfo where
  mode : BitVec 32 := 0
  uid : BitVec 32 := 0
  gid : BitVec 32 := 0
  machine : BitVec 16 := 0
  data : BitVec 8 := 0
  ptInterp : Option CStr := none
  hasCapabilities : Bool := false

/-! ## Vectors -/

/-- Why postprocessing does not return `0`. -/
inductive PostprocessStop
  | assertionFailed
  | doNotExecute
  | execDirectly
  deriving DecidableEq

/-- `struct strv_s`. -/
structure Strv where
  newV : List CStr
  maxSize : Nat
  fits : newV.length ≤ maxSize

namespace Strv

/-- `init_strv`. -/
def init (origV : List CStr) (numAdditionalElems : Nat) : Strv where
  newV := []
  maxSize := origV.length + numAdditionalElems
  fits := Nat.zero_le _

variable (strv : Strv)

/-- `add_string_to_strv`. -/
def addString (str : CStr) : Except PostprocessStop Strv :=
  if room : strv.newV.length < strv.maxSize then
    .ok { strv with newV := strv.newV ++ [str], fits := by simpa [Nat.succ_le_iff] using room }
  else .error .assertionFailed

def addStrings (strs : List CStr) : Except PostprocessStop Strv := strs.foldlM addString strv

/-- `add_string_from_ruletreelist_to_strv`, for all elements of a list. -/
def addRuletreelist : Strv → List (Option CStr) → Except PostprocessStop Strv
  | strv, [] => .ok strv
  | _, none :: _ => .error .doNotExecute
  | strv, some str :: list => do addRuletreelist (← strv.addString str) list

end Strv

structure Postprocessed where
  mappedFile : CStr
  argv : List CStr
  envp : Envp

/-- The result of `exec_postprocess_prepare`. -/
structure PostprocessPrepared where
  policy : ExecPolicy
  newArgv : Strv
  newEnvp : Strv

/-- `exec_postprocess_prepare`, for callers that stop with `invalid` if there is no such policy. -/
def execPostprocessPrepare (config : ExecConfig) (execPolicyName : CStr) (origArgv : List CStr)
    (addArgvSize : Nat) (origEnv : Envp) (addEnvpSize : Nat) (invalid : PostprocessStop) :
    Except PostprocessStop PostprocessPrepared := do
  match config.findExecPolicy execPolicyName with
  | none => .error invalid
  | some policy =>
    let newEnvp ← (Strv.init origEnv (1 + addEnvpSize)).addString
      (entryOf "__SB2_EXEC_POLICY_NAME" execPolicyName)
    return ⟨policy, .init origArgv addArgvSize, newEnvp⟩

/-! ## Native binaries -/

def printStr (str : Option CStr) : CStr := str.getD "(null)".toList

/-- `setenv_native_app_ld_preload` and `setenv_native_app_ld_library_path`: the entry for the
variable `var`. -/
def setenvNativeAppLd (var : String) (value valuePrefix valueSuffix host libpath : Option CStr) :
    CStr :=
  let before := valuePrefix.getD []
  let after := valueSuffix.getD []
  let colon (here : Bool) : CStr := if here then [':'] else []
  match value with
  | some entry => entry
  | none =>
    if valuePrefix.isSome || valueSuffix.isSome then
      entryOf var
        (match libpath with
        | some libpath =>
          before ++ colon (before ≠ []) ++ libpath ++ colon (libpath ≠ [] ∧ after ≠ []) ++ after
        | none => before ++ colon (before ≠ [] ∧ after ≠ []) ++ after)
    else entryOf var (printStr host)

/-- `LD_LIBRARY_PATH` for a native binary. -/
def nativeLdLibraryPath (config : ExecConfig) (policy : ExecPolicy) (origEnv : Envp) : CStr :=
  setenvNativeAppLd "LD_LIBRARY_PATH" policy.nativeAppLdLibraryPath
    policy.nativeAppLdLibraryPathPrefix policy.nativeAppLdLibraryPathSuffix
    config.hostLdLibraryPath (getenv origEnv "__SB2_LD_LIBRARY_PATH".toList)

/-- `LD_PRELOAD` for a native binary. -/
def nativeLdPreload (config : ExecConfig) (policy : ExecPolicy) (origEnv : Envp) : CStr :=
  setenvNativeAppLd "LD_PRELOAD" policy.nativeAppLdPreload policy.nativeAppLdPreloadPrefix
    policy.nativeAppLdPreloadSuffix config.hostLdPreload
    (getenv origEnv "__SB2_LD_PRELOAD".toList)

/-- The old entries of the environment that a native binary gets. -/
def nativeKept (origEnv : Envp) : Envp :=
  origEnv.filter fun entry =>
    !(startsWith "LD_LIBRARY_PATH=" entry || startsWith "LD_PRELOAD=" entry)

/-- The variables for `native_app_locale_path`. -/
def localeEntries (policy : ExecPolicy) : Envp :=
  match policy.nativeAppLocalePath with
  | some path => [entryOf "LOCPATH" path, entryOf "NLSPATH" path]
  | none => []

def nativeEntries (config : ExecConfig) (policy : ExecPolicy) (origEnv : Envp) : Envp :=
  [nativeLdLibraryPath config policy origEnv, nativeLdPreload config policy origEnv] ++
    localeEntries policy ++
    (policy.nativeAppGconvPath.map (entryOf "GCONV_PATH")).toList ++ nativeKept origEnv

/-- `S_ISUID | S_ISGID`. -/
def sIsuidSgid : BitVec 32 := sIsuid ||| sIsgid

/-- The program that is started for a native binary, the arguments that are added, and the first
element of the old arguments that is copied. -/
def nativeStart (policy : ExecPolicy) (info : BinaryInfo) (mappedFile argv0 : CStr) :
    CStr × List CStr × Nat :=
  match policy.nativeAppLdSo with
  | some ldSo =>
    (ldSo,
      [ldSo] ++
        (match policy.nativeAppLdSoRpathPrefix, policy.nativeAppLdSoSupportsRpathPrefix with
        | some rpath, true => ["--rpath-prefix".toList, rpath]
        | _, _ => ["--inhibit-rpath".toList, []]) ++
        (if policy.nativeAppLdSoSupportsNodefaultdirs then ["--nodefaultdirs".toList] else []) ++
        (if policy.nativeAppLdSoSupportsArgv0 then ["--argv0".toList, argv0] else []) ++
        [mappedFile],
      1)
  | none =>
    if info.mode &&& sIsuidSgid ≠ 0 ∨ info.hasCapabilities then
      match info.ptInterp with
      | some interp => (interp, [interp, mappedFile], 1)
      | none => (mappedFile, [], 0)
    else (mappedFile, [], 0)

def execPostprocessNativeExecutable (config : ExecConfig) (execPolicyName mappedFile : CStr)
    (info : BinaryInfo) (origArgv : List CStr) (origEnv : Envp) :
    Except PostprocessStop Postprocessed := do
  let prepared ←
    execPostprocessPrepare config execPolicyName origArgv 6 origEnv 5 .execDirectly
  let (newMappedFile, added, first) :=
    nativeStart prepared.policy info mappedFile (origArgv.headD [])
  let newEnvp ← prepared.newEnvp.addStrings (nativeEntries config prepared.policy origEnv)
  let newArgv ← prepared.newArgv.addStrings (added ++ origArgv.drop first)
  return ⟨newMappedFile, newArgv.newV, newEnvp.newV⟩

/-! ## CPU transparency -/

def matchesGconvPathNlspathOrLocpath (entry : CStr) : Bool :=
  startsWith "GCONV_PATH=" entry || startsWith "NLSPATH=" entry || startsWith "LOCPATH=" entry

/-- The variables that go to the command line of qemu. -/
def ldTraceVars (envp : Envp) : Envp := envp.filter (startsWith "LD_TRACE_")

def qemuKept (settings : CpuTransparency) (origEnv : Envp) : Envp :=
  origEnv.filter fun entry =>
    !(matchesGconvPathNlspathOrLocpath entry ||
      settings.qemuHasEnvControlFlags &&
        (startsWith "LD_TRACE_" entry || startsWith "__SB2_LD_PRELOAD=" entry))

/-- `LD_LIBRARY_PATH` and `LD_PRELOAD` for qemu itself. The settings have the names in them. -/
def qemuLd (var : String) (value host : Option CStr) : CStr :=
  match value with
  | some (c :: entry) => c :: entry
  | _ => entryOf var (printStr host)

def qemuOptions (settings : CpuTransparency) (argv0 : CStr) (origEnv : Envp) : List CStr :=
  ["-L".toList, "/".toList] ++ (if settings.hasArgv0Flag then ["-0".toList, argv0] else []) ++
    (if settings.qemuHasLibattrHackFlag then ["-libattr-hack".toList] else []) ++
    (if settings.qemuHasEnvControlFlags then
      (ldTraceVars origEnv).flatMap fun entry => ["-E".toList, entry]
    else [])

/-- The beginning of the command line, with the program that is started. -/
def qemuCommand (settings : CpuTransparency) (newArgv : Strv) :
    Except PostprocessStop (CStr × Strv) := do
  if settings.qemuArgv.isEmpty then
    match settings.cmd with
    | none => .error .doNotExecute
    | some cmd => return (cmd, ← newArgv.addString cmd)
  else
    let newArgv ← newArgv.addRuletreelist settings.qemuArgv
    return (newArgv.newV.headD [], newArgv)

def qemuFill (config : ExecConfig) (settings : CpuTransparency) (filename : CStr)
    (origArgv : List CStr) (origEnv : Envp) (newArgv newEnvp : Strv) :
    Except PostprocessStop Postprocessed := do
  let (newMappedFile, newArgv) ← qemuCommand settings newArgv
  let newEnvp ← newEnvp.addRuletreelist settings.qemuEnv
  let newArgv ← newArgv.addStrings (qemuOptions settings (origArgv.headD []) origEnv)
  let newEnvp ← newEnvp.addStrings (qemuKept settings origEnv ++
    [qemuLd "LD_LIBRARY_PATH" settings.qemuLdLibraryPath config.hostLdLibraryPath,
      qemuLd "LD_PRELOAD" settings.qemuLdPreload config.hostLdPreload])
  let newArgv ← newArgv.addStrings (filename :: origArgv.drop 1)
  return ⟨newMappedFile, newArgv.newV, newEnvp.newV⟩

/-- `exec_postprocess_qemu`, which is `exec_postprocess_cpu_transparency_executable`. -/
def execPostprocessQemu (config : ExecConfig) (execPolicyName filename : CStr)
    (origArgv : List CStr) (origEnv : Envp) (name : CpuTransparencyName) :
    Except PostprocessStop Postprocessed := do
  let settings := config.cputransparency name
  let prepared ← execPostprocessPrepare config execPolicyName origArgv
    (settings.qemuArgv.length + 5 + 2 * (ldTraceVars origEnv).length) origEnv
    (settings.qemuEnv.length + 2) .doNotExecute
  qemuFill config settings filename origArgv origEnv prepared.newArgv prepared.newEnvp

/-! ## Static binaries -/

def execPostprocessHostStaticExecutable (config : ExecConfig) (execPolicyName mappedFile : CStr)
    (origArgv : List CStr) (origEnv : Envp) : Except PostprocessStop Postprocessed := do
  let prepared ←
    execPostprocessPrepare config execPolicyName origArgv 0 origEnv 2 .doNotExecute
  let newEnvp ← prepared.newEnvp.addStrings
    [entryOf "LD_LIBRARY_PATH" (printStr config.hostLdLibraryPath),
      entryOf "LD_PRELOAD" (printStr config.hostLdPreload)]
  let newArgv ← prepared.newArgv.addStrings origArgv
  let newEnvp ← newEnvp.addStrings origEnv
  return ⟨mappedFile, newArgv.newV, newEnvp.newV⟩

/-! ## Capacities -/

theorem bind_ne_error {α β ε : Type} {first : Except ε α} {next : α → Except ε β} {stop : ε}
    (noFirst : first ≠ .error stop) (noNext : ∀ value, next value ≠ .error stop) :
    (first >>= next) ≠ .error stop := by
  cases first with
  | error other => exact fun same => noFirst (congrArg Except.error (Except.error.inj same))
  | ok value => exact noNext value

namespace Strv

variable {strv : Strv} {strs : List CStr} {str : CStr}

theorem addString_of_fits (room : strv.newV.length + 1 ≤ strv.maxSize) :
    strv.addString str =
      .ok ⟨strv.newV ++ [str], strv.maxSize, List.length_append.trans_le room⟩ :=
  dif_pos room

theorem addString_overflow (full : strv.maxSize < strv.newV.length + 1) :
    strv.addString str = .error .assertionFailed :=
  dif_neg (by omega)

theorem addStrings_of_fits (fits : strv.newV.length + strs.length ≤ strv.maxSize) :
    strv.addStrings strs =
      .ok ⟨strv.newV ++ strs, strv.maxSize, List.length_append.trans_le fits⟩ := by
  induction strs generalizing strv with
  | nil =>
    show Except.ok strv = _
    simp only [append_nil]
  | cons str strs ih =>
    rw [length_cons] at fits
    show strv.addString str >>= (·.addStrings strs) = _
    rw [addString_of_fits (by omega)]
    refine (ih ?_).trans ?_
    · simp only [length_append, length_singleton]
      omega
    · simp only [append_assoc, singleton_append]

theorem addStrings_overflow (full : strv.maxSize < strv.newV.length + strs.length) :
    strv.addStrings strs = .error .assertionFailed := by
  induction strs generalizing strv with
  | nil => exact absurd strv.fits (not_le.2 full)
  | cons str strs ih =>
    rw [length_cons] at full
    show strv.addString str >>= (·.addStrings strs) = _
    by_cases room : strv.newV.length + 1 ≤ strv.maxSize
    · rw [addString_of_fits room]
      refine ih ?_
      simp only [length_append, length_singleton]
      omega
    · rw [addString_overflow (by omega)]
      rfl

theorem newV_of_addStrings {strv' : Strv} (added : strv.addStrings strs = .ok strv') :
    strv'.newV = strv.newV ++ strs := by
  by_cases fits : strv.newV.length + strs.length ≤ strv.maxSize
  · rw [addStrings_of_fits fits] at added
    cases added
    rfl
  · rw [addStrings_overflow (not_le.1 fits)] at added
    cases added

theorem addString_ne_execDirectly (strv : Strv) (str : CStr) :
    strv.addString str ≠ .error .execDirectly := by
  unfold addString
  split <;> exact fun failed => nomatch failed

theorem addStrings_ne_execDirectly (strv : Strv) (strs : List CStr) :
    strv.addStrings strs ≠ .error .execDirectly := by
  induction strs generalizing strv with
  | nil => exact fun failed => nomatch failed
  | cons str strs ih => exact bind_ne_error (strv.addString_ne_execDirectly str) fun strv => ih strv

theorem addRuletreelist_ne_execDirectly (strv : Strv) (list : List (Option CStr)) :
    strv.addRuletreelist list ≠ .error .execDirectly := by
  induction list generalizing strv with
  | nil => exact fun failed => nomatch failed
  | cons item list ih =>
    cases item with
    | none => exact fun failed => nomatch failed
    | some str => exact bind_ne_error (strv.addString_ne_execDirectly str) fun strv => ih strv

theorem addRuletreelist_of_fits (strv : Strv) (list : List (Option CStr))
    (fits : strv.newV.length + list.length ≤ strv.maxSize) :
    (∃ strs, list = strs.map some ∧ ∃ h,
      strv.addRuletreelist list = .ok ⟨strv.newV ++ strs, strv.maxSize, h⟩) ∨
      none ∈ list ∧ strv.addRuletreelist list = .error .doNotExecute := by
  induction list generalizing strv with
  | nil => exact .inl ⟨[], rfl, by simpa using strv.fits, by simp [addRuletreelist]⟩
  | cons item list ih =>
    cases item with
    | none => exact .inr ⟨.head _, rfl⟩
    | some str =>
      rw [length_cons] at fits
      unfold addRuletreelist
      rw [addString_of_fits (by omega)]
      rcases ih ⟨strv.newV ++ [str], strv.maxSize, by simp; omega⟩ (by simp; omega) with
        ⟨strs, rfl, bound, added⟩ | ⟨faulty, denied⟩
      · refine .inl ⟨str :: strs, rfl, by simpa using bound, added.trans ?_⟩
        simp only [append_assoc, singleton_append]
      · exact .inr ⟨.tail _ faulty, denied⟩

end Strv

variable {config : ExecConfig} {execPolicyName : CStr} {origArgv : List CStr} {policy : ExecPolicy}
  {mappedFile : CStr} {post : Postprocessed} (settings : CpuTransparency) (origEnv : Envp)
  {entry : CStr} {info : BinaryInfo}

theorem execPostprocessPrepare_eq {addArgvSize : Nat} {origEnv : Envp} {addEnvpSize : Nat}
    {invalid : PostprocessStop} (defined : config.findExecPolicy execPolicyName = some policy) :
    execPostprocessPrepare config execPolicyName origArgv addArgvSize origEnv addEnvpSize invalid =
      .ok ⟨policy, .init origArgv addArgvSize,
        ⟨[entryOf "__SB2_EXEC_POLICY_NAME" execPolicyName], origEnv.length + (1 + addEnvpSize),
          (Nat.le_add_right 1 addEnvpSize).trans (Nat.le_add_left _ _)⟩⟩ := by
  unfold execPostprocessPrepare
  rw [defined]
  dsimp only
  rw [Strv.addString_of_fits (by simp [Strv.init]; omega)]
  rfl

theorem nativeEntries_length_le (config : ExecConfig) (policy : ExecPolicy) (origEnv : Envp) :
    (nativeEntries config policy origEnv).length ≤ origEnv.length + 5 := by
  have kept : (nativeKept origEnv).length ≤ origEnv.length := length_filter_le _ _
  unfold nativeEntries localeEntries
  simp only [length_append, length_cons, length_nil]
  cases policy.nativeAppLocalePath <;> cases policy.nativeAppGconvPath <;> simp <;> omega

theorem nativeStart_length_le (policy : ExecPolicy) (info : BinaryInfo) (mappedFile argv0 : CStr)
    (args : List CStr) :
    ((nativeStart policy info mappedFile argv0).2.1 ++
      (argv0 :: args).drop (nativeStart policy info mappedFile argv0).2.2).length ≤
      args.length + 7 := by
  unfold nativeStart
  split
  · have rpath : (match policy.nativeAppLdSoRpathPrefix,
        policy.nativeAppLdSoSupportsRpathPrefix with
      | some rpath, true => ["--rpath-prefix".toList, rpath]
      | _, _ => ["--inhibit-rpath".toList, []]).length = 2 := by
      split <;> rfl
    simp only [length_append, rpath, length_cons, length_nil, drop_succ_cons,
      drop_zero]
    split_ifs <;> simp <;> omega
  · split
    · split <;> simp
    · simp

theorem execPostprocessNativeExecutable_eq
    (defined : config.findExecPolicy execPolicyName = some policy) (mappedFile : CStr)
    (info : BinaryInfo) (argv0 : CStr) (args : List CStr) (origEnv : Envp) :
    let start := nativeStart policy info mappedFile argv0
    execPostprocessNativeExecutable config execPolicyName mappedFile info (argv0 :: args) origEnv =
      .ok ⟨start.1, start.2.1 ++ (argv0 :: args).drop start.2.2,
        entryOf "__SB2_EXEC_POLICY_NAME" execPolicyName ::
          nativeEntries config policy origEnv⟩ := by
  intro start
  have argvFits := nativeStart_length_le policy info mappedFile argv0 args
  have envpFits := nativeEntries_length_le config policy origEnv
  unfold execPostprocessNativeExecutable
  rw [execPostprocessPrepare_eq defined]
  simp only [ok_bind, headD_cons]
  rw [Strv.addStrings_of_fits (by simp; omega)]
  simp only [ok_bind]
  rw [Strv.addStrings_of_fits (by exact (Nat.zero_add _).trans_le argvFits)]
  rfl

theorem envp_of_native_ok {origEnv : Envp}
    (ok : execPostprocessNativeExecutable config execPolicyName mappedFile info origArgv origEnv =
      .ok post) :
    ∃ policy, config.findExecPolicy execPolicyName = some policy ∧
      post.envp =
        entryOf "__SB2_EXEC_POLICY_NAME" execPolicyName :: nativeEntries config policy origEnv := by
  unfold execPostprocessNativeExecutable at ok
  cases defined : config.findExecPolicy execPolicyName with
  | none =>
    unfold execPostprocessPrepare at ok
    rw [defined] at ok
    cases ok
  | some policy =>
    have envpFits := nativeEntries_length_le config policy origEnv
    rw [execPostprocessPrepare_eq defined, ok_bind] at ok
    dsimp only at ok
    rw [Strv.addStrings_of_fits (by simp; omega), ok_bind] at ok
    refine ⟨policy, rfl, ?_⟩
    generalize Strv.addStrings _ _ = newArgv at ok
    cases newArgv with
    | error stop => cases ok
    | ok newArgv =>
      cases ok
      rfl

theorem execPostprocessHostStaticExecutable_eq
    (defined : config.findExecPolicy execPolicyName = some policy) (mappedFile : CStr)
    (origArgv : List CStr) (origEnv : Envp) :
    execPostprocessHostStaticExecutable config execPolicyName mappedFile origArgv origEnv =
      .ok ⟨mappedFile, origArgv,
        [entryOf "__SB2_EXEC_POLICY_NAME" execPolicyName,
          entryOf "LD_LIBRARY_PATH" (printStr config.hostLdLibraryPath),
          entryOf "LD_PRELOAD" (printStr config.hostLdPreload)] ++ origEnv⟩ := by
  unfold execPostprocessHostStaticExecutable
  rw [execPostprocessPrepare_eq defined]
  simp only [ok_bind]
  rw [Strv.addStrings_of_fits (by simp)]
  simp only [ok_bind]
  rw [Strv.addStrings_of_fits (by simp [Strv.init])]
  simp only [ok_bind]
  rw [Strv.addStrings_of_fits (by simp; omega)]
  rfl

/-! ## Without new vectors -/

theorem execPostprocessPrepare_ne_execDirectly (config : ExecConfig) (execPolicyName : CStr)
    (origArgv : List CStr) (addArgvSize : Nat) (origEnv : Envp) (addEnvpSize : Nat) :
    execPostprocessPrepare config execPolicyName origArgv addArgvSize origEnv addEnvpSize
      .doNotExecute ≠ .error .execDirectly := by
  unfold execPostprocessPrepare
  split
  · exact fun failed => nomatch failed
  · exact bind_ne_error (Strv.addString_ne_execDirectly _ _) fun _ failed => nomatch failed

theorem execPostprocessQemu_ne_execDirectly (config : ExecConfig) (execPolicyName filename : CStr)
    (origArgv : List CStr) (origEnv : Envp) (name : CpuTransparencyName) :
    execPostprocessQemu config execPolicyName filename origArgv origEnv name ≠
      .error .execDirectly := by
  have command (settings : CpuTransparency) (newArgv : Strv) :
      qemuCommand settings newArgv ≠ .error .execDirectly := by
    unfold qemuCommand
    split
    · split
      · exact fun failed => nomatch failed
      · exact bind_ne_error (Strv.addString_ne_execDirectly _ _) fun _ failed => nomatch failed
    · exact bind_ne_error (Strv.addRuletreelist_ne_execDirectly _ _) fun _ failed => nomatch failed
  refine bind_ne_error (execPostprocessPrepare_ne_execDirectly _ _ _ _ _ _) fun prepared => ?_
  refine bind_ne_error (command _ _) fun _ => ?_
  refine bind_ne_error (Strv.addRuletreelist_ne_execDirectly _ _) fun _ => ?_
  refine bind_ne_error (Strv.addStrings_ne_execDirectly _ _) fun _ => ?_
  refine bind_ne_error (Strv.addStrings_ne_execDirectly _ _) fun _ => ?_
  exact bind_ne_error (Strv.addStrings_ne_execDirectly _ _) fun _ failed => nomatch failed

theorem execPostprocessHostStaticExecutable_ne_execDirectly (config : ExecConfig)
    (execPolicyName mappedFile : CStr) (origArgv : List CStr) (origEnv : Envp) :
    execPostprocessHostStaticExecutable config execPolicyName mappedFile origArgv origEnv ≠
      .error .execDirectly := by
  refine bind_ne_error (execPostprocessPrepare_ne_execDirectly _ _ _ _ _ _) fun prepared => ?_
  refine bind_ne_error (Strv.addStrings_ne_execDirectly _ _) fun _ => ?_
  refine bind_ne_error (Strv.addStrings_ne_execDirectly _ _) fun _ => ?_
  exact bind_ne_error (Strv.addStrings_ne_execDirectly _ _) fun _ failed => nomatch failed

/-- A native binary is executed with the old vectors if its policy is not defined. -/
theorem execPostprocessNativeExecutable_eq_execDirectly_iff (config : ExecConfig)
    (execPolicyName mappedFile : CStr) (info : BinaryInfo) (origArgv : List CStr)
    (origEnv : Envp) :
    execPostprocessNativeExecutable config execPolicyName mappedFile info origArgv origEnv =
        .error .execDirectly ↔
      config.findExecPolicy execPolicyName = none := by
  unfold execPostprocessNativeExecutable
  cases defined : config.findExecPolicy execPolicyName with
  | none =>
    refine iff_of_true ?_ rfl
    unfold execPostprocessPrepare
    rw [defined]
    rfl
  | some policy =>
    refine iff_of_false ?_ (Option.some_ne_none policy)
    rw [execPostprocessPrepare_eq defined, ok_bind]
    refine bind_ne_error (Strv.addStrings_ne_execDirectly _ _) fun _ => ?_
    refine bind_ne_error (Strv.addStrings_ne_execDirectly _ _) fun _ failed => ?_
    cases failed

/-! ## Entries that are kept -/

theorem mem_envp_of_qemu_ok {filename : CStr} {origEnv : Envp} {name : CpuTransparencyName}
    (ok : execPostprocessQemu config execPolicyName filename origArgv origEnv name = .ok post)
    (kept : entry ∈ qemuKept (config.cputransparency name) origEnv) : entry ∈ post.envp := by
  obtain ⟨prepared, -, ok⟩ := bind_eq_ok_iff.1 ok
  obtain ⟨command, -, ok⟩ := bind_eq_ok_iff.1 ok
  obtain ⟨newEnvp, -, ok⟩ := bind_eq_ok_iff.1 ok
  obtain ⟨newArgv, -, ok⟩ := bind_eq_ok_iff.1 ok
  obtain ⟨newEnvp', added, ok⟩ := bind_eq_ok_iff.1 ok
  obtain ⟨newArgv', -, ok⟩ := bind_eq_ok_iff.1 ok
  cases ok
  show entry ∈ newEnvp'.newV
  rw [Strv.newV_of_addStrings added]
  exact mem_append_right _ (mem_append_left _ kept)

theorem mem_envp_of_native_ok {origEnv : Envp}
    (ok : execPostprocessNativeExecutable config execPolicyName mappedFile info origArgv origEnv =
      .ok post) (kept : entry ∈ nativeKept origEnv) : entry ∈ post.envp := by
  obtain ⟨policy, -, same⟩ := envp_of_native_ok ok
  rw [same]
  exact mem_cons_of_mem _ (mem_append_right _ kept)

theorem mem_envp_of_static_ok {origEnv : Envp}
    (ok : execPostprocessHostStaticExecutable config execPolicyName mappedFile origArgv origEnv =
      .ok post) (member : entry ∈ origEnv) : entry ∈ post.envp := by
  obtain ⟨prepared, -, ok⟩ := bind_eq_ok_iff.1 ok
  obtain ⟨newEnvp, -, ok⟩ := bind_eq_ok_iff.1 ok
  obtain ⟨newArgv, -, ok⟩ := bind_eq_ok_iff.1 ok
  obtain ⟨newEnvp', added, ok⟩ := bind_eq_ok_iff.1 ok
  cases ok
  show entry ∈ newEnvp'.newV
  rw [Strv.newV_of_addStrings added]
  exact mem_append_right _ member

/-! ## The exception -/

/-- The policy and the settings are there, and no list has a faulty member. -/
def QemuStarts (config : ExecConfig) (execPolicyName : CStr) (settings : CpuTransparency) : Prop :=
  (config.findExecPolicy execPolicyName).isSome ∧
    (settings.qemuArgv = [] → settings.cmd.isSome) ∧ none ∉ settings.qemuArgv ∧
    none ∉ settings.qemuEnv

def qemuCommandSize (settings : CpuTransparency) : Nat := max 1 settings.qemuArgv.length

theorem map_some_none_notMem (strs : List CStr) : none ∉ strs.map some := by simp

theorem qemuCommand_cases (strv : Strv) (empty : strv.newV = [])
    (fits : qemuCommandSize settings ≤ strv.maxSize) :
    (((settings.qemuArgv = [] ∧ settings.cmd = none) ∨ none ∈ settings.qemuArgv) ∧
        qemuCommand settings strv = .error .doNotExecute) ∨
      (settings.qemuArgv = [] → settings.cmd.isSome) ∧ none ∉ settings.qemuArgv ∧
        ∃ file newArgv, qemuCommand settings strv = .ok (file, newArgv) ∧
          newArgv.newV.length = qemuCommandSize settings ∧ newArgv.maxSize = strv.maxSize := by
  unfold qemuCommandSize at fits ⊢
  unfold qemuCommand
  cases list : settings.qemuArgv with
  | nil =>
    rw [list] at fits
    rw [if_pos isEmpty_nil]
    cases command : settings.cmd with
    | none => exact .inl ⟨.inl ⟨rfl, rfl⟩, rfl⟩
    | some cmd =>
      have room : strv.newV.length + 1 ≤ strv.maxSize := by simpa [empty] using fits
      dsimp only
      rw [Strv.addString_of_fits room]
      refine .inr ⟨fun _ => rfl, not_mem_nil, _, _, rfl, ?_, rfl⟩
      simp [empty]
  | cons item items =>
    rw [list] at fits
    rw [if_neg (by simp), length_cons, Nat.max_eq_right (Nat.le_add_left 1 _)]
    have room : strv.newV.length + (item :: items).length ≤ strv.maxSize := by
      simp only [empty, length_nil, length_cons] at fits ⊢
      omega
    rcases strv.addRuletreelist_of_fits _ room with ⟨strs, same, bound, added⟩ | ⟨faulty, denied⟩
    · rw [added]
      refine .inr ⟨(nomatch ·), same ▸ map_some_none_notMem strs, _, _, rfl, ?_, rfl⟩
      have length := congrArg List.length same
      simp only [length_cons, length_map] at length
      simp [empty, length]
    · rw [denied]
      exact .inl ⟨.inr faulty, rfl⟩

theorem qemuOptions_length (settings : CpuTransparency) (argv0 : CStr) (origEnv : Envp) :
    (qemuOptions settings argv0 origEnv).length =
      2 + (if settings.hasArgv0Flag then 2 else 0) +
        (if settings.qemuHasLibattrHackFlag then 1 else 0) +
        (if settings.qemuHasEnvControlFlags then 2 * (ldTraceVars origEnv).length else 0) := by
  have trace (envp : Envp) :
      (envp.flatMap fun entry => ["-E".toList, entry]).length = 2 * envp.length := by
    induction envp with
    | nil => rfl
    | cons entry envp ih =>
      simp only [flatMap_cons, length_append, ih, length_cons, length_nil]
      omega
  unfold qemuOptions
  simp only [length_append, length_cons, length_nil]
  split_ifs <;> simp only [length_cons, length_nil, trace]

theorem qemu_rest {argv envp : Strv} {options rest : List CStr} {entries : Envp} {file : CStr}
    (envpFits : envp.newV.length + entries.length ≤ envp.maxSize) :
    (do
      let newArgv ← argv.addStrings options
      let newEnvp ← envp.addStrings entries
      let newArgv ← newArgv.addStrings rest
      return Postprocessed.mk file newArgv.newV newEnvp.newV : Except PostprocessStop _) =
      if argv.newV.length + (options.length + rest.length) ≤ argv.maxSize then
        .ok ⟨file, argv.newV ++ options ++ rest, envp.newV ++ entries⟩
      else .error .assertionFailed := by
  by_cases optionsFit : argv.newV.length + options.length ≤ argv.maxSize
  · rw [Strv.addStrings_of_fits optionsFit, ok_bind, Strv.addStrings_of_fits envpFits,
      ok_bind]
    split
    next fits =>
      rw [Strv.addStrings_of_fits (by simp only [length_append]; omega)]
      rfl
    next overflow =>
      rw [Strv.addStrings_overflow (by simp only [length_append]; omega)]
      rfl
  · rw [Strv.addStrings_overflow (by omega), if_neg (by omega)]
    rfl

def qemuArgsSize (settings : CpuTransparency) (argv0 : CStr) (args : List CStr) (origEnv : Envp) :
    Nat :=
  (qemuOptions settings argv0 origEnv).length + (args.length + 1)

/-- The elements that are allocated. -/
def qemuRoom (settings : CpuTransparency) (args : List CStr) (origEnv : Envp) : Nat :=
  args.length + 1 + (settings.qemuArgv.length + 5 + 2 * (ldTraceVars origEnv).length)

theorem qemuCommandSize_le_room (settings : CpuTransparency) (args : List CStr) (origEnv : Envp) :
    qemuCommandSize settings ≤ qemuRoom settings args origEnv := by
  unfold qemuCommandSize qemuRoom
  omega

theorem qemuKept_length_le : (qemuKept settings origEnv).length ≤ origEnv.length :=
  length_filter_le _ _

theorem execPostprocessQemu_cases (config : ExecConfig) (execPolicyName filename argv0 : CStr)
    (args : List CStr) (origEnv : Envp) (name : CpuTransparencyName) :
    let settings := config.cputransparency name
    let result := execPostprocessQemu config execPolicyName filename (argv0 :: args) origEnv name
    ¬ QemuStarts config execPolicyName settings ∧ result = .error .doNotExecute ∨
      QemuStarts config execPolicyName settings ∧ ∃ file argv, ∃ strs : List CStr,
        settings.qemuEnv = strs.map some ∧
        result =
          if qemuCommandSize settings + qemuArgsSize settings argv0 args origEnv ≤
              qemuRoom settings args origEnv then
            .ok ⟨file, argv, [entryOf "__SB2_EXEC_POLICY_NAME" execPolicyName] ++ strs ++
              (qemuKept settings origEnv ++
                [qemuLd "LD_LIBRARY_PATH" settings.qemuLdLibraryPath config.hostLdLibraryPath,
                  qemuLd "LD_PRELOAD" settings.qemuLdPreload config.hostLdPreload])⟩
          else .error .assertionFailed := by
  intro settings result
  have kept := qemuKept_length_le settings origEnv
  cases defined : config.findExecPolicy execPolicyName with
  | none =>
    refine .inl ⟨fun starts => ?_, ?_⟩
    · have policy := starts.1
      rw [defined] at policy
      cases policy
    · show execPostprocessQemu _ _ _ _ _ _ = _
      unfold execPostprocessQemu execPostprocessPrepare
      rw [defined]
      rfl
  | some policy =>
    have filled : result = qemuFill config settings filename (argv0 :: args) origEnv
        (.init (argv0 :: args) (settings.qemuArgv.length + 5 + 2 * (ldTraceVars origEnv).length))
        ⟨[entryOf "__SB2_EXEC_POLICY_NAME" execPolicyName],
          origEnv.length + (1 + (settings.qemuEnv.length + 2)), by simp; omega⟩ := by
      show execPostprocessQemu _ _ _ _ _ _ = _
      unfold execPostprocessQemu
      dsimp only
      rw [execPostprocessPrepare_eq defined, ok_bind]
    rw [filled]
    unfold qemuFill
    rcases qemuCommand_cases settings (.init (argv0 :: args)
        (settings.qemuArgv.length + 5 + 2 * (ldTraceVars origEnv).length)) rfl
        (qemuCommandSize_le_room settings args origEnv) with
      ⟨missing, denied⟩ | ⟨command, faultless, file, newArgv, started, length, room⟩
    · refine .inl ⟨fun starts => ?_, by rw [denied]; rfl⟩
      rcases missing with ⟨noArgv, noCmd⟩ | faulty
      · have cmd := starts.2.1 noArgv
        rw [noCmd] at cmd
        cases cmd
      · exact starts.2.2.1 faulty
    rw [started, ok_bind]
    dsimp only
    rcases Strv.addRuletreelist_of_fits ⟨[entryOf "__SB2_EXEC_POLICY_NAME" execPolicyName],
        origEnv.length + (1 + (settings.qemuEnv.length + 2)), by simp; omega⟩ settings.qemuEnv
        (by simp; omega) with
      ⟨strs, members, bound, added⟩ | ⟨faulty, denied⟩
    · have noFaulty : none ∉ settings.qemuEnv := members ▸ map_some_none_notMem strs
      have members' : settings.qemuEnv.length = strs.length := by rw [members, length_map]
      refine .inr ⟨⟨by rw [defined]; rfl, command, faultless, noFaulty⟩, file,
        newArgv.newV ++ qemuOptions settings argv0 origEnv ++ (filename :: args), strs, members, ?_⟩
      rw [added, ok_bind, qemu_rest (by simp; omega), length, room]
      rfl
    · refine .inl ⟨fun starts => starts.2.2.2 faulty, ?_⟩
      rw [denied]
      rfl

/-- The command line of qemu is too long for its vector only if the command was not counted, and
everything that was counted is needed. -/
theorem qemu_fits_iff (settings : CpuTransparency) (argv0 : CStr) (args : List CStr)
    (origEnv : Envp) :
    qemuCommandSize settings + qemuArgsSize settings argv0 args origEnv ≤
        qemuRoom settings args origEnv ↔
      ¬ (settings.qemuArgv = [] ∧ settings.hasArgv0Flag = true ∧
        settings.qemuHasLibattrHackFlag = true ∧
        (settings.qemuHasEnvControlFlags = true ∨ ldTraceVars origEnv = [])) := by
  unfold qemuCommandSize qemuArgsSize qemuRoom
  rw [qemuOptions_length, ← length_eq_zero_iff, ← length_eq_zero_iff]
  generalize settings.qemuArgv.length = counted
  generalize (ldTraceVars origEnv).length = traced
  cases settings.hasArgv0Flag <;> cases settings.qemuHasLibattrHackFlag <;>
    cases settings.qemuHasEnvControlFlags <;> simp <;> omega

/-- The assertion about the capacity of a vector fails only for qemu. -/
theorem strv_capacity_iff (config : ExecConfig) (execPolicyName mappedFile filename : CStr)
    (info : BinaryInfo) (argv0 : CStr) (args : List CStr) (origEnv : Envp)
    (name : CpuTransparencyName) :
    let settings := config.cputransparency name
    execPostprocessNativeExecutable config execPolicyName mappedFile info (argv0 :: args) origEnv ≠
        .error .assertionFailed ∧
      execPostprocessHostStaticExecutable config execPolicyName mappedFile (argv0 :: args) origEnv ≠
        .error .assertionFailed ∧
      (execPostprocessQemu config execPolicyName filename (argv0 :: args) origEnv name ≠
          .error .assertionFailed ↔
        ¬ (QemuStarts config execPolicyName settings ∧ settings.qemuArgv = [] ∧
          settings.hasArgv0Flag = true ∧ settings.qemuHasLibattrHackFlag = true ∧
          (settings.qemuHasEnvControlFlags = true ∨ ldTraceVars origEnv = []))) := by
  intro settings
  refine ⟨?_, ?_, ?_⟩
  · cases defined : config.findExecPolicy execPolicyName with
    | none =>
      unfold execPostprocessNativeExecutable execPostprocessPrepare
      rw [defined]
      exact fun failed => nomatch failed
    | some policy =>
      rw [execPostprocessNativeExecutable_eq defined]
      exact fun failed => nomatch failed
  · cases defined : config.findExecPolicy execPolicyName with
    | none =>
      unfold execPostprocessHostStaticExecutable execPostprocessPrepare
      rw [defined]
      exact fun failed => nomatch failed
    | some policy =>
      rw [execPostprocessHostStaticExecutable_eq defined]
      exact fun failed => nomatch failed
  · rcases execPostprocessQemu_cases config execPolicyName filename argv0 args origEnv name with
      ⟨stopped, denied⟩ | ⟨starts, file, argv, strs, -, result⟩
    · rw [denied]
      exact iff_of_true (fun failed => nomatch failed) fun overflow => stopped overflow.1
    · rw [result, and_iff_right starts, ← qemu_fits_iff settings argv0 args origEnv]
      split
      next fits => exact iff_of_true (fun failed => nomatch failed) fits
      next full => exact iff_of_false (fun fails => fails rfl) full

/-- A rule tree with one policy and with settings for an old qemu. -/
def oldQemuConfig : ExecConfig where
  findExecPolicy := fun _ => some {}
  cputransparency := fun _ =>
    { cmd := some "/usr/bin/qemu-arm".toList
      hasArgv0Flag := true
      qemuHasLibattrHackFlag := true }
  hostLdLibraryPath := none
  hostLdPreload := none

/-- There is no room for the last argument. -/
theorem qemu_argv_overflow :
    execPostprocessQemu oldQemuConfig "Target".toList "/bin/ls".toList ["ls".toList] [] .target =
      .error .assertionFailed := rfl

end Scratchbox
