import Scratchbox.ExecPostprocess
import Scratchbox.Lib.Chains

/-!
# Preparing an exec

`sb_exec.c`: `prepare_exec` finds the file and its type, and how to start it. For a script
`prepare_hashbang` finds the interpreter, and calls `prepare_exec` again. With fuel for the
recursion, there is a result exactly if the scripts on disk make no endless chain
(`prepare_exec_ends_iff`). Path mapping, exec preprocessing and the inspection of binaries are
parameters here, and the models of these functions in `ExecMachine`.
-/

namespace Scratchbox

open Environ StateTransition

/-! ## Surroundings -/

def Errno.ENOEXEC : Errno := ⟨8, by decide⟩

/-- `SBOX_MAXPATH`, which is `PATH_MAX`. -/
def sboxMaxpath : Nat := 4096

/-- `enum binary_type`. -/
inductive BinaryType
  | none
  | unknown
  | invalid
  | hostStatic
  | hostDynamic
  | target
  | hashbang
  deriving DecidableEq

/-- What `inspect_binary` finds out. The errno counts if the file can not be executed. -/
structure Inspection where
  type : BinaryType
  info : BinaryInfo
  errno : Errno

/-- The results of `sbox_map_path_for_exec`. -/
structure ExecMapping where
  mresResultBuf : Option CStr
  mresErrno : Option Errno
  mresExecPolicyName : Option CStr

/-- What `apply_exec_preprocessing_rules` makes of a file and its arguments. -/
structure ExecPreprocessed where
  file : CStr
  argv : List CStr
  disableMapping : Bool

/-- What `prepare_exec` works with: the process, the rule tree and the files. -/
structure ExecWorld where
  process : ExecProcess
  config : ExecConfig
  applyExecPreprocessingRules : CStr → List CStr → ExecPreprocessed
  sboxMapPathForExec : CStr → ExecMapping
  inspectBinary : CStr → Inspection
  findExecPolicyName : CStr → Option CStr
  /-- The text of a file that can be opened. -/
  contents : CStr → Option CStr
  /-- What is in the buffer for the interpreter before it is written to. -/
  uninitialized : CStr

/-- The arguments of `prepare_exec`. -/
structure ExecCall where
  execPolicyName : Option CStr
  origFile : CStr
  fileHasBeenMapped : Bool
  origArgv : List CStr
  envp : Envp

structure ExecLocation where
  execPolicyName : Option CStr
  myFile : CStr
  mappedFile : CStr

/-- The variables of `prepare_exec`, after mapping. -/
structure ExecTarget extends ExecLocation where
  myArgv : List CStr
  myEnvp : Envp

/-- Why nothing is executed: `-1` with an errno, `-1` with the errno of an earlier call, or the
process is aborted. -/
inductive ExecStop
  | failed (errno : Errno)
  | refused
  | assertionFailed
  deriving DecidableEq

/-- What `prepare_exec` hands over. The vectors may be missing. -/
structure ExecPrepared where
  newFile : CStr
  newArgv : Option (List CStr)
  newEnvp : Option Envp

/-- The result of `prepare_exec`. -/
abbrev PrepareResult := Except ExecStop ExecPrepared

/-- `basename` of `libgen.h`. -/
def basename (path : CStr) : CStr :=
  if path = [] then ['.']
  else
    match path.reverse.dropWhile (· = '/') with
    | [] => ['/']
    | name => (name.takeWhile (· ≠ '/')).reverse

/-! ## Scripts -/

def endsWord (ch : Char) : Bool := ch = '\x00' || ch = ' ' || ch = '\t' || ch = '\n'

/-- The loop over the first line of a script: `word` is the text from `j` to `i`, and the words
that are complete are the interpreter and its one and only argument. -/
def hashbangWords (words : List CStr) (word : CStr) : List Char → List CStr
  | [] => words
  | ch :: rest =>
    if endsWord ch then
      let words' := if word = [] then words else words ++ [word]
      if word ≠ [] ∧ words ≠ [] ∨ ch = '\n' ∨ ch = '\x00' then words'
      else hashbangWords words' [] rest
    else hashbangWords words (word ++ [ch]) rest

/-- What `exec_map_script_interpreter` decides. -/
inductive ScriptMapping
  | deny
  | mapped (interpreter : CStr) (newExecPolicy : Option CStr) (setArgv0 : Bool)
  | useOrdinaryMapping

/-- `exec_map_script_interpreter`. A policy that is not defined has no attributes. -/
def execMapScriptInterpreter (config : ExecConfig) (execPolicyName interpreter
    origScriptFilename : CStr) : ScriptMapping :=
  let policy := (config.findExecPolicy execPolicyName).getD {}
  if policy.scriptDenyExec then .deny
  else
    match policy.scriptInterpreterRules.bind (· origScriptFilename interpreter) with
    | some (mappingResult, newExecPolicy) =>
      .mapped mappingResult newExecPolicy policy.scriptSetArgv0ToMappedInterpreter
    | none => .useOrdinaryMapping

namespace ExecWorld

variable (world : ExecWorld)

def readHashbang (mappedFile : CStr) : Option (List CStr) := do
  let text ← world.contents mappedFile
  let hashbang := text.take (sboxMaxpath - 1)
  if hashbang.length < 2 then none
  else hashbangWords [] [] ((hashbang.drop 2).dropWhile fun ch => ch = ' ' || ch = '\t')

def interpreterOf (words : List CStr) : CStr := words.headD world.uninitialized

def mapInterpreter (execPolicyName interpreter origFile : CStr) :
    Option (CStr × Option CStr × Bool) :=
  match execMapScriptInterpreter world.config execPolicyName interpreter origFile with
  | .deny => none
  | .mapped mappedInterpreter newExecPolicy setArgv0 =>
    some (mappedInterpreter, newExecPolicy, setArgv0)
  | .useOrdinaryMapping =>
    let result := world.sboxMapPathForExec interpreter
    result.mresResultBuf.map fun mappedInterpreter =>
      (mappedInterpreter, result.mresExecPolicyName, false)

/-- The call of `prepare_exec` for the interpreter. -/
def interpreterCall (target : ExecTarget) (words : List CStr) (mappedInterpreter : CStr)
    (newExecPolicy : Option CStr) (setArgv0 : Bool) : ExecCall :=
  let newArgv := words ++ target.myFile :: target.myArgv.drop 1
  { execPolicyName := newExecPolicy
    origFile := mappedInterpreter
    fileHasBeenMapped := true
    origArgv := if setArgv0 then mappedInterpreter :: newArgv.drop 1 else newArgv
    envp := changeEnvironmentVariable
      (changeEnvironmentVariable target.myEnvp "__SB2_ORIG_BINARYNAME="
        (world.interpreterOf words))
      "__SB2_BINARYNAME=" (basename mappedInterpreter) }

/-- `prepare_hashbang`. A script that can not be read is just run. -/
def prepareHashbang (prepareExec : ExecCall → Option PrepareResult) (target : ExecTarget)
    (execPolicyName : CStr) : Option PrepareResult :=
  match world.readHashbang target.mappedFile with
  | none => some (.ok ⟨target.mappedFile, some target.myArgv, some target.myEnvp⟩)
  | some words =>
    match world.mapInterpreter execPolicyName (world.interpreterOf words) target.myFile with
    | none => some (.error .refused)
    | some (mappedInterpreter, newExecPolicy, setArgv0) =>
      prepareExec
        (world.interpreterCall target words mappedInterpreter newExecPolicy setArgv0)

end ExecWorld

/-! ## Binaries -/

def binaryCanRunOn (info : BinaryInfo) (arch : CStr) : Bool :=
  let byEndianness (little big : String) : Bool :=
    info.data = 1 && arch = little.toList || info.data = 2 && arch = big.toList
  match info.machine.toNat with
  | 3 => arch = "i386".toList || arch = "x86_64".toList
  | 62 => arch = "x86_64".toList
  | 183 => arch = "aarch64".toList
  | 50 => arch = "ia64".toList
  | 20 => arch = "ppc".toList
  | 40 => byEndianness "armel" "armeb"
  | 8 => byEndianness "mipsel" "mipseb"
  | 42 => byEndianness "shel" "sheb"
  | _ => false

def execPolicyForceCpuTransparency (config : ExecConfig) (execPolicyName : CStr)
    (name : CpuTransparencyName) (info : BinaryInfo) : Bool :=
  match config.findExecPolicy execPolicyName with
  | none => false
  | some policy =>
    policy.execFlags &&& 1 ≠ 0 &&
      (match (config.cputransparency name).cmd, (config.cputransparency name).arch with
      | some cmd, some arch => cmd ≠ [] && binaryCanRunOn info arch
      | _, _ => false)

def simulateSuidAndSgidIfNeeded (process : ExecProcess) (info : BinaryInfo) (envp : Envp) : Envp :=
  if info.mode &&& sIsuidSgid ≠ 0 then
    changeEnvironmentVariable envp "SBOX_VPERM_IDS="
      (vpermExportIdsAsStringForExec process.idSource process.simulatedIds [] info.mode info.uid
        info.gid none).2
  else envp

namespace ExecWorld

variable (world : ExecWorld)

def postprocess (execPolicyName : CStr) (found : Inspection) (target : ExecTarget) :
    Except PostprocessStop Postprocessed :=
  let qemu := execPostprocessQemu world.config execPolicyName target.myFile target.myArgv
    target.myEnvp
  match found.type with
  | .hostDynamic =>
    if execPolicyForceCpuTransparency world.config execPolicyName .target found.info then
      qemu .target
    else
      execPostprocessNativeExecutable world.config execPolicyName target.mappedFile found.info
        target.myArgv target.myEnvp
  | .hostStatic =>
    if execPolicyForceCpuTransparency world.config execPolicyName .native found.info then
      qemu .native
    else
      execPostprocessHostStaticExecutable world.config execPolicyName target.mappedFile
        target.myArgv target.myEnvp
  | _ => qemu .target

/-- A binary: when postprocessing says that it is to be executed directly, there are no new
vectors. -/
def prepareBinary (execPolicyName : CStr) (found : Inspection) (target : ExecTarget) :
    PrepareResult :=
  match world.postprocess execPolicyName found target with
  | .ok post =>
    .ok ⟨post.mappedFile, some post.argv,
      some (simulateSuidAndSgidIfNeeded world.process found.info post.envp)⟩
  | .error .execDirectly => .ok ⟨target.mappedFile, none, none⟩
  | .error .doNotExecute => .error (.failed .EINVAL)
  | .error .assertionFailed => .error .assertionFailed

/-- The first part of `prepare_exec`: preprocessing and mapping. If there is no path,
`inspect_binary` fails. -/
def mapFile (call : ExecCall) : Except ExecStop ExecTarget :=
  let target (location : ExecLocation) (argv : List CStr) (envp : Envp) :
      Except ExecStop ExecTarget :=
    .ok ⟨location, argv,
      changeEnvironmentVariable envp "__SB2_REAL_BINARYNAME=" location.mappedFile⟩
  if call.fileHasBeenMapped then
    target ⟨call.execPolicyName, call.origFile, call.origFile⟩ call.origArgv call.envp
  else
    let pre := world.applyExecPreprocessingRules call.origFile call.origArgv
    let envp := if pre.disableMapping then
        call.envp ++ ["SBOX_DISABLE_MAPPING=1".toList, "SBOX_DISABLE_ARGVENVP=1".toList]
      else call.envp
    if strvecContains envp "SBOX_DISABLE_MAPPING=1" then
      target ⟨call.execPolicyName, pre.file, pre.file⟩ pre.argv envp
    else
      let result := world.sboxMapPathForExec pre.file
      match result.mresErrno, result.mresResultBuf with
      | some errno, _ => .error (.failed errno)
      | none, none => .error (.failed .EFAULT)
      | none, some mappedFile =>
        target ⟨result.mresExecPolicyName, pre.file, mappedFile⟩ pre.argv envp

def policyFor (execPolicyName : Option CStr) (mappedFile : CStr) : Option CStr :=
  execPolicyName.or (world.findExecPolicyName mappedFile)

/-- `prepare_exec`, where `prepareExec` is the call for an interpreter. -/
def prepareExecLevel (prepareExec : ExecCall → Option PrepareResult) (call : ExecCall) :
    Option PrepareResult :=
  match world.mapFile call with
  | .error stop => some (.error stop)
  | .ok target =>
    let found := world.inspectBinary target.mappedFile
    if found.type = .invalid ∨ found.type = .none then some (.error (.failed found.errno))
    else
      match world.policyFor target.execPolicyName target.mappedFile with
      | none => some (.error (.failed .ENOEXEC))
      | some execPolicyName =>
        if found.type = .hashbang then world.prepareHashbang prepareExec target execPolicyName
        else if found.type = .unknown then some (.error (.failed .ENOEXEC))
        else some (world.prepareBinary execPolicyName found target)

/-- `prepare_exec`, with fuel for the levels of the recursion. -/
def prepareExec : Nat → ExecCall → Option PrepareResult
  | 0, _ => none
  | fuel + 1, call => world.prepareExecLevel (prepareExec fuel) call

end ExecWorld

/-! ## Chains of interpreters -/

namespace ExecWorld

variable (world : ExecWorld)

/-- The words in the first line of a script, with the mapped interpreter. -/
def scriptInterpreter (location : ExecLocation) :
    Option (List CStr × CStr × Option CStr × Bool) :=
  if (world.inspectBinary location.mappedFile).type = .hashbang then do
    let execPolicyName ← world.policyFor location.execPolicyName location.mappedFile
    let words ← world.readHashbang location.mappedFile
    let mapped ← world.mapInterpreter execPolicyName (world.interpreterOf words) location.myFile
    return (words, mapped)
  else none

def nextInterpreter (location : ExecLocation) : Option ExecLocation :=
  (world.scriptInterpreter location).map fun (_, mappedInterpreter, newExecPolicy, _) =>
    ⟨newExecPolicy, mappedInterpreter, mappedInterpreter⟩

/-- The call of `prepare_exec` that a call makes. -/
def nextCall (call : ExecCall) : Option ExecCall :=
  (world.mapFile call).toOption.bind fun target =>
    (world.scriptInterpreter target.toExecLocation).map fun (words, mapped) =>
      world.interpreterCall target words mapped.1 mapped.2.1 mapped.2.2

variable {world} {call next : ExecCall} {target : ExecTarget}

theorem scriptInterpreter_eq_some {location : ExecLocation} {words : List CStr}
    {mapped : CStr × Option CStr × Bool}
    (found : world.scriptInterpreter location = some (words, mapped)) :
    (world.inspectBinary location.mappedFile).type = .hashbang ∧ ∃ execPolicyName,
      world.policyFor location.execPolicyName location.mappedFile = some execPolicyName ∧
      world.readHashbang location.mappedFile = some words ∧
      world.mapInterpreter execPolicyName (world.interpreterOf words) location.myFile =
        some mapped := by
  unfold scriptInterpreter at found
  split at found
  next script =>
    simp only [Option.bind_eq_bind, Option.bind_eq_some_iff] at found
    obtain ⟨execPolicyName, selected, words', read, mapped', interpreter, same⟩ := found
    cases same
    exact ⟨script, execPolicyName, selected, read, interpreter⟩
  next => cases found

theorem nextCall_eq (located : world.mapFile call = .ok target) :
    world.nextCall call =
      (world.scriptInterpreter target.toExecLocation).map fun (words, mapped) =>
        world.interpreterCall target words mapped.1 mapped.2.1 mapped.2.2 := by
  unfold nextCall
  rw [located]
  rfl

theorem nextCall_eq_some (step : world.nextCall call = some next) :
    ∃ target words mapped, world.mapFile call = .ok target ∧
      world.scriptInterpreter target.toExecLocation = some (words, mapped) ∧
      next = world.interpreterCall target words mapped.1 mapped.2.1 mapped.2.2 := by
  cases located : world.mapFile call with
  | error stop =>
    unfold nextCall at step
    rw [located] at step
    cases step
  | ok target =>
    rw [nextCall_eq located] at step
    obtain ⟨⟨words, mapped⟩, found, rfl⟩ := Option.map_eq_some_iff.1 step
    exact ⟨target, words, mapped, rfl, found, rfl⟩

theorem prepareExecLevel_of_next (step : world.nextCall call = some next)
    (prepareExec : ExecCall → Option PrepareResult) :
    world.prepareExecLevel prepareExec call = prepareExec next := by
  obtain ⟨target, words, ⟨mapped, newExecPolicy, setArgv0⟩, located, found, rfl⟩ :=
    nextCall_eq_some step
  obtain ⟨script, execPolicyName, selected, read, interpreter⟩ := scriptInterpreter_eq_some found
  have executable : ¬ ((world.inspectBinary target.mappedFile).type = .invalid ∨
      (world.inspectBinary target.mappedFile).type = .none) := by
    rw [script]
    decide
  unfold prepareExecLevel prepareHashbang
  rw [located]
  dsimp only
  rw [if_neg executable, selected]
  dsimp only
  rw [if_pos script, read]
  dsimp only
  rw [interpreter]

/-- What a level that does not call itself can return. -/
inductive LastResult (world : ExecWorld) (call : ExecCall) : PrepareResult → Prop
  | stopped (stop : ExecStop) : LastResult world call (.error stop)
  | unreadable {target : ExecTarget} : world.mapFile call = .ok target →
      LastResult world call (.ok ⟨target.mappedFile, some target.myArgv, some target.myEnvp⟩)
  | binary {target : ExecTarget} {execPolicyName : CStr} : world.mapFile call = .ok target →
      world.policyFor target.execPolicyName target.mappedFile = some execPolicyName →
      LastResult world call
        (world.prepareBinary execPolicyName (world.inspectBinary target.mappedFile) target)

theorem prepareExecLevel_of_last (stop : world.nextCall call = none) :
    ∃ result, LastResult world call result ∧
      ∀ prepareExec, world.prepareExecLevel prepareExec call = some result := by
  unfold prepareExecLevel
  cases located : world.mapFile call with
  | error stop => exact ⟨_, .stopped stop, fun _ => rfl⟩
  | ok target =>
    dsimp only
    split
    · exact ⟨_, .stopped _, fun _ => rfl⟩
    cases selected : world.policyFor target.execPolicyName target.mappedFile with
    | none => exact ⟨_, .stopped _, fun _ => rfl⟩
    | some execPolicyName =>
      dsimp only
      split
      next script =>
        unfold prepareHashbang
        cases read : world.readHashbang target.mappedFile with
        | none => exact ⟨_, .unreadable located, fun _ => rfl⟩
        | some words =>
          dsimp only
          cases interpreter : world.mapInterpreter execPolicyName (world.interpreterOf words)
              target.myFile with
          | none => exact ⟨_, .stopped _, fun _ => rfl⟩
          | some mapped =>
            rw [nextCall_eq located, scriptInterpreter, if_pos script, selected, read] at stop
            simp [interpreter] at stop
      next =>
        split
        · exact ⟨_, .stopped _, fun _ => rfl⟩
        · exact ⟨_, .binary located selected, fun _ => rfl⟩

def lastResult (world : ExecWorld) (call : ExecCall) : PrepareResult :=
  (world.prepareExecLevel (fun _ => none) call).getD (.error .refused)

theorem lastResult_spec (stop : world.nextCall call = none) :
    LastResult world call (world.lastResult call) ∧
      ∀ prepareExec, world.prepareExecLevel prepareExec call = some (world.lastResult call) := by
  obtain ⟨result, spec, returned⟩ := prepareExecLevel_of_last stop
  have same : world.lastResult call = result := by
    rw [lastResult, returned, Option.getD_some]
  rw [same]
  exact ⟨spec, returned⟩

theorem prepareExec_eq_follow (world : ExecWorld) (fuel : Nat) (call : ExecCall) :
    world.prepareExec fuel call = Chains.follow world.nextCall world.lastResult fuel call := by
  induction fuel generalizing call with
  | zero => rfl
  | succ fuel ih =>
    unfold prepareExec Chains.follow
    split
    next stop => exact (lastResult_spec stop).2 _
    next next step => rw [prepareExecLevel_of_next step, ih]

/-! ## Termination -/

theorem exists_prepareExec_isSome_iff (world : ExecWorld) (call : ExecCall) :
    (∃ fuel, (world.prepareExec fuel call).isSome) ↔ (eval world.nextCall call).Dom := by
  simp only [prepareExec_eq_follow]
  exact Chains.exists_follow_isSome_iff

def locate (world : ExecWorld) (call : ExecCall) : Option ExecLocation :=
  (world.mapFile call).toOption.map ExecTarget.toExecLocation

theorem locate_eq (located : world.mapFile call = .ok target) :
    world.locate call = some target.toExecLocation := by
  unfold locate
  rw [located]
  rfl

theorem nextCall_of_not_located (located : world.locate call = none) :
    world.nextCall call = none := by
  unfold locate at located
  unfold nextCall
  rw [Option.map_eq_none_iff.1 located]
  rfl

/-- The calls follow the interpreters on disk: where the next file is does not depend on the
arguments and the environment. -/
theorem respects_nextInterpreter (world : ExecWorld) :
    Respects world.nextCall world.nextInterpreter
      fun call location => world.locate call = some location := by
  intro call location located
  obtain ⟨target, mapped, rfl⟩ : ∃ target, world.mapFile call = .ok target ∧
      target.toExecLocation = location := by
    unfold locate at located
    cases mapped : world.mapFile call with
    | error stop =>
      rw [mapped] at located
      cases located
    | ok target =>
      rw [mapped] at located
      exact ⟨target, rfl, Option.some.inj located⟩
  rw [nextCall_eq mapped]
  cases found : world.scriptInterpreter target.toExecLocation with
  | none =>
    show world.nextInterpreter _ = none
    rw [nextInterpreter, found]
    rfl
  | some script =>
    obtain ⟨words, mappedInterpreter, newExecPolicy, setArgv0⟩ := script
    refine ⟨⟨newExecPolicy, mappedInterpreter, mappedInterpreter⟩, rfl, .single ?_⟩
    show world.nextInterpreter _ = _
    rw [nextInterpreter, found]
    rfl

theorem dom_eval_nextCall_iff (call : ExecCall) :
    (eval world.nextCall call).Dom ↔
      ∀ location ∈ world.locate call, ¬ Chains.Endless world.nextInterpreter location := by
  cases located : world.locate call with
  | none =>
    refine iff_of_true ?_ fun _ none => nomatch none
    exact Part.dom_iff_mem.2 ⟨call, mem_eval.2 ⟨.refl, nextCall_of_not_located located⟩⟩
  | some location =>
    rw [← tr_eval_dom world.respects_nextInterpreter located, Chains.dom_eval_iff]
    exact ⟨fun ends _ found => Option.some.inj found ▸ ends, fun ends => ends location rfl⟩

end ExecWorld

/-- The recursion of `prepare_exec` and `prepare_hashbang` ends with a result, exactly if the
scripts on disk and the mapping make no endless chain of interpreters. -/
theorem prepare_exec_ends_iff (world : ExecWorld) (call : ExecCall) :
    (∃ fuel, (world.prepareExec fuel call).isSome) ↔
      ∀ location ∈ world.locate call, ¬ Chains.Endless world.nextInterpreter location := by
  rw [world.exists_prepareExec_isSome_iff, ExecWorld.dom_eval_nextCall_iff]

/-- A world with one file, the script `/a`. Its first line is `#!/a`. -/
def selfScriptWorld : ExecWorld where
  process := accelProcess
  config := oldQemuConfig
  applyExecPreprocessingRules := fun file argv => ⟨file, argv, false⟩
  sboxMapPathForExec := fun path => ⟨some path, none, some "Host".toList⟩
  inspectBinary := fun _ => ⟨.hashbang, {}, .ENOENT⟩
  findExecPolicyName := fun _ => none
  contents := fun _ => some "#!/a\n".toList
  uninitialized := []

/-- A script that is its own interpreter: there is no result, however many levels there are. -/
theorem self_interpreting_script : ¬ ∃ fuel,
    (selfScriptWorld.prepareExec fuel ⟨none, "/a".toList, false, ["a".toList], []⟩).isSome := by
  have endless : Chains.Endless selfScriptWorld.nextInterpreter
      ⟨some "Host".toList, "/a".toList, "/a".toList⟩ :=
    ⟨fun _ => _, rfl, fun _ => rfl⟩
  rw [ExecWorld.exists_prepareExec_isSome_iff, ExecWorld.dom_eval_nextCall_iff]
  exact fun ends => ends _ rfl endless

end Scratchbox
