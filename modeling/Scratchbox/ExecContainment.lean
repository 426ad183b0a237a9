import Scratchbox.PrepareExec
import Scratchbox.UserEnvironment

/-!
# Staying in the session

`do_exec` and `do_posix_spawn` of `sb_exec.c`. A program that is started stays in the session
because its environment has `SBOX_SESSION_DIR` and `SBOX_VPERM_IDS`. They are added to the
environment of the caller at first, and are kept by all steps that follow.

There is one exception. If the policy that was selected for a native binary is not defined,
postprocessing makes no new environment. Then the one of the caller is passed to the real
function: `exec_in_session_iff`.
-/

namespace Scratchbox

open Environ StateTransition

/-! ## `do_exec` and `do_posix_spawn` -/

inductive RealCall
  | execve
  | posixSpawn
  deriving DecidableEq

structure RealExec where
  call : RealCall
  file : CStr
  argv : List CStr
  envp : Envp

namespace ExecWorld

variable (world : ExecWorld)

/-- The first call of `prepare_exec`. -/
def firstCall (origFile : CStr) (origArgv : List CStr) (origEnvp : Envp) : ExecCall where
  execPolicyName := none
  origFile := origFile
  fileHasBeenMapped := false
  origArgv := origArgv
  envp := prepareEnvpForDoExec world.process origFile (basename origFile) origEnvp

/-- The common part of `do_exec` and `do_posix_spawn`. -/
def startProgram (call : RealCall) (fuel : Nat) (origFile : CStr) (origArgv : List CStr)
    (origEnvp : Envp) : Option (Except ExecStop RealExec) :=
  if (getenv world.process.environ "SBOX_DISABLE_MAPPING".toList).isSome then
    some (.ok ⟨call, origFile, origArgv, origEnvp⟩)
  else
    (world.prepareExec fuel (world.firstCall origFile origArgv origEnvp)).map fun
      | .error stop => .error stop
      | .ok prepared =>
        let envp := prepared.newEnvp.getD origEnvp
        if checkEnvpHasLdPreloadAndLdLibraryPath envp then
          .ok ⟨call, prepared.newFile, prepared.newArgv.getD origArgv, envp⟩
        else .error (.failed .EINVAL)

def doExec : Nat → CStr → List CStr → Envp → Option (Except ExecStop RealExec) :=
  world.startProgram .execve

def doPosixSpawn : Nat → CStr → List CStr → Envp → Option (Except ExecStop RealExec) :=
  world.startProgram .posixSpawn

/-! ## What a session needs -/

/-- `SBOX_SESSION_DIR`, with the session directory. -/
def sessionDirEntry : CStr := entryOf "SBOX_SESSION_DIR" world.process.sboxSessionDir

/-- `SBOX_VPERM_IDS`, as it is exported for a binary without set-id bits. -/
def plainIdsEntry (origEnvp : Envp) : CStr :=
  (vpermExportIdsAsStringForExec world.process.idSource world.process.simulatedIds
    "SBOX_VPERM_IDS=".toList 0 0 0
    (origEnvp.foldl (EnvpCopy.step world.process) {}).userVpermRequest).2

/-- `SBOX_VPERM_IDS`, as it is exported for a binary. -/
def idsEntry (origEnvp : Envp) (info : BinaryInfo) : CStr :=
  if info.mode &&& sIsuidSgid ≠ 0 then
    "SBOX_VPERM_IDS=".toList ++
      (vpermExportIdsAsStringForExec world.process.idSource world.process.simulatedIds []
        info.mode info.uid info.gid none).2
  else world.plainIdsEntry origEnvp

def InSession (origEnvp : Envp) (info : BinaryInfo) (envp : Envp) : Prop :=
  world.sessionDirEntry ∈ envp ∧ world.idsEntry origEnvp info ∈ envp

/-- The binary that is executed for a file: the end of the chain of interpreters. -/
def Executes (origFile : CStr) (origArgv : List CStr) (origEnvp : Envp) (binary : ExecLocation) :
    Prop :=
  ∃ start ∈ world.locate (world.firstCall origFile origArgv origEnvp),
    binary ∈ eval world.nextInterpreter start

/-- A native binary, for which a policy was selected that is not defined. -/
def PolicyUndefined (binary : ExecLocation) : Prop :=
  (world.inspectBinary binary.mappedFile).type = .hostDynamic ∧
    ∃ execPolicyName ∈ world.policyFor binary.execPolicyName binary.mappedFile,
      world.config.findExecPolicy execPolicyName = none

/-! ## The entries are kept -/

/-- The entries are in the environment while the exec is prepared, and `LD_PRELOAD` is not. -/
structure Carries (origEnvp envp : Envp) : Prop where
  dir : world.sessionDirEntry ∈ envp
  ids : world.plainIdsEntry origEnvp ∈ envp
  noPreload : ∀ entry ∈ envp, startsWith "LD_PRELOAD=" entry = false

variable {world} {origEnvp envp : Envp} {target : ExecTarget} {call last : ExecCall}
  {execPolicyName : CStr}

theorem startsWith_plainIdsEntry :
    startsWith "SBOX_VPERM_IDS=" (world.plainIdsEntry origEnvp) = true := by
  obtain ⟨text, ids⟩ := vpermExport_eq_append world.process.idSource world.process.simulatedIds
    "SBOX_VPERM_IDS=".toList 0 0 0
    (origEnvp.foldl (EnvpCopy.step world.process) {}).userVpermRequest
  rw [plainIdsEntry, ids]
  exact startsWith_append _ _

theorem startsWith_sessionDirEntry :
    startsWith "SBOX_SESSION_DIR=" world.sessionDirEntry = true := rfl

theorem carries_prepareEnvp (origFile binaryname : CStr) :
    world.Carries origEnvp (prepareEnvpForDoExec world.process origFile binaryname origEnvp) := by
  obtain ⟨dir, ids⟩ := mem_prepareEnvp world.process origFile binaryname origEnvp
  refine ⟨dir, ids, fun entry member => ?_⟩
  unfold prepareEnvpForDoExec at member
  rcases List.mem_append.1 member with copied | added
  · have notDropped := EnvpCopy.foldl_notDropped world.process origEnvp entry copied
    unfold isDropped at notDropped
    simp only [Bool.or_eq_false_iff] at notDropped
    exact notDropped.1.1.1.2
  · rcases addedEntries_session world.process origFile binaryname origEnvp _ entry added with
      sbox | sb2
    · exact startsWith_of_apart rfl sbox
    · exact startsWith_of_apart rfl sb2

theorem Carries.change (carries : world.Carries origEnvp envp) {var : String}
    (sb2 : startsWith "__SB2_" var.toList = true) (value : CStr) :
    world.Carries origEnvp (changeEnvironmentVariable envp var value) := by
  have other {entry : CStr} (noSb2 : startsWith "__SB2_" entry = false) :
      startsWith var entry = false := by
    rw [Bool.eq_false_iff] at noSb2 ⊢
    exact fun starts => noSb2 (startsWith_trans sb2 starts)
  refine ⟨mem_changeEnvironmentVariable (other rfl) carries.dir,
    mem_changeEnvironmentVariable (other (startsWith_of_apart rfl startsWith_plainIdsEntry))
      carries.ids, fun entry member => ?_⟩
  rcases of_mem_changeEnvironmentVariable member with old | rfl
  · exact carries.noPreload entry old
  · exact startsWith_of_apart rfl (startsWith_trans sb2 (startsWith_append var value))

theorem Carries.append (carries : world.Carries origEnvp envp) {added : Envp}
    (sbox : ∀ entry ∈ added, startsWith "SBOX_" entry = true) :
    world.Carries origEnvp (envp ++ added) := by
  refine ⟨List.mem_append_left _ carries.dir, List.mem_append_left _ carries.ids,
    fun entry member => ?_⟩
  rcases List.mem_append.1 member with old | new
  · exact carries.noPreload entry old
  · exact startsWith_of_apart rfl (sbox entry new)

theorem carries_mapFile (carries : world.Carries origEnvp call.envp)
    (located : world.mapFile call = .ok target) : world.Carries origEnvp target.myEnvp := by
  unfold mapFile at located
  dsimp only at located
  split at located
  · cases located
    exact carries.change rfl _
  generalize preprocessed : (if (world.applyExecPreprocessingRules call.origFile
    call.origArgv).disableMapping then _ else call.envp) = envp at located
  have carries' : world.Carries origEnvp envp := by
    rw [← preprocessed]
    split
    · refine carries.append fun entry member => ?_
      simp only [List.mem_cons, List.not_mem_nil, or_false] at member
      rcases member with rfl | rfl <;> rfl
    · exact carries
  split at located
  · cases located
    exact carries'.change rfl _
  split at located
  · cases located
  · cases located
  · cases located
    exact carries'.change rfl _

theorem carries_nextCall {next : ExecCall} (step : next ∈ world.nextCall call)
    (carries : world.Carries origEnvp call.envp) : world.Carries origEnvp next.envp := by
  obtain ⟨target, words, mapped, located, -, rfl⟩ := nextCall_eq_some step
  exact ((carries_mapFile carries located).change rfl _).change rfl _

theorem mem_postprocess {entry : CStr} {found : Inspection} {post : Postprocessed}
    (ok : world.postprocess execPolicyName found target = .ok post)
    (sbox : startsWith "SBOX_" entry = true) (member : entry ∈ target.myEnvp) :
    entry ∈ post.envp := by
  have native : entry ∈ nativeKept target.myEnvp := by
    refine List.mem_filter.2 ⟨member, ?_⟩
    rw [startsWith_of_apart rfl sbox, startsWith_of_apart rfl sbox]
    rfl
  have qemu (settings : CpuTransparency) : entry ∈ qemuKept settings target.myEnvp := by
    refine List.mem_filter.2 ⟨member, ?_⟩
    unfold matchesGconvPathNlspathOrLocpath
    rw [startsWith_of_apart rfl sbox, startsWith_of_apart rfl sbox, startsWith_of_apart rfl sbox,
      startsWith_of_apart rfl sbox, startsWith_of_apart rfl sbox]
    cases settings.qemuHasEnvControlFlags <;> rfl
  unfold postprocess at ok
  split at ok
  · split at ok
    · exact mem_envp_of_qemu_ok ok (qemu _)
    · exact mem_envp_of_native_ok ok native
  · split at ok
    · exact mem_envp_of_qemu_ok ok (qemu _)
    · exact mem_envp_of_static_ok ok member
  · exact mem_envp_of_qemu_ok ok (qemu _)

theorem inSession_simulated (info : BinaryInfo) (dir : world.sessionDirEntry ∈ envp)
    (ids : world.plainIdsEntry origEnvp ∈ envp) :
    world.InSession origEnvp info (simulateSuidAndSgidIfNeeded world.process info envp) := by
  unfold InSession idsEntry simulateSuidAndSgidIfNeeded
  split
  · exact ⟨mem_changeEnvironmentVariable rfl dir,
      new_mem_changeEnvironmentVariable startsWith_plainIdsEntry ids⟩
  · exact ⟨dir, ids⟩

theorem postprocess_eq_execDirectly_iff
    (selected : world.policyFor target.execPolicyName target.mappedFile = some execPolicyName) :
    world.postprocess execPolicyName (world.inspectBinary target.mappedFile) target =
        .error .execDirectly ↔
      world.PolicyUndefined target.toExecLocation := by
  have undefined_iff : world.PolicyUndefined target.toExecLocation ↔
      (world.inspectBinary target.mappedFile).type = .hostDynamic ∧
        world.config.findExecPolicy execPolicyName = none := by
    unfold PolicyUndefined
    rw [selected]
    refine and_congr_right fun _ => ⟨?_, fun missing => ⟨execPolicyName, rfl, missing⟩⟩
    rintro ⟨_, same, missing⟩
    cases same
    exact missing
  rw [undefined_iff]
  unfold postprocess
  split
  next native =>
    rw [and_iff_right native]
    split
    next forced =>
      refine iff_of_false (execPostprocessQemu_ne_execDirectly _ _ _ _ _ _) fun missing => ?_
      unfold execPolicyForceCpuTransparency at forced
      rw [missing] at forced
      cases forced
    next => exact execPostprocessNativeExecutable_eq_execDirectly_iff _ _ _ _ _ _
  next static =>
    refine iff_of_false ?_ fun direct => by rw [direct.1] at static; cases static
    split
    · exact execPostprocessQemu_ne_execDirectly _ _ _ _ _ _
    · exact execPostprocessHostStaticExecutable_ne_execDirectly _ _ _ _ _
  next other _ =>
    exact iff_of_false (execPostprocessQemu_ne_execDirectly _ _ _ _ _ _)
      fun direct => other direct.1

theorem executes_of_last (isLast : last ∈ eval world.nextCall call)
    (located : world.mapFile last = .ok target) :
    ∃ start ∈ world.locate call, target.toExecLocation ∈ eval world.nextInterpreter start := by
  cases first : world.locate call with
  | none =>
    have stop := nextCall_of_not_located first
    obtain rfl : last = call := Part.mem_unique isLast (mem_eval.2 ⟨.refl, stop⟩)
    rw [locate_eq located] at first
    cases first
  | some start =>
    obtain ⟨binary, located', isBinary⟩ := tr_eval world.respects_nextInterpreter first isLast
    rw [locate_eq located] at located'
    cases located'
    exact ⟨start, rfl, isBinary⟩

theorem inSession_of_lastResult {prepared : ExecPrepared}
    (carries : world.Carries origEnvp last.envp) (spec : LastResult world last (.ok prepared))
    (checked : checkEnvpHasLdPreloadAndLdLibraryPath (prepared.newEnvp.getD origEnvp) = true) :
    ∃ target, world.mapFile last = .ok target ∧
      let info := (world.inspectBinary target.mappedFile).info
      (world.InSession origEnvp info (prepared.newEnvp.getD origEnvp) ↔
        ¬ world.PolicyUndefined target.toExecLocation ∨
          world.InSession origEnvp info origEnvp) := by
  generalize returned : (Except.ok prepared : PrepareResult) = result at spec
  cases spec with
  | stopped stop => cases returned
  | @unreadable target located =>
    -- A script that is just run has no `LD_PRELOAD`, which is noticed.
    cases returned
    have carries' := carries_mapFile carries located
    unfold checkEnvpHasLdPreloadAndLdLibraryPath strvecContains at checked
    rw [Bool.and_eq_true, List.any_eq_true] at checked
    obtain ⟨⟨entry, member, preload⟩, -⟩ := checked
    rw [Option.getD_some] at member
    rw [carries'.noPreload entry member] at preload
    cases preload
  | @binary target execPolicyName located selected =>
    refine ⟨target, located, ?_⟩
    have direct_iff := postprocess_eq_execDirectly_iff selected
    have carries' := carries_mapFile carries located
    unfold prepareBinary at returned
    split at returned
    next post ok =>
      cases returned
      have dir := mem_postprocess ok (startsWith_trans rfl startsWith_sessionDirEntry) carries'.dir
      have ids := mem_postprocess ok (startsWith_trans rfl startsWith_plainIdsEntry) carries'.ids
      refine iff_of_true (inSession_simulated _ dir ids) (.inl fun undefined => ?_)
      rw [direct_iff.2 undefined] at ok
      cases ok
    next direct =>
      cases returned
      exact (or_iff_right (not_not.2 (direct_iff.1 direct))).symm
    next => cases returned
    next => cases returned

theorem inSession_of_startProgram {call : RealCall} {fuel : Nat} {origFile : CStr}
    {origArgv : List CStr} {run : RealExec}
    (enabled : getenv world.process.environ "SBOX_DISABLE_MAPPING".toList = none)
    (reached : world.startProgram call fuel origFile origArgv origEnvp = some (.ok run)) :
    ∃ binary, world.Executes origFile origArgv origEnvp binary ∧
      let info := (world.inspectBinary binary.mappedFile).info
      (world.InSession origEnvp info run.envp ↔
        ¬ world.PolicyUndefined binary ∨ world.InSession origEnvp info origEnvp) := by
  unfold startProgram at reached
  rw [enabled, if_neg (by decide)] at reached
  obtain ⟨result, returned, passed⟩ := Option.map_eq_some_iff.1 reached
  rw [world.prepareExec_eq_follow] at returned
  obtain ⟨last, isLast, rfl⟩ := Chains.mem_eval_of_follow returned
  obtain ⟨spec, -⟩ := lastResult_spec (mem_eval.1 isLast).2
  cases result : world.lastResult last with
  | error stop =>
    rw [result] at passed
    cases passed
  | ok prepared =>
    rw [result] at passed spec
    dsimp only at passed
    split at passed
    next checked =>
      cases passed
      have carries : world.Carries origEnvp last.envp :=
        Chains.invariant_of_mem_eval (motive := fun call => world.Carries origEnvp call.envp)
          (fun _ _ step carries => carries_nextCall step carries) isLast
          (carries_prepareEnvp origFile (basename origFile))
      obtain ⟨target, located, inSession⟩ := inSession_of_lastResult carries spec checked
      exact ⟨target.toExecLocation, executes_of_last isLast located, inSession⟩
    next => cases passed

end ExecWorld

/-- A program that is started stays in the session, exactly if it is not a native binary for which
a policy was selected that is not defined, or if the caller's own environment has all it needs. -/
theorem exec_in_session_iff (world : ExecWorld) (fuel : Nat) (origFile : CStr)
    (origArgv : List CStr) (origEnvp : Envp) (run : RealExec)
    (enabled : getenv world.process.environ "SBOX_DISABLE_MAPPING".toList = none)
    (reached : world.doExec fuel origFile origArgv origEnvp = some (.ok run) ∨
      world.doPosixSpawn fuel origFile origArgv origEnvp = some (.ok run)) :
    ∃ binary, world.Executes origFile origArgv origEnvp binary ∧
      let info := (world.inspectBinary binary.mappedFile).info
      (world.InSession origEnvp info run.envp ↔
        ¬ world.PolicyUndefined binary ∨ world.InSession origEnvp info origEnvp) := by
  rcases reached with execs | spawns
  · exact ExecWorld.inSession_of_startProgram enabled execs
  · exact ExecWorld.inSession_of_startProgram enabled spawns

/-- A world with one file, the native binary `/bin/ls`, and with one policy or none. -/
def oneBinaryWorld (policy : Option ExecPolicy) : ExecWorld where
  process := accelProcess
  config :=
    { findExecPolicy := fun _ => policy
      cputransparency := fun _ => {}
      hostLdLibraryPath := some "/usr/lib".toList
      hostLdPreload := some "libsb2.so.1".toList }
  applyExecPreprocessingRules := fun file argv => ⟨file, argv, false⟩
  sboxMapPathForExec := fun path => ⟨some path, none, some "Host".toList⟩
  inspectBinary := fun _ => ⟨.hostDynamic, {}, .ENOENT⟩
  findExecPolicyName := fun _ => none
  contents := fun _ => none
  uninitialized := []

/-- With the policy, the program is started in the session. -/
theorem ls_in_session : ∃ run,
    (oneBinaryWorld (some {})).doExec 1 "/bin/ls".toList ["ls".toList] [] = some (.ok run) ∧
    ∃ binary, (oneBinaryWorld (some {})).Executes "/bin/ls".toList ["ls".toList] [] binary ∧
      let info := ((oneBinaryWorld (some {})).inspectBinary binary.mappedFile).info
      ((oneBinaryWorld (some {})).InSession [] info run.envp ↔
        ¬ (oneBinaryWorld (some {})).PolicyUndefined binary ∨
          (oneBinaryWorld (some {})).InSession [] info []) :=
  ⟨_, rfl, exec_in_session_iff _ 1 _ _ _ _ rfl (.inl rfl)⟩

/-- Without it, the program gets the environment of the caller. -/
theorem ls_leaves_session :
    let world := oneBinaryWorld none
    let envp := ["LD_PRELOAD=libc.so".toList, "LD_LIBRARY_PATH=/lib".toList]
    getenv world.process.environ "SBOX_DISABLE_MAPPING".toList = none ∧
      world.doExec 1 "/bin/ls".toList ["ls".toList] envp =
        some (.ok ⟨.execve, "/bin/ls".toList, ["ls".toList], envp⟩) ∧
      world.sessionDirEntry ∉ envp ∧ world.idsEntry envp {} ∉ envp :=
  ⟨rfl, rfl, by decide, by decide⟩

end Scratchbox
