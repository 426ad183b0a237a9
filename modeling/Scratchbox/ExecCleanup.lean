import Scratchbox.PrepareExec

/-!
# When `prepare_exec` fails

`prepare_exec` ends in a common part behind the label `out`, which releases `info.pt_interp` and
keeps `errno`. A failed mapping jumps there before `info` is cleared, so that a pointer that was
never assigned is tested and released. A script without a complete word has no interpreter, and
`prepare_hashbang` goes on with whatever is in its buffer. When an interpreter is not mapped, no
errno is set. And a message that can not be written to the log replaces the errno of the failure.
`cleans_up_iff` says that there are no other cases.
-/

namespace Scratchbox

open StateTransition

/-! ## Runs -/

/-- The messages that are written to the log when `errno` has been set. -/
inductive ExecMessage
  | execPolicyName
  | noExecPolicy
  | unidentified
  | hashbangDone

/-- What a message leaves in `errno`, if its level is active and it can not be written. -/
abbrev ExecLog := ExecMessage → Option Errno

def ExecLog.after (log : ExecLog) (messages : List ExecMessage) (errno : Errno) : Errno :=
  messages.foldl (fun errno message => (log message).getD errno) errno

/-- The variables that are not initialized where they are declared. -/
inductive ExecVariable
  | ptInterp
  | interpreter

/-- `errno`, and the variables that were read before a value was assigned to them. -/
structure ExecState where
  errno : Errno
  unassigned : List ExecVariable := []

def ExecState.write (s : ExecState) (log : ExecLog) (message : ExecMessage) : ExecState :=
  { s with errno := log.after [message] s.errno }

/-- A variable is read; its value is `none` if it has not been assigned. -/
def ExecState.read {α : Type} (s : ExecState) (var : ExecVariable) (value : Option α) :
    ExecState :=
  if value.isNone then { s with unassigned := var :: s.unassigned } else s

namespace ExecWorld

variable (world : ExecWorld) (log : ExecLog)

/-- The errno that path mapping reports for the file of a request. -/
def mappingErrno (call : ExecCall) : Option Errno :=
  if call.fileHasBeenMapped then none
  else
    let pre := world.applyExecPreprocessingRules call.origFile call.origArgv
    let envp := if pre.disableMapping then
        call.envp ++ ["SBOX_DISABLE_MAPPING=1".toList, "SBOX_DISABLE_ARGVENVP=1".toList]
      else call.envp
    if strvecContains envp "SBOX_DISABLE_MAPPING=1" then none
    else (world.sboxMapPathForExec pre.file).mresErrno

/-- `prepare_hashbang` with the state. -/
def runHashbang (run : ExecCall → ExecState → Option PrepareResult × ExecState)
    (target : ExecTarget) (execPolicyName : CStr) (s : ExecState) :
    Option PrepareResult × ExecState :=
  match world.readHashbang target.mappedFile with
  | none => (some (.ok ⟨target.mappedFile, some target.myArgv, some target.myEnvp⟩), s)
  | some words =>
    let s := s.read .interpreter words.head?
    match world.mapInterpreter execPolicyName (world.interpreterOf words) target.myFile with
    | none => (some (.error .refused), s)
    | some (mappedInterpreter, newExecPolicy, setArgv0) =>
      let (result, s) :=
        run (world.interpreterCall target words mappedInterpreter newExecPolicy setArgv0) s
      (result, s.write log .hashbangDone)

/-- A binary has been prepared. The errno is set if it is not to be executed. -/
def runPrepared (result : PrepareResult) (s : ExecState) : Option PrepareResult × ExecState :=
  match result with
  | .error (.failed errno) => (some result, { s with errno })
  | _ => (some result, s)

/-- The part of `prepare_exec` from `inspect_binary` to `out`. -/
def runInspected (run : ExecCall → ExecState → Option PrepareResult × ExecState)
    (target : ExecTarget) (s : ExecState) : Option PrepareResult × ExecState :=
  let found := world.inspectBinary target.mappedFile
  if found.type = .invalid ∨ found.type = .none then
    (some (.error (.failed found.errno)), { s with errno := found.errno }.write log .execPolicyName)
  else
    match world.policyFor target.execPolicyName target.mappedFile with
    | none =>
      (some (.error (.failed .ENOEXEC)), { s with errno := .ENOEXEC }.write log .noExecPolicy)
    | some execPolicyName =>
      let s := s.write log .execPolicyName
      if found.type = .hashbang then world.runHashbang log run target execPolicyName s
      else if found.type = .unknown then
        (some (.error (.failed .ENOEXEC)), { s with errno := .ENOEXEC }.write log .unidentified)
      else
        runPrepared (world.prepareBinary execPolicyName found target) s

/-- `prepare_exec` with the state. Behind `out`, `info.pt_interp` is read and `errno` is kept. -/
def runLevel (run : ExecCall → ExecState → Option PrepareResult × ExecState) (call : ExecCall)
    (s : ExecState) : Option PrepareResult × ExecState :=
  match world.mappingErrno call, world.mapFile call with
  | some errno, _ =>
    (some (.error (.failed errno)), { s with errno }.read .ptInterp (none : Option (Option CStr)))
  -- there is no path, and the access to it fails
  | none, .error stop =>
    (some (.error stop),
      ({ s with errno := .EFAULT }.write log .execPolicyName).read .ptInterp
        (some (none : Option CStr)))
  | none, .ok target =>
    let (result, s) := world.runInspected log run target s
    (result, s.read .ptInterp (some (world.inspectBinary target.mappedFile).info.ptInterp))

/-- The state that is reached with some fuel for the levels of the recursion, and the result if
there is one. -/
def run : Nat → ExecCall → ExecState → Option PrepareResult × ExecState
  | 0, _, s => (none, s)
  | fuel + 1, call, s => world.runLevel log (run fuel) call s

/-- Nothing is read that was never assigned, also in a run that does not end, and a failure leaves
its errno. -/
def CleansUp (call : ExecCall) : Prop :=
  ∀ fuel start, (world.run log fuel call ⟨start, []⟩).2.unassigned = [] ∧
    ∀ stop, (world.run log fuel call ⟨start, []⟩).1 = some (.error stop) →
      stop ≠ .assertionFailed → stop = .failed (world.run log fuel call ⟨start, []⟩).2.errno

/-! ## Requests -/

/-- The policy of a script, and the words in its first line. -/
def scriptWords (location : ExecLocation) : Option (CStr × List CStr) :=
  if (world.inspectBinary location.mappedFile).type = .hashbang then do
    let execPolicyName ← world.policyFor location.execPolicyName location.mappedFile
    let words ← world.readHashbang location.mappedFile
    return (execPolicyName, words)
  else none

/-- The errno with which a file fails that is not a script, and the messages behind it. -/
def failureOf (call : ExecCall) : Option (Errno × List ExecMessage) :=
  match world.mapFile call with
  | .error _ => some (.EFAULT, [.execPolicyName])
  | .ok target =>
    let found := world.inspectBinary target.mappedFile
    if found.type = .invalid ∨ found.type = .none then some (found.errno, [.execPolicyName])
    else
      match world.policyFor target.execPolicyName target.mappedFile with
      | none => some (.ENOEXEC, [.noExecPolicy])
      | some execPolicyName =>
        if found.type = .hashbang then none
        else if found.type = .unknown then some (.ENOEXEC, [.unidentified])
        else if world.postprocess execPolicyName found target matches .error .doNotExecute then
          some (.EINVAL, [])
        else none

/-- The file is mapped without an error. A script has a complete word in its first line, and its
interpreter is mapped. If the file fails, the messages behind the failure leave its errno, and so
do those of the scripts that led to it. -/
structure Unharmed (outer : List ExecMessage) (call : ExecCall) : Prop where
  mapped : world.mappingErrno call = none
  script : ∀ location execPolicyName words, world.locate call = some location →
    world.scriptWords location = some (execPolicyName, words) → words ≠ [] ∧
      world.mapInterpreter execPolicyName (world.interpreterOf words) location.myFile ≠ none
  errno : ∀ errno messages, world.failureOf call = some (errno, messages) →
    log.after (messages ++ outer) errno = errno

variable {world log} {call next : ExecCall} {target : ExecTarget} {outer : List ExecMessage}
  {fuel : Nat} {start : Errno}

theorem mapFile_cases (call : ExecCall) :
    (∃ errno, world.mappingErrno call = some errno ∧
      world.mapFile call = .error (.failed errno)) ∨
    world.mappingErrno call = none ∧
      (world.mapFile call = .error (.failed .EFAULT) ∨
        ∃ target, world.mapFile call = .ok target) := by
  unfold mappingErrno mapFile
  by_cases mapped : call.fileHasBeenMapped = true
  · simp [mapped]
  · rw [if_neg mapped, if_neg mapped]
    dsimp only
    generalize (if (world.applyExecPreprocessingRules call.origFile
        call.origArgv).disableMapping then call.envp ++
        ["SBOX_DISABLE_MAPPING=1".toList, "SBOX_DISABLE_ARGVENVP=1".toList] else call.envp) = envp
    by_cases disabled : strvecContains envp "SBOX_DISABLE_MAPPING=1" = true
    · simp [disabled]
    · rw [if_neg disabled, if_neg disabled]
      split
      next errno failed => exact .inl ⟨errno, failed, rfl⟩
      next failed _ => exact .inr ⟨failed, .inl rfl⟩
      next failed _ => exact .inr ⟨failed, .inr ⟨_, rfl⟩⟩

theorem mappingErrno_of_located (located : world.mapFile call = .ok target) :
    world.mappingErrno call = none := by
  rcases world.mapFile_cases call with ⟨_, -, failed⟩ | ⟨mapped, -⟩
  · rw [failed] at located
    cases located
  · exact mapped

theorem run_located (located : world.mapFile call = .ok target) (fuel : Nat) (s : ExecState) :
    world.run log (fuel + 1) call s = world.runInspected log (world.run log fuel) target s := by
  rw [run, runLevel, mappingErrno_of_located located, located]
  rfl

/-- The results of the runs are those of `prepare_exec`. -/
theorem run_fst (fuel : Nat) (call : ExecCall) (s : ExecState) :
    (world.run log fuel call s).1 = world.prepareExec fuel call := by
  induction fuel generalizing call s with
  | zero => rfl
  | succ fuel ih =>
    rw [prepareExec, prepareExecLevel]
    rcases world.mapFile_cases call with
      ⟨errno, mapped, failed⟩ | ⟨mapped, failed | ⟨target, located⟩⟩
    · rw [run, runLevel, mapped, failed]
    · rw [run, runLevel, mapped, failed]
    · rw [run_located located, located]
      unfold runInspected
      dsimp only
      split
      · rfl
      cases world.policyFor target.execPolicyName target.mappedFile with
      | none => rfl
      | some execPolicyName =>
        dsimp only
        split
        · unfold runHashbang prepareHashbang
          cases world.readHashbang target.mappedFile with
          | none => rfl
          | some words =>
            dsimp only
            cases world.mapInterpreter execPolicyName (world.interpreterOf words)
                target.myFile with
            | none => rfl
            | some mapped => exact ih _ _
        · split
          · rfl
          · unfold runPrepared
            split <;> rfl

/-! ## One level -/

/-- The condition of `CleansUp` for one run, when messages are written behind it. -/
def CleansFrom (world : ExecWorld) (log : ExecLog) (outer : List ExecMessage) (start : Errno)
    (fuel : Nat) (call : ExecCall) : Prop :=
  (world.run log fuel call ⟨start, []⟩).2.unassigned = [] ∧
    ∀ stop, (world.run log fuel call ⟨start, []⟩).1 = some (.error stop) →
      stop ≠ .assertionFailed →
      stop = .failed (log.after outer (world.run log fuel call ⟨start, []⟩).2.errno)

/-- A file that is not a script is unharmed if the messages leave its errno. -/
theorem unharmed_iff (mapped : world.mappingErrno call = none)
    (script : ∀ location ∈ world.locate call, world.scriptWords location = none) :
    world.Unharmed log outer call ↔ ∀ errno messages,
      world.failureOf call = some (errno, messages) →
        log.after (messages ++ outer) errno = errno := by
  refine ⟨fun h => h.errno, fun h => ⟨mapped, fun location _ _ located words => ?_, h⟩⟩
  rw [script location located] at words
  cases words

theorem cleansFrom_iff_of_failed (errno : Errno) (messages : List ExecMessage)
    (mapped : world.mappingErrno call = none)
    (script : ∀ location ∈ world.locate call, world.scriptWords location = none)
    (failure : world.failureOf call = some (errno, messages))
    (failed : world.run log fuel call ⟨start, []⟩ =
      (some (.error (.failed errno)), ⟨log.after messages errno, []⟩)) :
    world.CleansFrom log outer start fuel call ↔ world.Unharmed log outer call := by
  rw [unharmed_iff mapped script, failure]
  simp [CleansFrom, failed, ExecLog.after, eq_comm]

theorem cleansFrom_iff_of_fine (mapped : world.mappingErrno call = none)
    (script : ∀ location ∈ world.locate call, world.scriptWords location = none)
    (failure : world.failureOf call = none)
    (fine : ∃ result errno, world.run log fuel call ⟨start, []⟩ =
      (some result, ⟨errno, []⟩) ∧ ∀ stop, result = .error stop → stop = .assertionFailed) :
    world.CleansFrom log outer start fuel call ↔ world.Unharmed log outer call := by
  refine iff_of_true ?_ ((unharmed_iff mapped script).2 (by simp [failure]))
  obtain ⟨result, errno, ran, aborts⟩ := fine
  rw [CleansFrom, ran]
  exact ⟨rfl, fun stop failed aborted => absurd (aborts stop (Option.some.inj failed)) aborted⟩

theorem cleansFrom_last (stop : world.nextCall call = none) :
    world.CleansFrom log outer start (fuel + 1) call ↔ world.Unharmed log outer call := by
  rcases world.mapFile_cases call with
    ⟨errno, mapped, failed⟩ | ⟨mapped, failed | ⟨target, located⟩⟩
  · refine iff_of_false (fun cleans => ?_) fun unharmed => ?_
    · have unassigned := cleans.1
      rw [run, runLevel, mapped] at unassigned
      cases unassigned
    · exact nomatch mapped.symm.trans unharmed.mapped
  · refine cleansFrom_iff_of_failed .EFAULT [.execPolicyName] mapped
      (by simp [locate, failed, Except.toOption]) (by rw [failureOf, failed]) ?_
    rw [run, runLevel, mapped, failed]
    rfl
  · have here : world.locate call = some target.toExecLocation := locate_eq located
    by_cases bad : (world.inspectBinary target.mappedFile).type = .invalid ∨
        (world.inspectBinary target.mappedFile).type = .none
    · exact cleansFrom_iff_of_failed (world.inspectBinary target.mappedFile).errno
        [.execPolicyName] mapped (by rcases bad with bad | bad <;> simp [here, scriptWords, bad])
        (by simp [failureOf, located, bad])
        (by simp [run_located located, runInspected, bad, ExecState.write])
    cases selected : world.policyFor target.execPolicyName target.mappedFile with
    | none =>
      exact cleansFrom_iff_of_failed .ENOEXEC [.noExecPolicy] mapped
        (by simp [here, scriptWords, selected]) (by simp [failureOf, located, bad, selected])
        (by simp [run_located located, runInspected, bad, selected, ExecState.write])
    | some execPolicyName =>
      by_cases script : (world.inspectBinary target.mappedFile).type = .hashbang
      · cases read : world.readHashbang target.mappedFile with
        | none =>
          refine cleansFrom_iff_of_fine mapped (by simp [here, scriptWords, selected, read])
            (by simp [failureOf, located, script, selected]) ?_
          simp [run_located located, runInspected, script, selected, runHashbang, read,
            ExecState.write]
        | some words =>
          cases interpreter : world.mapInterpreter execPolicyName (world.interpreterOf words)
              target.myFile with
          | none =>
            refine iff_of_false (fun cleans => ?_) fun unharmed => ?_
            · have refused := cleans.2 .refused
              rw [run_fst, prepareExec, prepareExecLevel, located] at refused
              simp [script, selected, prepareHashbang, read, interpreter] at refused
            · refine (unharmed.script _ execPolicyName words here ?_).2 interpreter
              simp [scriptWords, script, selected, read]
          | some mapped =>
            rw [nextCall_eq located, scriptInterpreter, if_pos script, selected, read] at stop
            simp [interpreter] at stop
      · have other : ∀ location ∈ world.locate call, world.scriptWords location = none := by
          simp [here, scriptWords, script]
        by_cases unknown : (world.inspectBinary target.mappedFile).type = .unknown
        · exact cleansFrom_iff_of_failed .ENOEXEC [.unidentified] mapped other
            (by simp [failureOf, located, unknown, selected])
            (by simp [run_located located, runInspected, unknown, selected, ExecState.write])
        have ran : world.run log (fuel + 1) call ⟨start, []⟩ =
            runPrepared (world.prepareBinary execPolicyName
              (world.inspectBinary target.mappedFile) target)
                (ExecState.write ⟨start, []⟩ log .execPolicyName) := by
          simp [run_located located, runInspected, bad, selected, script, unknown]
        have failure : world.failureOf call =
            if world.postprocess execPolicyName (world.inspectBinary target.mappedFile) target
              matches .error .doNotExecute then some (.EINVAL, []) else none := by
          simp [failureOf, located, bad, selected, script, unknown]
        unfold prepareBinary at ran
        split at ran
        next post =>
          exact cleansFrom_iff_of_fine mapped other (by simp [failure, post])
            (by simp [ran, runPrepared, ExecState.write])
        next post =>
          exact cleansFrom_iff_of_fine mapped other (by simp [failure, post])
            (by simp [ran, runPrepared, ExecState.write])
        next post =>
          exact cleansFrom_iff_of_failed .EINVAL [] mapped other (by simp [failure, post])
            (by simp [ran, runPrepared, ExecState.write, ExecLog.after])
        next post =>
          exact cleansFrom_iff_of_fine mapped other (by simp [failure, post])
            (by simp [ran, runPrepared, ExecState.write])

/-- A script is read, and its interpreter is prepared in its place. -/
theorem run_next (step : world.nextCall call = some next) :
    ∃ execPolicyName words location, world.mappingErrno call = none ∧
      world.locate call = some location ∧
      world.scriptWords location = some (execPolicyName, words) ∧
      world.mapInterpreter execPolicyName (world.interpreterOf words) location.myFile ≠ none ∧
      world.failureOf call = none ∧
      ∀ fuel s, world.run log (fuel + 1) call s =
        ((world.run log fuel next
            ((s.write log .execPolicyName).read .interpreter words.head?)).1,
          (world.run log fuel next
            ((s.write log .execPolicyName).read .interpreter words.head?)).2.write log
              .hashbangDone) := by
  obtain ⟨target, words, mapped, located, found, rfl⟩ := nextCall_eq_some step
  obtain ⟨script, execPolicyName, selected, read, interpreter⟩ := scriptInterpreter_eq_some found
  refine ⟨execPolicyName, words, target.toExecLocation, mappingErrno_of_located located,
    locate_eq located, by simp [scriptWords, script, selected, read], by simp [interpreter],
    by simp [failureOf, located, script, selected], fun fuel s => ?_⟩
  rw [run_located located]
  simp [runInspected, script, selected, runHashbang, read, interpreter]

/-- Behind the message of a script, another one of the same kind changes nothing. -/
theorem after_outer (outerIs : outer = [] ∨ outer = [.hashbangDone]) (errno : Errno) :
    log.after outer (log.after [.hashbangDone] errno) = log.after [.hashbangDone] errno := by
  rcases outerIs with rfl | rfl
  · rfl
  · cases kept : log .hashbangDone <;> simp [ExecLog.after, kept]

/-- A script is unharmed if one level of its run is clean. -/
theorem unharmed_of_next (step : world.nextCall call = some next)
    (cleans : world.CleansFrom log outer start 1 call) : world.Unharmed log outer call := by
  obtain ⟨execPolicyName, words, location, mapped, located, script, interpreter, failure, ran⟩ :=
    run_next step
  refine ⟨mapped, fun location' _ _ located' script' => ?_, by simp [failure]⟩
  rw [located] at located'
  cases located'
  rw [script] at script'
  cases script'
  refine ⟨?_, interpreter⟩
  rintro rfl
  have assigned := cleans.1
  rw [ran] at assigned
  cases assigned

theorem cleansFrom_next (step : world.nextCall call = some next)
    (outerIs : outer = [] ∨ outer = [.hashbangDone]) (unharmed : world.Unharmed log outer call) :
    world.CleansFrom log outer start (fuel + 1) call ↔
      world.CleansFrom log [.hashbangDone] (log.after [.execPolicyName] start) fuel next := by
  obtain ⟨execPolicyName, words, location, -, located, script, -, -, ran⟩ := run_next step
  obtain ⟨word, rest, rfl⟩ := List.exists_cons_of_ne_nil (unharmed.script _ _ _ located script).1
  rw [CleansFrom, ran]
  simp only [ExecState.write, after_outer outerIs]
  exact Iff.rfl

/-- The levels that are reached in a clean run are unharmed. -/
theorem unharmed_of_reaches {level : ExecCall} (reached : Reaches world.nextCall call level)
    (cleans : ∀ fuel, world.CleansFrom log [.hashbangDone] start fuel call) :
    world.Unharmed log [.hashbangDone] level := by
  induction reached using Relation.ReflTransGen.head_induction_on generalizing start with
  | refl =>
    cases step : world.nextCall level with
    | none => exact (cleansFrom_last step).1 (cleans 1)
    | some next => exact unharmed_of_next step (cleans 1)
  | head step _ ih =>
    have unharmed := unharmed_of_next step (cleans 1)
    exact ih fun fuel => (cleansFrom_next step (.inr rfl) unharmed).1 (cleans (fuel + 1))

theorem cleansFrom_of_unharmed (outerIs : outer = [] ∨ outer = [.hashbangDone])
    (unharmed : world.Unharmed log outer call)
    (interpreters : ∀ next ∈ world.nextCall call, ∀ level, Reaches world.nextCall next level →
      world.Unharmed log [.hashbangDone] level) (fuel : Nat) :
    world.CleansFrom log outer start fuel call := by
  induction fuel generalizing call outer start with
  | zero => exact ⟨rfl, nofun⟩
  | succ fuel ih =>
    cases step : world.nextCall call with
    | none => exact (cleansFrom_last step).2 unharmed
    | some next =>
      refine (cleansFrom_next step outerIs unharmed).2
        (ih (.inr rfl) (interpreters next step next .refl) fun next' step' level reached => ?_)
      exact interpreters next step level (.head step' reached)

end ExecWorld

/-- A request cleans up exactly if its file is unharmed, and so are all interpreters that it leads
to. -/
theorem cleans_up_iff (world : ExecWorld) (log : ExecLog) (call : ExecCall) :
    world.CleansUp log call ↔ world.Unharmed log [] call ∧
      ∀ next ∈ world.nextCall call, ∀ level, Reaches world.nextCall next level →
        world.Unharmed log [.hashbangDone] level := by
  constructor
  · intro cleans
    have clean : ∀ fuel, world.CleansFrom log [] .ENOEXEC fuel call := fun fuel => cleans fuel _
    cases step : world.nextCall call with
    | none => exact ⟨(ExecWorld.cleansFrom_last step).1 (clean 1), nofun⟩
    | some next =>
      have unharmed := ExecWorld.unharmed_of_next step (clean 1)
      refine ⟨unharmed, fun _ isNext level reached => ?_⟩
      cases isNext
      exact ExecWorld.unharmed_of_reaches reached fun fuel =>
        (ExecWorld.cleansFrom_next step (.inl rfl) unharmed).1 (clean (fuel + 1))
  · rintro ⟨unharmed, interpreters⟩ fuel start
    exact ExecWorld.cleansFrom_of_unharmed (.inl rfl) unharmed interpreters fuel

def emptyWorld : ExecWorld :=
  { selfScriptWorld with sboxMapPathForExec := fun _ => ⟨none, some .ENOENT, none⟩ }

/-- A file that is not found: `prepare_exec` fails with the right errno, after a decision about a
pointer that was never assigned. -/
theorem unassigned_pointer_released :
    emptyWorld.run (fun _ => none) 1 ⟨none, "/a".toList, false, ["a".toList], []⟩ ⟨.EINVAL, []⟩ =
      (some (.error (.failed .ENOENT)), ⟨.ENOENT, [.ptInterp]⟩) :=
  rfl

end Scratchbox
