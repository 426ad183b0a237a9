import Scratchbox.PrepareExec
import Scratchbox.ExecPreprocess
import Scratchbox.BinaryInspection
import Scratchbox.PathMatchers

/-!
# Exec with the functions it calls

On an `ExecMachine` the parameters of an `ExecWorld` are the functions of the other modules. A file
is prepared only if the session maps to it, it may be executed, and a policy is selected
(`prepared_only_if_permitted`).
-/

namespace Scratchbox

open CallTree

/-- `ruletree_exec_policy_selection_rule_t`. -/
structure ExecPolicySelectionRule where
  type : Option SelectorType
  selector : Option CStr
  execPolicyName : Option CStr

/-- `find_exec_policy_name`, with the rules of the mode. -/
def findExecPolicyName (rules : List ExecPolicySelectionRule) (mappedPath : CStr) : Option CStr :=
  (rules.find? fun rule => (testPathMatch mappedPath rule.type rule.selector).isSome).bind
    ExecPolicySelectionRule.execPolicyName

/-- `sbox_map_path_for_exec`, with the context after the call. -/
def sboxMapPathForExec (p : Process) (virtualPath : CStr) :
    Run (MappingResults × Option Sb2Context) :=
  sboxMapPathInternal p.session p.sb2ctx (p.mappingContext {} 4) virtualPath true

structure ExecMachine where
  process : Process
  execProcess : ExecProcess
  config : ExecConfig
  argvmodsRules : Option (List ExecPreprocessingRule)
  policySelection : List ExecPolicySelectionRule
  settings : InspectSettings
  files : CStr → InspectedFile settings.host
  uninitialized : CStr

namespace ExecMachine

variable (machine : ExecMachine)

/-- The world of the machine, with a number of levels for nested look-ups. Where a function
crashes, there is no path or no file to execute. -/
def world (levels : Nat) : ExecWorld where
  process := machine.execProcess
  config := machine.config
  applyExecPreprocessingRules file argv :=
    match applyExecPreprocessingRules machine.argvmodsRules file argv [] with
    | .ok (file, slots, envp) => ⟨file, slots.strings.getD [], !envp.isEmpty⟩
    | .error _ => ⟨[], [], false⟩
  sboxMapPathForExec path :=
    match (sboxMapPathForExec machine.process path).run
        (level (resolutionBody machine.process.session) levels) with
    | (_, .ok (res, _)) => ⟨res.mresResultBuf, res.mresErrno, res.mresExecPolicyName⟩
    | _ => ⟨none, none, none⟩
  inspectBinary path :=
    match machine.settings.inspectBinary (machine.files path) true (some {}) with
    | .ok found => ⟨found.type, found.info.getD {}, found.errno.getD .EFAULT⟩
    | .error _ => ⟨.invalid, {}, .EFAULT⟩
  findExecPolicyName := findExecPolicyName machine.policySelection
  contents path :=
    if (machine.files path).canOpen then
      some ((machine.files path).mapped.content.map (Char.ofNat ·.toNat))
    else none
  uninitialized := machine.uninitialized

/-- The path mapping of the machine gives the file. -/
def MapsTo (machine : ExecMachine) (target : ExecTarget) : Prop :=
  ∃ es res sb2ctx, Yields (resolutionBody machine.process.session)
    (sboxMapPathForExec machine.process target.myFile) es (res, sb2ctx) ∧
    res.mresErrno = none ∧ res.mresResultBuf = some target.mappedFile

/-- A file that may be executed, found by path mapping unless that is not asked, with a policy. -/
structure Permits (machine : ExecMachine) (target : ExecTarget) : Prop where
  mapped : target.mappedFile = target.myFile ∨ machine.MapsTo target
  access : machine.settings.checkAccess (machine.files target.mappedFile) true = none
  policy : target.execPolicyName ≠ none ∨ ∃ rule ∈ machine.policySelection,
    (testPathMatch target.mappedFile rule.type rule.selector).isSome

variable {machine} {levels fuel : Nat} {call level : ExecCall} {target : ExecTarget}
  {prepared : ExecPrepared}

theorem mapsTo_of_mapFile (located : (machine.world levels).mapFile call = .ok target) :
    target.mappedFile = target.myFile ∨ machine.MapsTo target := by
  unfold ExecWorld.mapFile at located
  split at located
  · cases located
    exact .inl rfl
  dsimp only at located
  generalize (if ExecPreprocessed.disableMapping _ then _ else _) = envp at located
  split at located
  · cases located
    exact .inl rfl
  split at located
  · cases located
  · cases located
  next errno buf =>
    cases located
    dsimp only [world] at errno buf
    split at buf
    next es res sb2ctx ran =>
      rw [ran] at errno
      exact .inr ⟨es, res, sb2ctx, ⟨levels, ran⟩, errno, buf⟩
    next => cases buf

theorem checkAccess_of_type {path : CStr}
    (runs : ¬ (((machine.world levels).inspectBinary path).type = .invalid ∨
      ((machine.world levels).inspectBinary path).type = .none)) :
    machine.settings.checkAccess (machine.files path) true = none := by
  cases refused : machine.settings.checkAccess (machine.files path) true with
  | none => rfl
  | some result =>
    refine absurd ?_ runs
    dsimp only [world]
    rw [InspectSettings.inspectBinary, refused]
    unfold InspectSettings.checkAccess at refused
    grind [Option.map_eq_some_iff]

theorem permits_of_prepared
    (done : (machine.world levels).prepareExec fuel call = some (.ok prepared)) :
    ∃ target, (machine.world levels).mapFile call = .ok target ∧ machine.Permits target := by
  cases fuel with
  | zero => cases done
  | succ fuel =>
    rw [ExecWorld.prepareExec, ExecWorld.prepareExecLevel] at done
    cases located : (machine.world levels).mapFile call with
    | error stop =>
      rw [located] at done
      cases done
    | ok target =>
      rw [located] at done
      dsimp only at done
      split at done
      · cases done
      next runs =>
        refine ⟨target, rfl, mapsTo_of_mapFile located, checkAccess_of_type runs, ?_⟩
        split at done
        · cases done
        next selected =>
          rcases Option.or_eq_some_iff.1 selected with known | ⟨-, found⟩
          · exact .inl (known ▸ nofun)
          · obtain ⟨rule, found, -⟩ := Option.bind_eq_some_iff.1 found
            have selects := List.find?_some found
            exact .inr ⟨rule, List.mem_of_find?_eq_some found, selects⟩

/-- A program is prepared only if it is permitted, and so are the scripts that lead to it. -/
theorem prepared_only_if_permitted
    (done : (machine.world levels).prepareExec fuel call = some (.ok prepared))
    (reached : StateTransition.Reaches (machine.world levels).nextCall call level) :
    ∃ target, (machine.world levels).mapFile level = .ok target ∧ machine.Permits target := by
  induction reached using Relation.ReflTransGen.head_induction_on generalizing fuel with
  | refl => exact permits_of_prepared done
  | head step _ ih =>
    cases fuel with
    | zero => cases done
    | succ fuel => exact ih ((ExecWorld.prepareExecLevel_of_next step _).symm.trans done)

end ExecMachine

end Scratchbox
