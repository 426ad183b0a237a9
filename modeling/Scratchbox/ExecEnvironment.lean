import Scratchbox.IdExport
import Scratchbox.Lib.Environ

/-!
# The environment of a new program

`sb_exec.c`: an environment that is passed to `execve` first goes through
`prepare_envp_for_do_exec`, which drops or restores the variables of the session, and moves
the user's `LD_PRELOAD` and `LD_LIBRARY_PATH` to variables that start with `__SB2_`.

The session mode may be changed by the environment if there is a rule file for the new
mode. The flag for this stays set in the loop, so that other entries that follow are kept
without a test: `session_mode_sound_iff`.
-/

namespace Scratchbox

open Environ List Option

/-! ## Vectors -/

/-- An environment vector. -/
abbrev Envp := List CStr

def startsWith (text : String) (entry : CStr) : Bool := text.toList.isPrefixOf entry

/-- `strvec_contains_prefix`. -/
def strvecContains (strvec : Envp) (text : String) : Bool := strvec.any (startsWith text)

/-- `change_environment_variable`: the first entry is replaced, if there is one. -/
def changeEnvironmentVariable : Envp → String → CStr → Envp
  | [], _, _ => []
  | entry :: envp, var, newValue =>
    if startsWith var entry then (var.toList ++ newValue) :: envp
    else entry :: changeEnvironmentVariable envp var newValue

section Change

variable {var : String} {value entry : CStr} {envp : Envp}

theorem mem_changeEnvironmentVariable (other : startsWith var entry = false)
    (member : entry ∈ envp) : entry ∈ changeEnvironmentVariable envp var value := by
  induction envp with
  | nil => cases member
  | cons first envp ih =>
    unfold changeEnvironmentVariable
    rcases mem_cons.1 member with rfl | later
    · rw [other]
      exact mem_cons_self
    · split
      · exact mem_cons_of_mem _ later
      · exact mem_cons_of_mem _ (ih later)

theorem of_mem_changeEnvironmentVariable
    (member : entry ∈ changeEnvironmentVariable envp var value) :
    entry ∈ envp ∨ entry = var.toList ++ value := by
  induction envp with
  | nil => cases member
  | cons first envp ih =>
    unfold changeEnvironmentVariable at member
    split at member
    · rcases mem_cons.1 member with new | later
      · exact .inr new
      · exact .inl (mem_cons_of_mem _ later)
    · rcases mem_cons.1 member with rfl | later
      · exact .inl mem_cons_self
      · exact (ih later).imp_left (mem_cons_of_mem _)

theorem new_mem_changeEnvironmentVariable (named : startsWith var entry = true)
    (member : entry ∈ envp) : var.toList ++ value ∈ changeEnvironmentVariable envp var value := by
  induction envp with
  | nil => cases member
  | cons first envp ih =>
    unfold changeEnvironmentVariable
    split
    · exact mem_cons_self
    next other =>
      rcases mem_cons.1 member with rfl | later
      · exact absurd named other
      · exact mem_cons_of_mem _ (ih later)

end Change

theorem startsWith_append (text : String) (rest : CStr) :
    startsWith text (text.toList ++ rest) = true :=
  isPrefixOf_iff_prefix.2 (prefix_append _ _)

variable {entry : CStr}

theorem startsWith_trans {text longer : String} (first : startsWith text longer.toList = true)
    (starts : startsWith longer entry = true) : startsWith text entry = true := by
  rw [startsWith, isPrefixOf_iff_prefix] at first starts ⊢
  exact first.trans starts

/-- An entry starts with one of two texts only, if none of them starts with the other. -/
theorem startsWith_of_apart {text other : String}
    (apart : (startsWith text other.toList || startsWith other text.toList) = false)
    (starts : startsWith text entry = true) : startsWith other entry = false := by
  rw [Bool.eq_false_iff]
  intro starts'
  rw [Bool.eq_false_iff, Ne, Bool.or_eq_true] at apart
  refine apart ?_
  rw [startsWith, isPrefixOf_iff_prefix] at starts starts' ⊢
  rw [startsWith, isPrefixOf_iff_prefix]
  exact prefix_or_prefix_of_prefix starts starts'

def checkEnvpHasLdPreloadAndLdLibraryPath (envp : Envp) : Bool :=
  strvecContains envp "LD_PRELOAD=" && strvecContains envp "LD_LIBRARY_PATH="

/-! ## `prepare_envp_for_do_exec` -/

structure ExecProcess where
  sboxSessionDir : CStr
  sboxSessionMode : Option CStr
  sboxMappingMethod : Option CStr
  sboxChrootPath : Option CStr
  environ : Envp
  idSource : IdSource
  simulatedIds : SimulatedIds
  /-- `access_nomap_nolog(path, R_OK) == 0`. -/
  readable : CStr → Bool

namespace ExecProcess

variable (process : ExecProcess)

def rulefile (mode : CStr) : CStr :=
  process.sboxSessionDir ++ "/rules/".toList ++ mode ++ ".lua".toList

def hasRules (mode : CStr) : Bool := process.readable (process.rulefile mode)

end ExecProcess

def sboxSessionModeVar : CStr := "SBOX_SESSION_MODE".toList

/-- Variables for one program only, and those that are set again for the next one. -/
def isDropped (entry : CStr) : Bool :=
  startsWith "__SB2_" entry || startsWith "LD_PRELOAD=" entry ||
    startsWith "LD_LIBRARY_PATH=" entry || startsWith "NLSPATH=" entry ||
    startsWith "LOCPATH=" entry

/-- Other variables of the session, which the user can not change. -/
def isSessionVar (process : ExecProcess) (entry : CStr) : Bool :=
  startsWith "SBOX_SESSION_" entry ||
    process.sboxMappingMethod.isSome && startsWith "SBOX_MAPPING_METHOD=" entry

/-- The variables of the loop that copies the environment. -/
structure EnvpCopy where
  myEnvp : Envp := []
  hasSboxSessionMode : Bool := false
  userVpermRequest : Option CStr := none

namespace EnvpCopy

variable (process : ExecProcess) (copy : EnvpCopy)

def keep (entry : CStr) : EnvpCopy := { copy with myEnvp := copy.myEnvp ++ [entry] }

def requestMode (mode entry : CStr) : EnvpCopy :=
  if process.sboxSessionMode = some mode then copy
  else
    let hasSboxSessionMode := copy.hasSboxSessionMode || process.hasRules mode
    if hasSboxSessionMode then { copy with hasSboxSessionMode := true }.keep entry else copy

/-- One round of the loop. -/
def step (entry : CStr) : EnvpCopy :=
  if isDropped entry then copy
  else
    match value? sboxSessionModeVar entry with
    | some mode => copy.requestMode process mode entry
    | none =>
      if isSessionVar process entry then copy
      else if startsWith "SBOX_VPERM_REQUEST=" entry then
        { copy with userVpermRequest := some entry }
      else if startsWith "SBOX_VPERM_IDS=" entry then copy
      else copy.keep entry

end EnvpCopy

/-- The user's version of a variable: the last entry of the environment counts. -/
def userVersion (var : String) (envp : Envp) : Option CStr :=
  (envp.filter (startsWith var)).getLast?.map ("__SB2_".toList ++ ·)

def entryOf (name : String) (value : CStr) : CStr := name.toList ++ '=' :: value

/-- The variables of the session, apart from its directory. -/
def sessionEntries (process : ExecProcess) (envp : Envp) (copy : EnvpCopy) : Envp :=
  (process.sboxMappingMethod.map (entryOf "SBOX_MAPPING_METHOD")).toList ++
    (if copy.hasSboxSessionMode then []
      else (process.sboxSessionMode.map (sboxSessionModeVar ++ '=' :: ·)).toList) ++
    [(vpermExportIdsAsStringForExec process.idSource process.simulatedIds
      "SBOX_VPERM_IDS=".toList 0 0 0 copy.userVpermRequest).2] ++
    (if strvecContains envp "SBOX_SIGTRAP=" then []
      else ((getenv process.environ "SBOX_SIGTRAP".toList).map (entryOf "SBOX_SIGTRAP")).toList)

/-- The variables for the library in the new process. -/
def ownEntries (process : ExecProcess) (origFile binaryname : CStr) (envp : Envp) : Envp :=
  [entryOf "__SB2_BINARYNAME" binaryname, entryOf "__SB2_ORIG_BINARYNAME" origFile,
      entryOf "__SB2_EXEC_BINARYNAME" origFile, entryOf "__SB2_REAL_BINARYNAME" []] ++
    (userVersion "LD_PRELOAD=" envp).toList ++ (userVersion "LD_LIBRARY_PATH=" envp).toList ++
    (process.sboxChrootPath.map (entryOf "__SB2_CHROOT_PATH")).toList

def addedEntries (process : ExecProcess) (origFile binaryname : CStr) (envp : Envp)
    (copy : EnvpCopy) : Envp :=
  entryOf "SBOX_SESSION_DIR" process.sboxSessionDir ::
    (sessionEntries process envp copy ++ ownEntries process origFile binaryname envp)

def prepareEnvpForDoExec (process : ExecProcess) (origFile binaryname : CStr) (envp : Envp) :
    Envp :=
  let copy := envp.foldl (EnvpCopy.step process) {}
  copy.myEnvp ++ addedEntries process origFile binaryname envp copy

theorem mem_prepareEnvp (process : ExecProcess) (origFile binaryname : CStr) (envp : Envp) :
    entryOf "SBOX_SESSION_DIR" process.sboxSessionDir ∈
        prepareEnvpForDoExec process origFile binaryname envp ∧
      (vpermExportIdsAsStringForExec process.idSource process.simulatedIds
        "SBOX_VPERM_IDS=".toList 0 0 0
        (envp.foldl (EnvpCopy.step process) {}).userVpermRequest).2 ∈
        prepareEnvpForDoExec process origFile binaryname envp := by
  unfold prepareEnvpForDoExec addedEntries sessionEntries
  dsimp only
  simp only [mem_append, mem_cons, true_or, or_true, and_self]

/-! ## The session mode -/

def sessionModes (envp : Envp) : List CStr := envp.filterMap (value? sboxSessionModeVar)

def requestedModes (process : ExecProcess) (envp : Envp) : List CStr :=
  (sessionModes envp).filter fun mode => process.sboxSessionMode ≠ some mode

def acceptedModes (process : ExecProcess) (accepting : Bool) (modes : List CStr) : List CStr :=
  if accepting then modes else modes.dropWhile fun mode => !process.hasRules mode

section SessionMode

variable (process : ExecProcess) {f : CStr → Option CStr}

theorem sessionModes_append (envp envp' : Envp) :
    sessionModes (envp ++ envp') = sessionModes envp ++ sessionModes envp' :=
  filterMap_append

theorem requestedModes_cons (entry : CStr) (envp : Envp) :
    requestedModes process (entry :: envp) =
      ((value? sboxSessionModeVar entry).filter
        fun mode => process.sboxSessionMode ≠ some mode).toList ++ requestedModes process envp := by
  unfold requestedModes sessionModes
  rw [filterMap_cons]
  cases value? sboxSessionModeVar entry with
  | none => rfl
  | some mode =>
    dsimp only
    rw [filter_cons, filter_some]
    split <;> rfl

theorem acceptedModes_cons (accepting : Bool) (mode : CStr) (modes : List CStr) :
    acceptedModes process accepting (mode :: modes) =
      if accepting || process.hasRules mode then mode :: acceptedModes process true modes
      else acceptedModes process false modes := by
  unfold acceptedModes
  cases accepting with
  | true => rfl
  | false => cases rules : process.hasRules mode <;> simp [rules]

theorem sessionModes_singleton (entry : CStr) :
    sessionModes [entry] = (value? sboxSessionModeVar entry).toList := by
  unfold sessionModes
  rw [filterMap_cons, filterMap_nil]
  cases value? sboxSessionModeVar entry <;> rfl

theorem acceptedModes_eq_cons {modes after : List CStr} {mode : CStr}
    (accepted : acceptedModes process false modes = mode :: after) :
    process.hasRules mode = true ∧ ∃ before, modes = before ++ mode :: after := by
  induction modes with
  | nil => cases accepted
  | cons first modes ih =>
    rw [acceptedModes_cons, Bool.false_or] at accepted
    split at accepted
    next hasRules =>
      obtain ⟨rfl, rfl⟩ := List.cons.inj accepted
      exact ⟨hasRules, [], rfl⟩
    next =>
      obtain ⟨hasRules, before, rfl⟩ := ih accepted
      exact ⟨hasRules, first :: before, rfl⟩

theorem EnvpCopy.step_noMode (copy : EnvpCopy) {entry : CStr}
    (noMode : value? sboxSessionModeVar entry = none) :
    sessionModes (copy.step process entry).myEnvp = sessionModes copy.myEnvp ∧
      (copy.step process entry).hasSboxSessionMode = copy.hasSboxSessionMode := by
  have keep : sessionModes (copy.keep entry).myEnvp = sessionModes copy.myEnvp := by
    show sessionModes (copy.myEnvp ++ [entry]) = _
    rw [sessionModes_append, sessionModes_singleton, noMode, toList_none, append_nil]
  unfold EnvpCopy.step
  rw [noMode]
  dsimp only
  split
  · exact ⟨rfl, rfl⟩
  split
  · exact ⟨rfl, rfl⟩
  split
  · exact ⟨rfl, rfl⟩
  split
  · exact ⟨rfl, rfl⟩
  · exact ⟨keep, rfl⟩

theorem isDropped_sessionMode (mode : CStr) :
    isDropped (sboxSessionModeVar ++ '=' :: mode) = false := rfl

theorem EnvpCopy.step_mode (copy : EnvpCopy) (mode : CStr) :
    copy.step process (sboxSessionModeVar ++ '=' :: mode) =
      copy.requestMode process mode (sboxSessionModeVar ++ '=' :: mode) := by
  unfold EnvpCopy.step
  rw [isDropped_sessionMode, value?_self]
  rfl

theorem EnvpCopy.foldl_sessionModes (envp : Envp) (copy : EnvpCopy) :
    let after := envp.foldl (EnvpCopy.step process) copy
    let accepted := acceptedModes process copy.hasSboxSessionMode (requestedModes process envp)
    sessionModes after.myEnvp = sessionModes copy.myEnvp ++ accepted ∧
      after.hasSboxSessionMode = (copy.hasSboxSessionMode || !accepted.isEmpty) := by
  induction envp generalizing copy with
  | nil =>
    have none : acceptedModes process copy.hasSboxSessionMode [] = [] := by
      unfold acceptedModes
      split <;> rfl
    show _ = _ ++ acceptedModes _ _ [] ∧ _ = (_ || !(acceptedModes _ _ []).isEmpty)
    rw [none, append_nil]
    exact ⟨rfl, (Bool.or_false _).symm⟩
  | cons entry envp ih =>
    rw [foldl_cons]
    cases named : value? sboxSessionModeVar entry with
    | none =>
      obtain ⟨modes, flag⟩ := copy.step_noMode process named
      have requested : requestedModes process (entry :: envp) = requestedModes process envp := by
        rw [requestedModes_cons, named, filter_none, toList_none, nil_append]
      rw [requested, ← modes, ← flag]
      exact ih _
    | some mode =>
      rw [requestedModes_cons, named]
      obtain rfl := value?_eq_some_iff.1 named
      rw [EnvpCopy.step_mode, EnvpCopy.requestMode]
      by_cases current : process.sboxSessionMode = some mode
      · have none :
            (some mode).filter (fun mode => process.sboxSessionMode ≠ some mode) = none := by
          rw [filter_some, if_neg (by simp [current])]
        rw [if_pos current, none, toList_none, nil_append]
        exact ih copy
      have other : (some mode).filter (fun mode => process.sboxSessionMode ≠ some mode) =
          some mode := by
        rw [filter_some, if_pos (by simpa using current)]
      rw [if_neg current, other, toList_some, singleton_append, acceptedModes_cons]
      dsimp only
      split
      next accepted =>
        obtain ⟨modes, flag⟩ := ih ({ copy with hasSboxSessionMode := true }.keep
          (sboxSessionModeVar ++ '=' :: mode))
        refine ⟨modes.trans ?_, flag.trans (by simp [EnvpCopy.keep])⟩
        show sessionModes (copy.myEnvp ++ [_]) ++ _ = _
        rw [sessionModes_append, sessionModes_singleton, value?_self, toList_some,
          append_assoc]
        rfl
      next rejected =>
        have closed : copy.hasSboxSessionMode = false := by
          cases flag : copy.hasSboxSessionMode
          · rfl
          · exact absurd (by rw [flag, Bool.true_or]) rejected
        have rest := ih copy
        rw [closed] at rest ⊢
        exact rest

theorem filterMap_map_toList {text : Option CStr} {make : CStr → CStr}
    (skips : ∀ value, f (make value) = none) : (text.map make).toList.filterMap f = [] := by
  cases text with
  | none => rfl
  | some value => rw [map_some, toList_some, filterMap_cons, skips]; rfl

theorem vpermExport_eq_append (source : IdSource) (ids : SimulatedIds) (varname : CStr)
    (mode suid sgid : BitVec 32) (request : Option CStr) :
    ∃ text, (vpermExportIdsAsStringForExec source ids varname mode suid sgid request).2 =
      varname ++ text := by
  unfold vpermExportIdsAsStringForExec
  dsimp only
  cases request with
  | none => exact ⟨_, by simp only [append_assoc]; rfl⟩
  | some request =>
    dsimp only
    split
    · exact ⟨_, rfl⟩
    · exact ⟨_, by simp only [append_assoc]; rfl⟩

/-- A function of the entries of an environment, which skips those for the session that are added
in any case. -/
structure SkipsAdded (f : CStr → Option CStr) : Prop where
  sessionDir : ∀ value, f (entryOf "SBOX_SESSION_DIR" value) = none
  mappingMethod : ∀ value, f (entryOf "SBOX_MAPPING_METHOD" value) = none
  vpermIds : ∀ text, f ("SBOX_VPERM_IDS=".toList ++ text) = none
  sigtrap : ∀ value, f (entryOf "SBOX_SIGTRAP" value) = none
  binaryname : ∀ value, f (entryOf "__SB2_BINARYNAME" value) = none
  origBinaryname : ∀ value, f (entryOf "__SB2_ORIG_BINARYNAME" value) = none
  execBinaryname : ∀ value, f (entryOf "__SB2_EXEC_BINARYNAME" value) = none
  realBinaryname : ∀ value, f (entryOf "__SB2_REAL_BINARYNAME" value) = none
  chrootPath : ∀ value, f (entryOf "__SB2_CHROOT_PATH" value) = none

theorem SkipsAdded.filterMap_addedEntries (skips : SkipsAdded f) (origFile binaryname : CStr)
    (envp : Envp) (copy : EnvpCopy) :
    (addedEntries process origFile binaryname envp copy).filterMap f =
      (if copy.hasSboxSessionMode then []
        else (process.sboxSessionMode.map (sboxSessionModeVar ++ '=' :: ·)).toList).filterMap f ++
      ((userVersion "LD_PRELOAD=" envp).toList.filterMap f ++
        (userVersion "LD_LIBRARY_PATH=" envp).toList.filterMap f) := by
  obtain ⟨text, ids⟩ := vpermExport_eq_append process.idSource process.simulatedIds
    "SBOX_VPERM_IDS=".toList 0 0 0 copy.userVpermRequest
  have sigtrap : (if strvecContains envp "SBOX_SIGTRAP=" then []
      else ((getenv process.environ "SBOX_SIGTRAP".toList).map
        (entryOf "SBOX_SIGTRAP")).toList).filterMap f = [] := by
    split
    · rfl
    · exact filterMap_map_toList skips.sigtrap
  unfold addedEntries sessionEntries ownEntries
  rw [ids]
  simp only [filterMap_append, filterMap_cons, filterMap_nil, skips.sessionDir,
    skips.vpermIds, skips.binaryname, skips.origBinaryname, skips.execBinaryname,
    skips.realBinaryname, filterMap_map_toList skips.mappingMethod, sigtrap,
    filterMap_map_toList skips.chrootPath, nil_append, append_nil, append_assoc]

theorem sessionModes_addedEntries (origFile binaryname : CStr) (envp : Envp) (copy : EnvpCopy) :
    sessionModes (addedEntries process origFile binaryname envp copy) =
      if copy.hasSboxSessionMode then [] else process.sboxSessionMode.toList := by
  have skips : SkipsAdded (value? sboxSessionModeVar) := by constructor <;> exact fun _ => rfl
  have user (var : String) : (userVersion var envp).toList.filterMap (value? sboxSessionModeVar) =
      [] :=
    filterMap_map_toList fun _ => rfl
  unfold sessionModes
  rw [skips.filterMap_addedEntries, user, user, append_nil, append_nil]
  split
  · rfl
  · cases process.sboxSessionMode with
    | none => rfl
    | some mode =>
      rw [map_some, toList_some, filterMap_cons, value?_self]
      rfl

theorem sessionModes_prepareEnvp (origFile binaryname : CStr) (envp : Envp) :
    let accepted := acceptedModes process false (requestedModes process envp)
    sessionModes (prepareEnvpForDoExec process origFile binaryname envp) =
      if accepted = [] then process.sboxSessionMode.toList else accepted := by
  intro accepted
  obtain ⟨modes, flag⟩ := EnvpCopy.foldl_sessionModes process envp {}
  unfold prepareEnvpForDoExec
  dsimp only
  rw [sessionModes_append, sessionModes_addedEntries, modes, flag]
  show [] ++ accepted ++ (if (false || !accepted.isEmpty) = true then _ else _) = _
  cases accepted with
  | nil => rfl
  | cons mode modes => simp

end SessionMode

/-- The modes that the new program may get are sound, exactly if the environment asks for no other
mode after one that has rules. -/
theorem session_mode_sound_iff (process : ExecProcess) (origFile binaryname : CStr) (envp : Envp) :
    let modes := sessionModes (prepareEnvpForDoExec process origFile binaryname envp)
    ((∀ mode ∈ modes, process.sboxSessionMode = some mode ∨ process.hasRules mode = true) ∧
        modes.length ≤ 1) ↔
      ∀ before mode after, requestedModes process envp = before ++ mode :: after →
        process.hasRules mode = true → after = [] := by
  intro modes
  generalize requested : requestedModes process envp = requests
  have accepted : modes = if acceptedModes process false requests = [] then
      process.sboxSessionMode.toList else acceptedModes process false requests := by
    rw [← requested]
    exact sessionModes_prepareEnvp process origFile binaryname envp
  constructor
  · rintro ⟨-, single⟩ before mode after rfl hasRules
    have long : after.length + 1 ≤
        (acceptedModes process false (before ++ mode :: after)).length := by
      have stops : (mode :: after).dropWhile (fun mode => !process.hasRules mode) =
          mode :: after := by
        rw [dropWhile_cons_of_neg (by simp [hasRules])]
      show _ ≤ (List.dropWhile _ _).length
      rw [dropWhile_append, stops]
      split
      · rw [length_cons]
      · rw [length_append, length_cons]
        omega
    have nonempty : acceptedModes process false (before ++ mode :: after) ≠ [] := by
      rintro empty
      rw [empty] at long
      cases long
    rw [accepted, if_neg nonempty] at single
    exact length_eq_zero_iff.1 (by omega)
  · intro last
    rw [accepted]
    cases kept : acceptedModes process false requests with
    | nil =>
      rw [if_pos rfl]
      exact ⟨fun mode current => .inl (mem_toList.1 current), by
        cases process.sboxSessionMode <;> simp⟩
    | cons mode after =>
      rw [if_neg (cons_ne_nil _ _)]
      obtain ⟨hasRules, before, requests⟩ := acceptedModes_eq_cons process kept
      obtain rfl := last before mode after requests hasRules
      refine ⟨fun mode' member => .inr ?_, le_rfl⟩
      rw [mem_singleton.1 member]
      exact hasRules

/-- A process of a session without other modes than `accel`. -/
def accelProcess : ExecProcess where
  sboxSessionDir := "/s".toList
  sboxSessionMode := none
  sboxMappingMethod := none
  sboxChrootPath := none
  environ := []
  idSource := ⟨none, 1000, 1000, 1000, 1000⟩
  simulatedIds := .initial
  readable := fun path => path = "/s/rules/accel.lua".toList

/-- The second mode has no rules, and is kept. -/
theorem session_mode_forged :
    sessionModes (prepareEnvpForDoExec accelProcess "/bin/sh".toList "sh".toList
      ["SBOX_SESSION_MODE=accel".toList, "SBOX_SESSION_MODE=none".toList]) =
      ["accel".toList, "none".toList] ∧
      accelProcess.sboxSessionMode ≠ some "none".toList ∧
      accelProcess.hasRules "none".toList = false :=
  ⟨rfl, (nomatch ·), rfl⟩

end Scratchbox
