import Scratchbox.Dotdots

/-!
# Mapping rules

Selection and execution of mapping rules, from `paths_ruletree_mapping.c`, and
`clean_and_log_fs_mapping_result` of `pathlistutils.c`. Rules are the objects of
the rule tree: an offset of zero is `none` or an empty list here.

What the code asks the host for (link contents, existing files, environment
variables) is the structure `Host`.
-/

namespace Scratchbox

/-! ## The host -/

/-- The contents of a symbolic link; `readlink` never gives an empty one. -/
structure LinkText where
  text : CStr
  ne_nil : text ≠ []
  deriving DecidableEq

/-- A path as `realpath` returns it: absolute, without `.` and `..`. -/
structure RealPath where
  parts : List Component
  no_dot : Component.dot ∉ parts
  no_dotdot : Component.dotdot ∉ parts

/-- What `stat` says, as far as it is looked at. -/
inductive FileType where
  | directory
  | other
  deriving DecidableEq

/-- The answers of the host system and of the parts of the library that are not
modelled. -/
structure Host where
  readlink : CStr → Except Errno LinkText
  stat : CStr → Except Errno FileType
  pathExists : CStr → Bool
  realpath : CStr → Option RealPath
  getenv : CStr → Option CStr
  getcwd : Option CStr
  euidIsRoot : Bool
  activeExecPolicyName : Option CStr
  procfsMappingRequest : CStr → Option CStr
  prepUnionDir : CStr → List (Option CStr) → Option CStr

/-! ## Rules -/

/-- `rtree_fsr_selector_type`. -/
inductive SelectorType where
  | selPath
  | selPrefix
  | selDir
  deriving DecidableEq

/-- `rtree_fsr_action_type`. -/
inductive ActionType where
  | fallbackToOldMappingEngine
  | useOrigPath
  | forceOrigPath
  | forceOrigPathUnlessChroot
  | mapTo
  | replaceBy
  | mapToValueOfEnvVar
  | replaceByValueOfEnvVar
  | setPath
  | conditionalActions
  | subtree
  | ifExistsThenMapTo
  | ifExistsThenReplaceBy
  | procfs
  | unionDir
  | ifExistsIn
  deriving DecidableEq

/-- `rtree_fsr_condition_type`. -/
inductive ConditionType where
  | ifActiveExecPolicyIs
  | ifRedirectIgnoreIsActive
  | ifRedirectForceIsActive
  | ifEnvVarIsNotEmpty
  | ifEnvVarIsEmpty
  | ifExistsIn
  deriving DecidableEq

/-- `rtree_fsr_flags`. -/
structure RuleFlags where
  readonly : Bool := false
  forceOrigPath : Bool := false
  readonlyFsIfNotRoot : Bool := false
  readonlyFsAlways : Bool := false
  forceOrigPathUnlessChroot : Bool := false
  deriving DecidableEq

/-- The fields of `ruletree_fsrule_t`, with its offset in the tree. `actionStr` is
the string at `rtree_fsr_action_offs`; `unionDirs` are the strings behind
`rtree_fsr_rule_list_link` of a union directory. -/
structure FsRuleFields where
  ruleOffs : Nat
  selectorType : Option SelectorType
  selector : Option CStr
  actionType : ActionType
  actionStr : Option CStr := none
  conditionType : Option ConditionType := none
  conditionStr : Option CStr := none
  flags : RuleFlags := {}
  binaryName : Option CStr := none
  funcClass : UInt32 := 0
  execPolicyName : Option CStr := none
  unionDirs : List (Option CStr) := []
  deriving DecidableEq

/-- `ruletree_fsrule_t`: the fields, and the rules behind
`rtree_fsr_rule_list_link`. -/
structure FsRule extends FsRuleFields where
  ruleListLink : List FsRule := []

mutual

def FsRule.decEq : (a b : FsRule) → Decidable (a = b)
  | ⟨a, as⟩, ⟨b, bs⟩ =>
    if h : a = b then
      match FsRule.decEqList as bs with
      | isTrue h' => isTrue (by rw [h, h'])
      | isFalse h' => isFalse fun heq => h' (FsRule.mk.inj heq).2
    else isFalse fun heq => h (FsRule.mk.inj heq).1

def FsRule.decEqList : (as bs : List FsRule) → Decidable (as = bs)
  | [], [] => isTrue rfl
  | [], _ :: _ => isFalse (List.cons_ne_nil _ _).symm
  | _ :: _, [] => isFalse (List.cons_ne_nil _ _)
  | a :: as, b :: bs =>
    match FsRule.decEq a b, FsRule.decEqList as bs with
    | isTrue h, isTrue h' => isTrue (by rw [h, h'])
    | isFalse h, _ => isFalse fun heq => h (List.cons.inj heq).1
    | _, isFalse h => isFalse fun heq => h (List.cons.inj heq).2

end

instance : DecidableEq FsRule := FsRule.decEq

/-- `path_mapping_context_t`, as far as resolution and rule selection read it. -/
structure PathMappingContext where
  pmcBinaryName : CStr
  pmcFnClass : UInt32
  pmcDontResolveFinalSymlink : Bool := false
  pmcFileMustExist : Bool := false
  pmcMustBeDirectory : Bool := false
  pmcAllowNonexistent : Bool := false
  deriving DecidableEq

/-! ## Finding a rule -/

/-- `ruletree_test_path_match`: the minimal path length if the rule matches. -/
def ruletreeTestPathMatch (fullPath : CStr) (rp : FsRuleFields) : Option Nat :=
  match rp.selectorType, rp.selector with
  | some .selPath, some selector =>
    if fullPath = selector then some selector.length else none
  | some .selPrefix, some selector =>
    if selector ≠ [] ∧ selector <+: fullPath then some selector.length else none
  | some .selDir, some selector =>
    if selector ≠ [] ∧ selector.length ≤ fullPath.length ∧
        (fullPath[selector.length]? = some '/' ∨ fullPath[selector.length]? = none ∨
          (selector.length = 1 ∧ fullPath.head? = some '/')) ∧
        selector <+: fullPath then
      some selector.length
    else none
  | _, _ => none

/-- What one rule does to the search. -/
inductive FindStep where
  | fail
  | next
  | found (rule : FsRule) (minPathLen : Nat)

mutual

/-- `ruletree_find_rule`: the selected rule and the length of its selector. -/
def ruletreeFindRule (ctx : PathMappingContext) (virtualPath : CStr) :
    List FsRule → Option (FsRule × Nat)
  | [] => none
  | rule :: rules =>
    match ruletreeFindStep ctx virtualPath rule with
    | .fail => none
    | .next => ruletreeFindRule ctx virtualPath rules
    | .found r n => some (r, n)

/-- One iteration of the loop in `ruletree_find_rule`. -/
def ruletreeFindStep (ctx : PathMappingContext) (virtualPath : CStr) : FsRule → FindStep
  | ⟨rp, ruleListLink⟩ =>
    -- rules with conditions can't be handled
    if rp.conditionType.isSome then .fail
    else
      match ruletreeTestPathMatch virtualPath rp with
      | none => .next
      | some minPathLen =>
        if rp.funcClass ≠ 0 ∧ rp.funcClass &&& ctx.pmcFnClass = 0 then .next
        else if rp.binaryName.isSome ∧ rp.binaryName ≠ some ctx.pmcBinaryName then .next
        else if rp.actionType = .subtree then
          match ruletreeFindRule ctx virtualPath ruleListLink with
          | some (r, n) => .found r n
          | none => .next
        else .found ⟨rp, ruleListLink⟩ minPathLen

end

/-- What `ruletree_get_mapping_requirements` tells about a path. -/
structure MappingRequirements where
  rule : FsRule
  minPathLen : Nat
  callTranslateForAll : Bool

def ruletreeGetMappingRequirements (rules : List FsRule) (ctx : PathMappingContext)
    (absVirtualSourcePathList : PathEntryList) : Option MappingRequirements :=
  (ruletreeFindRule ctx (pathListToString absVirtualSourcePathList) rules).map fun (rule, len) =>
    { rule
      minPathLen := len
      callTranslateForAll :=
        rule.actionType = .conditionalActions || rule.actionType = .procfs }

/-! ## Executing actions -/

/-- What `printf` writes for a `%s` whose argument may be NULL. -/
def printfString (s : Option CStr) : CStr := s.getD "(null)".toList

/-- `ruletree_execute_replace_rule`. The path may be shorter than the selector
of the rule; the rest of the path is then read from outside of the string. -/
def ruletreeExecuteReplaceRule (fullPath : CStr) (replacement : Option CStr)
    (rule : FsRuleFields) : Except Fault (Option CStr) :=
  match rule.selectorType, rule.selector with
  | some .selPath, none => .error .nullPointer
  | some .selPath, some selector =>
    if fullPath = selector then
      match replacement with
      | none => .error .nullPointer
      | some r => .ok (some r)
    else .ok none
  | some _, none => .error .undefinedBuffer
  | some _, some selector =>
    if fullPath.length < selector.length then .error .outOfBounds
    else .ok (some (printfString replacement ++ fullPath.drop selector.length))
  | none, _ => .ok none

def executeMapTo (absCleanVirtualPath : CStr) (target : Option CStr) : CStr :=
  match target with
  | none => absCleanVirtualPath
  | some t =>
    if t = [] ∨ t = ['/'] then absCleanVirtualPath else t ++ absCleanVirtualPath

/-- The path tested by the `if_exists` actions. -/
def ifExistsTestPath (mapToTarget : Option CStr) (absCleanVirtualPath : CStr) :
    Except Fault CStr :=
  match mapToTarget with
  | none => .error .nullPointer
  | some t => .ok (if t = ['/'] then absCleanVirtualPath else t ++ absCleanVirtualPath)

def ifExistsThenMapTo (host : Host) (action : FsRuleFields) (absCleanVirtualPath : CStr) :
    Except Fault (Option CStr) := do
  let testPath ← ifExistsTestPath action.actionStr absCleanVirtualPath
  pure (if host.pathExists testPath then some testPath else none)

def ifExistsThenReplaceBy (host : Host) (action ruleSelector : FsRuleFields)
    (absCleanVirtualPath : CStr) : Except Fault (Option CStr) := do
  let testPath ← ruletreeExecuteReplaceRule absCleanVirtualPath action.actionStr ruleSelector
  pure (testPath.filter host.pathExists)

def ifExistsIn (host : Host) (action : FsRuleFields) (absCleanVirtualPath : CStr) :
    Except Fault Bool := do
  let testPath ← ifExistsTestPath action.actionStr absCleanVirtualPath
  pure (host.pathExists testPath)

/-- The result of executing an action: the path or NULL, the flags, and
`errormsg`. -/
structure ActionResult where
  path : Option CStr
  flags : RuleFlags
  errormsg : Option String := none

/-- The source directories of a union directory: the strings behind the link of
the rule that was selected. If that link leads to actions instead, each of them
is taken for a string and gives NULL. -/
def unionDirSources (ruleSelector : FsRule) : List (Option CStr) :=
  match ruleSelector.ruleListLink with
  | [] => ruleSelector.unionDirs
  | actions => actions.map fun _ => none

def executeStdAction (host : Host) (ruleSelector : FsRule) (action : FsRuleFields)
    (absCleanVirtualPath : CStr) (flags : RuleFlags) : Except Fault ActionResult :=
  match action.actionType with
  | .useOrigPath => .ok { path := some absCleanVirtualPath, flags }
  | .forceOrigPath =>
    .ok { path := some absCleanVirtualPath, flags := { flags with forceOrigPath := true } }
  | .forceOrigPathUnlessChroot =>
    .ok
      { path := some absCleanVirtualPath
        flags := { flags with forceOrigPathUnlessChroot := true } }
  | .mapTo => .ok { path := some (executeMapTo absCleanVirtualPath action.actionStr), flags }
  | .replaceBy => do
    let newPath ← ruletreeExecuteReplaceRule absCleanVirtualPath action.actionStr
      ruleSelector.toFsRuleFields
    pure { path := newPath, flags }
  | .setPath =>
    match action.actionStr with
    | none => .error .nullPointer
    | some p => .ok { path := some p, flags }
  | .mapToValueOfEnvVar =>
    match action.actionStr with
    | none => .error .nullPointer
    | some name => .ok { path := some (executeMapTo absCleanVirtualPath (host.getenv name)), flags }
  | .replaceByValueOfEnvVar =>
    match action.actionStr with
    | none => .error .nullPointer
    | some name => do
      let newPath ← ruletreeExecuteReplaceRule absCleanVirtualPath (host.getenv name)
        ruleSelector.toFsRuleFields
      pure { path := newPath, flags }
  | .procfs =>
    let procfsResult := host.procfsMappingRequest absCleanVirtualPath
    .ok { path := some (procfsResult.getD absCleanVirtualPath), flags }
  | .unionDir =>
    let srcPaths := unionDirSources ruleSelector
    if srcPaths.isEmpty then .ok { path := none, flags }
    else .ok { path := host.prepUnionDir absCleanVirtualPath srcPaths, flags }
  | .fallbackToOldMappingEngine | .conditionalActions | .subtree | .ifExistsThenMapTo
  | .ifExistsThenReplaceBy | .ifExistsIn => .ok { path := none, flags }

def testIfStrInColonSeparatedListFromEnv (host : Host) (str envVarName : CStr) : Bool :=
  match host.getenv envVarName with
  | none => false
  | some list => (Token.tokens ':' list).any fun tok => tok.val = str

/-- The tests of the conditions that do not lead to other actions. -/
def conditionHolds (host : Host) (cond : ConditionType) (condStr : Option CStr) : Bool :=
  match condStr with
  | none => false
  | some str =>
    match cond with
    | .ifEnvVarIsNotEmpty => (host.getenv str).any fun v => !v.isEmpty
    | .ifEnvVarIsEmpty => (host.getenv str).all fun v => v.isEmpty
    | .ifActiveExecPolicyIs => host.activeExecPolicyName = some str
    | .ifRedirectIgnoreIsActive =>
      testIfStrInColonSeparatedListFromEnv host str "SBOX_REDIRECT_IGNORE".toList
    | .ifRedirectForceIsActive =>
      testIfStrInColonSeparatedListFromEnv host str "SBOX_REDIRECT_FORCE".toList
    | .ifExistsIn => false

/-- The actions that are executed when they stand in a list of conditional
actions, whatever the result is. -/
def ActionType.isStandard : ActionType → Bool
  | .useOrigPath | .forceOrigPath | .forceOrigPathUnlessChroot | .mapTo | .replaceBy | .setPath
  | .mapToValueOfEnvVar | .replaceByValueOfEnvVar | .procfs | .unionDir => true
  | .fallbackToOldMappingEngine | .conditionalActions | .subtree | .ifExistsThenMapTo
  | .ifExistsThenReplaceBy | .ifExistsIn => false

/-- The action of one candidate whose condition holds; `none` to go on with the
next candidate. An action that is not known here ends the search without a
result. -/
def executeCandidate (host : Host) (ruleSelector : FsRule) (action : FsRuleFields)
    (absCleanVirtualPath : CStr) (flags : RuleFlags) : Except Fault (Option ActionResult) :=
  match action.actionType with
  | .ifExistsThenMapTo => do
    let result ← ifExistsThenMapTo host action absCleanVirtualPath
    pure (result.map fun p => { path := some p, flags })
  | .ifExistsThenReplaceBy => do
    let result ← ifExistsThenReplaceBy host action ruleSelector.toFsRuleFields absCleanVirtualPath
    pure (result.map fun p => { path := some p, flags })
  | t =>
    if t.isStandard then do
      let result ← executeStdAction host ruleSelector action absCleanVirtualPath flags
      pure (some result)
    else .ok (some ⟨none, flags, some "unknown conditional action (internal error)"⟩)

mutual

/-- The loop of `ruletree_execute_conditional_actions`. -/
def executeActionList (host : Host) (ruleSelector : FsRule) (absCleanVirtualPath : CStr)
    (flags : RuleFlags) : List FsRule → Except Fault ActionResult
  | [] => .ok ⟨none, flags, some "End of conditional action list"⟩
  | action :: actions => do
    match ← executeConditionalAction host ruleSelector absCleanVirtualPath flags action with
    | some result => pure result
    | none => executeActionList host ruleSelector absCleanVirtualPath flags actions

/-- One candidate of the loop; `none` to go on with the next one. -/
def executeConditionalAction (host : Host) (ruleSelector : FsRule) (absCleanVirtualPath : CStr)
    (flags : RuleFlags) : FsRule → Except Fault (Option ActionResult)
  | ⟨action, thenActions⟩ =>
    if action.ruleOffs = 0 then .ok none
    else
      match action.conditionType with
      | some .ifExistsIn => do
        if ← ifExistsIn host action absCleanVirtualPath then
          match thenActions with
          | [] => pure none
          | a :: as => do
            let newRules := { ruleSelector with ruleListLink := a :: as }
            let result ← executeActionList host newRules absCleanVirtualPath flags (a :: as)
            pure (some result)
        else pure none
      | some cond =>
        if conditionHolds host cond action.conditionStr then
          executeCandidate host ruleSelector action absCleanVirtualPath flags
        else .ok none
      | none => executeCandidate host ruleSelector action absCleanVirtualPath flags

end

def ruletreeExecuteConditionalActions (host : Host) (ruleSelector : FsRule)
    (absCleanVirtualPath : CStr) (flags : RuleFlags) : Except Fault ActionResult :=
  match ruleSelector.ruleListLink with
  | [] => .ok ⟨none, flags, some "action list not found or empty."⟩
  | actions => executeActionList host ruleSelector absCleanVirtualPath flags actions

/-! ## Translating a path -/

/-- The cleaner's surroundings for host paths. `realpath` leaves its buffer
undefined when it fails, and the failure is not noticed. -/
def hostParentOps (host : Host) : ParentOps (Except Fault) where
  resolveParent parent :=
    match host.realpath (pathListToString parent) with
    | none => .error .undefinedBuffer
    | some rp => .ok (.ok (some (absoluteString rp.parts false)))
  evaluated _ := .ok ()
  crash f := .error f

def cleanAndLogFsMappingResult (host : Host) (hostPath : CStr) : Except Fault (Option CStr) :=
  let split := splitPathToPathList hostPath
  let list := { split with plFlags := { split.plFlags with hostPath := true } }
  match isCleanPath list.plFirst with
  | .clean => .ok (some (pathListToString list))
  | .dot => .ok (some (pathListToString (removeDotsFromPathList list)))
  | .dotdot => do
    let list := removeDotsFromPathList list
    match ← cleanDotdotsFromPath (hostParentOps host) (countDotdots list.plFirst) list with
    | .error _ => pure none
    | .ok list => pure (some (pathListToString list))

/-- The results of `ruletree_translate_path`. -/
structure Translation where
  hostPath : Option CStr
  flags : RuleFlags := {}
  execPolicyName : Option CStr := none
  errormsg : Option String := none

def executeRule (host : Host) (rule : FsRule) (absCleanVirtualPath : CStr) :
    Except Fault ActionResult :=
  if rule.actionType = .conditionalActions then
    ruletreeExecuteConditionalActions host rule absCleanVirtualPath rule.flags
  else executeStdAction host rule rule.toFsRuleFields absCleanVirtualPath rule.flags

/-- `ruletree_translate_path`. The rule is the one at `pmc_ruletree_offset`. -/
def ruletreeTranslatePath (host : Host) (rule : Option FsRule) (absCleanVirtualPath : CStr) :
    Except Fault Translation :=
  match rule with
  | none => .ok { hostPath := none, errormsg := some "No rule tree" }
  | some rule => do
    let result ← executeRule host rule absCleanVirtualPath
    let translation : Translation :=
      { hostPath := none, flags := result.flags, execPolicyName := rule.execPolicyName
        errormsg := result.errormsg }
    match result.path with
    | none => pure { translation with errormsg := some "No result from C mapping" }
    | some hostPath =>
      if hostPath.head? ≠ some '/' then pure translation
      else do
        match ← cleanAndLogFsMappingResult host hostPath with
        | none => pure { translation with errormsg := some "Mapping failed" }
        | some newHostPath => pure { translation with hostPath := some newHostPath }

/-! ## Translating to a clean path -/

/-- Of an absolute host path without dots, only superfluous slashes are removed. -/
theorem cleanAndLogFsMappingResult_of_clean (host : Host) {s : CStr} (habs : s.head? = some '/')
    (h : Clean (Token.tokens '/' s)) :
    cleanAndLogFsMappingResult host s =
      .ok (some (absoluteString (Token.tokens '/' s) (Token.openEnd '/' s))) := by
  have hclean : isCleanPath (splitPathToPathList s).plFirst = .clean := by
    rw [isCleanPath_eq_clean, splitPathToPathList_plFirst, components_freshEntries]
    exact h
  unfold cleanAndLogFsMappingResult
  simp only [hclean]
  rw [pathListToString_absolute (by simpa using habs)]
  simp only [splitPathToPathList_plFirst, components_freshEntries, splitPathToPathList_plFlags]

theorem cleanAndLogFsMappingResult_absoluteString (host : Host) {cs : List Component}
    (h : Clean cs) (trailing : Bool) :
    cleanAndLogFsMappingResult host (absoluteString cs trailing) =
      .ok (some (absoluteString cs trailing)) := by
  have hresult := cleanAndLogFsMappingResult_of_clean host (head?_absoluteString cs trailing)
    (by rwa [tokens_absoluteString])
  rw [tokens_absoluteString] at hresult
  rw [hresult]
  cases cs with
  | nil => rfl
  | cons c cs => rw [openEnd_absoluteString]

theorem ruletreeTranslatePath_ok {host : Host} {rule : FsRule} {path hostPath newPath : CStr}
    {result : ActionResult} (hrule : executeRule host rule path = .ok result)
    (hpath : result.path = some hostPath) (habs : hostPath.head? = some '/')
    (hclean : cleanAndLogFsMappingResult host hostPath = .ok (some newPath)) :
    ruletreeTranslatePath host (some rule) path =
      .ok
        { hostPath := some newPath
          flags := result.flags
          execPolicyName := rule.execPolicyName
          errormsg := result.errormsg } := by
  have hbind : ∀ {α β : Type} (a : α) (f : α → Except Fault β), (Except.ok a >>= f) = f a :=
    fun _ _ => rfl
  simp only [ruletreeTranslatePath, hrule, hbind, hpath, habs, ne_eq, not_true_eq_false, if_false,
    hclean]
  rfl

end Scratchbox
