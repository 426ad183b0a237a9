import Scratchbox.Engine

/-!
# Rule tables

The Lua tables in which rules are written, and the rules that
`add_rules_to_rule_tree.lua` makes of them. A table is modelled as a value: that
lists which are used several times are stored only once is not visible here.
-/

namespace Scratchbox

/-! ## Tables -/

inductive Protection where
  | readonlyFsIfNotRoot
  | readonlyFsAlways
  deriving DecidableEq

/-- Values of `custom_map_funct`. -/
inductive CustomMapFunct where
  | sb2ProcfsMapper
  | other
  deriving DecidableEq

/-- The fields of a rule table; `none` and `false` stand for nil. -/
structure RuleTable where
  name : Option String := none
  selDir : Option CStr := none
  selPrefix : Option CStr := none
  selPath : Option CStr := none
  useOrigPath : Bool := false
  forceOrigPath : Bool := false
  forceOrigPathUnlessChroot : Bool := false
  mapTo : Option CStr := none
  replaceBy : Option CStr := none
  setPath : Option CStr := none
  mapToValueOfEnvVar : Option CStr := none
  replaceByValueOfEnvVar : Option CStr := none
  unionDir : Option (List CStr) := none
  ifExistsThenMapTo : Option CStr := none
  ifExistsThenReplaceBy : Option CStr := none
  ifExistsIn : Option CStr := none
  ifActiveExecPolicyIs : Option CStr := none
  ifRedirectIgnoreIsActive : Option CStr := none
  ifRedirectForceIsActive : Option CStr := none
  ifEnvVarIsNotEmpty : Option CStr := none
  ifEnvVarIsEmpty : Option CStr := none
  customMapFunct : Option CustomMapFunct := none
  readonly : Bool := false
  protection : Option Protection := none
  binaryName : Option CStr := none
  funcClass : UInt32 := 0
  execPolicyName : Option CStr := none
  virtualPath : Bool := false
  deriving DecidableEq

structure LuaRule extends RuleTable where
  actions : Option (List LuaRule) := none
  rules : Option (List LuaRule) := none
  thenActions : Option (List LuaRule) := none

/-! ## Loading -/

/-- The selector of a rule: `dir`, `prefix` and `path`, in this order. -/
def RuleTable.selectorOf (rule : RuleTable) : Option (SelectorType × CStr) :=
  match rule.selDir, rule.selPrefix, rule.selPath with
  | some dir, _, _ => some (.selDir, dir)
  | none, some pre, _ => some (.selPrefix, pre)
  | none, none, some path => some (.selPath, path)
  | none, none, none => none

/-- The action of a table without lists in it, with `action_str`; `none` is the action
type 0. -/
def RuleTable.actionOf (rule : RuleTable) : Option (ActionType × Option CStr) :=
  if rule.useOrigPath then some (.useOrigPath, none)
  else if rule.forceOrigPath then some (.forceOrigPath, none)
  else if rule.forceOrigPathUnlessChroot then some (.forceOrigPathUnlessChroot, none)
  else if let some target := rule.mapTo then some (.mapTo, some target)
  else if let some target := rule.replaceBy then some (.replaceBy, some target)
  else if let some path := rule.setPath then some (.setPath, some path)
  else if let some var := rule.mapToValueOfEnvVar then some (.mapToValueOfEnvVar, some var)
  else if let some var := rule.replaceByValueOfEnvVar then
    some (.replaceByValueOfEnvVar, some var)
  else if rule.unionDir.isSome then some (.unionDir, none)
  else if let some target := rule.ifExistsThenMapTo then some (.ifExistsThenMapTo, some target)
  else if let some target := rule.ifExistsThenReplaceBy then
    some (.ifExistsThenReplaceBy, some target)
  else if let some target := rule.ifExistsIn then some (.ifExistsIn, some target)
  else none

def RuleTable.conditionOf (rule : RuleTable) : Option (ConditionType × CStr) :=
  if let some str := rule.ifActiveExecPolicyIs then some (.ifActiveExecPolicyIs, str)
  else if let some str := rule.ifRedirectIgnoreIsActive then some (.ifRedirectIgnoreIsActive, str)
  else if let some str := rule.ifRedirectForceIsActive then some (.ifRedirectForceIsActive, str)
  else if let some str := rule.ifEnvVarIsNotEmpty then some (.ifEnvVarIsNotEmpty, str)
  else if let some str := rule.ifEnvVarIsEmpty then some (.ifEnvVarIsEmpty, str)
  else if let some str := rule.ifExistsIn then some (.ifExistsIn, str)
  else none

def RuleTable.flagsOf (rule : RuleTable) : RuleFlags where
  readonly := rule.readonly
  forceOrigPath := rule.forceOrigPath
  readonlyFsIfNotRoot := rule.protection = some .readonlyFsIfNotRoot
  readonlyFsAlways := rule.protection = some .readonlyFsAlways
  forceOrigPathUnlessChroot := rule.forceOrigPathUnlessChroot

/-- The action type and `action_str` that are stored: lists of actions and of rules
take precedence over the actions of the table, and the procfs mapper over all. -/
def RuleTable.storedAction (rule : RuleTable) (hasActions hasRules : Bool) :
    Option (ActionType × Option CStr) :=
  match rule.customMapFunct with
  | some .sb2ProcfsMapper => some (.procfs, none)
  -- an error: the rule is not stored
  | some .other => none
  | none =>
    if hasActions then some (.conditionalActions, rule.actionOf.bind (·.2))
    else if hasRules then some (.subtree, rule.actionOf.bind (·.2))
    else rule.actionOf

/-- The stored rule. `link` is the list that was loaded for `rule_list_link`, if the table
has one; otherwise the link leads to the directories of `union_dir`. An action type of 0 is
not accepted by `add_rule_to_ruletree`. -/
def RuleTable.store (rule : RuleTable) (hasActions hasRules : Bool)
    (link : Option (List FsRule)) : Option FsRule :=
  (rule.storedAction hasActions hasRules).map fun (actionType, actionStr) =>
    { ruleOffs := 1
      selectorType := rule.selectorOf.map (·.1)
      selector := rule.selectorOf.map (·.2)
      actionType
      actionStr
      conditionType := rule.conditionOf.map (·.1)
      conditionStr := rule.conditionOf.map (·.2)
      flags := rule.flagsOf
      binaryName := rule.binaryName
      funcClass := rule.funcClass
      execPolicyName := rule.execPolicyName
      unionDirs := if link.isSome then [] else (rule.unionDir.getD []).map some
      ruleListLink := link.getD [] }

/-- The item 0 of a list, for a rule that was not stored. `ruletree_find_rule` passes it over
like a rule without selector. -/
def emptyItem : FsRule :=
  { ruleOffs := 0, selectorType := none, selector := none, actionType := .subtree }

mutual

/-- `add_one_rule_to_rule_tree`. Offsets only tell the rules of a tree apart; here all
rules have the same. -/
def addOneRuleToRuleTree : LuaRule → Option FsRule
  | ⟨rule, actions, rules, thenActions⟩ =>
    match actions, rules, thenActions with
    | some as, _, _ => rule.store true false (some (addListOfRules as))
    | none, some rs, _ => rule.store false true (some (addListOfRules rs))
    | none, none, some as => rule.store false false (some (addListOfRules as))
    | none, none, none => rule.store false false none

/-- `add_list_of_rules`. -/
def addListOfRules : List LuaRule → List FsRule
  | [] => []
  | rule :: rules =>
    (addOneRuleToRuleTree rule).getD emptyItem :: addListOfRules rules

end

end Scratchbox
