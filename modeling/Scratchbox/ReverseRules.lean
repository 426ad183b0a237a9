import Scratchbox.RuleTables

/-!
# Generating the reverse rules

`create_reverse_rules.lua`, with its path matcher `sblib.test_path_match`. A rule is
reversed by exchanging its selector with the place that it maps to. Reverse rules are
kept in a list that is searched from the front, so a new rule is put before the first
rule that would hide it, and dropped if it would hide that rule as well.

The rules are written to a file as Lua text, and read from there. The comments that are
written with them are left out.
-/

namespace Scratchbox

/-! ## Matching -/

/-- The test of `dir` in `lua_sb_test_path_match`. -/
def testDir (path dir : CStr) : Bool :=
  dir ≠ [] ∧ dir <+: path ∧
    ((dir.length = 1 ∧ path.head? = some '/') ∨ path[dir.length]? = some '/' ∨
      path[dir.length]? = none)

def testPrefix (path pre : CStr) : Bool := pre ≠ [] ∧ pre <+: path

/-- The test of `path`: one slash at the end may be ignored. -/
def testPath (path rulePath : CStr) : Bool :=
  path = rulePath ∨ (2 < path.length ∧ path = rulePath ++ ['/'])

/-- `lua_sb_test_path_match`: the minimal path length, if there is a match. -/
def luaSbTestPathMatch (path : CStr) (dir pre rulePath : Option CStr) : Option Nat :=
  if let some d := dir.filter (testDir path) then some d.length
  else if let some p := pre.filter (testPrefix path) then some p.length
  else if let some r := rulePath.filter (testPath path) then some r.length
  else none

/-! ## Reverse rules -/

/-- A reverse rule: the fields that are printed, and the error. -/
structure RevRule extends RuleTable where
  error : Option String := none
  deriving DecidableEq

def RevRule.hits (rule : RevRule) (path : CStr) : Bool :=
  (luaSbTestPathMatch path rule.selDir rule.selPrefix rule.selPath).isSome

/-- `test_rev_rule_position`, counting from zero. -/
def testRevRulePosition (outputRules : List RevRule) (dPath : CStr) : Option Nat :=
  outputRules.findIdx? (·.hits dPath)

def isIdenticalReverseRule (r1 r2 : RevRule) : Bool :=
  r1.selPrefix = r2.selPrefix && r1.selPath = r2.selPath && r1.selDir = r2.selDir &&
    r1.replaceBy = r2.replaceBy

def revRuleName (modename : String) (rule : RuleTable) (n : Nat) : String :=
  let autoName :=
    match rule.selPrefix, rule.selDir, rule.selPath with
    | some pre, _, _ => "prefix=" ++ String.ofList pre
    | none, some dir, _ => "dir=" ++ String.ofList dir
    | none, none, some path => "path=" ++ String.ofList path
    | none, none, none => "??"
  "Rev(" ++ modename ++ "): " ++ rule.name.getD autoName ++ " <" ++ toString n ++ ">"

/-- What stops the script. -/
inductive LuaError where
  | concatenateNil
  deriving DecidableEq

/-- The `..` of a text and a value that may be nil. -/
def concatenate (text : CStr) : Option CStr → Except LuaError CStr
  | some s => .ok (text ++ s)
  | none => .error .concatenateNil

/-- The place to which a rule maps (`d_path`), and the reverse rule with its action. Rules
with lists of actions do not come here. -/
def reverseAction (rule : RuleTable) (forwardPath : Option CStr) (newRule : RevRule) :
    Except LuaError (Option CStr × RevRule) :=
  let replacing (dPath : CStr) := (some dPath, { newRule with replaceBy := forwardPath })
  if rule.useOrigPath then .ok (forwardPath, { newRule with useOrigPath := true })
  else if rule.forceOrigPath then .ok (forwardPath, { newRule with forceOrigPath := true })
  else if rule.forceOrigPathUnlessChroot then
    .ok (forwardPath, { newRule with forceOrigPathUnlessChroot := true })
  else if let some target := rule.mapTo then
    (concatenate target forwardPath).map replacing
  else if let some target := rule.replaceBy then .ok (replacing target)
  else if rule.customMapFunct.isSome then
    .ok (none, { newRule with
      error :=
        some "--Notice: custom_map_funct rules can't be reversed, please mark it 'virtual'" })
  else if let some target := rule.ifExistsThenMapTo then
    (concatenate target forwardPath).map replacing
  else if let some target := rule.ifExistsThenReplaceBy then .ok (replacing target)
  else if let some target := rule.ifExistsIn then .ok (replacing target)
  else if rule.ifEnvVarIsNotEmpty.isSome || rule.ifEnvVarIsEmpty.isSome then .ok (none, newRule)
  else
    .ok (none, { newRule with
      error := some ("--ERROR: Rule '" ++ newRule.name.getD "" ++
        "' does not contain any actions") })

/-- The selector of the reverse rule, and the path with which its position is found. -/
def reverseSelector (rule : RuleTable) (dPath : CStr) (newRule : RevRule) :
    Option CStr × RevRule :=
  if rule.selPrefix.isSome then
    (some (dPath ++ [':']), { newRule with selPrefix := some dPath })
  else if rule.selDir.isSome then (some dPath, { newRule with selDir := some dPath })
  else if let some path := rule.selPath then
    -- the root directory rule
    if path = ['/'] then (some dPath, { newRule with selPath := some (rule.mapTo.getD dPath) })
    else (some dPath, { newRule with selPath := some dPath })
  else (none, newRule)

/-- `x_path`, the selector of an older rule. -/
def RevRule.xPath (olderRule : RevRule) : Option CStr :=
  (olderRule.selPrefix.or olderRule.selDir).or olderRule.selPath

/-- The new rule is dropped because of an older one that comes into its way. -/
def conflictDrops (newRule olderRule : RevRule) : Bool :=
  isIdenticalReverseRule newRule olderRule ||
    match olderRule.xPath with
    | some xPath => testRevRulePosition [newRule, olderRule] xPath != some 1
    | none => false

/-- The last part of `reverse_one_rule_xxxx`: the new rule is added to the list. -/
def addReverseRule (outputRules : List RevRule) (newRule : RevRule) (testPath : Option CStr) :
    List RevRule :=
  match testPath.bind (testRevRulePosition outputRules) with
  | none => outputRules ++ [newRule]
  | some idx =>
    match outputRules[idx]? with
    | none => outputRules ++ [newRule]
    | some olderRule =>
      if conflictDrops newRule olderRule then outputRules
      else outputRules.insertIdx idx newRule

/-- `reverse_one_rule_xxxx` for a rule without lists of actions. -/
def reversePlainRule (modename : String) (outputRules : List RevRule) (n : Nat)
    (forwardPath : Option CStr) (rule : RuleTable) : Except LuaError (List RevRule) := do
  let name := revRuleName modename rule n
  let error :=
    if forwardPath.isNone then
      some ("--ERROR: Rule '" ++ name ++ "' does not contain 'prefix' 'dir' or 'path'")
    else none
  match ← reverseAction rule forwardPath { name := some name, error } with
  | (none, newRule) => pure (addReverseRule outputRules newRule none)
  | (some dPath, newRule) =>
    let (testPath, newRule) := reverseSelector rule dPath newRule
    pure (addReverseRule outputRules newRule testPath)

/-- An action gets the selector of its rule, and a name, while it is reversed. -/
def RuleTable.asAction (rule : RuleTable) (revRuleName : String) (a : Nat) (action : RuleTable) :
    RuleTable :=
  { action with
    selPrefix := rule.selPrefix
    selPath := rule.selPath
    selDir := rule.selDir
    name := some (revRuleName ++ "/Act." ++ toString a) }

mutual

/-- `reverse_one_rule_xxxx`. The fields of the table are read through `view`: those of
an action are set by the caller. -/
def reverseOneRuleXxxx (modename : String) (outputRules : List RevRule) (n : Nat)
    (forwardPath : Option CStr) (view : RuleTable → RuleTable) :
    LuaRule → Except LuaError (List RevRule)
  | ⟨table, actions, _, thenActions⟩ =>
    let rule := view table
    if rule.useOrigPath || rule.forceOrigPath || rule.forceOrigPathUnlessChroot then
      reversePlainRule modename outputRules n forwardPath rule
    else
      match actions, thenActions with
      | some as, _ =>
        reverseConditionalActions modename outputRules (revRuleName modename rule n) rule
          forwardPath 1 as
      | none, some as =>
        reverseConditionalActions modename outputRules (revRuleName modename rule n) rule
          forwardPath 1 as
      | none, none => reversePlainRule modename outputRules n forwardPath rule

/-- `reverse_conditional_actions`, from the action with the number `a` on. -/
def reverseConditionalActions (modename : String) (outputRules : List RevRule)
    (revName : String) (rule : RuleTable) (forwardPath : Option CStr) (a : Nat) :
    List LuaRule → Except LuaError (List RevRule)
  | [] => .ok outputRules
  | action :: actions => do
    let outputRules ← reverseOneRuleXxxx modename outputRules a forwardPath
      (rule.asAction revName a) action
    reverseConditionalActions modename outputRules revName rule forwardPath (a + 1) actions

end

def reverseOneRule (modename : String) (outputRules : List RevRule) (n : Nat) (rule : LuaRule) :
    Except LuaError (List RevRule) :=
  reverseOneRuleXxxx modename outputRules n ((rule.selPrefix.or rule.selPath).or rule.selDir) id
    rule

mutual

/-- `reverse_rules`, from the rule with the number `n` on. -/
def reverseRules (modename : String) (outputRules : List RevRule) (n : Nat) :
    List LuaRule → Except LuaError (List RevRule)
  | [] => .ok outputRules
  | rule :: inputRules => do
    let outputRules ← reverseInputRule modename outputRules n rule
    reverseRules modename outputRules (n + 1) inputRules

/-- One iteration of the loop of `reverse_rules`. -/
def reverseInputRule (modename : String) (outputRules : List RevRule) (n : Nat) :
    LuaRule → Except LuaError (List RevRule)
  | ⟨table, actions, rules, thenActions⟩ =>
    if table.virtualPath then .ok outputRules
    else
      match rules with
      | some rs => reverseRules modename outputRules 1 rs
      | none =>
        if table.unionDir.isSome then .ok outputRules
        else reverseOneRule modename outputRules n ⟨table, actions, none, thenActions⟩

end

/-! ## The file -/

/-- What Lua reads as a text behind an opening quote, and what is left. A backslash or a
line break is not read as it was written. -/
def readQuoted : CStr → Option (CStr × CStr)
  | [] => none
  | c :: rest =>
    if c = '"' then some ([], rest)
    else if c = '\\' ∨ c = '\n' ∨ c = '\r' then none
    else (readQuoted rest).map fun (text, more) => (c :: text, more)

/-- `print_rules` writes a text between quotes, as it is. -/
def readsBack (text : CStr) : Bool := readQuoted (text ++ ['"']) = some (text, [])

def PlainText (text : CStr) : Prop := ∀ c ∈ text, c ≠ '"' ∧ c ≠ '\\' ∧ c ≠ '\n' ∧ c ≠ '\r'

instance : DecidablePred PlainText := fun text => List.decidableBAll _ text

theorem readQuoted_append {text : CStr} (h : PlainText text) (rest : CStr) :
    readQuoted (text ++ '"' :: rest) = some (text, rest) := by
  induction text with
  | nil => simp [readQuoted]
  | cons c text ih =>
    obtain ⟨⟨hquote, hback⟩, htext⟩ := List.forall_mem_cons.1 h
    rw [List.cons_append, readQuoted, if_neg hquote, if_neg (by simp [hback]), ih htext]
    rfl

theorem PlainText.readsBack {text : CStr} (h : PlainText text) : readsBack text = true :=
  decide_eq_true (readQuoted_append h [])

/-- The texts that are written for a rule. -/
def RuleTable.written (rule : RuleTable) : List CStr :=
  [rule.name.map String.toList, rule.selPrefix, rule.selPath, rule.selDir,
    rule.replaceBy].filterMap id

def finalRootRule (targetRoot : CStr) : RuleTable :=
  { name := some "Final root dir rule", selPath := some targetRoot, replaceBy := some ['/'] }

def printedTables (targetRoot : CStr) (revRules : List RevRule) : List RuleTable :=
  revRules.map (·.toRuleTable) ++ [finalRootRule targetRoot]

/-- The rules that the list in the file defines when it is read, if all texts are read
back. -/
def printedRules (targetRoot : CStr) (revRules : List RevRule) : Option (List LuaRule) :=
  if (printedTables targetRoot revRules).all fun table => table.written.all readsBack then
    some ((printedTables targetRoot revRules).map fun table => { table with })
  else none

/-- `reverse_fs_mapping_rules`, as the written file defines it. `allow_reversing` is
tested before `print_rules` sets it to false because of an error, so the rules are
always written. -/
def createReverseRules (modename : String) (targetRoot : CStr) (fsMappingRules : List LuaRule) :
    Except LuaError (Option (List LuaRule)) := do
  let revRules ← reverseRules modename [] 1 fsMappingRules
  pure (printedRules targetRoot revRules)

end Scratchbox
