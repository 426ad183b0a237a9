import Mathlib.Data.List.TakeWhile
import Scratchbox.RuleTables
import Scratchbox.RuletreeImage

/-!
# Loading rules into the file

`add_rules_to_rule_tree.lua` and `add_rule_to_ruletree` on the bytes of the rule tree. One Lua
table can be at several places, in several lists. A list of rules that a rule leads to is
stored only once: its offset is kept in a field `_rule_tree_offset` of its first table, and a
list whose first table has this field is not stored again.

Messages are left out.
-/

namespace Scratchbox

open Bytes

/-! ## Rules in the file -/

/-- The bytes of a Lua string up to the first zero, as C functions get them. -/
def luaText (str : CStr) : CText where
  bytes := (str.map fun c => BitVec.ofNat 8 c.toNat).takeWhile (· ≠ 0)
  zero_notMem := by
    intro hmem
    have hne := List.mem_takeWhile_imp hmem
    exact of_decide_eq_true hne rfl

/-- `SB2_RULETREE_FSRULE_SELECTOR_*`. -/
def SelectorType.code : SelectorType → BitVec 32
  | selPath => 101
  | selPrefix => 102
  | selDir => 103

/-- `SB2_RULETREE_FSRULE_ACTION_*`. -/
def ActionType.code : ActionType → BitVec 32
  | fallbackToOldMappingEngine => 200
  | useOrigPath => 201
  | forceOrigPath => 202
  | forceOrigPathUnlessChroot => 203
  | mapTo => 210
  | replaceBy => 211
  | mapToValueOfEnvVar => 212
  | replaceByValueOfEnvVar => 213
  | setPath => 214
  | conditionalActions => 220
  | subtree => 230
  | ifExistsThenMapTo => 245
  | ifExistsThenReplaceBy => 246
  | procfs => 250
  | unionDir => 251
  | ifExistsIn => 252

/-- `SB2_RULETREE_FSRULE_CONDITION_*`. -/
def ConditionType.code : ConditionType → BitVec 32
  | ifActiveExecPolicyIs => 301
  | ifRedirectIgnoreIsActive => 302
  | ifRedirectForceIsActive => 303
  | ifEnvVarIsNotEmpty => 304
  | ifEnvVarIsEmpty => 305
  | ifExistsIn => 306

/-- The arguments of `add_rule_to_ruletree`, without the link to a list. -/
structure RuleArgs where
  name : Option CText
  selectorType : BitVec 32
  selector : Option CText
  actionType : BitVec 32
  actionStr : Option CText
  conditionType : BitVec 32
  conditionStr : Option CText
  flags : BitVec 32
  binaryName : Option CText
  funcClass : BitVec 32
  execPolicyName : Option CText
  deriving DecidableEq

/-- The types that `add_rule_to_ruletree` accepts. -/
def RuleArgs.Accepted (args : RuleArgs) : Prop :=
  args.selectorType ∈ [101, 102, 103, 0] ∧
    args.actionType ∈
      [200, 250, 251, 201, 202, 203, 210, 211, 214, 212, 213, 220, 230, 245, 246, 252] ∧
    args.conditionType ∈ [0, 301, 302, 303, 304, 305, 306]

instance (args : RuleArgs) : Decidable args.Accepted := inferInstanceAs (Decidable (_ ∧ _ ∧ _))

/-- A string, if there is one. -/
def appendText : Option CText → RuletreeProgram Offset
  | some str => append (.string str)
  | none => return 0

/-- `add_rule_to_ruletree`. The name is appended in any case. -/
def addRuleToRuletree (args : RuleArgs) (ruleListLink : Offset) : RuletreeProgram Offset := do
  let nameOffs ← appendText args.name
  if args.Accepted then
    let selectorOffs ← appendText args.selector
    let actionOffs ← appendText args.actionStr
    let conditionOffs ← appendText args.conditionStr
    let binaryName ← appendText args.binaryName
    let execPolicyName ← appendText args.execPolicyName
    append (.fsrule #v[nameOffs, args.selectorType, selectorOffs, args.actionType, actionOffs,
      ruleListLink, args.conditionType, conditionOffs, args.flags, binaryName, args.funcClass,
      execPolicyName])
  else return 0

/-! ## Tables -/

/-- A Lua table of a rule: its identity, its fields and the lists of tables in it. -/
structure LuaTable where
  ident : Nat
  rule : RuleTable
  actions : Option (List LuaTable) := none
  rules : Option (List LuaTable) := none
  thenActions : Option (List LuaTable) := none

namespace RuleTable

variable (rule : RuleTable)

def flagsWord (hasActions : Bool) : BitVec 32 :=
  (if rule.readonly then 1 else 0) +
    (match rule.protection with
      | some .readonlyFsIfNotRoot => 8
      | some .readonlyFsAlways => 16
      | none => 0) +
    (if rule.forceOrigPath then 4 else 0) + (if rule.forceOrigPathUnlessChroot then 32 else 0) +
    (if rule.customMapFunct.isSome || hasActions then 2 else 0)

/-- What is passed to `add_rule_to_ruletree`. Without a condition, `condition_str` is the number
zero, which C functions get as a text. -/
def args (hasActions hasRules : Bool) : RuleArgs where
  name := some (luaText (rule.name.getD "").toList)
  selectorType := (rule.selectorOf.map (·.1.code)).getD 0
  selector := rule.selectorOf.map (luaText ·.2)
  actionType := ((rule.storedAction hasActions hasRules).map (·.1.code)).getD 0
  actionStr := ((rule.storedAction hasActions hasRules).bind (·.2)).map luaText
  conditionType := (rule.conditionOf.map (·.1.code)).getD 0
  conditionStr := some (luaText ((rule.conditionOf.map (·.2)).getD ['0']))
  flags := rule.flagsWord hasActions
  binaryName := rule.binaryName.map luaText
  funcClass := rule.funcClass.toBitVec
  execPolicyName := rule.execPolicyName.map luaText

/-- The directories of a rule whose action is a union directory. -/
def unionDirs : List CText :=
  if rule.actionOf = some (.unionDir, none) then (rule.unionDir.getD []).map luaText else []

/-- The end of `add_one_rule_to_rule_tree`. A mapping function that is not known is an error. -/
def addToRuletree (hasActions hasRules : Bool) (ruleListLink : Offset) : RuletreeProgram Offset :=
  if rule.customMapFunct = some .other then return 0
  else addRuleToRuletree (rule.args hasActions hasRules) ruleListLink

end RuleTable

/-! ## The loader -/

/-- The loop of `get_rule_tree_offset_for_union_dir_list`. -/
def setUnionDirs (list : Offset) : Nat → List CText → RuletreeProgram Unit
  | _, [] => return ()
  | n, dir :: dirs => do
    let str ← append (.string dir)
    let _ ← objectlistSetItem list (BitVec.ofNat 32 n) str
    setUnionDirs list (n + 1) dirs

def getRuleTreeOffsetForUnionDirList (dirs : List CText) : RuletreeProgram Offset := do
  if dirs = [] then return 0
  else
    let list ← objectlistCreateList (BitVec.ofNat 32 dirs.length)
    setUnionDirs list 0 dirs
    return list

/-- What the loader has in the tables: `_rule_tree_offset`. The lists for which an offset was
looked up, and what was returned, are noted too; the loader does not read that. -/
structure LoaderState where
  ruleTreeOffset : Nat → Option Offset
  returned : List (List LuaTable × Offset)

namespace LoaderState

/-- No list is stored yet. -/
def initial : LoaderState := ⟨fun _ => none, []⟩

def setOffset (state : LoaderState) (ident : Nat) (offs : Offset) : LoaderState :=
  { state with
    ruleTreeOffset := fun i => if i = ident then some offs else state.ruleTreeOffset i }

def note (state : LoaderState) (rules : List LuaTable) (offs : Offset) : LoaderState :=
  { state with returned := (rules, offs) :: state.returned }

end LoaderState

/-- `add_list_of_rules`, with the loop that adds the rules as a parameter. -/
def createList (rules : List LuaTable)
    (addRules : Offset → LoaderState → RuletreeProgram LoaderState)
    (state : LoaderState) : RuletreeProgram (Offset × LoaderState) := do
  if rules.isEmpty then return (0, state)
  else
    let list ← objectlistCreateList (BitVec.ofNat 32 rules.length)
    let state ← addRules list state
    return (list, state)

/-- `get_rule_tree_offset_for_rule_list`, with the loop that adds the rules as a parameter. -/
def getRuleTreeOffsetForRuleList (rules : List LuaTable)
    (addRules : Offset → LoaderState → RuletreeProgram LoaderState) (state : LoaderState) :
    RuletreeProgram (Offset × LoaderState) := do
  match rules with
  | [] => return (0, state.note [] 0)
  | first :: _ =>
    match state.ruleTreeOffset first.ident with
    | some offs => return (offs, state.note rules offs)
    | none =>
      let stored ← createList rules addRules state
      return (stored.1, (stored.2.setOffset first.ident stored.1).note rules stored.1)

def finishRule (rule : RuleTable) (hasActions hasRules : Bool) (link : Offset × LoaderState) :
    RuletreeProgram (Offset × LoaderState) := do
  let offs ← rule.addToRuletree hasActions hasRules link.1
  return (offs, link.2)

mutual

/-- `add_one_rule_to_rule_tree`. -/
def addOneRule : LuaTable → LoaderState → RuletreeProgram (Offset × LoaderState)
  | ⟨_, rule, actions, rules, thenActions⟩, state => do
    let unionLink ← getRuleTreeOffsetForUnionDirList rule.unionDirs
    match actions, rules, thenActions with
    | some as, _, _ =>
      getRuleTreeOffsetForRuleList as (addRules as 0) state >>= finishRule rule true false
    | none, some rs, _ =>
      getRuleTreeOffsetForRuleList rs (addRules rs 0) state >>= finishRule rule false true
    | none, none, some as =>
      getRuleTreeOffsetForRuleList as (addRules as 0) state >>= finishRule rule false false
    | none, none, none => finishRule rule false false (unionLink, state)

/-- The loop of `add_list_of_rules`, from the rule with the number `n` on. -/
def addRules : List LuaTable → Nat → Offset → LoaderState → RuletreeProgram LoaderState
  | [], _, _, state => return state
  | rule :: rules, n, list, state => do
    let added ← addOneRule rule state
    let _ ← objectlistSetItem list (BitVec.ofNat 32 n) added.1
    addRules rules (n + 1) list added.2

end

/-- `add_list_of_rules`; without a list nothing is stored. -/
def addLuaRules (rules : Option (List LuaTable)) (state : LoaderState) :
    RuletreeProgram (Offset × LoaderState) :=
  match rules with
  | none => return (0, state)
  | some rules => createList rules (addRules rules 0) state

/-- The lists of a session are added one after the other: the forward rules and the reverse
rules of each mode, and the rules of its exec policies. -/
def loadForest : List (Option (List LuaTable)) → LoaderState →
    RuletreeProgram (List Offset × LoaderState)
  | [], state => return ([], state)
  | rules :: forest, state => do
    let added ← addLuaRules rules state
    let rest ← loadForest forest added.2
    return (added.1 :: rest.1, rest.2)

/-! ## What the tables mean -/

/-- A rule tree without offsets: the items of a list are rules with the lists behind them,
strings, or nothing where a rule could not be stored. -/
inductive Unfolded
  | hole
  | text (str : CText)
  | rule (args : RuleArgs) (link : List Unfolded)

def RuleTable.unfoldWith (rule : RuleTable) (hasActions hasRules : Bool) (link : List Unfolded) :
    Unfolded :=
  if rule.customMapFunct ≠ some .other ∧ (rule.args hasActions hasRules).Accepted then
    .rule (rule.args hasActions hasRules) link
  else .hole

mutual

def LuaTable.unfold : LuaTable → Unfolded
  | ⟨_, rule, actions, rules, thenActions⟩ =>
    match actions, rules, thenActions with
    | some as, _, _ => rule.unfoldWith true false (unfoldList as)
    | none, some rs, _ => rule.unfoldWith false true (unfoldList rs)
    | none, none, some as => rule.unfoldWith false false (unfoldList as)
    | none, none, none => rule.unfoldWith false false (rule.unionDirs.map .text)

def unfoldList : List LuaTable → List Unfolded
  | [] => []
  | table :: tables => table.unfold :: unfoldList tables

end

/-! ## Lists with the same first table -/

abbrev Seen := Nat → Option (List LuaTable)

def Seen.set (seen : Seen) (ident : Nat) (rules : List LuaTable) : Seen := fun i =>
  if i = ident then some rules else seen i

def seenAfterLink (rules : List LuaTable) (inner : Seen → Seen) (seen : Seen) : Seen :=
  match rules with
  | [] => seen
  | first :: _ =>
    match seen first.ident with
    | some _ => seen
    | none => (inner seen).set first.ident rules

mutual

def LuaTable.seenAfter : LuaTable → Seen → Seen
  | ⟨_, _, actions, rules, thenActions⟩, seen =>
    match actions, rules, thenActions with
    | some as, _, _ => seenAfterLink as (seenAfterList as) seen
    | none, some rs, _ => seenAfterLink rs (seenAfterList rs) seen
    | none, none, some as => seenAfterLink as (seenAfterList as) seen
    | none, none, none => seen

def seenAfterList : List LuaTable → Seen → Seen
  | [], seen => seen
  | table :: tables, seen => seenAfterList tables (table.seenAfter seen)

end

/-- A list that is stored already has the same meaning as the one that is looked up. A new list
has fewer rules than a word can count. -/
def LinkAgrees (rules : List LuaTable) (inner : Seen → Prop) (seen : Seen) : Prop :=
  match rules with
  | [] => True
  | first :: _ =>
    match seen first.ident with
    | some stored => unfoldList stored = unfoldList rules
    | none => rules.length < 2 ^ 32 ∧ inner seen

mutual

/-- All lists that are looked up while a table is loaded agree with what is stored. -/
def LuaTable.Agrees : LuaTable → Seen → Prop
  | ⟨_, _, actions, rules, thenActions⟩, seen =>
    match actions, rules, thenActions with
    | some as, _, _ => LinkAgrees as (ListAgrees as) seen
    | none, some rs, _ => LinkAgrees rs (ListAgrees rs) seen
    | none, none, some as => LinkAgrees as (ListAgrees as) seen
    | none, none, none => True

def ListAgrees : List LuaTable → Seen → Prop
  | [], _ => True
  | table :: tables, seen => table.Agrees seen ∧ ListAgrees tables (table.seenAfter seen)

end

def ForestAgrees : List (Option (List LuaTable)) → Seen → Prop
  | [], _ => True
  | rules :: forest, seen => (rules.getD []).length < 2 ^ 32 ∧ ListAgrees (rules.getD []) seen ∧
    ForestAgrees forest (seenAfterList (rules.getD []) seen)

/-! ## The list of a table -/

namespace LuaTable

def link (t : LuaTable) : Option (List LuaTable) := t.actions.or (t.rules.or t.thenActions)

def hasActions (t : LuaTable) : Bool := t.actions.isSome

def hasRules (t : LuaTable) : Bool := t.actions.isNone && t.rules.isSome

def linkProgram (t : LuaTable) (unionLink : Offset) (state : LoaderState) :
    RuletreeProgram (Offset × LoaderState) :=
  match t.link with
  | some rules => getRuleTreeOffsetForRuleList rules (addRules rules 0) state
  | none => return (unionLink, state)

variable {P : LuaTable → Prop}

theorem cases_fields (actions : ∀ ident rule as rs ts, P ⟨ident, rule, some as, rs, ts⟩)
    (rules : ∀ ident rule rs ts, P ⟨ident, rule, none, some rs, ts⟩)
    (thenActions : ∀ ident rule ts, P ⟨ident, rule, none, none, some ts⟩)
    (nothing : ∀ ident rule, P ⟨ident, rule, none, none, none⟩) (t : LuaTable) : P t := by
  obtain ⟨ident, rule, as, rs, ts⟩ := t
  cases as with
  | some as => exact actions ident rule as rs ts
  | none =>
    cases rs with
    | some rs => exact rules ident rule rs ts
    | none =>
      cases ts with
      | some ts => exact thenActions ident rule ts
      | none => exact nothing ident rule

theorem addOneRule_eq (t : LuaTable) (state : LoaderState) :
    addOneRule t state = getRuleTreeOffsetForUnionDirList t.rule.unionDirs >>= fun unionLink =>
      t.linkProgram unionLink state >>= finishRule t.rule t.hasActions t.hasRules := by
  cases t using cases_fields <;> rfl

/-- The meaning of what is behind a rule. -/
def unfoldLink (t : LuaTable) : List Unfolded :=
  match t.link with
  | some rules => unfoldList rules
  | none => t.rule.unionDirs.map .text

theorem unfold_eq (t : LuaTable) :
    t.unfold = t.rule.unfoldWith t.hasActions t.hasRules t.unfoldLink := by
  cases t using cases_fields <;> rfl

theorem seenAfter_eq (t : LuaTable) (seen : Seen) :
    t.seenAfter seen = t.link.elim seen fun rules =>
      seenAfterLink rules (seenAfterList rules) seen := by
  cases t using cases_fields <;> rfl

theorem agrees_eq (t : LuaTable) (seen : Seen) :
    t.Agrees seen = t.link.elim True fun rules => LinkAgrees rules (ListAgrees rules) seen := by
  cases t using cases_fields <;> rfl

theorem sizeOf_link {t : LuaTable} {rules : List LuaTable} (h : t.link = some rules) :
    sizeOf rules < sizeOf t := by
  cases t using cases_fields <;> cases h <;>
    simp only [LuaTable.mk.sizeOf_spec, Option.some.sizeOf_spec] <;> omega

theorem induct (table : ∀ t, (∀ rules, t.link = some rules → ∀ r ∈ rules, P r) → P t)
    (t : LuaTable) : P t := by
  induction hsize : sizeOf t using Nat.strongRecOn generalizing t with
  | ind size ih =>
    refine table t fun rules hlink r hr => ih (sizeOf r) ?_ r rfl
    rw [← hsize]
    exact Nat.lt_trans (List.sizeOf_lt_of_mem hr) (sizeOf_link hlink)

end LuaTable

end Scratchbox
