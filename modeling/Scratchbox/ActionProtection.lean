import Scratchbox.RuleTables
import Scratchbox.EngineFacts
import Scratchbox.RuleAgreement

/-!
# Protections of conditional actions

`ruletree_translate_path` reads the flags of the rule that was selected, and the loop over its
actions passes them on. The flags of the action that is applied (`AppliedAction`) are never read,
although the loader stores them. So its protection holds exactly if the rule with the list of
actions has a protection of its own (`applied_protection_iff`).
-/

namespace Scratchbox

open CallTree

/-! ## The action that is applied -/

/-- The list of tables that is stored for a table: one of `actions`, `rules` and
`then_actions`. -/
def LuaRule.linkedList : LuaRule → List LuaRule
  | ⟨_, some actions, _, _⟩ => actions
  | ⟨_, none, some rules, _⟩ => rules
  | ⟨_, none, none, some thenActions⟩ => thenActions
  | ⟨_, none, none, none⟩ => []

theorem sizeOf_linkedList (rule : LuaRule) : sizeOf rule.linkedList < 1 + sizeOf rule := by
  obtain ⟨table, actions, rules, thenActions⟩ := rule
  rcases actions with - | actions
  · rcases rules with - | rules
    · rcases thenActions with - | thenActions
      · simp [LuaRule.linkedList]
      · simp [LuaRule.linkedList]
        omega
    · simp [LuaRule.linkedList]
      omega
  · simp [LuaRule.linkedList]
    omega

variable {rule : LuaRule}

theorem linkedList_of_actions {actions : List LuaRule}
    (h : rule.actions = some actions) : rule.linkedList = actions := by
  obtain ⟨table, actions', rules, thenActions⟩ := rule
  obtain rfl : actions' = some actions := h
  rfl

/-- `AppliedAction host path flags selector actions member result` means that among the
tables `actions`, and the tables of the `then_actions` they lead to, `member` is the one
that gives the result for the path. `selector` is the rule that was selected and `flags`
are its flags. -/
inductive AppliedAction (host : Host) (path : CStr) (flags : RuleFlags) :
    FsRule → List LuaRule → LuaRule → ActionResult → Prop
  | notStored {selector : FsRule} {rule member : LuaRule} {actions : List LuaRule}
      {result : ActionResult} :
      addOneRuleToRuleTree rule = none →
      AppliedAction host path flags selector actions member result →
      AppliedAction host path flags selector (rule :: actions) member result
  | passed {selector action : FsRule} {rule member : LuaRule} {actions : List LuaRule}
      {result : ActionResult} :
      addOneRuleToRuleTree rule = some action →
      executeConditionalAction host selector path flags action = .ok none →
      AppliedAction host path flags selector actions member result →
      AppliedAction host path flags selector (rule :: actions) member result
  | here {selector action : FsRule} {rule : LuaRule} {actions : List LuaRule}
      {result : ActionResult} :
      addOneRuleToRuleTree rule = some action →
      action.conditionType ≠ some .ifExistsIn →
      executeConditionalAction host selector path flags action = .ok (some result) →
      AppliedAction host path flags selector (rule :: actions) rule result
  | nested {selector action : FsRule} {rule member : LuaRule} {actions : List LuaRule}
      {result : ActionResult} :
      addOneRuleToRuleTree rule = some action →
      action.conditionType = some .ifExistsIn →
      ifExistsIn host action.toFsRuleFields path = .ok true →
      action.ruleListLink ≠ [] →
      AppliedAction host path flags { selector with ruleListLink := action.ruleListLink }
        rule.linkedList member result →
      AppliedAction host path flags selector (rule :: actions) member result

theorem addOneRule_some {fsRule : FsRule} (h : addOneRuleToRuleTree rule = some fsRule) :
    fsRule.flags = rule.flagsOf ∧ fsRule.ruleListLink = addListOfRules rule.linkedList ∧
      fsRule.ruleOffs ≠ 0 := by
  have hstore : ∀ {table : RuleTable} {hasActions hasRules : Bool} {link : Option (List FsRule)},
      table.store hasActions hasRules link = some fsRule →
      fsRule.flags = table.flagsOf ∧ fsRule.ruleListLink = link.getD [] ∧
        fsRule.ruleOffs ≠ 0 := by
    intro table hasActions hasRules link hs
    obtain ⟨stored, -, rfl⟩ := Option.map_eq_some_iff.1 hs
    exact ⟨rfl, rfl, Nat.one_ne_zero⟩
  obtain ⟨table, actions, rules, thenActions⟩ := rule
  unfold addOneRuleToRuleTree at h
  split at h
  · exact hstore h
  · exact hstore h
  · exact hstore h
  · exact hstore h

section Execution

variable {host : Host} {path : CStr} {flags : RuleFlags} {selector action : FsRule}
  {member : LuaRule} {actions : List LuaRule} {result : ActionResult} {fields : FsRuleFields}

/-- Induction on a list of actions, together with the lists that they lead to. -/
theorem FsRule.listInduct {P : List FsRule → Prop} (nil : P [])
    (cons : ∀ action actions, P action.ruleListLink → P actions → P (action :: actions))
    (actions : List FsRule) : P actions := by
  induction hsize : sizeOf actions using Nat.strongRecOn generalizing actions with
  | ind size ih =>
    subst hsize
    cases actions with
    | nil => exact nil
    | cons action actions =>
      refine cons action actions (ih _ ?_ _ rfl) (ih _ ?_ _ rfl)
      · obtain ⟨fields, link⟩ := action
        rw [List.cons.sizeOf_spec, FsRule.mk.sizeOf_spec]
        dsimp only
        omega
      · rw [List.cons.sizeOf_spec]
        omega

theorem executeActionList_cons (action : FsRule) (actions : List FsRule) :
    executeActionList host selector path flags (action :: actions) =
      (executeConditionalAction host selector path flags action >>= fun r =>
        match r with
        | some result => pure result
        | none => executeActionList host selector path flags actions) :=
  executeActionList.eq_2 host selector path flags action actions

theorem executeConditionalAction_empty (hoffs : action.ruleOffs = 0) :
    executeConditionalAction host selector path flags action = .ok none := by
  obtain ⟨fields, link⟩ := action
  rw [executeConditionalAction.eq_def]
  exact if_pos hoffs

theorem executeConditionalAction_ifExistsIn (hoffs : action.ruleOffs ≠ 0)
    (hcond : action.conditionType = some .ifExistsIn) :
    executeConditionalAction host selector path flags action =
      (ifExistsIn host action.toFsRuleFields path >>= fun found =>
        if found ∧ action.ruleListLink ≠ [] then do
          let result ← executeActionList host { selector with ruleListLink := action.ruleListLink }
            path flags action.ruleListLink
          pure (some result)
        else pure none) := by
  obtain ⟨fields, link⟩ := action
  rw [executeConditionalAction.eq_def]
  simp only at hcond hoffs
  simp only [hcond, hoffs, if_false]
  congr 1
  funext found
  cases found with
  | false => rfl
  | true =>
    cases link with
    | nil => rfl
    | cons a as => simp

/-- Another candidate is executed itself, or passed because its condition fails. -/
theorem executeConditionalAction_other (hcond : action.conditionType ≠ some .ifExistsIn) :
    executeConditionalAction host selector path flags action = .ok none ∨
      executeConditionalAction host selector path flags action =
        executeCandidate host selector action.toFsRuleFields path flags := by
  obtain ⟨fields, link⟩ := action
  rw [executeConditionalAction.eq_def]
  dsimp only
  split
  · exact .inl rfl
  · split
    · rename_i h
      exact absurd h hcond
    · split
      · exact .inr rfl
      · exact .inl rfl
    · exact .inr rfl

theorem executeConditionalAction_applied (hcond : action.conditionType ≠ some .ifExistsIn)
    (h : executeConditionalAction host selector path flags action = .ok (some result)) :
    executeCandidate host selector action.toFsRuleFields path flags = .ok (some result) := by
  rcases executeConditionalAction_other hcond with hnone | hcandidate
  · rw [hnone] at h
    cases h
  · rw [← hcandidate, h]

theorem AppliedAction.stored_ne_nil
    (h : AppliedAction host path flags selector actions member result) :
    addListOfRules actions ≠ [] := by
  cases h <;> rw [addListOfRules] <;> exact List.cons_ne_nil _ _

/-- The loop returns what the applied member gives. -/
theorem AppliedAction.execute (h : AppliedAction host path flags selector actions member result) :
    executeActionList host selector path flags (addListOfRules actions) = .ok result := by
  induction h with
  | notStored hload _ ih =>
    rw [addListOfRules, hload, executeActionList_cons, Option.getD_none,
      executeConditionalAction_empty rfl]
    exact ih
  | passed hload hnone _ ih =>
    rw [addListOfRules, hload, executeActionList_cons, Option.getD_some, hnone]
    exact ih
  | here hload _ hsome =>
    rw [addListOfRules, hload, executeActionList_cons, Option.getD_some, hsome]
    rfl
  | nested hload hcond hexists hlink _ ih =>
    obtain ⟨-, hlist, hoffs⟩ := addOneRule_some hload
    rw [← hlist] at ih
    rw [addListOfRules, hload, executeActionList_cons, Option.getD_some,
      executeConditionalAction_ifExistsIn hoffs hcond, hexists]
    show (if true = true ∧ _ then _ else _) >>= _ = _
    rw [if_pos ⟨rfl, hlink⟩, ih]
    rfl

theorem executeRule_conditional (htype : selector.actionType = .conditionalActions)
    (hlink : selector.ruleListLink = addListOfRules actions)
    (h : AppliedAction host path selector.flags selector actions member result) :
    executeRule host selector path = .ok result := by
  have hne : addListOfRules actions ≠ [] := h.stored_ne_nil
  rw [executeRule, if_pos htype, ruletreeExecuteConditionalActions, hlink, ← h.execute]
  split
  · rename_i hnil
    exact absurd hnil hne
  · rfl

/-- Whatever path the loop returns, some member was applied. -/
theorem exists_appliedAction (selector : FsRule) (actions : List LuaRule)
    (h : executeActionList host selector path flags (addListOfRules actions) = .ok result)
    (hpath : result.path.isSome) :
    ∃ member, AppliedAction host path flags selector actions member result := by
  match actions with
  | [] =>
    rw [addListOfRules, executeActionList] at h
    cases h
    cases hpath
  | rule :: actions =>
    cases hload : addOneRuleToRuleTree rule with
    | none =>
      rw [addListOfRules, hload, executeActionList_cons, Option.getD_none,
        executeConditionalAction_empty rfl] at h
      obtain ⟨member, hmember⟩ := exists_appliedAction selector actions h hpath
      exact ⟨member, .notStored hload hmember⟩
    | some action =>
      obtain ⟨-, hstored, hoffs⟩ := addOneRule_some hload
      rw [addListOfRules, hload, executeActionList_cons, Option.getD_some] at h
      obtain ⟨r, hr, h⟩ := Except.bind_eq_ok_iff.1 h
      cases r with
      | none =>
        obtain ⟨member, hmember⟩ := exists_appliedAction selector actions h hpath
        exact ⟨member, .passed hload hr hmember⟩
      | some result' =>
        cases h
        rcases eq_or_ne action.conditionType (some .ifExistsIn) with hcond | hcond
        · rw [executeConditionalAction_ifExistsIn hoffs hcond] at hr
          obtain ⟨found, hfound, hr⟩ := Except.bind_eq_ok_iff.1 hr
          split at hr
          · rename_i htrue
            obtain ⟨result'', hnested, hr⟩ := Except.bind_eq_ok_iff.1 hr
            cases hr
            -- the list behind the candidate is searched in the same way
            have hlist := hnested
            rw [hstored] at hlist
            obtain ⟨member, hmember⟩ := exists_appliedAction _ rule.linkedList hlist hpath
            rw [← hstored] at hmember
            rw [htrue.1] at hfound
            exact ⟨member, .nested hload hcond hfound htrue.2 hmember⟩
          · cases hr
        · exact ⟨rule, .here hload hcond hr⟩
termination_by sizeOf actions
decreasing_by
  · rw [List.cons.sizeOf_spec]
    omega
  · rw [List.cons.sizeOf_spec]
    omega
  · have := sizeOf_linkedList rule
    rw [List.cons.sizeOf_spec]
    omega

/-! ## The flags of the result -/

/-- A standard action leaves no message and only adds the flags that force the original
path. -/
theorem executeStdAction_cases (h : executeStdAction host selector fields path flags = .ok result) :
    result.errormsg = none ∧
      (result.flags = flags ∨ result.flags = { flags with forceOrigPath := true } ∨
        result.flags = { flags with forceOrigPathUnlessChroot := true }) := by
  have hreplace : ∀ {x : Except Fault (Option CStr)},
      (do
        let newPath ← x
        pure { path := newPath, flags } : Except Fault ActionResult) = .ok result →
      result.errormsg = none ∧
        (result.flags = flags ∨ result.flags = { flags with forceOrigPath := true } ∨
          result.flags = { flags with forceOrigPathUnlessChroot := true }) := by
    intro x hx
    obtain ⟨newPath, -, hx⟩ := Except.bind_eq_ok_iff.1 hx
    cases hx
    exact ⟨rfl, .inl rfl⟩
  unfold executeStdAction at h
  split at h
  case h_2 =>
    cases h
    exact ⟨rfl, .inr (.inl rfl)⟩
  case h_3 =>
    cases h
    exact ⟨rfl, .inr (.inr rfl)⟩
  case h_5 => exact hreplace h
  case h_6 =>
    split at h
    · cases h
    · cases h
      exact ⟨rfl, .inl rfl⟩
  case h_7 =>
    split at h
    · cases h
    · cases h
      exact ⟨rfl, .inl rfl⟩
  case h_8 =>
    split at h
    · cases h
    · exact hreplace h
  case h_10 =>
    dsimp only at h
    split at h
    · cases h
      exact ⟨rfl, .inl rfl⟩
    · cases h
      exact ⟨rfl, .inl rfl⟩
  all_goals
    cases h
    exact ⟨rfl, .inl rfl⟩

theorem executeStdAction_readonly
    (h : executeStdAction host selector fields path flags = .ok result) :
    readonlyFromFlags host result.flags = readonlyFromFlags host flags := by
  rcases (executeStdAction_cases h).2 with heq | heq | heq
  · rw [heq]
  · rw [heq]
    rfl
  · rw [heq]
    rfl

/-- A candidate that is applied gives a path that exists, is a standard action, or is not
known. -/
theorem executeCandidate_cases
    (h : executeCandidate host selector fields path flags = .ok (some result)) :
    (∃ p, result = { path := some p, flags }) ∨
      executeStdAction host selector fields path flags = .ok result ∨
      ∃ errormsg, result = ⟨none, flags, some errormsg⟩ := by
  have hexists : ∀ {x : Except Fault (Option CStr)},
      (do
        let r ← x
        pure (r.map fun p => { path := some p, flags }) : Except Fault (Option ActionResult)) =
        .ok (some result) → ∃ p, result = { path := some p, flags } := by
    intro x hx
    obtain ⟨r, -, hx⟩ := Except.bind_eq_ok_iff.1 hx
    obtain ⟨p, -, rfl⟩ := Option.map_eq_some_iff.1 (Except.ok.inj hx)
    exact ⟨p, rfl⟩
  unfold executeCandidate at h
  split at h
  · exact .inl (hexists h)
  · exact .inl (hexists h)
  · split at h
    · obtain ⟨r, hr, h⟩ := Except.bind_eq_ok_iff.1 h
      cases h
      exact .inr (.inl hr)
    · cases h
      exact .inr (.inr ⟨_, rfl⟩)

theorem executeCandidate_readonly
    (h : executeCandidate host selector fields path flags = .ok (some result)) :
    readonlyFromFlags host result.flags = readonlyFromFlags host flags := by
  rcases executeCandidate_cases h with ⟨p, rfl⟩ | hstd | ⟨errormsg, rfl⟩
  · rfl
  · exact executeStdAction_readonly hstd
  · rfl

/-- The result has the protection of the selected rule, whatever the applied member
says. -/
theorem AppliedAction.readonly (h : AppliedAction host path flags selector actions member result) :
    readonlyFromFlags host result.flags = readonlyFromFlags host flags := by
  induction h with
  | notStored _ _ ih => exact ih
  | passed _ _ _ ih => exact ih
  | here _ hcond hsome =>
    exact executeCandidate_readonly (executeConditionalAction_applied hcond hsome)
  | nested _ _ _ _ _ ih => exact ih

end Execution

/-! ## The mapping result -/

def RuleTable.CarriesProtection (host : Host) (table : RuleTable) : Prop :=
  table.readonly = true ∨ table.protection = some .readonlyFsAlways ∨
    table.protection = some .readonlyFsIfNotRoot ∧ host.euidIsRoot = false

/-- The protection of a rule that is applied itself: `readonly` is not looked at if the
rule protects against users other than root. -/
def RuleTable.MarksReadonly (host : Host) (table : RuleTable) : Prop :=
  table.protection = some .readonlyFsAlways ∨
    table.protection = some .readonlyFsIfNotRoot ∧ host.euidIsRoot = false ∨
    table.protection = none ∧ table.readonly = true

theorem readonlyFromFlags_flagsOf (host : Host) (table : RuleTable) :
    readonlyFromFlags host table.flagsOf = true ↔ table.MarksReadonly host := by
  unfold readonlyFromFlags RuleTable.flagsOf RuleTable.MarksReadonly
  rcases table.protection with - | _ | _
  · simp
  · simp
  · simp

/-- The engine resolves the path to `path`, which is to be translated by `rule`. -/
inductive TranslatedBy (session : Session) (ctx : PathMappingContext) (target : PathToMap)
    (rule : FsRule) (path : CStr) : Prop
  | resolved {es es' : List Event} {list : PathEntryList} {answer : Answer} :
      Yields (resolutionBody session) (cleanVirtualPath ctx target.list) es (.ok list) →
      list.plFlags.absolute = true →
      Answers (resolutionBody session) ⟨ctx, list⟩ es' answer →
      answer.rule = some rule → answer.res.mresErrormsg = none →
      answer.res.mresErrno = none → answer.res.mresResultPath = some path →
      TranslatedBy session ctx target rule path

section Mapping

variable {session : Session} {ctx : PathMappingContext} {target : PathToMap} {exec : Bool}
  {es : List Event} {res : MappingResults} {fsRule : FsRule} {path : CStr}

theorem withResultPath_readonly (res : MappingResults) :
    (target.withResultPath exec res).mresReadonly = res.mresReadonly ∧
      (target.withResultPath exec res).mresErrormsg = res.mresErrormsg := by
  unfold PathToMap.withResultPath
  split
  · split
    · exact ⟨rfl, rfl⟩
    · exact ⟨rfl, rfl⟩
  · exact ⟨rfl, rfl⟩

/-- A mapping result is marked by the flags that the action of the rule returns. -/
theorem TranslatedBy.readonly (htranslated : TranslatedBy session ctx target fsRule path)
    (hrun : Yields (resolutionBody session) (mapPathList session ctx target exec) es res)
    (hmapped : res.mresErrormsg = none) :
    ∃ result, executeRule session.host fsRule path = .ok result ∧
      res.mresReadonly = readonlyFromFlags session.host result.flags := by
  obtain ⟨hclean, habs, hanswer, hrule, herrormsg, herrno, hpath⟩ := htranslated
  unfold mapPathList at hrun
  obtain ⟨es₁, r, es₂, hclean', hrun, -⟩ := yields_bind.1 hrun
  obtain ⟨-, rfl⟩ := hclean.unique hclean'
  simp only [habs, Bool.not_true, Bool.false_eq_true, if_false] at hrun
  obtain ⟨es₃, answer', es₄, hask, hrun, -⟩ := yields_bind.1 hrun
  obtain ⟨es₅, a, es₆, hanswer', hret, -⟩ := yields_call.1 hask
  obtain ⟨-, rfl⟩ := yields_ret.1 hret
  obtain ⟨-, rfl⟩ := hanswer.unique hanswer'
  obtain ⟨es₇, res', es₈, hres, hret, -⟩ := yields_bind.1 hrun
  obtain ⟨-, rfl⟩ := yields_ret.1 hret
  obtain ⟨-, hres⟩ := yields_ofExcept.1 hres
  rw [(withResultPath_readonly res').2] at hmapped
  rw [(withResultPath_readonly res').1]
  simp only [mapResolvedPath, herrormsg, herrno, hpath, hrule] at hres
  obtain ⟨t, ht, hres⟩ := Except.bind_eq_ok_iff.1 hres
  obtain ⟨result, hresult, hflags⟩ := ruletreeTranslatePath_flags ht
  refine ⟨result, hresult, ?_⟩
  split at hres
  · cases hres
    cases hmapped
  · cases hres
    rw [← hflags]

/-- `rule` has a list of actions, and `member` of this list, or of the `then_actions`
in it, is the action that is applied to the path. -/
def LuaRule.Applies (host : Host) (rule member : LuaRule) (path : CStr) : Prop :=
  ∃ fsRule actions result, rule.actions = some actions ∧
    addOneRuleToRuleTree rule = some fsRule ∧ fsRule.actionType = .conditionalActions ∧
    AppliedAction host path fsRule.flags fsRule actions member result

/-- The protection of the applied action is respected exactly if the rule with the list
of actions has a protection of its own. -/
theorem applied_protection_iff {rule member : LuaRule}
    (hload : addOneRuleToRuleTree rule = some fsRule)
    (happlies : rule.Applies session.host member path)
    (htranslated : TranslatedBy session ctx target fsRule path)
    (hrun : Yields (resolutionBody session) (mapPathList session ctx target exec) es res)
    (hmapped : res.mresErrormsg = none) :
    (member.CarriesProtection session.host → res.mresReadonly = true) ↔
      (member.CarriesProtection session.host → rule.MarksReadonly session.host) := by
  obtain ⟨fsRule', actions, result, hactions, hload', htype, happlied⟩ := happlies
  rw [hload] at hload'
  cases hload'
  obtain ⟨result', hexecute, hreadonly⟩ := htranslated.readonly hrun hmapped
  obtain ⟨hflags, hlink, -⟩ := addOneRule_some hload
  rw [linkedList_of_actions hactions] at hlink
  have hresult : readonlyFromFlags session.host result'.flags =
      readonlyFromFlags session.host fsRule.flags := by
    rw [executeRule_conditional htype hlink happlied] at hexecute
    cases hexecute
    exact happlied.readonly
  rw [hreadonly, hresult, hflags, readonlyFromFlags_flagsOf]

end Mapping

/-! ## Examples of both -/

def readonlyAction : LuaRule := { useOrigPath := true, readonly := true }

/-- A rule with one action, which is protected; the rule may be protected, too. -/
def actionRule (protection : Option Protection) : LuaRule :=
  { selDir := some "/a".toList, protection, actions := some [readonlyAction] }

def actionSession (protection : Option Protection) : Session :=
  { linkSession [] none with fwdRules := addListOfRules [actionRule protection] }

def storedActionRule (protection : Option Protection) : FsRule :=
  { ruleOffs := 1, selectorType := some .selDir, selector := some "/a".toList
    actionType := .conditionalActions
    flags := (actionRule protection).flagsOf
    ruleListLink := addListOfRules [readonlyAction] }

def pathAX : PathToMap := { list := splitPathToPathList "/a/x".toList, sb2ctx := {} }

theorem actionRule_applies (protection : Option Protection) :
    (actionRule protection).Applies (actionSession protection).host readonlyAction
      "/a/x".toList :=
  ⟨storedActionRule protection, [readonlyAction], _, rfl, rfl, rfl,
    .here rfl (by decide) rfl⟩

theorem translatedBy_actionRule (protection : Option Protection) :
    TranslatedBy (actionSession protection) exampleContext pathAX (storedActionRule protection)
      "/a/x".toList := by
  obtain ⟨es, hanswer⟩ : ∃ es, Answers (resolutionBody (actionSession protection))
      ⟨exampleContext, pathAX.list⟩ es
      (pathAnswer (storedActionRule protection) "/a/x".toList) := by
    apply exists_answers
    cases protection with
    | none => decide +kernel
    | some p =>
      cases p with
      | readonlyFsIfNotRoot => decide +kernel
      | readonlyFsAlways => decide +kernel
  have hclean : Yields (resolutionBody (actionSession protection))
      (cleanVirtualPath exampleContext pathAX.list) [] (.ok pathAX.list) := by
    rw [cleanVirtualPath_plain _ (by decide)]
    exact yields_ret.2 ⟨rfl, rfl⟩
  exact .resolved hclean rfl hanswer rfl rfl rfl rfl

/-- A rule that is always protected: the protection of its action is respected. -/
theorem applied_protection_kept : ∃ es res,
    Yields (resolutionBody (actionSession (some .readonlyFsAlways)))
      (mapPathList (actionSession (some .readonlyFsAlways)) exampleContext pathAX false) es res ∧
    readonlyAction.CarriesProtection (actionSession (some .readonlyFsAlways)).host ∧
    res.mresReadonly = true := by
  obtain ⟨es, res, hrun, hmapped⟩ := exists_of_runEnds
    (show runEnds (actionSession (some .readonlyFsAlways))
      (mapPathList (actionSession (some .readonlyFsAlways)) exampleContext pathAX false)
      (fun _ res => res.mresErrormsg = none) by decide +kernel)
  have hcarries : readonlyAction.CarriesProtection (actionSession (some .readonlyFsAlways)).host :=
    .inl rfl
  have hrespected := (applied_protection_iff rfl (actionRule_applies _)
    (translatedBy_actionRule _) hrun (of_decide_eq_true hmapped)).2 fun _ => .inl rfl
  exact ⟨es, res, hrun, hcarries, hrespected hcarries⟩

/-- A rule without a protection: the result of its read-only action is not marked. -/
theorem applied_protection_lost : ∃ es res,
    addOneRuleToRuleTree (actionRule none) = some (storedActionRule none) ∧
    (actionRule none).Applies (actionSession none).host readonlyAction "/a/x".toList ∧
    TranslatedBy (actionSession none) exampleContext pathAX (storedActionRule none)
      "/a/x".toList ∧
    Yields (resolutionBody (actionSession none))
      (mapPathList (actionSession none) exampleContext pathAX false) es res ∧
    res.mresResultPath = some "/a/x".toList ∧ res.mresErrormsg = none ∧
    readonlyAction.CarriesProtection (actionSession none).host ∧ res.mresReadonly = false := by
  obtain ⟨es, res, hrun, hcheck⟩ := exists_of_runEnds
    (show runEnds (actionSession none)
      (mapPathList (actionSession none) exampleContext pathAX false)
      (fun _ res => res.mresResultPath = some "/a/x".toList ∧ res.mresErrormsg = none ∧
        res.mresReadonly = false) by decide +kernel)
  obtain ⟨hpath, herrormsg, hreadonly⟩ := of_decide_eq_true hcheck
  exact ⟨es, res, rfl, actionRule_applies none, translatedBy_actionRule none, hrun, hpath,
    herrormsg, .inl rfl, hreadonly⟩

end Scratchbox
