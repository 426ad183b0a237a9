import Scratchbox.ActionProtection
import Scratchbox.DotdotEval
import Scratchbox.HostCleaning
import Scratchbox.PathTexts
import Scratchbox.ResolutionFacts

/-!
# Errors of the translation

`ruletree_translate_path` has two ways to say that it failed: it returns NULL, and it sets
`errormsg`. A relative path made by an action is dropped without a message, so that the two
do not always agree; `translation_signalled_iff` says when they do, and
`relative_result_unsignalled` is a rule for which they do not.

A path that is returned is absolute, without `.`, `..` and repeated slashes
(`cleanAndLogFsMappingResult_cleanText`).
-/

namespace Scratchbox

open List Component

variable {host : Host} {path : CStr} {flags : RuleFlags} {selector : FsRule}
  {result : ActionResult} {p : CStr}

/-! ## What actions have to give -/

section Conditions

variable (host : Host) (path : CStr)

/-- The path in another directory, unless that is `/`. -/
def inDirectory (dir : CStr) : CStr := if dir = ['/'] then path else dir ++ path

/-- `replace_by`: the selector is exchanged at the beginning of the path, or there is nothing
to exchange. -/
def Replaces (usable : CStr → Prop) (missing : Prop) (selector : FsRuleFields)
    (replacement : Option CStr) : Prop :=
  match selector.selectorType, selector.selector with
  | none, _ => missing
  | some _, none => False
  | some .selPath, some s => if path = s then ∃ r, replacement = some r ∧ usable r else missing
  | some _, some s =>
    s.length ≤ path.length ∧ usable (printfString replacement ++ path.drop s.length)

variable (usable : CStr → Prop)

/-- `map_to`: without a target the path stays. -/
def MapsInto (target : Option CStr) : Prop :=
  usable (if target.getD [] = [] then path else inDirectory path (target.getD []))

/-- A standard action gives a usable path, or none. -/
def ActionUsable (selector : FsRule) (action : FsRuleFields) : Prop :=
  match action.actionType with
  | .useOrigPath | .forceOrigPath | .forceOrigPathUnlessChroot => usable path
  | .mapTo => MapsInto path usable action.actionStr
  | .replaceBy => Replaces path usable True selector.toFsRuleFields action.actionStr
  | .setPath => ∃ text, action.actionStr = some text ∧ usable text
  | .mapToValueOfEnvVar => ∃ name, action.actionStr = some name ∧
      MapsInto path usable (host.getenv name)
  | .replaceByValueOfEnvVar => ∃ name, action.actionStr = some name ∧
      Replaces path usable True selector.toFsRuleFields (host.getenv name)
  | .procfs => usable ((host.procfsMappingRequest path).getD path)
  | .unionDir => unionDirSources selector = [] ∨
      ∀ text, host.prepUnionDir path (unionDirSources selector) = some text → usable text
  | .fallbackToOldMappingEngine | .conditionalActions | .subtree | .ifExistsThenMapTo
  | .ifExistsThenReplaceBy | .ifExistsIn => True

/-- The same for a candidate whose condition holds; `next` is for the candidates behind it. -/
def CandidateUsable (selector : FsRule) (next : Prop) (action : FsRuleFields) : Prop :=
  match action.actionType with
  | .ifExistsThenMapTo => ∃ dir, action.actionStr = some dir ∧
      if host.pathExists (inDirectory path dir) then usable (inDirectory path dir) else next
  | .ifExistsThenReplaceBy =>
    Replaces path (fun text => if host.pathExists text then usable text else next) next
      selector.toFsRuleFields action.actionStr
  | _ => ActionUsable host path usable selector action

mutual

def ListUsable (selector : FsRule) : List FsRule → Prop
  | [] => True
  | action :: actions => OneUsable selector (ListUsable selector actions) action

def OneUsable (selector : FsRule) (next : Prop) : FsRule → Prop
  | ⟨action, thenActions⟩ =>
    if action.ruleOffs = 0 then next
    else
      match action.conditionType with
      | some .ifExistsIn => ∃ dir, action.actionStr = some dir ∧
          if host.pathExists (inDirectory path dir) ∧ thenActions ≠ [] then
            ListUsable { selector with ruleListLink := thenActions } thenActions
          else next
      | some cond =>
        if conditionHolds host cond action.conditionStr then
          CandidateUsable host path usable selector next action
        else next
      | none => CandidateUsable host path usable selector next action

end

def RuleUsable (rule : FsRule) : Prop :=
  if rule.actionType = .conditionalActions then
    ListUsable host path usable rule rule.ruleListLink
  else ActionUsable host path usable rule rule.toFsRuleFields

end Conditions

variable {usable : CStr → Prop} {missing next : Prop} {action : FsRuleFields}

/-- The result of an action has a usable path, or none. -/
def ActionResult.Usable (usable : CStr → Prop) (result : ActionResult) : Prop :=
  ∀ p, result.path = some p → usable p

theorem replaces_iff {rule : FsRuleFields} {replacement : Option CStr} :
    (∃ r, ruletreeExecuteReplaceRule path replacement rule = .ok r ∧ r.elim missing usable) ↔
      Replaces path usable missing rule replacement := by
  unfold ruletreeExecuteReplaceRule Replaces
  cases rule.selectorType with
  | none => simp
  | some selectorType =>
    cases rule.selector with
    | none => cases selectorType <;> simp
    | some s =>
      cases selectorType with
      | selPath =>
        by_cases hpath : path = s
        · cases replacement <;> simp [hpath]
        · simp [hpath]
      | selPrefix => by_cases hlen : path.length < s.length <;> simp [hlen, Nat.not_lt.1]
      | selDir => by_cases hlen : path.length < s.length <;> simp [hlen, Nat.not_lt.1]

theorem executeMapTo_inDirectory (target : Option CStr) :
    executeMapTo path target =
      if target.getD [] = [] then path else inDirectory path (target.getD []) := by
  cases target with
  | none => rfl
  | some t =>
    unfold executeMapTo inDirectory
    by_cases hnil : t = []
    · simp [hnil]
    · simp [hnil]

theorem executeStdAction_usable :
    (∃ result, executeStdAction host selector action path flags = .ok result ∧
      result.Usable usable) ↔ ActionUsable host path usable selector action := by
  have hreplace : ∀ replacement, (∃ result : ActionResult,
      (do
        let newPath ← ruletreeExecuteReplaceRule path replacement selector.toFsRuleFields
        pure { path := newPath, flags } : Except Fault ActionResult) = .ok result ∧
        result.Usable usable) ↔
      Replaces path usable True selector.toFsRuleFields replacement := by
    intro replacement
    rw [← replaces_iff]
    constructor
    · rintro ⟨result, hresult, husable⟩
      obtain ⟨r, hr, hresult⟩ := Except.bind_eq_ok_iff.1 hresult
      cases hresult
      refine ⟨r, hr, ?_⟩
      cases r with
      | none => trivial
      | some text => exact husable text rfl
    · rintro ⟨r, hr, husable⟩
      refine ⟨{ path := r, flags }, Except.bind_eq_ok_iff.2 ⟨r, hr, rfl⟩, fun text htext => ?_⟩
      cases htext
      exact husable
  unfold executeStdAction ActionUsable
  cases haction : action.actionType <;> simp only
  case mapTo => simp [ActionResult.Usable, MapsInto, executeMapTo_inDirectory]
  case replaceBy => exact hreplace _
  case setPath => cases action.actionStr <;> simp [ActionResult.Usable]
  case mapToValueOfEnvVar =>
    cases action.actionStr <;> simp [ActionResult.Usable, MapsInto, executeMapTo_inDirectory]
  case replaceByValueOfEnvVar =>
    cases action.actionStr with
    | none => simp
    | some name => simpa using hreplace (host.getenv name)
  case unionDir =>
    by_cases hnil : unionDirSources selector = []
    · simp [ActionResult.Usable, hnil]
    · simp [ActionResult.Usable, hnil]
  all_goals simp [ActionResult.Usable]

theorem ifExistsTestPath_some (dir : CStr) :
    ifExistsTestPath (some dir) path = .ok (inDirectory path dir) := rfl

theorem some_result_iff {x : Except Fault ActionResult} {P : ActionResult → Prop} :
    (∃ r, (do
      let result ← x
      pure (some result) : Except Fault (Option ActionResult)) = .ok r ∧ r.elim next P) ↔
      ∃ result, x = .ok result ∧ P result := by
  cases x with
  | error f => simp [bind, Except.bind]
  | ok result => simp [bind, Except.bind, pure, Except.pure]

theorem executeCandidate_usable :
    (∃ r, executeCandidate host selector action path flags = .ok r ∧
      r.elim next (ActionResult.Usable usable)) ↔
      CandidateUsable host path usable selector next action := by
  have hstd : (∃ r, (do
      let result ← executeStdAction host selector action path flags
      pure (some result) : Except Fault (Option ActionResult)) = .ok r ∧
        r.elim next (ActionResult.Usable usable)) ↔ ActionUsable host path usable selector action :=
    some_result_iff.trans executeStdAction_usable
  unfold executeCandidate CandidateUsable
  cases haction : action.actionType <;> simp only [ActionType.isStandard, if_true]
  case ifExistsThenMapTo =>
    unfold ifExistsThenMapTo
    cases action.actionStr with
    | none => simp [ifExistsTestPath, bind, Except.bind]
    | some dir =>
      by_cases hexists : host.pathExists (inDirectory path dir) = true
      · simp [ifExistsTestPath_some, hexists, ActionResult.Usable, bind, Except.bind, pure,
          Except.pure]
      · simp [ifExistsTestPath_some, hexists, bind, Except.bind, pure, Except.pure]
  case ifExistsThenReplaceBy =>
    unfold ifExistsThenReplaceBy
    rw [← replaces_iff]
    cases hreplace : ruletreeExecuteReplaceRule path action.actionStr selector.toFsRuleFields with
    | error f => simp [bind, Except.bind]
    | ok r =>
      cases r with
      | none => simp [bind, Except.bind, pure, Except.pure]
      | some text =>
        by_cases hexists : host.pathExists text = true
        · simp [Option.filter, hexists, ActionResult.Usable, bind, Except.bind, pure, Except.pure]
        · simp [Option.filter, hexists, bind, Except.bind, pure, Except.pure]
  case fallbackToOldMappingEngine => simp [ActionUsable, haction, ActionResult.Usable]
  case conditionalActions => simp [ActionUsable, haction, ActionResult.Usable]
  case subtree => simp [ActionUsable, haction, ActionResult.Usable]
  case ifExistsIn => simp [ActionUsable, haction, ActionResult.Usable]
  all_goals exact hstd

theorem executeActionList_usable (selector : FsRule) (actions : List FsRule) :
    (∃ result, executeActionList host selector path flags actions = .ok result ∧
      result.Usable usable) ↔ ListUsable host path usable selector actions := by
  induction actions using FsRule.listInduct generalizing selector with
  | nil => simp [executeActionList, ListUsable, ActionResult.Usable]
  | cons action actions ihlink ih =>
    have hnext : (∃ result, executeActionList host selector path flags (action :: actions) =
        .ok result ∧ result.Usable usable) ↔
        ∃ r, executeConditionalAction host selector path flags action = .ok r ∧
          r.elim (ListUsable host path usable selector actions) (ActionResult.Usable usable) := by
      rw [executeActionList_cons]
      constructor
      · rintro ⟨result, hresult, husable⟩
        obtain ⟨r, hr, hresult⟩ := Except.bind_eq_ok_iff.1 hresult
        refine ⟨r, hr, ?_⟩
        cases r with
        | none => exact (ih selector).1 ⟨result, hresult, husable⟩
        | some result' =>
          cases hresult
          exact husable
      · rintro ⟨r, hr, husable⟩
        cases r with
        | none =>
          obtain ⟨result, hresult, husable⟩ := (ih selector).2 husable
          exact ⟨result, Except.bind_eq_ok_iff.2 ⟨none, hr, hresult⟩, husable⟩
        | some result => exact ⟨result, Except.bind_eq_ok_iff.2 ⟨some result, hr, rfl⟩, husable⟩
    rw [hnext, ListUsable]
    obtain ⟨action, link⟩ := action
    rw [OneUsable.eq_def]
    dsimp only
    by_cases hoffs : action.ruleOffs = 0
    · rw [executeConditionalAction_empty hoffs, if_pos hoffs]
      simp
    rw [if_neg hoffs]
    split
    · rename_i hcond
      rw [executeConditionalAction_ifExistsIn hoffs hcond, ifExistsIn]
      cases hstr : action.actionStr with
      | none => simp [ifExistsTestPath, bind, Except.bind]
      | some dir =>
        have hlink := ihlink { selector with ruleListLink := link }
        simp only [ifExistsTestPath_some, bind, Except.bind, pure, Except.pure, Option.some.injEq,
          exists_eq_left']
        by_cases hin : host.pathExists (inDirectory path dir) = true ∧ link ≠ []
        · rw [if_pos hin, if_pos hin, ← hlink]
          exact some_result_iff
        · rw [if_neg hin, if_neg hin]
          simp
    · rename_i cond hne hcond
      rw [executeConditionalAction.eq_def]
      simp only [hcond, hoffs, if_false]
      split
      · exact executeCandidate_usable
      · simp
    · rename_i hcond
      rw [executeConditionalAction.eq_def]
      simp only [hcond, hoffs, if_false]
      exact executeCandidate_usable

theorem executeRule_usable {rule : FsRule} :
    (∃ result, executeRule host rule path = .ok result ∧ result.Usable usable) ↔
      RuleUsable host path usable rule := by
  unfold executeRule RuleUsable
  split
  · unfold ruletreeExecuteConditionalActions
    cases hlink : rule.ruleListLink with
    | nil => simp [ListUsable, ActionResult.Usable]
    | cons a as => exact executeActionList_usable _ _
  · exact executeStdAction_usable

/-! ## Messages of actions -/

/-- An action leaves a message only if it gives no path. -/
def ActionResult.MessageOnFailure (result : ActionResult) : Prop :=
  result.errormsg = none ∨ result.path = none

theorem ActionResult.MessageOnFailure.of_path (h : result.MessageOnFailure)
    (hp : result.path = some p) : result.errormsg = none := by
  rcases h with h | h
  · exact h
  · rw [hp] at h
    cases h

theorem executeCandidate_message {action : FsRuleFields}
    (h : executeCandidate host selector action path flags = .ok (some result)) :
    result.MessageOnFailure := by
  rcases executeCandidate_cases h with ⟨p, rfl⟩ | hstd | ⟨errormsg, rfl⟩
  · exact .inl rfl
  · exact .inl (executeStdAction_cases hstd).1
  · exact .inr rfl

theorem executeActionList_message (selector : FsRule) (actions : List FsRule)
    (h : executeActionList host selector path flags actions = .ok result) :
    result.MessageOnFailure := by
  induction actions using FsRule.listInduct generalizing selector result with
  | nil =>
    rw [executeActionList] at h
    cases h
    exact .inr rfl
  | cons action actions ihlink ih =>
    rw [executeActionList_cons] at h
    obtain ⟨r, hr, h⟩ := Except.bind_eq_ok_iff.1 h
    cases r with
    | none => exact ih selector h
    | some result' =>
      cases h
      have hoffs : action.ruleOffs ≠ 0 := by
        intro hoffs
        rw [executeConditionalAction_empty hoffs] at hr
        cases hr
      rcases eq_or_ne action.conditionType (some .ifExistsIn) with hcond | hcond
      · rw [executeConditionalAction_ifExistsIn hoffs hcond] at hr
        obtain ⟨found, -, hr⟩ := Except.bind_eq_ok_iff.1 hr
        split at hr
        · obtain ⟨nested, hnested, hr⟩ := Except.bind_eq_ok_iff.1 hr
          cases hr
          exact ihlink _ hnested
        · cases hr
      · exact executeCandidate_message (executeConditionalAction_applied hcond hr)

theorem executeRule_message {rule : FsRule} (h : executeRule host rule path = .ok result) :
    result.MessageOnFailure := by
  unfold executeRule at h
  split at h
  · unfold ruletreeExecuteConditionalActions at h
    split at h
    · cases h
      exact .inr rfl
    · exact executeActionList_message _ _ h
  · exact .inl (executeStdAction_cases h).1

/-! ## Paths that are returned -/

theorem CleanList.cleanText {list : PathEntryList} (h : CleanList list) :
    CleanText (pathListToString list) :=
  ⟨_, _, h.clean, pathListToString_absolute h.absolute⟩

theorem cleanAndLogFsMappingResult_cleanText {hostPath newPath : CStr}
    (habs : hostPath.head? = some '/')
    (h : cleanAndLogFsMappingResult host hostPath = .ok (some newPath)) : CleanText newPath := by
  have hflag : (splitPathToPathList hostPath).plFlags.absolute = true := by
    rw [splitPathToPathList_plFlags]
    simpa using habs
  rw [cleanAndLogFsMappingResult_cleanPath] at h
  obtain ⟨r, hr, h⟩ := Except.bind_eq_ok_iff.1 h
  cases r with
  | error err => cases h
  | ok list =>
    cases h
    have hclean : ReturnsClean (.ok list) := by
      refine ((hostLogic host).cleanPath ?_).2 _ hr
      exact hflag
    exact (hclean _ rfl).cleanText

/-! ## Directories that `realpath` finds -/

/-- What `realpath` makes of an absolute path, written with or without a slash at its end. -/
def realDirectory (host : Host) (slash : Bool) (dir : List Component) :
    Except Errno (List Component) :=
  match host.realpath (absoluteString dir slash) with
  | none => .error .ENOENT
  | some rp => .ok rp.parts

/-- `realpath` is documented to do this: what it returns has no symbolic links in it, and the
root is where it is. -/
def RealpathResolves (host : Host) : Prop := ∀ slash, IsResolver (realDirectory host slash)

/-- All directories before a `..` are found when the path is read from left to right. -/
def Found (resolve : List Component → Except Errno (List Component)) (cur rest : List Component) :
    Prop :=
  ∃ cs, evalDotdots resolve cur rest = .ok cs

/-- Cleaning returns a path exactly if the directories are found. -/
def CleansIf (found : Prop) (x : Except Fault (Except Errno PathEntryList)) : Prop :=
  found ∧ (∃ list, x = .ok (.ok list)) ∨ ¬ found ∧ x = .error .undefinedBuffer

section Found

variable {host : Host} {slash : Bool} {c rest : List Component} {flags : PathFlags}
  {restart : PathEntryList → Except Fault (Except Errno PathEntryList)}

theorem found_of_no_dotdot {resolve : List Component → Except Errno (List Component)}
    (h : dotdot ∉ rest) (cur : List Component) : Found resolve cur rest :=
  ⟨_, evalDotdots_plain h cur⟩

/-- What a restart does behind a directory that was found. -/
def RestartCleans (host : Host) (slash : Bool)
    (restart : PathEntryList → Except Fault (Except Errno PathEntryList))
    (rest : List Component) : Prop :=
  ∀ c flags, Canonical (realDirectory host slash) c → flags.absolute = true →
    flags.hasTrailingSlash = slash → CleansIf (Found (realDirectory host slash) c rest)
      (restart ⟨markedEntries c ++ freshEntries rest, flags⟩)

theorem resolveDotdots_host_found (hres : IsResolver (realDirectory host slash))
    (hrestart : ∀ next, dotdot :: next <:+ rest →
      RestartCleans host slash restart (dotdot :: next))
    (habs : flags.absolute = true) (hslash : flags.hasTrailingSlash = slash)
    (before : List PathEntry) (hbefore : Clean (components before.reverse)) (hdot : dot ∉ rest) :
    CleansIf (Found (realDirectory host slash) (components before.reverse) rest)
      (resolveDotdots (hostParentOps host) restart flags before (freshEntries rest)) := by
  induction rest generalizing before flags with
  | nil => exact .inl ⟨found_of_no_dotdot not_mem_nil _, _, rfl⟩
  | cons x rest ih =>
    have hdot' : dot ∉ rest := fun hm => hdot (mem_cons_of_mem x hm)
    have hrestart' := fun next (hsuf : dotdot :: next <:+ rest) =>
      hrestart next (hsuf.trans (suffix_cons x rest))
    rw [freshEntries_cons]
    by_cases hx : x = dotdot
    · have hwork : PathEntry.isDotdot { pePathComponent := x } = true := isDotdot_eq_true.2 hx
      subst hx
      have hparent : isCleanPath (duplicatePathEntries before.reverse) = .clean :=
        isCleanPath_eq_clean.2 (by simpa using hbefore)
      rw [resolveDotdots_host_dotdot hwork, if_neg (not_not_intro hparent),
        parentString_absolute habs, hslash]
      unfold Found
      cases hreal : host.realpath (absoluteString (components before.reverse) slash) with
      | none =>
        have hr : realDirectory host slash (components before.reverse) = .error .ENOENT := by
          rw [realDirectory, hreal]
        rw [evalDotdots_dotdot_of_error hr]
        exact .inr ⟨by simp, rfl⟩
      | some rp =>
        have hr : realDirectory host slash (components before.reverse) = .ok rp.parts := by
          rw [realDirectory, hreal]
        have hc := hres.canonical hbefore hr
        rw [evalDotdots_dotdot_of_ok hr]
        dsimp only
        split
        · rename_i hne
          by_cases hnil : before = []
          · -- the root is where it is
            subst hnil
            rw [reverse_nil, components_nil, hres.root] at hr
            rw [← Except.ok.inj hr] at hne
            exact absurd rfl hne
          · rw [if_neg hnil]
            have h := hrestart rest suffix_rfl rp.parts flags hc habs hslash
            unfold Found at h
            rwa [evalDotdots_dotdot_of_ok hc.fixed] at h
        · rename_i heq
          have hparts : components before.reverse = rp.parts :=
            absoluteString_inj (not_not.1 heq)
          have htail : components before.tail.reverse = rp.parts.dropLast := by
            rw [← hparts]
            cases before <;> simp
          have hclean : Clean (components before.tail.reverse) := by
            rw [htail]
            exact hc.clean.subset (dropLast_subset _)
          rw [← htail]
          cases rest with
          | nil => exact .inl ⟨found_of_no_dotdot not_mem_nil _, _, rfl⟩
          | cons y rest =>
            rw [isEmpty_freshEntries, isEmpty_cons, setTrailingSlashIf_false]
            exact ih hrestart' habs hslash _ hclean hdot'
    · rw [resolveDotdots_host_ordinary (isDotdot_eq_false.2 hx)]
      have hdots : dot ∉ components (freshEntries (x :: rest)) := by simpa using hdot
      have h := ih hrestart' habs hslash _ (hbefore.push hdots hx) hdot'
      unfold Found at h ⊢
      rw [evalDotdots_ordinary hx]
      simpa using h

theorem cleanDotdotsPass_host_found (hres : IsResolver (realDirectory host slash))
    (hrestart : ∀ next,
      (∃ rest', rest' <:+ rest ∧ rest'.head? ≠ some dotdot ∧ dotdot :: next <:+ rest') →
      RestartCleans host slash restart (dotdot :: next))
    (hc : Canonical (realDirectory host slash) c) (hdot : dot ∉ rest)
    (habs : flags.absolute = true) (hslash : flags.hasTrailingSlash = slash) :
    CleansIf (Found (realDirectory host slash) c rest)
      (cleanDotdotsPass (hostParentOps host) restart
        ⟨markedEntries c ++ freshEntries rest, flags⟩) := by
  obtain ⟨rest₁, hsuf₁, hentries, heval₁, -, hall⟩ := dropLeadingDotdots_eval hres hc rest
  have hclean := hc.clean.no_dotdot
  rw [cleanDotdotsPass_host habs]
  dsimp only
  rw [hentries]
  simp only [components_append, components_markedEntries, components_freshEntries, mem_append,
    hclean, false_or]
  unfold Found
  rw [heval₁]
  by_cases hdd : dotdot ∈ rest₁
  · rw [if_neg (not_not_intro hdd)]
    rw [removeKnownDotdots_marked_append hc.clean]
    obtain ⟨c', rest', hse⟩ := removeKnownDotdots_eval hres hc rest₁
    rw [hse.eval, hse.nontrivial, hse.entries]
    by_cases hdd' : dotdot ∈ rest'
    · have hmarked : dotdot ∉ components (markedEntries c') := by
        simpa using hse.canonical.clean.no_dotdot
      have hdot' : dot ∉ rest' := fun hm => hdot ((hse.suffix.trans hsuf₁).subset hm)
      have hdrop : (dropLeadingDotdots (markedEntries c ++ freshEntries rest)).2 = false :=
        Bool.eq_false_iff.2 fun h => by simp [hall h] at hdd
      have hremoved : (removeKnownDotdots (markedEntries c).reverse
          (freshEntries rest₁)).lastRemoved = false :=
        Bool.eq_false_iff.2 fun h => by simp [hse.removed h] at hdd'
      rw [if_pos (decide_eq_true hdd'), resolveDotdots_append _ _ hmarked, hdrop, hremoved,
        setTrailingSlashIf_false, setTrailingSlashIf_false, append_nil]
      have hbefore : components (markedEntries c').reverse.reverse = c' := by simp
      have h := resolveDotdots_host_found hres
        (fun next hsuf => hrestart next ⟨rest', hse.suffix.trans hsuf₁, hse.head, hsuf⟩)
        habs hslash (markedEntries c').reverse (by simpa using hse.canonical.clean) hdot'
      rwa [hbefore] at h
    · rw [if_neg (by simpa using hdd')]
      exact .inl ⟨found_of_no_dotdot hdd' _, _, rfl⟩
  · rw [if_pos hdd]
    exact .inl ⟨found_of_no_dotdot hdd _, _, rfl⟩

theorem cleanDotdotsFromPath_host_found (hres : IsResolver (realDirectory host slash)) (n : Nat)
    (flags : PathFlags) (hc : Canonical (realDirectory host slash) c) (hdot : dot ∉ rest)
    (habs : flags.absolute = true) (hslash : flags.hasTrailingSlash = slash)
    (hn : EnoughRounds n rest) :
    CleansIf (Found (realDirectory host slash) c rest)
      (cleanDotdotsFromPath (hostParentOps host) n
        ⟨markedEntries c ++ freshEntries rest, flags⟩) := by
  induction n generalizing c rest flags with
  | zero =>
    refine cleanDotdotsPass_host_found hres (fun next hnext => ?_) hc hdot habs hslash
    obtain ⟨m, hm, -⟩ := hn.behind hnext
    cases hm
  | succ n ih =>
    refine cleanDotdotsPass_host_found hres (fun next hnext => ?_) hc hdot habs hslash
    obtain ⟨_, ⟨⟩, hm⟩ := hn.behind hnext
    obtain ⟨rest', hsuf, -, hsuf'⟩ := hnext
    exact fun c flags hc habs hslash =>
      ih flags hc (fun hmem => hdot ((hsuf'.trans hsuf).subset hmem)) habs hslash hm

/-- The directories before the `..` of a host path are found. They are asked for with a slash
if the path ends in one, or in `.`. -/
def HostFound (host : Host) (text : CStr) : Prop :=
  Found (realDirectory host (Token.openEnd '/' text ||
    decide ((Token.tokens '/' text).getLast? = some dot))) [] (withoutDots (Token.tokens '/' text))

theorem hostCleans_iff (hreal : RealpathResolves host) {text : CStr}
    (habs : text.head? = some '/') :
    (∃ newPath, cleanAndLogFsMappingResult host text = .ok newPath) ↔ HostFound host text := by
  have hres := hreal (Token.openEnd '/' text ||
    decide ((Token.tokens '/' text).getLast? = some dot))
  rw [cleanAndLogFsMappingResult_cleanPath, splitPathToPathList_absolute habs]
  unfold cleanPath
  have hno (h : isCleanPath (freshEntries (Token.tokens '/' text)) ≠ .dotdot) :
      HostFound host text :=
    found_of_no_dotdot (fun hm => h (isCleanPath_eq_dotdot.2
      (by simpa using dotdot_mem_withoutDots.1 hm))) _
  cases hclean : isCleanPath (freshEntries (Token.tokens '/' text)) with
  | clean => exact iff_of_true ⟨_, rfl⟩ (hno (hclean ▸ nofun))
  | dot => exact iff_of_true ⟨_, rfl⟩ (hno (hclean ▸ nofun))
  | dotdot =>
    have hdots := removeDots_markedEntries clean_nil (Token.tokens '/' text)
      { absolute := true, hasTrailingSlash := Token.openEnd '/' text, hostPath := true }
    rw [markedEntries_nil, nil_append, nil_append, nil_append] at hdots
    dsimp only
    rw [hdots, countDotdots_freshEntries]
    have hdot : dot ∉ withoutDots (Token.tokens '/' text) :=
      fun hm => absurd (of_mem_filter hm) (by decide)
    have h := cleanDotdotsFromPath_host_found hres
      ((withoutDots (Token.tokens '/' text)).count dotdot)
      (PathFlags.setTrailingSlashIf
        { absolute := true, hasTrailingSlash := Token.openEnd '/' text, hostPath := true }
        ((Token.tokens '/' text).getLast? = some dot))
      hres.canonical_root hdot rfl rfl fun rest' hsuf _ => hsuf.sublist.count_le dotdot
    rw [markedEntries_nil, nil_append] at h
    rcases h with ⟨hfound, list, hlist⟩ | ⟨hfound, hfault⟩
    · refine iff_of_true ?_ hfound
      rw [hlist]
      exact ⟨_, rfl⟩
    · refine iff_of_false ?_ hfound
      rw [hfault]
      rintro ⟨_, h⟩
      cases h

end Found

/-! ## The two signs of failure -/

/-- A text from which a host path can be made. -/
def UsableText (host : Host) (text : CStr) : Prop := text.head? = some '/' ∧ HostFound host text

/-- The translation returns; it returns no path exactly if there is a message, and a path is
absolute, without `.`, `..` and repeated slashes. -/
def Signalled (host : Host) (rule : Option FsRule) (path : CStr) : Prop :=
  ∃ t, ruletreeTranslatePath host rule path = .ok t ∧
    (t.hostPath = none ↔ t.errormsg ≠ none) ∧
    ∀ p, t.hostPath = some p →
      p.head? = some '/' ∧ Clean (Token.tokens '/' p) ∧ Token.Spaced '/' p

theorem CleanText.returned (h : CleanText p) :
    p.head? = some '/' ∧ Clean (Token.tokens '/' p) ∧ Token.Spaced '/' p := by
  refine ⟨h.head?, ?_, h.spaced⟩
  obtain ⟨cs, trailing, hclean, rfl⟩ := h
  rwa [tokens_absoluteString]

theorem signalled_iff_result (host : Host) (rule : Option FsRule) (path : CStr) :
    Signalled host rule path ↔
      ∀ r, rule = some r → ∃ result, executeRule host r path = .ok result ∧
        result.Usable fun p => p.head? = some '/' ∧
          ∃ newPath, cleanAndLogFsMappingResult host p = .ok newPath := by
  constructor
  · rintro ⟨t, ht, hsign, -⟩ r rfl
    obtain ⟨result, hresult, ht⟩ := Except.bind_eq_ok_iff.1 ht
    refine ⟨result, hresult, fun p hp => ?_⟩
    have hmessage := (executeRule_message hresult).of_path hp
    simp only [hp] at ht
    split at ht
    · -- a relative path is dropped, and nothing is said
      cases ht
      exact absurd hmessage (hsign.1 rfl)
    · rename_i habs
      obtain ⟨newPath, hnew, -⟩ := Except.bind_eq_ok_iff.1 ht
      exact ⟨not_not.1 habs, newPath, hnew⟩
  · intro h
    cases rule with
    | none => exact ⟨_, rfl, ⟨fun _ => nofun, fun _ => rfl⟩, nofun⟩
    | some r =>
      obtain ⟨result, hresult, hpath⟩ := h r rfl
      unfold Signalled ruletreeTranslatePath
      simp only [hresult, bind, Except.bind]
      cases hp : result.path with
      | none => exact ⟨_, rfl, ⟨fun _ => nofun, fun _ => rfl⟩, nofun⟩
      | some p =>
        obtain ⟨habs, newPath, hnew⟩ := hpath p hp
        have hmessage := (executeRule_message hresult).of_path hp
        simp only [habs, ne_eq, not_true_eq_false, if_false, hnew]
        cases newPath with
        | none => exact ⟨_, rfl, ⟨fun _ => nofun, fun _ => rfl⟩, nofun⟩
        | some q =>
          refine ⟨_, rfl, ⟨nofun, fun hne => absurd hmessage hne⟩, fun p' hp' => ?_⟩
          cases hp'
          exact (cleanAndLogFsMappingResult_cleanText habs hnew).returned

/-- Failures are signalled in both ways exactly if the rule makes an absolute text of the path,
in which the directories before each `..` exist, or no text. -/
theorem translation_signalled_iff (host : Host) (hreal : RealpathResolves host)
    (rule : Option FsRule) (path : CStr) :
    Signalled host rule path ↔
      ∀ r, rule = some r → RuleUsable host path (UsableText host) r := by
  rw [signalled_iff_result]
  refine forall₂_congr fun r _ => ?_
  rw [← executeRule_usable]
  refine exists_congr fun result => and_congr_right fun _ => forall₂_congr fun p _ => ?_
  exact and_congr_right fun habs => hostCleans_iff hreal habs

/-- A host without symbolic links; the only value in the environment has a `..` in it. -/
def linkFreeHost : Host :=
  { linkHost [] with
    realpath := fun s =>
      if h : dot ∉ Token.tokens '/' s ∧ dotdot ∉ Token.tokens '/' s then
        some ⟨Token.tokens '/' s, h.1, h.2⟩
      else none
    getenv := fun _ => some "/t/../v".toList }

theorem realpathResolves_linkFreeHost : RealpathResolves linkFreeHost := by
  intro slash
  have hclean : ∀ {cs}, Clean cs → realDirectory linkFreeHost slash cs = .ok cs := by
    intro cs h
    simp [realDirectory, linkFreeHost, h.no_dot, h.no_dotdot]
  refine ⟨fun hp h => ?_, hclean clean_nil, fun hc hpre => hclean (hc.clean.subset hpre.subset)⟩
  rw [hclean hp] at h
  cases h
  exact ⟨hp, hclean hp⟩

/-- A rule for `/u` that gives relative paths: `replace_by` with a relative replacement, and
`replace_by_value_of_env_var` with a variable that is not set. -/
def relativeRule (actionType : ActionType) : FsRule :=
  { ruleOffs := 1, selectorType := some .selDir, selector := some "/u".toList, actionType,
    actionStr := some ['x'] }

/-- With a value in the environment `/u/f` becomes `/t/../v/f`. -/
theorem translation_signalled_env :
    Signalled linkFreeHost (some (relativeRule .replaceByValueOfEnvVar)) "/u/f".toList := by
  refine (translation_signalled_iff linkFreeHost realpathResolves_linkFreeHost _ _).2 ?_
  rintro r heq
  cases heq
  exact ⟨_, rfl, by decide, rfl, _, rfl⟩

/-- `/u/f` becomes `x/f` or `(null)/f`; no path is returned, and no message is left. -/
theorem relative_result_unsignalled :
    (∀ actionType ∈ [ActionType.replaceBy, .replaceByValueOfEnvVar],
      ruletreeTranslatePath (linkHost []) (some (relativeRule actionType)) "/u/f".toList =
        .ok { hostPath := none, errormsg := none }) ∧
    ¬ Signalled (linkHost []) (some (relativeRule .replaceBy)) "/u/f".toList ∧
    ¬ Signalled (linkHost []) (some (relativeRule .replaceByValueOfEnvVar)) "/u/f".toList := by
  have hresult : ∀ actionType ∈ [ActionType.replaceBy, .replaceByValueOfEnvVar],
      ruletreeTranslatePath (linkHost []) (some (relativeRule actionType)) "/u/f".toList =
        .ok { hostPath := none, errormsg := none } := by
    intro actionType hmem
    rcases List.mem_pair.1 hmem with rfl | rfl
    · rfl
    · rfl
  have hnot : ∀ actionType ∈ [ActionType.replaceBy, .replaceByValueOfEnvVar],
      ¬ Signalled (linkHost []) (some (relativeRule actionType)) "/u/f".toList := by
    rintro actionType hmem ⟨t, ht, hsign, -⟩
    rw [hresult actionType hmem] at ht
    cases ht
    exact hsign.1 rfl rfl
  exact ⟨hresult, hnot _ (by simp), hnot _ (by simp)⟩

end Scratchbox
