import Scratchbox.PlainRules
import Scratchbox.ResolutionFacts

/-!
# The path matchers

Selectors are compared with paths by `lua_sb_test_path_match`, by `ruletree_test_path_match`, and by
a copy of the latter in `exec_policy_selection.c`. They agree, except for the path of a `path` rule
with a slash behind it (`matchers_agree_iff`). For clean paths, a directory selector is a matter of
components, and a `replace_by` rule keeps those behind it, unless the selector is the root directory
and the replacement does not end in a slash (`replacement_keeps_components_iff`).
-/

namespace Scratchbox

open List

/-! ## The copy for exec policies -/

/-- `test_path_match` of `exec_policy_selection.c`: the minimal path length if the selector
matches. -/
def testPathMatch (fullPath : CStr) (selectorType : Option SelectorType)
    (selector : Option CStr) : Option Nat :=
  match selectorType, selector with
  | some .selPath, some selector =>
    if selector.length = fullPath.length ∧ fullPath = selector then some selector.length else none
  | some .selPrefix, some selector =>
    if selector ≠ [] ∧ selector.length ≤ fullPath.length ∧
        fullPath[selector.length - 1]? = selector[selector.length - 1]? ∧
        selector <+: fullPath then
      some selector.length
    else none
  | some .selDir, some selector =>
    if selector ≠ [] ∧ selector.length ≤ fullPath.length ∧
        (fullPath[selector.length]? = some '/' ∨ fullPath[selector.length]? = none ∨
          (selector.length = 1 ∧ fullPath.head? = some '/')) ∧
        selector <+: fullPath then
      some selector.length
    else none
  | _, _ => none

/-- `lua_sb_test_path_match` for a rule with a single selector. -/
def luaTestSelector (path : CStr) (kind : SelectorType) (selector : CStr) : Option Nat :=
  match kind with
  | .selDir => luaSbTestPathMatch path (some selector) none none
  | .selPrefix => luaSbTestPathMatch path none (some selector) none
  | .selPath => luaSbTestPathMatch path none none (some selector)

theorem testPathMatch_pre (path selector : CStr) :
    testPathMatch path (some .selPrefix) (some selector) =
      if selector ≠ [] ∧ selector <+: path then some selector.length else none := by
  have hlast : (selector ≠ [] ∧ selector.length ≤ path.length ∧
      path[selector.length - 1]? = selector[selector.length - 1]? ∧ selector <+: path) ↔
        selector ≠ [] ∧ selector <+: path := by
    constructor
    · rintro ⟨hne, -, -, hpre⟩
      exact ⟨hne, hpre⟩
    · rintro ⟨hne, rest, rfl⟩
      have hlt : selector.length - 1 < selector.length :=
        Nat.sub_lt (length_pos_iff.2 hne) Nat.one_pos
      exact ⟨hne, by simp, getElem?_append_left hlt, prefix_append _ _⟩
  simp only [testPathMatch, hlast]

theorem ruletreeTestPathMatch_eq (path : CStr) (rp : FsRuleFields) :
    ruletreeTestPathMatch path rp = testPathMatch path rp.selectorType rp.selector := by
  unfold ruletreeTestPathMatch
  cases rp.selectorType with
  | none => rfl
  | some kind =>
    cases rp.selector with
    | none => cases kind <;> rfl
    | some selector =>
      cases kind with
      | selPath =>
        have hlength : (selector.length = path.length ∧ path = selector) ↔ path = selector :=
          ⟨fun h => h.2, fun h => ⟨by rw [h], h⟩⟩
        simp only [testPathMatch, hlength]
      | selPrefix => rw [testPathMatch_pre]
      | selDir => rfl

theorem luaTestSelector_dir (path selector : CStr) :
    luaTestSelector path .selDir selector =
      testPathMatch path (some .selDir) (some selector) := by
  have htest : testDir path selector = true ↔ selector ≠ [] ∧ selector.length ≤ path.length ∧
      (path[selector.length]? = some '/' ∨ path[selector.length]? = none ∨
        (selector.length = 1 ∧ path.head? = some '/')) ∧ selector <+: path := by
    simp only [testDir, decide_eq_true_eq]
    constructor
    · rintro ⟨hne, hpre, hnext⟩
      exact ⟨hne, hpre.length_le, by rwa [← or_assoc, or_comm], hpre⟩
    · rintro ⟨hne, -, hnext, hpre⟩
      exact ⟨hne, hpre, by rwa [or_comm, or_assoc]⟩
  rw [testPathMatch]
  cases h : testDir path selector with
  | true =>
    rw [if_pos (htest.1 h)]
    simp [luaTestSelector, luaSbTestPathMatch, Option.filter, h]
  | false =>
    rw [if_neg fun hmatch => by rw [htest.2 hmatch] at h; cases h]
    simp [luaTestSelector, luaSbTestPathMatch, Option.filter, h]

theorem luaTestSelector_pre (path selector : CStr) :
    luaTestSelector path .selPrefix selector =
      testPathMatch path (some .selPrefix) (some selector) := by
  rw [testPathMatch_pre]
  by_cases h : selector ≠ [] ∧ selector <+: path
  · rw [if_pos h]
    simp [luaTestSelector, luaSbTestPathMatch, Option.filter, testPrefix, h]
  · rw [if_neg h]
    simp [luaTestSelector, luaSbTestPathMatch, Option.filter, testPrefix, h]

theorem luaTestSelector_path (path selector : CStr) :
    luaTestSelector path .selPath selector =
      if path = selector ∨ (2 < path.length ∧ path = selector ++ ['/']) then some selector.length
      else none := by
  by_cases h : path = selector ∨ (2 < path.length ∧ path = selector ++ ['/'])
  · rw [if_pos h]
    simp [luaTestSelector, luaSbTestPathMatch, Option.filter, testPath, h]
  · rw [if_neg h]
    simp [luaTestSelector, luaSbTestPathMatch, Option.filter, testPath, h]

/-- The generator's matcher is the only one that ignores a slash behind the path of a rule. -/
theorem matchers_agree_iff (path : CStr) (kind : SelectorType) (selector : CStr)
    (rp : FsRuleFields) :
    (luaTestSelector path kind selector =
        ruletreeTestPathMatch path
          { rp with selectorType := some kind, selector := some selector } ∧
      ruletreeTestPathMatch path
          { rp with selectorType := some kind, selector := some selector } =
        testPathMatch path (some kind) (some selector)) ↔
      ¬ (kind = .selPath ∧ 2 < path.length ∧ path = selector ++ ['/']) := by
  rw [ruletreeTestPathMatch_eq]
  cases kind with
  | selDir => exact iff_of_true ⟨luaTestSelector_dir path selector, rfl⟩ nofun
  | selPrefix => exact iff_of_true ⟨luaTestSelector_pre path selector, rfl⟩ nofun
  | selPath =>
    have hcopy : testPathMatch path (some .selPath) (some selector) =
        if path = selector then some selector.length else none :=
      (ruletreeTestPathMatch_eq path
        { rp with selectorType := some .selPath, selector := some selector }).symm
    have hlonger : selector ++ ['/'] ≠ selector := by simp
    simp only [luaTestSelector_path, hcopy, and_true, true_and]
    by_cases hslash : 2 < path.length ∧ path = selector ++ ['/']
    · have hne : path ≠ selector := fun heq => hlonger (hslash.2.symm.trans heq)
      rw [if_pos (.inr hslash), if_neg hne]
      exact iff_of_false nofun fun h => h hslash
    · simp only [hslash, or_false]
      exact iff_of_true trivial not_false

/-- `/a/` and the path `/a`. -/
theorem matchers_differ_on_slash :
    luaTestSelector "/a/".toList .selPath "/a".toList = some 2 ∧
      ruletreeTestPathMatch "/a/".toList
        { ruleOffs := 1, selectorType := some .selPath, selector := some "/a".toList
          actionType := .useOrigPath } = none ∧
      testPathMatch "/a/".toList (some .selPath) (some "/a".toList) = none := by
  decide

/-! ## Directories by components -/

def pathComponents (path : CStr) : List Component := components (splitPathToPathList path).plFirst

theorem pathComponents_eq (path : CStr) : pathComponents path = Token.tokens '/' path := by
  simp [pathComponents]

section Directories

variable {selector : CStr} {rp : FsRuleFields}

/-- A directory selector matches the paths that are the selector with nothing, or with a slash
behind it, and the root directory matches all paths that begin with it. -/
theorem matches_dir_iff (path : CStr) (htype : rp.selectorType = some .selDir)
    (hsel : rp.selector = some selector) :
    ruletreeTestPathMatch path rp = some selector.length ↔
      ∃ rest, path = selector ++ rest ∧ selector ≠ [] ∧
        (AtBoundary rest ∨ selector = ['/']) := by
  have hfields : ruletreeTestPathMatch path rp =
      ruletreeTestPathMatch path (PlainMapping.mk .selDir selector .useOrigPath).fields := by
    rw [ruletreeTestPathMatch_eq, ruletreeTestPathMatch_eq, htype, hsel]
    rfl
  rw [hfields]
  refine Iff.trans ⟨fun h => ?_, fun h => ?_⟩
    (selects_iff (m := ⟨.selDir, selector, .useOrigPath⟩))
  · exact Option.isSome_iff_exists.2 ⟨_, h⟩
  · obtain ⟨n, hn⟩ := Option.isSome_iff_exists.1 h
    rw [hn, testPathMatch_length hn]

theorem no_match_dir_iff (path : CStr) (htype : rp.selectorType = some .selDir)
    (hsel : rp.selector = some selector) :
    ruletreeTestPathMatch path rp = none ↔
      ruletreeTestPathMatch path rp ≠ some selector.length := by
  rw [ruletreeTestPathMatch_eq, htype, hsel, testPathMatch]
  split
  · simp
  · simp

/-- The texts that are continued at a boundary are those of a beginning of the components. -/
theorem absoluteString_boundary_iff (s p : List Component) (trailing : Bool) :
    (∃ rest, absoluteString p trailing = absoluteString s false ++ rest ∧
        (AtBoundary rest ∨ absoluteString s false = ['/'])) ↔ s <+: p := by
  by_cases hs : s = []
  · subst hs
    refine iff_of_true ?_ nil_prefix
    obtain ⟨rest, hrest⟩ := head?_eq_some_iff.1 (head?_absoluteString p trailing)
    exact ⟨rest, hrest, .inr rfl⟩
  · have hroot : absoluteString s false ≠ ['/'] := by
      intro heq
      exact not_endsInSlash_absoluteString hs (heq ▸ rfl)
    constructor
    · rintro ⟨rest, hrest, hbound | heq⟩
      · rcases hbound with rfl | hslash
        · rw [append_nil] at hrest
          exact absoluteString_inj hrest ▸ prefix_refl s
        · obtain ⟨more, rfl⟩ := head?_eq_some_iff.1 hslash
          have htokens := congrArg (Token.tokens '/') hrest
          rw [Token.tokens_append_sep, tokens_absoluteString, tokens_absoluteString] at htokens
          exact htokens ▸ prefix_append _ _
      · exact absurd heq hroot
    · rintro ⟨more, rfl⟩
      by_cases hmore : more = []
      · rw [hmore, append_nil]
        cases trailing with
        | false => exact ⟨[], (append_nil _).symm, .inl (.inl rfl)⟩
        | true => exact ⟨['/'], absoluteString_slash hs, .inl (.inr rfl)⟩
      · exact ⟨_, absoluteString_append hs hmore trailing,
          .inl (.inr (head?_absoluteString more trailing))⟩

/-- The selectors that are meant: the root directory, or a clean path without a slash at its
end. -/
theorem CleanText.dir_selector
    (h : selector = ['/'] ∨ (CleanText selector ∧ ¬ EndsInSlash selector)) :
    ∃ s, selector = absoluteString s false := by
  rcases h with rfl | ⟨hclean, hend⟩
  · exact ⟨[], rfl⟩
  · obtain ⟨s, -, -, hs⟩ := hclean.closed hend
    exact ⟨s, hs⟩

end Directories

/-- A directory selector matches a clean path exactly if its components are the first components
of the path. -/
theorem dir_selector_matches_components {path selector : CStr} {rp : FsRuleFields}
    (htype : rp.selectorType = some .selDir) (hsel : rp.selector = some selector)
    (hselector : selector = ['/'] ∨ (CleanText selector ∧ ¬ EndsInSlash selector))
    (hpath : CleanText path) :
    ruletreeTestPathMatch path rp =
      if pathComponents selector <+: pathComponents path then some selector.length else none := by
  have hmatch := matches_dir_iff path htype hsel
  obtain ⟨s, rfl⟩ := CleanText.dir_selector hselector
  obtain ⟨p, trailing, -, rfl⟩ := hpath
  rw [pathComponents_eq, pathComponents_eq, tokens_absoluteString, tokens_absoluteString]
  simp only [ne_eq, absoluteString_ne_nil, not_false_eq_true, true_and] at hmatch
  rw [absoluteString_boundary_iff] at hmatch
  by_cases hbegin : s <+: p
  · rw [if_pos hbegin, hmatch.2 hbegin]
  · rw [if_neg hbegin, no_match_dir_iff _ htype hsel]
    exact fun h => hbegin (hmatch.1 h)

/-- `/a` and `/a/b`. -/
theorem dir_selector_matches_child :
    ruletreeTestPathMatch "/a/b".toList
        { ruleOffs := 1, selectorType := some .selDir, selector := some "/a".toList
          actionType := .useOrigPath } =
      if pathComponents "/a".toList <+: pathComponents "/a/b".toList then some 2 else none :=
  dir_selector_matches_components rfl rfl
    (.inr ⟨cleanText_of_tokens false (by decide), by decide⟩)
    (cleanText_of_tokens false (by decide))

/-! ## Replacing the directory -/

variable {selector rest : CStr}

/-- Texts keep their components when they are put together, unless both sides of the place where
they meet are inside a name. -/
theorem pathComponents_append_iff {r : CStr} (hr : r ≠ []) :
    pathComponents (r ++ rest) = pathComponents r ++ pathComponents rest ↔
      EndsInSlash r ∨ AtBoundary rest := by
  simp only [pathComponents_eq]
  constructor
  · intro h
    by_contra hmeet
    obtain ⟨hlast, hbound⟩ := not_or.1 hmeet
    obtain ⟨hrest, hhead⟩ := not_or.1 hbound
    have hglue := Token.length_tokens_glue hr hlast hrest hhead
    rw [h, length_append] at hglue
    exact absurd hglue (Nat.succ_ne_self _)
  · rintro (hslash | rfl | hhead)
    · obtain ⟨t, rfl⟩ := getLast?_eq_some_iff.1 hslash
      rw [append_assoc, singleton_append, Token.tokens_append_sep,
        Token.tokens_append_sep, Token.tokens_nil, append_nil]
    · rw [append_nil, Token.tokens_nil, append_nil]
    · obtain ⟨more, rfl⟩ := head?_eq_some_iff.1 hhead
      rw [Token.tokens_append_sep, Token.tokens_cons_sep]

/-- Behind a directory that matches a clean path stands a slash, except behind the root
directory. -/
theorem CleanText.atBoundary_iff (hpath : CleanText (selector ++ rest))
    (hrest : AtBoundary rest ∨ selector = ['/']) :
    AtBoundary rest ↔ selector ≠ ['/'] ∨ selector ++ rest = ['/'] := by
  constructor
  · rintro (rfl | hhead)
    · rw [append_nil]
      exact (em _).symm
    · refine .inl ?_
      rintro rfl
      obtain ⟨more, rfl⟩ := head?_eq_some_iff.1 hhead
      exact CleanText.not_double (s := []) hpath
  · rintro (hroot | heq)
    · exact hrest.resolve_right hroot
    · rcases hrest with hrest | rfl
      · exact hrest
      · exact .inl (append_cancel_left heq)

theorem executeRule_replaceBy (host : Host) {rule : FsRule} {replacement : CStr} (rest : CStr)
    (htype : rule.selectorType = some .selDir) (hsel : rule.selector = some selector)
    (haction : rule.actionType = .replaceBy) (hstr : rule.actionStr = some replacement) :
    executeRule host rule (selector ++ rest) =
      .ok { path := some (replacement ++ rest), flags := rule.flags } := by
  have hlen : ¬ (selector ++ rest).length < selector.length := by simp
  have hreplace : ruletreeExecuteReplaceRule (selector ++ rest) (some replacement)
      rule.toFsRuleFields = .ok (some (replacement ++ rest)) := by
    simp only [ruletreeExecuteReplaceRule, htype, hsel]
    rw [if_neg hlen, drop_left]
    rfl
  rw [executeRule, if_neg (by rw [haction]; decide), executeStdAction, haction]
  simp only [hstr, hreplace]
  rfl

/-- The components behind the selector are put behind those of the replacement, and the result is
translated to a path with these components, unless a name is glued to the replacement of the root
directory. -/
theorem replacement_keeps_components_iff (host : Host) {rule : FsRule}
    {path selector replacement : CStr} {n : Nat}
    (htype : rule.selectorType = some .selDir) (hsel : rule.selector = some selector)
    (haction : rule.actionType = .replaceBy) (hstr : rule.actionStr = some replacement)
    (habs : replacement.head? = some '/') (hpath : CleanText path)
    (hmatch : ruletreeTestPathMatch path rule.toFsRuleFields = some n) :
    ((∃ hostPath, executeRule host rule path =
          .ok { path := some hostPath, flags := rule.flags } ∧
        pathComponents hostPath = pathComponents replacement ++
          (pathComponents path).drop (pathComponents selector).length) ↔
      (selector ≠ ['/'] ∨ path = ['/'] ∨ EndsInSlash replacement)) ∧
    (Clean (pathComponents replacement) →
      (selector ≠ ['/'] ∨ path = ['/'] ∨ EndsInSlash replacement) →
        ∃ trailing, ruletreeTranslatePath host (some rule) path =
          .ok
            { hostPath := some (absoluteString (pathComponents replacement ++
                (pathComponents path).drop (pathComponents selector).length) trailing)
              flags := rule.flags, execPolicyName := rule.execPolicyName }) := by
  have hfound : ruletreeTestPathMatch path rule.toFsRuleFields = some selector.length := by
    by_contra hne
    rw [(no_match_dir_iff path htype hsel).2 hne] at hmatch
    cases hmatch
  obtain ⟨rest, rfl, hne, hrest⟩ := (matches_dir_iff path htype hsel).1 hfound
  have hr : replacement ≠ [] := by
    rintro rfl
    cases habs
  have hsplit : pathComponents (selector ++ rest) =
      pathComponents selector ++ pathComponents rest := by
    refine (pathComponents_append_iff hne).2 ?_
    rcases hrest with hbound | rfl
    · exact .inr hbound
    · exact .inl rfl
  have hcondition : (EndsInSlash replacement ∨ AtBoundary rest) ↔
      (selector ≠ ['/'] ∨ selector ++ rest = ['/'] ∨ EndsInSlash replacement) := by
    rw [hpath.atBoundary_iff hrest, or_comm, or_assoc]
  rw [hsplit, drop_left, ← hcondition]
  have hrule := executeRule_replaceBy host rest htype hsel haction hstr
  refine ⟨⟨?_, fun h => ⟨_, hrule, (pathComponents_append_iff hr).2 h⟩⟩, fun hclean h => ?_⟩
  · rintro ⟨hostPath, hresult, hcomponents⟩
    rw [hrule] at hresult
    cases hresult
    exact (pathComponents_append_iff hr).1 hcomponents
  · have hkept := (pathComponents_append_iff hr).2 h
    have hparts : Clean (pathComponents (selector ++ rest)) := by
      obtain ⟨cs, trailing, hcs, heq⟩ := hpath
      rwa [heq, pathComponents_eq, tokens_absoluteString]
    have hproduced : Clean (pathComponents (replacement ++ rest)) := by
      rw [hkept]
      refine hclean.append (hparts.subset ?_)
      rw [hsplit]
      exact subset_append_right _ _
    have habsolute := head?_append_absolute habs rest
    rw [pathComponents_eq] at hproduced
    have hcleaned := cleanAndLogFsMappingResult_of_clean host habsolute hproduced
    rw [← pathComponents_eq, hkept] at hcleaned
    exact ⟨_, ruletreeTranslatePath_ok hrule rfl habsolute hcleaned⟩

/-- A rule with a directory and `replace_by`. -/
def replaceDirRule (selector replacement : CStr) : FsRule where
  ruleOffs := 1
  selectorType := some .selDir
  selector := some selector
  actionType := .replaceBy
  actionStr := some replacement

theorem replacement_keeps_child :
    ∃ hostPath,
      executeRule (linkHost []) (replaceDirRule "/a".toList "/x".toList) "/a/b".toList =
          .ok { path := some hostPath, flags := {} } ∧
        pathComponents hostPath = pathComponents "/x".toList ++
          (pathComponents "/a/b".toList).drop (pathComponents "/a".toList).length :=
  (replacement_keeps_components_iff (linkHost []) (n := 2) rfl rfl rfl rfl rfl
    (cleanText_of_tokens false (by decide)) (by decide)).1.2 (.inl (by decide))

/-- The root directory replaced by `/x`: the path `/a` becomes `/xa`. -/
theorem root_replacement_glues :
    ruletreeTestPathMatch "/a".toList
        (replaceDirRule ['/'] "/x".toList).toFsRuleFields = some 1 ∧
      executeRule (linkHost []) (replaceDirRule ['/'] "/x".toList) "/a".toList =
          .ok { path := some "/xa".toList, flags := {} } ∧
      pathComponents "/xa".toList ≠ pathComponents "/x".toList ++
        (pathComponents "/a".toList).drop (pathComponents ['/']).length := by
  refine ⟨by decide, rfl, by decide⟩

end Scratchbox
