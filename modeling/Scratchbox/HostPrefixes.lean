import Scratchbox.HostCleaning
import Scratchbox.SelectorCoverage

/-!
# Host paths of the loop

The loop of `sb_path_resolution` has the rule translate the path up to the first component it looks
at. If the rule only exchanges the beginning of a path, the host paths of the next components are
made by appending them to this result. `appended_host_path_translates` says that the rule would
translate the longer path to the same text.
-/

namespace Scratchbox

open List Token Component

variable {host : Host}

/-! ## Cleaning a longer path -/

/-- An absolute path whose last component is not `.` or `..`, without a slash behind it. -/
structure EndsInName (s : CStr) : Prop where
  absolute : s.head? = some '/'
  closed : Token.openEnd '/' s = false
  plain : ∃ init last, Token.tokens '/' s = init ++ [last] ∧
    last ≠ Component.dot ∧ last ≠ Component.dotdot

def closedHostFlags : PathFlags :=
  { absolute := true, hasTrailingSlash := false, hostPath := true }

/-- The list that is made of a host path, when the `.` components have been removed. -/
def hostList (s : CStr) : PathEntryList :=
  ⟨freshEntries (withoutDots (Token.tokens '/' s)), closedHostFlags⟩

variable {s : CStr} {cs : List Component} {more : List PathEntry} {session : Session}
  {selector path old : CStr} {w : WalkContext} {c : Component} {rule : FsRule}

theorem EndsInName.removeDots (h : EndsInName s) :
    removeDotsFromPathList ⟨freshEntries (tokens '/' s), closedHostFlags⟩ = hostList s := by
  obtain ⟨init, last, htokens, hlast, -⟩ := h.plain
  have hremoved := removeDots_markedEntries clean_nil (tokens '/' s) closedHostFlags
  have hend : decide ((tokens '/' s).getLast? = some dot) = false := by
    rw [htokens, getLast?_concat]
    exact decide_eq_false fun heq => hlast (Option.some.inj heq)
  rw [nil_append, hend, setTrailingSlashIf_false] at hremoved
  exact hremoved

theorem EndsInName.endsClosed (h : EndsInName s) : EndsClosed (hostList s) := by
  obtain ⟨init, last, htokens, hlast, hdotdot⟩ := h.plain
  refine ⟨⟨freshEntries (withoutDots init), { pePathComponent := last }, ?_, ?_⟩, rfl⟩
  · have hkeep : withoutDots [last] = [last] := by simp [withoutDots, hlast]
    rw [hostList, htokens, withoutDots_append, hkeep, freshEntries_append]
    rfl
  · exact isDotdot_eq_false.2 hdotdot

theorem hostList_no_dot : dot ∉ components (hostList s).plFirst := by
  rw [hostList, components_freshEntries]
  intro hm
  simpa using of_mem_filter hm

theorem cleanAndLogFsMappingResult_eq (h : EndsInName s) :
    cleanAndLogFsMappingResult host s =
      if dotdot ∈ tokens '/' s then
        (cleanDotdotsFromPath (hostParentOps host) (countDotdots (hostList s).plFirst)
          (hostList s)).map fun r => r.toOption.map pathListToString
      else .ok (some (pathListToString (hostList s))) := by
  have hsplit : splitPathToPathList s =
      ⟨freshEntries (tokens '/' s), { absolute := true, hasTrailingSlash := false }⟩ := by
    have hflags : (splitPathToPathList s).plFlags =
        { absolute := true, hasTrailingSlash := false } := by
      rw [splitPathToPathList_plFlags, h.absolute, h.closed]
      rfl
    rw [← splitPathToPathList_plFirst s, ← hflags]
  have hremoved : removeDotsFromPathList ⟨freshEntries (tokens '/' s),
      { absolute := true, hasTrailingSlash := false, hostPath := true }⟩ = hostList s :=
    h.removeDots
  have hcomponents := components_freshEntries (tokens '/' s)
  unfold cleanAndLogFsMappingResult
  rw [hsplit]
  dsimp only
  rw [hremoved]
  split
  · rename_i hclean
    have hcs := isCleanPath_eq_clean.1 hclean
    rw [if_neg (hcomponents ▸ hcs.no_dotdot), ← hremoved, removeDotsFromPathList_of_clean hcs]
  · rename_i hdot
    have hdotdot : dotdot ∉ tokens '/' s := by
      rw [← hcomponents, ← isCleanPath_eq_dotdot, hdot]
      exact nofun
    rw [if_neg hdotdot]
  · rename_i hdotdot
    rw [if_pos (hcomponents ▸ isCleanPath_eq_dotdot.1 hdotdot)]
    rcases cleanDotdotsFromPath (hostParentOps host) (countDotdots (hostList s).plFirst)
        (hostList s) with f | err | list
    · rfl
    · rfl
    · rfl

theorem absoluteString_closed (h : cs ≠ []) :
    absoluteString cs false = '/' :: join '/' cs := by
  obtain ⟨c, cs, rfl⟩ := exists_cons_of_ne_nil h
  exact append_nil _

theorem tokens_append_absoluteString (s : CStr) (cs : List Component) :
    tokens '/' (s ++ absoluteString cs false) = tokens '/' s ++ cs := by
  by_cases hne : cs = []
  · subst hne
    rw [absoluteString, tokens_append_sep]
    rfl
  · rw [absoluteString_closed hne, tokens_append_sep, tokens_join]

theorem EndsInName.append (h : EndsInName s) (hcs : Clean cs) (hne : cs ≠ []) :
    EndsInName (s ++ absoluteString cs false) := by
  have hopen : openEnd '/' (s ++ absoluteString cs false) = false := by
    obtain ⟨c, cs, rfl⟩ := exists_cons_of_ne_nil hne
    rw [absoluteString_closed hne, openEnd_append_sep, openEnd_join]
  refine ⟨head?_append_absolute h.absolute _, hopen, ?_⟩
  obtain ⟨cs, c, rfl⟩ := (eq_nil_or_concat' cs).resolve_left hne
  have hc : c ∈ cs ++ [c] := mem_append_right _ mem_cons_self
  refine ⟨tokens '/' s ++ cs, c, ?_, ?_, ?_⟩
  · rw [tokens_append_absoluteString, append_assoc]
  · exact fun heq => hcs.no_dot (heq ▸ hc)
  · exact fun heq => hcs.no_dotdot (heq ▸ hc)

theorem hostList_append (s : CStr) (hcs : Clean cs) :
    hostList (s ++ absoluteString cs false) = appendEntries (freshEntries cs) (hostList s) := by
  rw [hostList, tokens_append_absoluteString, withoutDots_append, withoutDots_of_clean hcs,
    freshEntries_append]
  rfl

theorem pathListToString_appendEntries {list : PathEntryList} (habs : list.plFlags.absolute = true)
    (h : EndsClosed list) (hne : cs ≠ []) :
    pathListToString (appendEntries (freshEntries cs) list) =
      pathListToString list ++ absoluteString cs false := by
  have hcomponents : components list.plFirst ≠ [] := fun hnil =>
    h.plain.ne_nil (components_eq_nil.1 hnil)
  have habs' : (appendEntries (freshEntries cs) list).plFlags.absolute = true := habs
  have hclosed' : (appendEntries (freshEntries cs) list).plFlags.hasTrailingSlash = false :=
    h.closed
  rw [pathListToString_absolute habs, pathListToString_absolute habs', h.closed, hclosed',
    ← absoluteString_append hcomponents hne, appendEntries, components_append,
    components_freshEntries]

/-- Cleaning a host path goes no further than to its last `..`. -/
theorem cleanAndLogFsMappingResult_append {p : CStr} (h : EndsInName s) (hcs : Clean cs)
    (hne : cs ≠ []) (hclean : cleanAndLogFsMappingResult host s = .ok (some p)) :
    cleanAndLogFsMappingResult host (s ++ absoluteString cs false) =
      .ok (some (p ++ absoluteString cs false)) := by
  have hfresh : dotdot ∉ components (freshEntries cs) := by
    rw [components_freshEntries]
    exact hcs.no_dotdot
  rw [cleanAndLogFsMappingResult_eq h] at hclean
  rw [cleanAndLogFsMappingResult_eq (h.append hcs hne), hostList_append s hcs,
    tokens_append_absoluteString]
  by_cases hdotdot : dotdot ∈ tokens '/' s
  · have hcount : countDotdots (appendEntries (freshEntries cs) (hostList s)).plFirst =
        countDotdots (hostList s).plFirst := by
      have hzero := countDotdots_eq_zero.2 hfresh
      rw [countDotdots] at hzero
      rw [appendEntries, countDotdots, countP_append, hzero, Nat.add_zero, countDotdots]
    have happend : cleanDotdotsFromPath (hostParentOps host) (countDotdots (hostList s).plFirst)
        (appendEntries (freshEntries cs) (hostList s)) =
        appendToResult (freshEntries cs) (cleanDotdotsFromPath (hostParentOps host)
          (countDotdots (hostList s).plFirst) (hostList s)) :=
      cleanDotdotsFromPath_host_append hfresh _ rfl h.endsClosed.plain
    rw [if_pos hdotdot] at hclean
    rw [if_pos (mem_append_left _ hdotdot), hcount, happend]
    rcases hr : cleanDotdotsFromPath (hostParentOps host) (countDotdots (hostList s).plFirst)
        (hostList s) with f | err | list
    · rw [hr] at hclean
      cases hclean
    · rw [hr] at hclean
      cases hclean
    · rw [hr] at hclean
      cases hclean
      have habs := (cleanDotdotsFromPath_host rfl hostList_no_dot hr).absolute
      have hends := cleanDotdotsFromPath_host_endsClosed rfl h.endsClosed hr
      rw [← pathListToString_appendEntries habs hends hne]
      rfl
  · rw [if_neg hdotdot] at hclean
    rw [if_neg fun hm => (mem_append.1 hm).elim hdotdot hcs.no_dotdot]
    cases hclean
    rw [pathListToString_appendEntries rfl h.endsClosed hne]

/-! ## Actions that exchange a beginning -/

/-- The actions whose host paths are made by appending components. -/
def ActionType.exchangesBeginning : ActionType → Bool
  | .useOrigPath | .mapTo | .replaceBy | .mapToValueOfEnvVar | .replaceByValueOfEnvVar => true
  | _ => false

theorem translatesOnce {actionType : ActionType}
    (h : actionType.exchangesBeginning = true) :
    (decide (actionType = .conditionalActions) || decide (actionType = .procfs)) = false := by
  cases actionType with
  | conditionalActions => cases h
  | procfs => cases h
  | _ => rfl

theorem executeMapTo_beginning (target : Option CStr) :
    ∃ new, ∀ rest, executeMapTo rest target = new ++ rest := by
  cases target with
  | none => exact ⟨[], fun _ => rfl⟩
  | some t =>
    by_cases ht : t = [] ∨ t = ['/']
    · exact ⟨[], fun _ => if_pos ht⟩
    · exact ⟨t, fun _ => if_neg ht⟩

theorem ruletreeExecuteReplaceRule_beginning {fields : FsRuleFields}
    (hsel : fields.selector = some selector) (htype : fields.selectorType ≠ some .selPath)
    (hlen : selector.length ≤ old.length) (replacement : Option CStr) :
    (∃ new, ∀ rest, ruletreeExecuteReplaceRule (old ++ rest) replacement fields =
        .ok (some (new ++ rest))) ∨
      ∀ rest, ruletreeExecuteReplaceRule (old ++ rest) replacement fields = .ok none := by
  unfold ruletreeExecuteReplaceRule
  cases hst : fields.selectorType with
  | none => exact .inr fun _ => rfl
  | some st =>
    refine .inl ⟨printfString replacement ++ old.drop selector.length, fun rest => ?_⟩
    have hlen' : ¬ (old ++ rest).length < selector.length := by
      rw [length_append]
      omega
    cases st with
    | selPath => exact absurd hst htype
    | selPrefix =>
      simp only [hsel]
      rw [if_neg hlen', drop_append_of_le_length hlen, append_assoc]
    | selDir =>
      simp only [hsel]
      rw [if_neg hlen', drop_append_of_le_length hlen, append_assoc]

/-- The action exchanges a beginning of the path that covers the selector, whatever follows
it, or gives no path at all. -/
theorem executeRule_beginning (haction : rule.actionType.exchangesBeginning = true)
    (hsel : rule.selector = some selector) (htype : rule.selectorType ≠ some .selPath)
    (hlen : selector.length ≤ old.length) :
    (∃ new flags, ∀ rest,
        executeRule host rule (old ++ rest) = .ok { path := some (new ++ rest), flags }) ∨
      ∀ rest result, executeRule host rule (old ++ rest) = .ok result → result.path = none := by
  have hreplace : ∀ replacement,
      (∃ new flags, ∀ rest, (do
        let newPath ← ruletreeExecuteReplaceRule (old ++ rest) replacement rule.toFsRuleFields
        pure { path := newPath, flags := rule.flags } : Except Fault ActionResult) =
          .ok { path := some (new ++ rest), flags }) ∨
      ∀ rest result, (do
        let newPath ← ruletreeExecuteReplaceRule (old ++ rest) replacement rule.toFsRuleFields
        pure { path := newPath, flags := rule.flags } : Except Fault ActionResult) =
          .ok result → result.path = none := by
    intro replacement
    rcases ruletreeExecuteReplaceRule_beginning hsel htype hlen replacement with ⟨new, hnew⟩ | hnone
    · refine .inl ⟨new, rule.flags, fun rest => ?_⟩
      rw [hnew]
      rfl
    · refine .inr fun rest result h => ?_
      rw [hnone] at h
      cases h
      rfl
  have hmapTo : ∀ target, ∃ new flags, ∀ rest,
      (.ok { path := some (executeMapTo (old ++ rest) target), flags := rule.flags } :
        Except Fault ActionResult) = .ok { path := some (new ++ rest), flags } := by
    intro target
    obtain ⟨new, hnew⟩ := executeMapTo_beginning target
    refine ⟨new ++ old, rule.flags, fun rest => ?_⟩
    rw [hnew, append_assoc]
  unfold executeRule executeStdAction
  cases hact : rule.actionType with
  | useOrigPath => exact .inl ⟨old, rule.flags, fun _ => rfl⟩
  | mapTo => exact .inl (hmapTo rule.actionStr)
  | replaceBy => exact hreplace rule.actionStr
  | mapToValueOfEnvVar =>
    cases hstr : rule.actionStr with
    | none =>
      refine .inr fun _ _ h => ?_
      cases h
    | some name => exact .inl (hmapTo (host.getenv name))
  | replaceByValueOfEnvVar =>
    cases hstr : rule.actionStr with
    | none =>
      refine .inr fun _ _ h => ?_
      cases h
    | some name => exact hreplace (host.getenv name)
  | _ =>
    rw [hact] at haction
    cases haction

/-! ## The first path -/

theorem ruletreeTranslatePath_some {first : CStr} {t : Translation}
    (h : ruletreeTranslatePath host (some rule) path = .ok t) (hfirst : t.hostPath = some first) :
    ∃ result p, executeRule host rule path = .ok result ∧ result.path = some p ∧
      p.head? = some '/' ∧ cleanAndLogFsMappingResult host p = .ok (some first) := by
  obtain ⟨result, hresult, h⟩ := Except.bind_eq_ok_iff.1 h
  cases hp : result.path with
  | none =>
    simp only [hp] at h
    cases h
    cases hfirst
  | some p =>
    simp only [hp] at h
    split at h
    · cases h
      cases hfirst
    · rename_i habs
      obtain ⟨newPath, hnew, h⟩ := Except.bind_eq_ok_iff.1 h
      cases newPath with
      | none =>
        cases h
        cases hfirst
      | some q =>
        cases h
        cases hfirst
        exact ⟨result, p, hresult, hp, not_not.1 habs, hnew⟩

theorem clean_of_suffix {d : Component} (h : c.val <:+ d.val) (hdot : c ≠ dot)
    (hdotdot : c ≠ dotdot) : d ≠ dot ∧ d ≠ dotdot := by
  have hval : ∀ {e : Component}, c.val = e.val → c = e := by
    rintro ⟨val, hne, hsep⟩ heq
    obtain ⟨val', hne', hsep'⟩ := c
    cases heq
    rfl
  constructor
  · rintro rfl
    rcases suffix_cons_iff.1 h with heq | hnil
    · exact hdot (hval heq)
    · exact c.ne_nil (suffix_nil.1 hnil)
  · rintro rfl
    rcases suffix_cons_iff.1 h with heq | hrest
    · exact hdotdot (hval heq)
    · rcases suffix_cons_iff.1 hrest with heq | hnil
      · exact hdot (hval heq)
      · exact c.ne_nil (suffix_nil.1 hnil)

theorem endsInName_append_val (s : CStr) (hdot : c ≠ dot) (hdotdot : c ≠ dotdot)
    (habs : (s ++ c.val).head? = some '/') : EndsInName (s ++ c.val) := by
  obtain ⟨hopen, init, last, htokens, hsuffix⟩ := tokens_append_val s c
  obtain ⟨hd, hdd⟩ := clean_of_suffix hsuffix hdot hdotdot
  exact ⟨habs, hopen, init, last, htokens, hd, hdd⟩

theorem ruletreeTestPathMatch_selPath {rp : FsRuleFields} {n : Nat}
    (h : ruletreeTestPathMatch path rp = some n) (htype : rp.selectorType = some .selPath) :
    n = path.length := by
  unfold ruletreeTestPathMatch at h
  rw [htype] at h
  cases hsel : rp.selector with
  | none =>
    rw [hsel] at h
    cases h
  | some selector =>
    simp only [hsel] at h
    split at h
    · rename_i hpath
      cases h
      rw [hpath]
    · cases h

theorem length_absoluteString_slash (cs : List Component) :
    (absoluteString cs true).length = textLength cs + 1 := by
  cases cs with
  | nil => rfl
  | cons c cs =>
    rw [← length_join, absoluteString, length_append, length_cons]
    rfl

theorem pathEntriesToString_first (skipped : List PathEntry) (work : PathEntry) :
    pathEntriesToString (skipped ++ [work]) { absolute := true } =
      absoluteString (components skipped) true ++ work.pePathComponent.val := by
  rw [pathEntriesToString_absolute _ rfl, components_append]
  exact absoluteString_concat _ _

theorem pathEntriesToString_further (skipped : List PathEntry) (work : PathEntry)
    (hne : more ≠ []) :
    pathEntriesToString (skipped ++ work :: more) { absolute := true } =
      absoluteString (components skipped) true ++
        (work.pePathComponent.val ++ absoluteString (components more) false) := by
  have hcomponents : components more ≠ [] := fun h => hne (components_eq_nil.1 h)
  have hfirst : components skipped ++ [work.pePathComponent] ≠ [] := by simp
  have hsplit : components (skipped ++ work :: more) =
      (components skipped ++ [work.pePathComponent]) ++ components more := by simp
  rw [pathEntriesToString_absolute _ rfl, hsplit, absoluteString_append hfirst hcomponents,
    absoluteString_concat, append_assoc]

/-! ## The loop -/

/-- The host path, flags and results of the loop when its work pointer has moved over the
given entries. `passed` are the entries up to the work pointer, last one first. -/
def loopHostPath (session : Session) (w : WalkContext) (passed : List PathEntry)
    (hostPath : Option CStr) (flags : RuleFlags) (res : MappingResults) :
    List PathEntry → Except Fault (Option CStr × RuleFlags × MappingResults)
  | [] => .ok (hostPath, flags, res)
  | e :: next => do
    let (hostPath, flags, res) ←
      nextHostPath session w (e :: passed).reverse e.pePathComponent hostPath flags res
    loopHostPath session w (e :: passed) hostPath flags res next

theorem walk_loopHostPath {res : MappingResults} {before rest : List PathEntry} {work e : PathEntry}
    {hostPath : Option CStr} {flags : RuleFlags}
    (hstop : stopsBefore session w.ctx w.source.plFlags.hasTrailingSlash flags false = false)
    (hstatus : componentStatus session.host w.ctx work hostPath false = .passed) :
    walk session w res before (work :: e :: rest) hostPath flags = (do
      let (hostPath', flags', res') ←
        loopHostPath session w (work :: before) hostPath flags res [e]
      let (more, walkEnd) ← walk session w res' (work :: before) (e :: rest) hostPath' flags'
      pure (uncheckedPath work hostPath ++ more, walkEnd)) := by
  have hupTo : (e :: work :: before).reverse = before.reverse ++ [work, e] := by simp
  rw [walk_next hstop hstatus, loopHostPath, hupTo]
  rcases nextHostPath session w (before.reverse ++ [work, e]) e.pePathComponent hostPath flags res
    with f | ⟨hostPath', flags', res'⟩
  · rfl
  · rfl

theorem loopHostPath_appends (hall : w.callTranslateForAll = false) (passed : List PathEntry)
    (first : CStr) (flags : RuleFlags) (res : MappingResults) (hne : more ≠ []) :
    loopHostPath session w passed (some first) flags res more =
      .ok (some (first ++ absoluteString (components more) false), flags, res) := by
  induction more generalizing passed first with
  | nil => exact absurd rfl hne
  | cons e next ih =>
    have hnext : nextHostPath session w (e :: passed).reverse e.pePathComponent (some first) flags
        res = .ok (some (first ++ absoluteString [e.pePathComponent] false), flags, res) := by
      unfold nextHostPath
      rw [hall, absoluteString_closed (cons_ne_nil _ _)]
      rfl
    rw [loopHostPath, hnext]
    show loopHostPath session w (e :: passed)
      (some (first ++ absoluteString [e.pePathComponent] false)) flags res next = _
    by_cases hnil : next = []
    · subst hnil
      rfl
    · have hcomponents : components next ≠ [] := fun h => hnil (components_eq_nil.1 h)
      rw [ih _ _ hnil, append_assoc, components_cons,
        ← absoluteString_append (cons_ne_nil _ _) hcomponents]
      rfl

/-- The rule would give each of the host paths that the loop makes by appending
components. -/
theorem appended_host_path_translates (session : Session) (ctx : PathMappingContext)
    (res : MappingResults) (rule : FsRule) (source : PathEntryList) {minPathLen : Nat}
    {before rest : List PathEntry} {work : PathEntry} {t : Translation} {first : CStr}
    (haction : rule.actionType.exchangesBeginning = true)
    (habs : source.plFlags.absolute = true) (hclean : Clean (components source.plFirst))
    (hmatch : ruletreeTestPathMatch (pathListToString source) rule.toFsRuleFields =
      some minPathLen)
    (hskip : skipComponents minPathLen 1 [] source.plFirst = some (before, work :: rest))
    (htranslate : ruletreeTranslatePath session.host (some rule)
      (pathEntriesToString (before.reverse ++ [work]) { absolute := true }) = .ok t)
    (hfirst : t.hostPath = some first) :
    ∀ more, more <+: rest → ∃ hostPath t',
      loopHostPath session
        ⟨ctx, rule, rule.actionType = .conditionalActions || rule.actionType = .procfs, source⟩
        (work :: before) (some first) t.flags res more = .ok (some hostPath, t.flags, res) ∧
      ruletreeTranslatePath session.host (some rule)
        (pathEntriesToString (before.reverse ++ work :: more) { absolute := true }) = .ok t' ∧
      t'.hostPath = some hostPath := by
  intro more hmore
  by_cases hne : more = []
  · subst hne
    exact ⟨first, t, rfl, htranslate, hfirst⟩
  obtain ⟨selector, hsel, -, hlen⟩ := ruletreeTestPathMatch_selector hmatch
  obtain ⟨before', rest', hskip', hsplit, hskipped⟩ :=
    skip_of_le habs (ruletreeTestPathMatch_le hmatch)
  cases hskip.symm.trans hskip'
  have hwork : work.pePathComponent ∈ components source.plFirst := by
    rw [← hsplit, components_append]
    exact mem_append_right _ mem_cons_self
  have hmoreClean : Clean (components more) := by
    refine hclean.subset ?_
    rw [← hsplit, components_append, components_cons]
    exact fun c hc => mem_append_right _
      (mem_cons_of_mem _ (map_subset _ hmore.subset hc))
  have hmoreNe : components more ≠ [] := fun h => hne (components_eq_nil.1 h)
  -- the selector ends where the first component begins, or before
  have hcovered : selector.length ≤ (absoluteString (components before.reverse) true).length := by
    rw [length_absoluteString_slash]
    omega
  have htype : rule.selectorType ≠ some .selPath := by
    intro htype
    have hwhole := ruletreeTestPathMatch_selPath hmatch htype
    have hle := textLength_le_length (components source.plFirst) source.plFlags.hasTrailingSlash
    have hpos := length_pos_iff.2 work.pePathComponent.ne_nil
    rw [← pathListToString_absolute habs, ← hwhole, ← hsplit, components_append,
      textLength_append, components_cons, textLength] at hle
    omega
  have hfirstText := pathEntriesToString_first before.reverse work
  have hmoreText := pathEntriesToString_further before.reverse work hne
  rw [hfirstText] at htranslate
  obtain ⟨result, p, hresult, hp, hpabs, hpclean⟩ := ruletreeTranslatePath_some htranslate hfirst
  rcases executeRule_beginning haction hsel htype hcovered with ⟨new, flags, hexec⟩ | hnone
  · rw [hexec] at hresult
    cases hresult
    cases hp
    have hends := endsInName_append_val new (fun h => hclean.no_dot (h ▸ hwork))
      (fun h => hclean.no_dotdot (h ▸ hwork)) hpabs
    have hlonger := cleanAndLogFsMappingResult_append hends hmoreClean hmoreNe hpclean
    have hexec' := hexec (work.pePathComponent.val ++ absoluteString (components more) false)
    rw [← append_assoc new] at hexec'
    have htranslated := ruletreeTranslatePath_ok hexec' rfl (head?_append_absolute hpabs _) hlonger
    rw [hmoreText]
    exact ⟨_, _, loopHostPath_appends (translatesOnce haction) _ _ _ _ hne, htranslated, rfl⟩
  · rw [hnone _ _ hresult] at hp
    cases hp

/-- `/u/a/b/c` with a rule that replaces `/u/`: the walk starts at `a`. -/
def belowUEntries : List PathEntry := (splitPathToPathList "/u/a/b/c".toList).plFirst

theorem appended_host_path_below_u :
    ∃ hostPath t',
      loopHostPath belowUSession
        ⟨exampleContext, belowURule, false, splitPathToPathList "/u/a/b/c".toList⟩
        (belowUEntries.take 2).reverse (some "/T/a".toList) {} {} (belowUEntries.drop 2) =
          .ok (some hostPath, {}, {}) ∧
      ruletreeTranslatePath belowUSession.host (some belowURule)
        (pathEntriesToString belowUEntries { absolute := true }) = .ok t' ∧
      t'.hostPath = some hostPath :=
  appended_host_path_translates belowUSession exampleContext {} belowURule
    (splitPathToPathList "/u/a/b/c".toList) rfl rfl (isCleanPath_eq_clean.1 rfl) rfl rfl rfl rfl
    _ prefix_rfl

end Scratchbox
