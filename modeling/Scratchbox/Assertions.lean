import Scratchbox.ChrootFacts
import Scratchbox.LinkedPaths
import Scratchbox.TranslationErrors
import Scratchbox.ResolutionAnswers
import Scratchbox.EngineFacts

/-!
# The assertions of path resolution

The functions of path resolution check with assertions that paths are absolute, clean where they
are resolved, and lists whose links are right. The last is shown in `LinkedPaths.lean`; cleaning is
treated in `CleanerLogic.lean`.

There is one exception. The chroot directory is put in front of absolute paths and of absolute
links, and a new process takes it from its environment without looking at it.
`path_assertions_hold_iff` says that this is the only way in which an assertion can fail.
-/

namespace Scratchbox

open CallTree

/-! ## Actions of rules -/

section Actions

variable {host : Host} {path : CStr} {flags : RuleFlags}

theorem quiet_executeReplaceRule (path : CStr) (replacement : Option CStr) (rule : FsRuleFields) :
    Quiet (ruletreeExecuteReplaceRule path replacement rule) := by
  unfold ruletreeExecuteReplaceRule
  repeat' split
  all_goals first
    | exact quiet_ok _
    | exact quiet_error quiet_nullPointer
    | exact quiet_error quiet_outOfBounds
    | exact quiet_error quiet_undefinedBuffer

theorem quiet_ifExistsTestPath (target : Option CStr) (path : CStr) :
    Quiet (ifExistsTestPath target path) := by
  cases target with
  | none => exact quiet_error quiet_nullPointer
  | some t => exact quiet_ok _

theorem quiet_executeStdAction (selector : FsRule) (action : FsRuleFields) :
    Quiet (executeStdAction host selector action path flags) := by
  have hreplace : ∀ replacement, Quiet (do
      let newPath ← ruletreeExecuteReplaceRule path replacement selector.toFsRuleFields
      pure { path := newPath, flags } : Except Fault ActionResult) :=
    fun replacement => (quiet_executeReplaceRule _ _ _).bind fun _ _ => quiet_ok _
  unfold executeStdAction
  dsimp only
  repeat' split
  all_goals first
    | exact quiet_ok _
    | exact quiet_error quiet_nullPointer
    | exact hreplace _

theorem quiet_executeCandidate (selector : FsRule) (action : FsRuleFields) :
    Quiet (executeCandidate host selector action path flags) := by
  unfold executeCandidate
  split
  · refine Quiet.bind ?_ fun _ _ => quiet_ok _
    exact (quiet_ifExistsTestPath _ _).bind fun _ _ => quiet_ok _
  · refine Quiet.bind ?_ fun _ _ => quiet_ok _
    exact (quiet_executeReplaceRule _ _ _).bind fun _ _ => quiet_ok _
  · split
    · exact (quiet_executeStdAction _ _).bind fun _ _ => quiet_ok _
    · exact quiet_ok _

theorem quiet_executeActionList (selector : FsRule) (actions : List FsRule) :
    Quiet (executeActionList host selector path flags actions) := by
  induction actions using FsRule.listInduct generalizing selector with
  | nil =>
    rw [executeActionList]
    exact quiet_ok _
  | cons action actions ihlink ih =>
    rw [executeActionList_cons]
    refine Quiet.bind ?_ fun r _ => ?_
    · rcases eq_or_ne action.ruleOffs 0 with hoffs | hoffs
      · rw [executeConditionalAction_empty hoffs]
        exact quiet_ok _
      rcases eq_or_ne action.conditionType (some .ifExistsIn) with hcond | hcond
      · rw [executeConditionalAction_ifExistsIn hoffs hcond]
        refine Quiet.bind ?_ fun found _ => ?_
        · exact (quiet_ifExistsTestPath _ _).bind fun _ _ => quiet_ok _
        · split
          · exact (ihlink _).bind fun _ _ => quiet_ok _
          · exact quiet_ok _
      · rcases executeConditionalAction_other hcond with hnone | hcandidate
        · rw [hnone]
          exact quiet_ok _
        · rw [hcandidate]
          exact quiet_executeCandidate _ _
    · cases r with
      | none => exact ih selector
      | some result => exact quiet_ok _

theorem quiet_executeRule (rule : FsRule) : Quiet (executeRule host rule path) := by
  unfold executeRule
  split
  · unfold ruletreeExecuteConditionalActions
    split
    · exact quiet_ok _
    · exact quiet_executeActionList _ _
  · exact quiet_executeStdAction _ _

end Actions

/-! ## Translation -/

theorem quiet_cleanAndLogFsMappingResult (host : Host) {hostPath : CStr}
    (habs : hostPath.head? = some '/') : Quiet (cleanAndLogFsMappingResult host hostPath) := by
  have hflag : (splitPathToPathList hostPath).plFlags.absolute = true := by
    rw [splitPathToPathList_plFlags]
    simpa using habs
  rw [cleanAndLogFsMappingResult_cleanPath]
  refine Quiet.bind ?_ fun _ _ => quiet_ok _
  refine ((hostLogic host).cleanPath ?_).1
  exact hflag

theorem quiet_ruletreeTranslatePath (host : Host) (rule : Option FsRule) (path : CStr) :
    Quiet (ruletreeTranslatePath host rule path) := by
  cases rule with
  | none => exact quiet_ok _
  | some rule =>
    unfold ruletreeTranslatePath
    refine (quiet_executeRule rule).bind fun result _ => ?_
    dsimp only
    split
    · exact quiet_ok _
    · split
      · exact quiet_ok _
      · rename_i habs
        refine (quiet_cleanAndLogFsMappingResult host (not_not.1 habs)).bind fun r _ => ?_
        cases r with
        | none => exact quiet_ok _
        | some p => exact quiet_ok _

/-! ## Levels of resolution -/

section Levels

variable {session : Session} {ctx : PathMappingContext}

theorem quiet_walk (w : WalkContext) (res : MappingResults) (before rest : List PathEntry)
    (hostPath : Option CStr) (flags : RuleFlags) :
    Quiet (walk session w res before rest hostPath flags) := by
  induction rest generalizing res before hostPath flags with
  | nil => exact quiet_ok _
  | cons work next ih =>
    rw [walk.eq_def]
    dsimp only
    split
    · exact quiet_ok _
    · split
      · exact quiet_ok _
      · exact quiet_ok _
      · cases next with
        | nil => exact quiet_ok _
        | cons e rest =>
          refine Quiet.bind ?_ fun r _ => (ih _ _ _ _).bind fun _ _ => quiet_ok _
          unfold nextHostPath
          split
          · exact (quiet_ruletreeTranslatePath _ _ _).bind fun _ _ => quiet_ok _
          · exact quiet_ok _

theorem quiet_resolveUpToSymlink (res : MappingResults) {source : PathEntryList}
    (h : CleanList source) : Quiet (resolveUpToSymlink session ctx res source) := by
  unfold resolveUpToSymlink
  simp only [h.absolute, isCleanPath_eq_clean.2 h.clean, Bool.not_true, Bool.false_eq_true,
    if_false, ne_eq, not_true_eq_false]
  split
  · exact quiet_ok _
  · split
    · exact quiet_ok _
    · split
      · exact quiet_error quiet_nullPointer
      · exact (quiet_ruletreeTranslatePath _ _ _).bind fun _ _ => quiet_walk _ _ _ _ _ _

/-- The chroot directory is not set, or what is put behind it begins with a slash. -/
def ChrootIsAbsolute (session : Session) : Prop :=
  ∀ chroot, session.sboxChrootPath = some chroot → chroot = [] ∨ chroot.head? = some '/'

theorem ChrootIsAbsolute.head? (h : ChrootIsAbsolute session) {text : CStr}
    (htext : text.head? = some '/') :
    (session.sboxChrootPath.getD [] ++ text).head? = some '/' := by
  cases hchroot : session.sboxChrootPath with
  | none => exact htext
  | some chroot =>
    rcases h chroot hchroot with rfl | hslash
    · exact htext
    · rw [Option.getD_some, List.head?_append, hslash]
      rfl

theorem newList_absolute (h : ChrootIsAbsolute session) (dest : LinkText) {flags : PathFlags}
    (habs : flags.absolute = true) (before next : List PathEntry) :
    (newAbsVirtualLinkDestPathList session dest flags before next).plFlags.absolute = true := by
  have hlink : ∀ linkFlags : PathFlags, (linkFlags.ofLink next).absolute = linkFlags.absolute := by
    intro linkFlags
    unfold PathFlags.ofLink
    split
    · rfl
    · rfl
  unfold newAbsVirtualLinkDestPathList
  dsimp only
  split
  · rename_i hslash
    rw [hlink]
    exact decide_eq_true (h.head? hslash)
  · simp [PathFlags.union, habs]

def assertionContract : Contract Question Answer Event Fault where
  pre q := CleanList q.absVirtualCleanSourcePathList
  post := LocatedAnswer
  event _ := True
  fault := Fault.Quiet

def virtualLogic (ctx : PathMappingContext) : CleanerLogic (virtualParentOps ctx) where
  holds x P := x.Sat assertionContract P
  pure h := h
  bind h hnext := h.bind hnext
  parent h := by
    refine ⟨h, fun a ha buf hbuf => ?_⟩
    cases herrno : a.res.mresErrno with
    | some err =>
      simp only [Answer.parentLocation, herrno] at hbuf
      cases hbuf
    | none =>
      simp only [Answer.parentLocation, herrno] at hbuf
      obtain ⟨cs, trailing, heq, hclean, -⟩ := ha buf herrno (Except.ok.inj hbuf)
      exact ⟨cs, trailing, heq, hclean⟩
  evaluated _ := fun _ => trivial
  null := quiet_nullPointer

theorem cleanVirtualPath_assertions {list : PathEntryList} (habs : list.plFlags.absolute = true) :
    (cleanVirtualPath ctx list).Sat assertionContract ReturnsClean := by
  rw [← cleanVirtualPathLinked_eq, cleanPathLinked_eq fun _ _ => rfl]
  exact (virtualLogic ctx).cleanPath habs

theorem levelRule_assertions (h : ChrootIsAbsolute session) :
    LevelRule session ctx assertionContract (fun _ => True)
      fun _ _ source => CleanList source where
  tooDeep _ := trivial
  fault hinv hlevel := quiet_resolveUpToSymlink _ hinv _ hlevel
  answer _ _ _ := trivial
  relative hinv _ hrel := by
    rw [newList_absolute h _ hinv.absolute] at hrel
    cases hrel
  symlink hinv _ _ _ habs := by
    refine (cleanVirtualPath_assertions habs).mono fun r hr => ?_
    cases r with
    | error err => trivial
    | ok list => exact hr list rfl

theorem keeps_assertions (h : ChrootIsAbsolute session) :
    CallTree.Keeps assertionContract (resolutionBody session) := by
  intro q hq
  have hsat : (resolutionBody session q).Sat assertionContract fun _ => True :=
    (levelRule_assertions h).sat maxNesting hq
  exact (hsat.and (resolutionBody_located session q) (fun _ _ => trivial)
    (fun _ _ _ => trivial)).mono fun _ hpost => hpost.2

end Levels

/-! ## Whole runs -/

section Runs

variable {session : Session} {sb2 : Sb2Context} {ctx : PathMappingContext} {path : CStr}
  {target : PathToMap}

theorem sat_ofExcept {α : Type} {x : Except Fault α} {P : α → Prop} (h : Quiet x)
    (hP : ∀ a, x = .ok a → P a) : (ofExcept x : Run α).Sat assertionContract P := by
  cases x with
  | error f => exact h f rfl
  | ok a => exact hP a rfl

theorem quiet_reverseCwd (hostCwd : CStr) :
    Quiet (virtualReversedCwd session sb2 ctx hostCwd) := by
  have hrules : Quiet (reverseByRules session ctx hostCwd) := by
    unfold reverseByRules
    split
    · exact quiet_ok _
    · split
      · exact quiet_ok _
      · exact (quiet_ruletreeTranslatePath _ _ _).bind fun _ _ => quiet_ok _
  have hreverse : Quiet (virtualReversedCwd.reverseCwd session ctx hostCwd) := by
    unfold virtualReversedCwd.reverseCwd sboxReversePathInternal
    split
    · exact quiet_ok _
    · refine Quiet.bind ?_ fun _ _ => quiet_ok _
      split
      · exact quiet_ok _
      · exact hrules.bind fun _ _ => quiet_ok _
  unfold virtualReversedCwd
  split
  · split
    · exact quiet_ok _
    · exact hreverse
  · exact hreverse

theorem quiet_ruleSelection : Quiet (absVirtualPathForRuleSelection session sb2 ctx path) := by
  unfold absVirtualPathForRuleSelection
  split
  · dsimp only
    split
    · exact quiet_ok _
    · refine Quiet.bind ?_ fun _ _ => quiet_ok _
      unfold relativeVirtualPathToAbsPath
      split
      · exact quiet_ok _
      · exact (quiet_reverseCwd _).bind fun _ _ => quiet_ok _
  · split
    · exact quiet_ok _
    · exact quiet_ok _

def StartsAbsolute (session : Session) (sb2 : Sb2Context) (ctx : PathMappingContext)
    (path : CStr) : Prop :=
  path.head? = some '/' ∨ ∀ hostCwd reversed, session.host.getcwd = some hostCwd →
    virtualReversedCwd session sb2 ctx hostCwd = .ok reversed → reversed.head? = some '/'

theorem absolute_of_startsAbsolute (hchroot : ChrootIsAbsolute session)
    (hstart : StartsAbsolute session sb2 ctx path)
    (h : absVirtualPathForRuleSelection session sb2 ctx path = .ok (some target)) :
    target.list.plFlags.absolute = true := by
  rcases eq_or_ne path.head? (some '/') with habs | hrel
  · rw [ruleSelection_absolute habs] at h
    cases h
    have hroot : (pathForNewRoot session.sboxChrootPath path).head? = some '/' := by
      cases hroot : session.sboxChrootPath with
      | none => exact habs
      | some chroot =>
        have hslash : ('/' :: path).head? = some '/' := rfl
        have hhead := hchroot.head? hslash
        rw [hroot, Option.getD_some] at hhead
        rwa [pathForNewRoot, if_pos habs]
    rw [splitPathToPathList_plFlags]
    simpa using hroot
  · have hreversed := hstart.resolve_left hrel
    obtain ⟨hostCwd, reversed, htarget⟩ := ruleSelection_relative hrel h
    exact htarget.absolute (hreversed hostCwd reversed htarget.getcwd htarget.reversing)

theorem mapPathList_assertions (habs : target.list.plFlags.absolute = true)
    (processPathForExec : Bool) :
    (mapPathList session ctx target processPathForExec).Sat assertionContract fun _ => True := by
  unfold mapPathList
  refine (cleanVirtualPath_assertions habs).bind fun r hr => ?_
  cases r with
  | error err => trivial
  | ok list =>
    have hclean := hr list rfl
    simp only [hclean.absolute, Bool.not_true, Bool.false_eq_true, if_false]
    refine ⟨hclean, fun answer _ => ?_⟩
    refine (sat_ofExcept ?_ fun _ _ => trivial).bind fun _ _ => trivial
    unfold mapResolvedPath
    split
    · exact quiet_ok _
    · exact quiet_ok _
    · exact quiet_ok _
    · refine (quiet_ruletreeTranslatePath _ _ _).bind fun t _ => ?_
      dsimp only
      split
      · exact quiet_ok _
      · exact quiet_ok _

/-- No run of the computation ends in an assertion; nor in the bound on restarts, which would
hide what comes after it. -/
def NeverAsserts {α : Type} (session : Session) (t : Run α) : Prop :=
  ∀ n es f, t.run (level (resolutionBody session) n) = (es, .fault f) → f.Quiet

theorem neverAsserts_sboxMapPathInternal (hactive : MappingActive session sb2)
    (hchroot : ChrootIsAbsolute session) (hstart : StartsAbsolute session sb2 ctx path)
    (processPathForExec : Bool) :
    NeverAsserts session
      (sboxMapPathInternal session (some sb2) ctx path processPathForExec) := by
  intro n es f hrun
  have hsat : (sboxMapPathInternal session (some sb2) ctx path processPathForExec).Sat
      assertionContract fun _ => True := by
    unfold sboxMapPathInternal
    simp only [hactive.environment, hactive.ruletree, hactive.enabled, Bool.not_true,
      Bool.false_eq_true, if_false]
    split
    · trivial
    · refine (sat_ofExcept quiet_ruleSelection fun _ h => h).bind fun r hr => ?_
      cases r with
      | none => trivial
      | some target =>
        have habs := absolute_of_startsAbsolute hchroot hstart hr
        exact (mapPathList_assertions habs processPathForExec).bind fun _ _ => trivial
  exact hsat.sound_fault (keeps_assertions hchroot) (fun _ => trivial) hrun

theorem cleanVirtualPath_relative {list : PathEntryList} (hrel : list.plFlags.absolute = false)
    (hdotdot : Component.dotdot ∈ components list.plFirst) :
    cleanVirtualPath ctx list = fault .assertion := by
  have hrel' : (removeDotsFromPathList list).plFlags.absolute = false := hrel
  have hcrash : ∀ n, cleanDotdotsFromPath (virtualParentOps ctx) n (removeDotsFromPathList list) =
      fault .assertion := by
    intro n
    cases n with
    | zero => simp [cleanDotdotsFromPath, cleanDotdotsPass, hrel', virtualParentOps]
    | succ n => simp [cleanDotdotsFromPath, cleanDotdotsPass, hrel', virtualParentOps]
  rw [cleanVirtualPath, isCleanPath_eq_dotdot.2 hdotdot]
  exact hcrash _

theorem relativeChroot_asserts (hactive : MappingActive session sb2) {chroot : CStr}
    (hchroot : session.sboxChrootPath = some chroot) (hne : chroot ≠ [])
    (hrel : chroot.head? ≠ some '/') (ctx : PathMappingContext) :
    (sboxMapPathInternal session (some sb2) ctx "/..".toList false).run
      (level (resolutionBody session) 0) = ([], .fault .assertion) := by
  have hselect : absVirtualPathForRuleSelection session sb2 ctx "/..".toList =
      .ok (some
        { list := splitPathToPathList (chroot ++ '/' :: "/..".toList), sb2ctx := sb2 }) := by
    rw [ruleSelection_absolute rfl, hchroot]
    rfl
  obtain ⟨c, rest, rfl⟩ := List.exists_cons_of_ne_nil hne
  have hflag : (splitPathToPathList (c :: rest ++ '/' :: "/..".toList)).plFlags.absolute =
      false := by
    rw [splitPathToPathList_plFlags]
    simpa using hrel
  have hdotdot : Component.dotdot ∈
      components (splitPathToPathList (c :: rest ++ '/' :: "/..".toList)).plFirst := by
    rw [splitPathToPathList_plFirst, components_freshEntries, Token.tokens_append_sep]
    exact List.mem_append_right _ (by decide)
  have hmap : sboxMapPathInternal session (some sb2) ctx "/..".toList false = fault .assertion := by
    have hempty : "/..".toList.isEmpty = false := by decide
    unfold sboxMapPathInternal
    simp only [hempty, hactive.environment, hactive.ruletree, hactive.enabled, Bool.not_true,
      Bool.false_eq_true, if_false, hselect]
    rw [ofExcept_ok, ret_bind]
    unfold mapPathList
    dsimp only
    rw [cleanVirtualPath_relative hflag hdotdot]
    rfl
  rw [hmap]
  rfl

/-- The functions on cells, whose assertions check the links, do what the functions on lists
do. -/
def LinksKept : Prop :=
  (∀ ctx list, cleanPathLinked (virtualParentOps ctx) list = cleanVirtualPath ctx list) ∧
    ∀ host hostPath, cleanAndLogFsMappingResultLinked host hostPath =
      cleanAndLogFsMappingResult host hostPath

theorem linksKept : LinksKept :=
  ⟨cleanVirtualPathLinked_eq, cleanAndLogFsMappingResultLinked_eq⟩

/-- No assertion fails, whatever the path, the links and the rules are, exactly if the chroot
directory is not relative. -/
theorem path_assertions_hold_iff (hactive : MappingActive session sb2) :
    (LinksKept ∧ ∀ ctx path processPathForExec, StartsAbsolute session sb2 ctx path →
      NeverAsserts session
        (sboxMapPathInternal session (some sb2) ctx path processPathForExec)) ↔
      ChrootIsAbsolute session := by
  constructor
  · rintro ⟨-, hnever⟩ chroot hchroot
    by_contra hnot
    rw [not_or] at hnot
    have hrun := relativeChroot_asserts hactive hchroot hnot.1 hnot.2 exampleContext
    exact (hnever exampleContext "/..".toList false (.inl rfl) 0 [] .assertion hrun).assertion rfl
  · intro hchroot
    exact ⟨linksKept, fun ctx path exec hstart =>
      neverAsserts_sboxMapPathInternal hactive hchroot hstart exec⟩

end Runs

/-- Inside of the chroot directory `/c`. -/
theorem path_assertions_hold_in_c :
    MappingActive (linkSession relativeLink (some "/c".toList)) {} ∧
      NeverAsserts (linkSession relativeLink (some "/c".toList))
        (sboxMapPathInternal (linkSession relativeLink (some "/c".toList)) (some {})
          exampleContext "/d/l/../x".toList false) := by
  have hactive : MappingActive (linkSession relativeLink (some "/c".toList)) {} :=
    ⟨rfl, rfl, rfl⟩
  have hchroot : ChrootIsAbsolute (linkSession relativeLink (some "/c".toList)) := by
    rintro _ heq
    cases heq
    exact .inr rfl
  exact ⟨hactive, ((path_assertions_hold_iff hactive).mpr hchroot).2 _ _ _ (.inl rfl)⟩

/-- `__SB2_CHROOT_PATH` is taken from the environment as it is; with `x`, the path `/..` becomes
`x//..`. -/
theorem relative_chroot_fails :
    MappingActive (linkSession [] (some ['x'])) {} ∧
      (sboxMapPathInternal (linkSession [] (some ['x'])) (some {}) exampleContext "/..".toList
        false).run (level (resolutionBody (linkSession [] (some ['x']))) 0) =
        ([], .fault .assertion) ∧
      ¬ NeverAsserts (linkSession [] (some ['x']))
        (sboxMapPathInternal (linkSession [] (some ['x'])) (some {}) exampleContext "/..".toList
          false) := by
  have hactive : MappingActive (linkSession [] (some ['x'])) {} := ⟨rfl, rfl, rfl⟩
  have hrun := relativeChroot_asserts hactive rfl (List.cons_ne_nil 'x' []) (by decide)
    exampleContext
  exact ⟨hactive, hrun, fun hnever => (hnever 0 [] .assertion hrun).assertion rfl⟩

end Scratchbox
