import Scratchbox.Resolution
import Scratchbox.Lib.CallRules

/-!
# What one level of path resolution does

Inversion lemmas for the code between two symbolic links. `resolveUpToSymlink`
ends in one of four ways (`LevelCases`); the results about whole resolutions are
inductions that use this and not the code of the loop.
-/

namespace Scratchbox

open CallTree List

variable {session : Session} {ctx : PathMappingContext} {res : MappingResults}
  {hostPath : Option CStr} {unchecked : List (Option CStr)} {before rest : List PathEntry}
  {source : PathEntryList} {rules : List FsRule} {path : CStr} {flags : RuleFlags}
  {walkEnd : WalkEnd} {dest : LinkText} {es : List Event} {w : WalkContext} {q : Question}
  {host : Host} {a : Answer}

/-- Results that agree in the errno and in the resolved path; translations change
neither. -/
structure SameResult (res res' : MappingResults) : Prop where
  errno : res'.mresErrno = res.mresErrno
  buf : res'.mresResultBuf = res.mresResultBuf

theorem SameResult.rfl : SameResult res res := ⟨Eq.refl _, Eq.refl _⟩

theorem SameResult.trans {res₁ res₂ res₃ : MappingResults} (h : SameResult res₁ res₂)
    (h' : SameResult res₂ res₃) : SameResult res₁ res₃ :=
  ⟨h'.errno.trans h.errno, h'.buf.trans h.buf⟩

/-- How the loop ends: all components were passed, a component could not be
examined, or a symbolic link was met. -/
inductive WalkCases (session : Session) (w : WalkContext) (res : MappingResults)
    (entries : List PathEntry) : WalkEnd → Prop
  | finish {res' : MappingResults} : SameResult res res' →
      WalkCases session w res entries (.answer (w.finish res'))
  | failed {res' : MappingResults} {err : Errno} : SameResult res res' →
      WalkCases session w res entries (.answer ⟨none, { res' with mresErrno := some err }⟩)
  | symlink {dest : LinkText} {before next : List PathEntry} {link : PathEntry}
      {res' : MappingResults} {path : CStr} : before.reverse ++ link :: next = entries →
      SameResult res res' → session.host.readlink path = .ok dest →
      WalkCases session w res entries (.symlink dest before next res')

theorem componentStatus_symlink {work : PathEntry} {isLast : Bool}
    (h : componentStatus host ctx work hostPath isLast = .symlink dest) :
    ∃ path, hostPath = some path ∧ host.readlink path = .ok dest := by
  unfold componentStatus at h
  split at h
  · cases h
  · cases hostPath with
    | none => cases h
    | some path =>
      refine ⟨path, rfl, ?_⟩
      rw [examineComponent] at h
      cases hread : host.readlink path with
      | ok dest' =>
        simp only [hread] at h
        cases h
        rfl
      | error err =>
        simp only [hread] at h
        repeat' split at h
        all_goals cases h

theorem nextHostPath_same {upToNext : List PathEntry} {nextComponent : Component}
    {hostPath' : Option CStr} {flags' : RuleFlags} {res' : MappingResults}
    (h : nextHostPath session w upToNext nextComponent hostPath flags res =
      .ok (hostPath', flags', res')) : SameResult res res' := by
  unfold nextHostPath at h
  split at h
  · obtain ⟨t, -, h⟩ := Except.bind_eq_ok_iff.1 h
    cases h
    exact ⟨rfl, rfl⟩
  · cases h
    exact .rfl

section Walk

variable {next : List PathEntry} {work e : PathEntry}

theorem walk_stop
    (hstop : stopsBefore session w.ctx w.source.plFlags.hasTrailingSlash flags
      next.isEmpty = true) :
    walk session w res before (work :: next) hostPath flags =
      .ok ([], .answer (w.finish res)) := by
  rw [walk.eq_def]
  simp [hstop]

theorem walk_failed {err : Errno}
    (hstop : stopsBefore session w.ctx w.source.plFlags.hasTrailingSlash flags
      next.isEmpty = false)
    (hstatus : componentStatus session.host w.ctx work hostPath next.isEmpty = .failed err) :
    walk session w res before (work :: next) hostPath flags =
      .ok (uncheckedPath work hostPath, .answer ⟨none, { res with mresErrno := some err }⟩) := by
  rw [walk.eq_def]
  simp [hstop, hstatus]

theorem walk_symlink {dest : LinkText}
    (hstop : stopsBefore session w.ctx w.source.plFlags.hasTrailingSlash flags
      next.isEmpty = false)
    (hstatus : componentStatus session.host w.ctx work hostPath next.isEmpty = .symlink dest) :
    walk session w res before (work :: next) hostPath flags =
      .ok (uncheckedPath work hostPath, .symlink dest before next res) := by
  rw [walk.eq_def]
  simp [hstop, hstatus]

theorem walk_last
    (hstop : stopsBefore session w.ctx w.source.plFlags.hasTrailingSlash flags true = false)
    (hstatus : componentStatus session.host w.ctx work hostPath true = .passed) :
    walk session w res before [work] hostPath flags =
      .ok (uncheckedPath work hostPath, .answer (w.finish res)) := by
  rw [walk.eq_def]
  simp [hstop, hstatus]

theorem walk_next
    (hstop : stopsBefore session w.ctx w.source.plFlags.hasTrailingSlash flags false = false)
    (hstatus : componentStatus session.host w.ctx work hostPath false = .passed) :
    walk session w res before (work :: e :: rest) hostPath flags =
      (do
        let (hostPath', flags', res') ←
          nextHostPath session w (before.reverse ++ [work, e]) e.pePathComponent hostPath flags res
        let (more, walkEnd) ← walk session w res' (work :: before) (e :: rest) hostPath' flags'
        pure (uncheckedPath work hostPath ++ more, walkEnd)) := by
  rw [walk.eq_def]
  simp [hstop, hstatus]

theorem walk_next_ok
    (hstop : stopsBefore session w.ctx w.source.plFlags.hasTrailingSlash flags false = false)
    (hstatus : componentStatus session.host w.ctx work hostPath false = .passed)
    (h : walk session w res before (work :: e :: rest) hostPath flags = .ok (unchecked, walkEnd)) :
    ∃ hostPath' flags' res' more,
      nextHostPath session w (before.reverse ++ [work, e]) e.pePathComponent hostPath flags res =
        .ok (hostPath', flags', res') ∧
      walk session w res' (work :: before) (e :: rest) hostPath' flags' = .ok (more, walkEnd) ∧
      unchecked = uncheckedPath work hostPath ++ more := by
  rw [walk_next hstop hstatus] at h
  obtain ⟨⟨hostPath', flags', res'⟩, hnext, h⟩ := Except.bind_eq_ok_iff.1 h
  obtain ⟨⟨more, walkEnd'⟩, hwalk, h⟩ := Except.bind_eq_ok_iff.1 h
  cases h
  exact ⟨hostPath', flags', res', more, hnext, hwalk, rfl⟩

end Walk

theorem walk_cases (h : walk session w res before rest hostPath flags = .ok (unchecked, walkEnd)) :
    WalkCases session w res (before.reverse ++ rest) walkEnd := by
  induction rest generalizing res before hostPath flags unchecked walkEnd with
  | nil =>
    cases h
    exact .finish .rfl
  | cons work next ih =>
    cases hstop : stopsBefore session w.ctx w.source.plFlags.hasTrailingSlash flags
        next.isEmpty with
    | true =>
      rw [walk_stop hstop] at h
      cases h
      exact .finish .rfl
    | false =>
      cases hstatus : componentStatus session.host w.ctx work hostPath next.isEmpty with
      | failed err =>
        rw [walk_failed hstop hstatus] at h
        cases h
        exact .failed .rfl
      | symlink dest =>
        rw [walk_symlink hstop hstatus] at h
        cases h
        obtain ⟨path, -, hread⟩ := componentStatus_symlink hstatus
        exact .symlink rfl .rfl hread
      | passed =>
        cases next with
        | nil =>
          rw [walk_last hstop hstatus] at h
          cases h
          exact .finish .rfl
        | cons e rest =>
          obtain ⟨hostPath', flags', res', more, hnext, hwalk, -⟩ := walk_next_ok hstop hstatus h
          have hcases := ih hwalk
          rw [reverse_cons, append_assoc, singleton_append] at hcases
          have hsame := nextHostPath_same hnext
          cases hcases with
          | finish hres => exact .finish (hsame.trans hres)
          | failed hres => exact .failed (hsame.trans hres)
          | symlink hsplit hres hread => exact .symlink hsplit (hsame.trans hres) hread

theorem skipComponents_split {minLen skipped : Nat} {before' rest' : List PathEntry}
    (h : skipComponents minLen skipped before rest = some (before', rest')) :
    before'.reverse ++ rest' = before.reverse ++ rest := by
  induction rest generalizing skipped before with
  | nil =>
    rw [skipComponents] at h
    split at h
    · cases h
    · cases h
      rfl
  | cons work next ih =>
    rw [skipComponents] at h
    split at h
    · rw [ih h, reverse_cons, append_assoc, singleton_append]
    · cases h
      rfl

theorem ruletreeGetMappingRequirements_rule {req : MappingRequirements}
    (h : ruletreeGetMappingRequirements rules ctx source = some req) :
    ruletreeFindRule ctx (pathListToString source) rules = some (req.rule, req.minPathLen) := by
  unfold ruletreeGetMappingRequirements at h
  obtain ⟨⟨rule, len⟩, hfind, hreq⟩ := Option.map_eq_some_iff.1 h
  rw [hfind, ← hreq]

theorem ruletreeTranslatePath_flags {rule : FsRule} {t : Translation}
    (h : ruletreeTranslatePath host (some rule) path = .ok t) :
    ∃ result, executeRule host rule path = .ok result ∧ t.flags = result.flags := by
  unfold ruletreeTranslatePath at h
  obtain ⟨result, hrule, h⟩ := Except.bind_eq_ok_iff.1 h
  refine ⟨result, hrule, ?_⟩
  dsimp only at h
  split at h
  · cases h
    rfl
  · split at h
    · cases h
      rfl
    · obtain ⟨cleaned, -, h⟩ := Except.bind_eq_ok_iff.1 h
      cases cleaned with
      | none =>
        cases h
        rfl
      | some newHostPath =>
        cases h
        rfl

/-- How a level of path resolution ends: without a rule, with an error, with the
source path and the rule selected for it, or at a symbolic link of the source
path. -/
inductive LevelCases (session : Session) (ctx : PathMappingContext) (res : MappingResults)
    (source : PathEntryList) : WalkEnd → Prop
  | noRule {a : Answer} : a.rule = none → SameResult res a.res →
      (session.modename = none ∨
        ruletreeFindRule ctx (pathListToString source) session.fwdRules = none) →
      LevelCases session ctx res source (.answer a)
  | failed {res' : MappingResults} {err : Errno} : SameResult res res' →
      LevelCases session ctx res source (.answer ⟨none, { res' with mresErrno := some err }⟩)
  | finish {rule : FsRule} {minPathLen : Nat} {res' : MappingResults} :
      ruletreeFindRule ctx (pathListToString source) session.fwdRules = some (rule, minPathLen) →
      SameResult res res' →
      LevelCases session ctx res source (.answer ⟨some rule,
        { res' with
          mresResultBuf := some (pathListToString source)
          mresResultPath := some (pathListToString source) }⟩)
  | symlink {dest : LinkText} {before next : List PathEntry} {link : PathEntry}
      {res' : MappingResults} {path : CStr} : before.reverse ++ link :: next = source.plFirst →
      SameResult res res' → session.host.readlink path = .ok dest →
      LevelCases session ctx res source (.symlink dest before next res')

theorem ruletreeGetRuleListOffs_fwd
    (h : ruletreeGetRuleListOffs session true = .ok rules) : rules = session.fwdRules := by
  unfold ruletreeGetRuleListOffs at h
  split at h
  · cases h
  · split at h
    · cases h
    · cases h
      rfl

theorem ruletreeGetRuleListOffs_error {errormsg : String}
    (h : ruletreeGetRuleListOffs session true = .error errormsg) :
    session.modename = none ∨ session.fwdRules = [] := by
  unfold ruletreeGetRuleListOffs at h
  split at h
  · exact .inl (Option.isNone_iff_eq_none.1 (by assumption))
  · split at h
    · exact .inr (isEmpty_iff.1 (by assumption))
    · cases h

/-- The loop is entered: there is a rule for the path, the components of its selector are skipped,
and the path up to the first other component is translated. -/
structure LevelStart (session : Session) (ctx : PathMappingContext) (source : PathEntryList)
    (req : MappingRequirements) (t : Translation) (before rest : List PathEntry) : Prop where
  rules : ruletreeGetRuleListOffs session true = .ok session.fwdRules
  required : ruletreeGetMappingRequirements session.fwdRules ctx source = some req
  skipped : skipComponents req.minPathLen 1 [] source.plFirst = some (before, rest)
  translated : ruletreeTranslatePath session.host (some req.rule)
    (pathEntriesToString (before.reverse ++ rest.take 1) { absolute := true }) = .ok t

/-- The context of the loop. -/
def MappingRequirements.walkContext (req : MappingRequirements) (ctx : PathMappingContext)
    (source : PathEntryList) : WalkContext :=
  ⟨ctx, req.rule, req.callTranslateForAll, source⟩

/-- What one level does. -/
inductive LevelRun (session : Session) (ctx : PathMappingContext) (res : MappingResults)
    (source : PathEntryList) (unchecked : List (Option CStr)) : WalkEnd → Prop
  | noRule {errormsg : Option String} : unchecked = [] →
      (session.modename = none ∨
        ruletreeFindRule ctx (pathListToString source) session.fwdRules = none) →
      (∀ req t before rest, ¬ LevelStart session ctx source req t before rest) →
      LevelRun session ctx res source unchecked
        (.answer ⟨none, { res with mresErrormsg := errormsg }⟩)
  | walk {req : MappingRequirements} {t : Translation} {before rest : List PathEntry}
      {walkEnd : WalkEnd} : LevelStart session ctx source req t before rest →
      walk session (req.walkContext ctx source) (res.withTranslation t) before rest t.hostPath
        t.flags = .ok (unchecked, walkEnd) →
      LevelRun session ctx res source unchecked walkEnd

theorem resolveUpToSymlink_run
    (h : resolveUpToSymlink session ctx res source = .ok (unchecked, walkEnd)) :
    source.plFlags.absolute = true ∧ Clean (components source.plFirst) ∧
      LevelRun session ctx res source unchecked walkEnd := by
  unfold resolveUpToSymlink at h
  cases habs : source.plFlags.absolute with
  | false =>
    rw [habs] at h
    cases h
  | true =>
    by_cases hclean : isCleanPath source.plFirst = .clean
    · refine ⟨rfl, isCleanPath_eq_clean.1 hclean, ?_⟩
      simp only [habs, hclean, Bool.not_true, Bool.false_eq_true, if_false, ne_eq,
        not_true_eq_false] at h
      cases hrules : ruletreeGetRuleListOffs session true with
      | error errormsg =>
        rw [hrules] at h
        cases h
        refine .noRule rfl ((ruletreeGetRuleListOffs_error hrules).imp id fun hnil => ?_)
          fun _ _ _ _ hstart => nomatch hrules.symm.trans hstart.rules
        rw [hnil, ruletreeFindRule]
      | ok rules =>
        rw [hrules] at h
        obtain rfl := ruletreeGetRuleListOffs_fwd hrules
        cases hreq : ruletreeGetMappingRequirements session.fwdRules ctx source with
        | none =>
          simp only [hreq] at h
          cases h
          exact .noRule rfl (.inr (Option.map_eq_none_iff.1 hreq)) fun _ _ _ _ hstart =>
            nomatch hreq.symm.trans hstart.required
        | some req =>
          simp only [hreq] at h
          cases hskip : skipComponents req.minPathLen 1 [] source.plFirst with
          | none =>
            simp only [hskip] at h
            cases h
          | some split =>
            simp only [hskip] at h
            obtain ⟨t, ht, hwalk⟩ := Except.bind_eq_ok_iff.1 h
            exact .walk ⟨hrules, hreq, hskip, ht⟩ hwalk
    · simp [habs, hclean] at h

theorem resolveUpToSymlink_cases
    (h : resolveUpToSymlink session ctx res source = .ok (unchecked, walkEnd)) :
    source.plFlags.absolute = true ∧ Clean (components source.plFirst) ∧
      LevelCases session ctx res source walkEnd := by
  obtain ⟨habs, hclean, hrun⟩ := resolveUpToSymlink_run h
  refine ⟨habs, hclean, ?_⟩
  cases hrun with
  | noRule _ hnone _ => exact .noRule rfl ⟨rfl, rfl⟩ hnone
  | walk hstart hwalk =>
    have hcases := walk_cases hwalk
    rw [skipComponents_split hstart.skipped] at hcases
    cases hcases with
    | finish hres =>
      exact .finish (ruletreeGetMappingRequirements_rule hstart.required) ⟨hres.errno, hres.buf⟩
    | failed hres => exact .failed ⟨hres.errno, hres.buf⟩
    | symlink hlink hres hread => exact .symlink hlink ⟨hres.errno, hres.buf⟩ hread

/-! ## One call as a tree -/

section Call

variable {next : List PathEntry} {res' : MappingResults}

theorem sbPathResolution_fault {f : Fault}
    (h : resolveUpToSymlink session ctx res source = .error f) (left : Nat) :
    sbPathResolution session (left + 1) ctx res source = fault f := by
  rw [sbPathResolution, h]
  rfl

theorem sbPathResolution_answer {a : Answer}
    (h : resolveUpToSymlink session ctx res source = .ok (unchecked, .answer a)) (left : Nat) :
    sbPathResolution session (left + 1) ctx res source =
      (unchecked.forM fun hostPath => report (.unchecked hostPath)) >>= fun _ => ret a := by
  rw [sbPathResolution, h]
  rfl

theorem sbPathResolution_relative
    (h : resolveUpToSymlink session ctx res source =
      .ok (unchecked, .symlink dest before next res'))
    (hrel : (newAbsVirtualLinkDestPathList session dest source.plFlags before
      next).plFlags.absolute = false) (left : Nat) :
    sbPathResolution session (left + 1) ctx res source =
      (unchecked.forM fun hostPath => report (.unchecked hostPath)) >>= fun _ =>
        log (.symlink dest) (fault .assertion) := by
  rw [sbPathResolution, h]
  have hcall : sbPathResolutionResolveSymlink session (sbPathResolution session left) ctx dest
      source.plFlags before next res' = fault .assertion := by
    unfold sbPathResolutionResolveSymlink
    exact if_pos (by rw [hrel]; rfl)
  change (_ >>= fun _ => log (.symlink dest) (sbPathResolutionResolveSymlink session
    (sbPathResolution session left) ctx dest source.plFlags before next res')) = _
  rw [hcall]

theorem sbPathResolution_symlink
    (h : resolveUpToSymlink session ctx res source =
      .ok (unchecked, .symlink dest before next res'))
    (habs : (newAbsVirtualLinkDestPathList session dest source.plFlags before
      next).plFlags.absolute = true) (left : Nat) :
    sbPathResolution session (left + 1) ctx res source =
      (unchecked.forM fun hostPath => report (.unchecked hostPath)) >>= fun _ =>
        log (.symlink dest) (cleanVirtualPath ctx
          (newAbsVirtualLinkDestPathList session dest source.plFlags before next) >>= fun
            | .error err => ret ⟨none, { res' with mresErrno := some err }⟩
            | .ok list => sbPathResolution session left ctx res' list) := by
  rw [sbPathResolution, h]
  have hcall : sbPathResolutionResolveSymlink session (sbPathResolution session left) ctx dest
      source.plFlags before next res' = cleanVirtualPath ctx
        (newAbsVirtualLinkDestPathList session dest source.plFlags before next) >>= fun
          | .error err => ret ⟨none, { res' with mresErrno := some err }⟩
          | .ok list => sbPathResolution session left ctx res' list := by
    unfold sbPathResolutionResolveSymlink
    exact if_neg (by simp [habs])
  change (_ >>= fun _ => log (.symlink dest) (sbPathResolutionResolveSymlink session
    (sbPathResolution session left) ctx dest source.plFlags before next res')) = _
  rw [hcall]

end Call

/-! ## A rule for whole resolutions -/

section Rule

variable {S : Contract Question Answer Event Fault} {P : Answer → Prop}
  {Inv : Nat → MappingResults → PathEntryList → Prop}

/-- What a level must do to keep an invariant of the nested calls left, the results
and the list with which `sb_path_resolution` is called. -/
structure LevelRule (session : Session) (ctx : PathMappingContext)
    (S : Contract Question Answer Event Fault) (P : Answer → Prop)
    (Inv : Nat → MappingResults → PathEntryList → Prop) : Prop where
  tooDeep {res : MappingResults} {source : PathEntryList} : Inv 0 res source →
    P ⟨none, { res with mresErrno := some .ELOOP }⟩
  fault {left : Nat} {res : MappingResults} {source : PathEntryList} {f : Fault} :
    Inv (left + 1) res source →
    resolveUpToSymlink session ctx res source = .error f → S.fault f
  answer {left : Nat} {res : MappingResults} {source : PathEntryList}
    {unchecked : List (Option CStr)} {a : Answer} : Inv (left + 1) res source →
    resolveUpToSymlink session ctx res source = .ok (unchecked, .answer a) →
    (∀ path ∈ unchecked, S.event (.unchecked path)) → P a
  relative {left : Nat} {res res' : MappingResults} {source : PathEntryList}
    {unchecked : List (Option CStr)} {dest : LinkText} {before next : List PathEntry} :
    Inv (left + 1) res source →
    resolveUpToSymlink session ctx res source = .ok (unchecked, .symlink dest before next res') →
    (newAbsVirtualLinkDestPathList session dest source.plFlags before
      next).plFlags.absolute = false →
    S.fault .assertion
  symlink {left : Nat} {res res' : MappingResults} {source : PathEntryList}
    {unchecked : List (Option CStr)} {dest : LinkText} {before next : List PathEntry} :
    Inv (left + 1) res source →
    resolveUpToSymlink session ctx res source = .ok (unchecked, .symlink dest before next res') →
    (∀ path ∈ unchecked, S.event (.unchecked path)) → S.event (.symlink dest) →
    (newAbsVirtualLinkDestPathList session dest source.plFlags before
      next).plFlags.absolute = true →
    (cleanVirtualPath ctx (newAbsVirtualLinkDestPathList session dest source.plFlags before
      next)).Sat S fun
        | .error err => P ⟨none, { res' with mresErrno := some err }⟩
        | .ok list => Inv left res' list

/-- An invariant kept at every symbolic link gives the postcondition of the whole
resolution. The induction is on the number of nested calls left. -/
theorem LevelRule.sat (hrule : LevelRule session ctx S P Inv) (left : Nat)
    {source : PathEntryList} (hinv : Inv left res source) :
    (sbPathResolution session left ctx res source).Sat S P := by
  induction left generalizing res source with
  | zero => exact hrule.tooDeep hinv
  | succ left ih =>
    cases hlevel : resolveUpToSymlink session ctx res source with
    | error f =>
      rw [sbPathResolution_fault hlevel]
      exact hrule.fault hinv hlevel
    | ok result =>
      obtain ⟨unchecked, walkEnd⟩ := result
      cases walkEnd with
      | answer a =>
        rw [sbPathResolution_answer hlevel]
        exact sat_forM_report.2 fun hunchecked => hrule.answer hinv hlevel hunchecked
      | symlink dest before next res' =>
        cases habs : (newAbsVirtualLinkDestPathList session dest source.plFlags before
            next).plFlags.absolute with
        | false =>
          rw [sbPathResolution_relative hlevel habs]
          exact sat_forM_report.2 fun _ _ => hrule.relative hinv hlevel habs
        | true =>
          rw [sbPathResolution_symlink hlevel habs]
          refine sat_forM_report.2 fun hunchecked hdest => ?_
          refine (hrule.symlink hinv hlevel hunchecked hdest habs).bind fun r hr => ?_
          cases r with
          | error err => exact hr
          | ok list => exact ih hr

end Rule

theorem cleanQuestion_of_answers (h : Answers (resolutionBody session) q es a) :
    q.absVirtualCleanSourcePathList.plFlags.absolute = true ∧
      Clean (components q.absVirtualCleanSourcePathList.plFirst) := by
  have h' : Yields (resolutionBody session) (resolutionBody session q) es a := h
  cases hlevel : resolveUpToSymlink session q.ctx {} q.absVirtualCleanSourcePathList with
  | error f =>
    rw [resolutionBody, maxNesting, sbPathResolution_fault hlevel] at h'
    exact absurd h' not_yields_fault
  | ok result =>
    obtain ⟨habs, hclean, -⟩ := resolveUpToSymlink_cases hlevel
    exact ⟨habs, hclean⟩

theorem yields_lookUp {list : PathEntryList} {r : Except Errno Answer} :
    Yields (resolutionBody session) (lookUp ctx list) es r ↔
      (∃ err, Yields (resolutionBody session) (cleanVirtualPath ctx list) es (.error err) ∧
        r = .error err) ∨
      ∃ list' es₁ es₂ a,
        Yields (resolutionBody session) (cleanVirtualPath ctx list) es₁ (.ok list') ∧
        Answers (resolutionBody session) ⟨ctx, list'⟩ es₂ a ∧ r = .ok a ∧ es = es₁ ++ es₂ := by
  unfold lookUp
  rw [yields_bind]
  constructor
  · rintro ⟨es₁, c, es₂, hclean, hrest, rfl⟩
    cases c with
    | error err =>
      obtain ⟨rfl, rfl⟩ := yields_ret.1 hrest
      exact .inl ⟨err, by rwa [append_nil], rfl⟩
    | ok list' =>
      obtain ⟨es₃, a, es₄, ha, hret, rfl⟩ := yields_call.1 hrest
      obtain ⟨rfl, rfl⟩ := yields_ret.1 hret
      exact .inr ⟨list', es₁, es₃, a, hclean, ha, rfl, by rw [append_nil]⟩
  · rintro (⟨err, hclean, rfl⟩ | ⟨list', es₁, es₂, a, hclean, ha, rfl, rfl⟩)
    · exact ⟨es, .error err, [], hclean, yields_ret.2 ⟨rfl, rfl⟩, (append_nil es).symm⟩
    · refine ⟨es₁, .ok list', es₂, hclean, ?_, rfl⟩
      exact yields_call.2 ⟨es₂, a, [], ha, yields_ret.2 ⟨rfl, rfl⟩, (append_nil es₂).symm⟩

/-! ## A host for examples -/

/-- A host on which the given paths are symbolic links and all others are
directories. -/
def linkHost (links : List (CStr × LinkText)) : Host where
  readlink path :=
    match links.find? fun link => link.1 = path with
    | some link => .ok link.2
    | none => .error .EINVAL
  stat _ := .ok .directory
  pathExists _ := true
  realpath _ := none
  getenv _ := none
  getcwd := some ['/']
  euidIsRoot := false
  activeExecPolicyName := none
  procfsMappingRequest _ := none
  prepUnionDir _ _ := none

theorem mem_of_readlink_linkHost {links : List (CStr × LinkText)}
    (h : (linkHost links).readlink path = .ok dest) : (path, dest) ∈ links := by
  simp only [linkHost] at h
  cases hfind : links.find? fun link => link.1 = path with
  | none =>
    rw [hfind] at h
    cases h
  | some link =>
    rw [hfind] at h
    cases h
    have hpath : link.1 = path := by simpa using find?_some hfind
    rw [← hpath]
    exact mem_of_find?_eq_some hfind

def rootRule : FsRule :=
  { ruleOffs := 1, selectorType := some .selDir, selector := some ['/'],
    actionType := .useOrigPath }

def linkSession (links : List (CStr × LinkText)) (sboxChrootPath : Option CStr) : Session :=
  { host := linkHost links
    ruletreeInMemory := true
    modename := some "simple".toList
    fwdRules := [rootRule]
    revRules := [rootRule]
    sboxChrootPath }

def relativeLink : List (CStr × LinkText) := [("/d/l".toList, ⟨"m".toList, by decide⟩)]

def exampleContext : PathMappingContext := { pmcBinaryName := "ls".toList, pmcFnClass := 2 }

/-- Whether a run that needs at most three levels of questions returns, with events
and a value that pass the check. -/
def runEnds {α : Type} (session : Session) (t : Run α) (check : List Event → α → Bool) : Bool :=
  match t.run (level (resolutionBody session) 3) with
  | (es, .ok a) => check es a
  | _ => false

theorem exists_of_runEnds {α : Type} {t : Run α} {check : List Event → α → Bool}
    (h : runEnds session t check = true) :
    ∃ es a, Yields (resolutionBody session) t es a ∧ check es a = true := by
  unfold runEnds at h
  split at h
  · rename_i es a hrun
    exact ⟨es, a, ⟨3, hrun⟩, h⟩
  · cases h

theorem exists_answers (h : runEnds session (ask q) (fun _ b => b = a) = true) :
    ∃ es, Answers (resolutionBody session) q es a := by
  obtain ⟨es, b, hrun, hcheck⟩ := exists_of_runEnds h
  obtain rfl := of_decide_eq_true hcheck
  obtain ⟨es₁, c, es₂, hanswer, hret, -⟩ := yields_call.1 hrun
  obtain ⟨-, rfl⟩ := yields_ret.1 hret
  exact ⟨es₁, hanswer⟩

def pathAnswer (rule : FsRule) (path : CStr) : Answer :=
  ⟨some rule, { mresResultBuf := some path, mresResultPath := some path }⟩

/-- Whether a look-up that needs at most three levels of questions returns, with the
given events and answer. -/
def lookUpEnds (session : Session) (path : CStr) (p : List Event → Answer → Bool) : Bool :=
  match (lookUp exampleContext (splitPathToPathList path)).run
      (level (resolutionBody session) 3) with
  | (es, .ok (.ok a)) => p es a
  | _ => false

theorem exists_of_lookUpEnds {p : List Event → Answer → Bool}
    (h : lookUpEnds session path p = true) :
    ∃ es a, Yields (resolutionBody session)
      (lookUp exampleContext (splitPathToPathList path)) es (.ok a) ∧ p es a = true := by
  unfold lookUpEnds at h
  split at h
  · rename_i es a hrun
    exact ⟨es, a, ⟨3, hrun⟩, h⟩
  · cases h

def Answer.isPath (a : Answer) (path : CStr) : Bool :=
  a.res.mresErrno = none ∧ a.res.mresResultBuf = some path

end Scratchbox
