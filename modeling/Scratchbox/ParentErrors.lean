import Scratchbox.CleanRules
import Scratchbox.HostCleaning
import Scratchbox.LookUps

/-!
# Parents that cannot be resolved

`sb_path_resolution` tells in three ways that it failed: by an errno, by a message, and by returning
no path. `clean_dotdots_from_path` looks at the errno only, and there is one exactly if the look-up
ends at a component that cannot be examined or at too many links (`FailsWith`), so exactly these
failures are reported (`unresolvable_parent_reported_iff`). If no rule matches there is no errno,
and the cleaner goes on with the missing path (`unmatched_parent_crashes`).
-/

namespace Scratchbox

open CallTree

/-- One of the three signs of failure. -/
def Answer.Failed (a : Answer) : Prop :=
  a.res.mresErrno ≠ none ∨ a.res.mresErrormsg ≠ none ∨ a.res.mresResultBuf = none

/-! ## Look-ups that fail -/

/-- The look-up ends at a component that cannot be examined at its host path, or there are too
many links. The component is one of the path itself, of the path that a link leads to, or of a
directory that is looked up because a `..` stands behind it in the path of a link. -/
inductive FailsWith (session : Session) (err : Errno) : Nat → Question → Prop
  | tooManyLinks {q : Question} : err = .ELOOP → FailsWith session err 0 q
  | component {left : Nat} {ctx : PathMappingContext} {source : PathEntryList}
      {before next : List PathEntry} :
      LevelMeets session ctx source (.failed err) before next →
      FailsWith session err (left + 1) ⟨ctx, source⟩
  | parent {left : Nat} {ctx : PathMappingContext} {source : PathEntryList} {dest : LinkText}
      {before next : List PathEntry} {q : Question} {a : Answer}
      {t : Run (Except Errno PathEntryList)} :
      LevelMeets session ctx source (.symlink dest) before next →
      GoesOn (resolutionBody session)
        (cleanVirtualPath ctx (linkPath session source dest before next)) q a t →
      FailsWith session err maxNesting q → FailsWith session err (left + 1) ⟨ctx, source⟩
  | behindLink {left : Nat} {ctx : PathMappingContext} {source list : PathEntryList}
      {dest : LinkText} {before next : List PathEntry} {es : List Event} :
      LevelMeets session ctx source (.symlink dest) before next →
      Yields (resolutionBody session)
        (cleanVirtualPath ctx (linkPath session source dest before next)) es (.ok list) →
      FailsWith session err left ⟨ctx, list⟩ → FailsWith session err (left + 1) ⟨ctx, source⟩

theorem yields_behind_reports {γ β : Type} (xs : List γ) (f : γ → Event) (t : Run β) {b : β}
    {body : Question → Run Answer} :
    (∃ es, Yields body ((xs.forM fun x => report (f x)) >>= fun _ => t) es b) ↔
      ∃ es, Yields body t es b :=
  forM_report_iff (fun t => ∃ es, Yields body t es b) (fun e t => by simp [yields_log]) xs f _

/-! ## Virtual paths -/

/-- A cleaning that reports errnos: an answer with an errno is followed by the error, and no
other error is returned. -/
inductive ReportsErrno : Run (Except Errno PathEntryList) → Prop
  | ok (list : PathEntryList) : ReportsErrno (ret (.ok list))
  | fault (f : Fault) : ReportsErrno (fault f)
  | log {t : Run (Except Errno PathEntryList)} (e : Event) : ReportsErrno t →
      ReportsErrno (log e t)
  | call {q : Question} {k : Answer → Run (Except Errno PathEntryList)} :
      (∀ a err, a.res.mresErrno = some err → k a = ret (.error err)) →
      (∀ a, a.res.mresErrno = none → ReportsErrno (k a)) → ReportsErrno (call q k)

variable {t : Run (Except Errno PathEntryList)}

theorem ReportsErrno.behind_reports (h : ReportsErrno t) {γ : Type} (f : γ → Event) (xs : List γ) :
    ReportsErrno ((xs.forM fun x => report (f x)) >>= fun _ => t) := by
  induction xs with
  | nil => exact h
  | cons x xs ih => exact .log (f x) ih

/-- After an answer the error is returned exactly if it is the answer's errno. -/
theorem ReportsErrno.goesOn {body : Question → Run Answer} {q : Question} {a : Answer}
    {t' : Run (Except Errno PathEntryList)} (h : ReportsErrno t) (hgoes : GoesOn body t q a t')
    (err : Errno) : t' = ret (.error err) ↔ a.res.mresErrno = some err := by
  induction hgoes with
  | @here q k es a hanswer =>
    cases h with
    | call hsome hnone =>
      refine ⟨fun heq => ?_, hsome a err⟩
      cases herrno : a.res.mresErrno with
      | none =>
        have hbehind := hnone a herrno
        rw [heq] at hbehind
        cases hbehind
      | some err' =>
        rw [hsome a err' herrno] at heq
        cases heq
        rfl
  | log _ ih =>
    cases h with
    | log _ h => exact ih h
  | @next q q' k t' es a a' hanswer hgoes ih =>
    cases h with
    | call hsome hnone =>
      cases herrno : a.res.mresErrno with
      | none => exact ih (hnone a herrno)
      | some err' =>
        -- behind a returned error nothing is asked
        rw [hsome a err' herrno] at hgoes
        cases hgoes

variable {ctx : PathMappingContext} {restart : PathEntryList → Run (Except Errno PathEntryList)}
  {host : Host}

theorem resolveDotdots_reportsErrno (hrestart : ∀ list, ReportsErrno (restart list))
    (flags : PathFlags) (before rest : List PathEntry) :
    ReportsErrno (resolveDotdots (virtualParentOps ctx) restart flags before rest) := by
  induction rest generalizing flags before with
  | nil => exact .ok _
  | cons work next ih =>
    cases hwork : work.isDotdot with
    | false =>
      rw [resolveDotdots_ordinary hwork]
      exact ih flags (work :: before)
    | true =>
      rw [resolveDotdots]
      simp only [hwork, if_true, resolveParent_bind, evaluated_bind]
      split
      · exact .fault _
      · refine .call (fun a err herrno => ?_) fun a herrno => ?_
        · simp only [Answer.parentLocation, herrno]
          rfl
        · simp only [Answer.parentLocation, herrno]
          split
          · rename_i heq
            cases heq
          · exact .fault _
          · split
            · split
              · exact .fault _
              · exact hrestart _
            · exact .log _ (ih _ _)

theorem cleanDotdotsPass_reportsErrno (hrestart : ∀ list, ReportsErrno (restart list))
    (list : PathEntryList) :
    ReportsErrno (cleanDotdotsPass (virtualParentOps ctx) restart list) := by
  unfold cleanDotdotsPass
  split
  · exact .fault _
  · refine ReportsErrno.behind_reports ?_ (fun _ => .dotdot []) _
    dsimp only
    split
    · exact .ok _
    · refine ReportsErrno.behind_reports ?_ Event.dotdot _
      split
      · exact .ok _
      · exact resolveDotdots_reportsErrno hrestart _ _ _

theorem cleanDotdotsFromPath_reportsErrno (n : Nat) (list : PathEntryList) :
    ReportsErrno (cleanDotdotsFromPath (virtualParentOps ctx) n list) := by
  induction n generalizing list with
  | zero => exact cleanDotdotsPass_reportsErrno (fun _ => .fault _) list
  | succ n ih => exact cleanDotdotsPass_reportsErrno ih list

theorem cleanVirtualPath_reportsErrno (ctx : PathMappingContext) (list : PathEntryList) :
    ReportsErrno (cleanVirtualPath ctx list) := by
  unfold cleanVirtualPath
  split
  · exact .ok _
  · exact .ok _
  · exact cleanDotdotsFromPath_reportsErrno _ _

/-! ## The errno of a look-up -/

/-- Every look-up with an errno has met what the errno stands for. -/
def failureContract (session : Session) : Contract Question Answer Event Fault where
  pre _ := True
  post q a := ∀ err, a.res.mresErrno = some err →
    FailsWith session err maxNesting q
  event _ := True
  fault _ := True

section Failure

variable {session : Session} {res : MappingResults} {source : PathEntryList}
  {err : Errno} {left : Nat} {es : List Event} {a : Answer}

/-- A cleaning that ends with an error has looked up a directory with that errno. -/
theorem ReportsErrno.sat_error (h : ReportsErrno t) (S : Contract Question Answer Event Fault)
    (body : Question → Run Answer) (hpre : ∀ q, S.pre q) (hfault : ∀ f, S.fault f) :
    t.Sat (S.answered body) fun r => ∀ err, r = .error err →
      ∃ q a t', GoesOn body t q a t' ∧ a.res.mresErrno = some err ∧ S.post q a := by
  induction h with
  | ok list => exact nofun
  | fault f => exact hfault f
  | log e _ ih =>
    refine fun _ => ih.mono fun r hr err heq => ?_
    obtain ⟨q, a, t', hgoes, hfailed⟩ := hr err heq
    exact ⟨q, a, t', .log hgoes, hfailed⟩
  | @call q k hsome _ ih =>
    refine ⟨hpre q, fun a ⟨hpost, es, hanswer⟩ => ?_⟩
    cases herrno : a.res.mresErrno with
    | some err' =>
      rw [hsome a err' herrno]
      intro err heq
      cases heq
      exact ⟨q, a, _, .here hanswer, herrno, hpost⟩
    | none =>
      refine (ih a herrno).mono fun r hr err heq => ?_
      obtain ⟨q', a', t', hgoes, hfailed⟩ := hr err heq
      exact ⟨q', a', t', .next hanswer hgoes, hfailed⟩

theorem resolveUpToSymlink_ok {ctx : PathMappingContext}
    (h : Yields (resolutionBody session) (sbPathResolution session (left + 1) ctx res source)
      es a) : ∃ unchecked walkEnd,
      resolveUpToSymlink session ctx res source = .ok (unchecked, walkEnd) := by
  cases hlevel : resolveUpToSymlink session ctx res source with
  | error f =>
    rw [sbPathResolution_fault hlevel] at h
    exact absurd h not_yields_fault
  | ok level => exact ⟨level.1, level.2, rfl⟩

/-- A link that is met is followed. -/
theorem yields_link {ctx : PathMappingContext} {dest : LinkText} {before next : List PathEntry}
    (hres : res.mresErrno = none)
    (hmeets : LevelMeets session ctx source (.symlink dest) before next)
    (h : Yields (resolutionBody session) (sbPathResolution session (left + 1) ctx res source)
      es a) :
    ∃ es₁ cleaned, Yields (resolutionBody session)
        (cleanVirtualPath ctx (linkPath session source dest before next)) es₁ cleaned ∧
      (∀ err, cleaned = .error err → a.res.mresErrno = some err) ∧
      ∀ list, cleaned = .ok list → ∃ (res' : MappingResults) (es₂ : List Event),
        res'.mresErrno = none ∧
        Yields (resolutionBody session) (sbPathResolution session left ctx res' list) es₂ a := by
  obtain ⟨unchecked, walkEnd, hlevel⟩ := resolveUpToSymlink_ok h
  obtain ⟨res', rfl⟩ :=
    ((resolveUpToSymlink_endMatches hres hlevel).symlink dest before next).2 hmeets
  cases habs : (newAbsVirtualLinkDestPathList session dest source.plFlags before
      next).plFlags.absolute with
  | false =>
    rw [sbPathResolution_relative hlevel habs] at h
    obtain ⟨es', h⟩ := (yields_behind_reports _ _ _).1 ⟨es, h⟩
    obtain ⟨_, -, h⟩ := yields_log.1 h
    exact absurd h not_yields_fault
  | true =>
    rw [sbPathResolution_symlink hlevel habs] at h
    obtain ⟨es', h⟩ := (yields_behind_reports _ _ _).1 ⟨es, h⟩
    obtain ⟨_, -, h⟩ := yields_log.1 h
    obtain ⟨es₁, cleaned, es₂, hclean, h, -⟩ := yields_bind.1 h
    refine ⟨es₁, cleaned, hclean, ?_, ?_⟩
    · rintro err rfl
      obtain ⟨-, rfl⟩ := yields_ret.1 h
      rfl
    · rintro list rfl
      exact ⟨res', es₂, symlink_errno hres hlevel, h⟩

/-- An errno stands for a failure that was met: the failures behind the links
followed so far are failures of the first question. -/
theorem levelRule_failsWith {q : Question} (ctx : PathMappingContext) :
    LevelRule session ctx ((failureContract session).answered (resolutionBody session))
      (fun a => ∀ err, a.res.mresErrno = some err → FailsWith session err left q)
      fun left' res source => res.mresErrno = none ∧
        ∀ err, FailsWith session err left' ⟨ctx, source⟩ → FailsWith session err left q where
  tooDeep hinv err herrno := hinv.2 err (.tooManyLinks (Option.some.inj herrno).symm)
  fault _ _ := trivial
  answer hinv hlevel _ err herrno := by
    obtain ⟨b, n, hmeets⟩ :=
      ((resolveUpToSymlink_endMatches hinv.1 hlevel).failed err).1 ⟨_, rfl, herrno⟩
    exact hinv.2 err (.component hmeets)
  relative _ _ _ := trivial
  symlink {left' res res' source unchecked dest before next} hinv hlevel _ _ _ := by
    have hmeets :=
      ((resolveUpToSymlink_endMatches hinv.1 hlevel).symlink dest before next).1 ⟨res', rfl⟩
    have herror := (cleanVirtualPath_reportsErrno ctx (linkPath session source dest before
      next)).sat_error (failureContract session) (resolutionBody session)
        (fun _ => trivial) fun _ => trivial
    have hyields := sat_answered_yields (failureContract session) (resolutionBody session)
      (fun _ => trivial) (fun _ => trivial)
        (cleanVirtualPath ctx (linkPath session source dest before next))
    refine (herror.and hyields (fun _ => id) fun _ _ => id).mono ?_
    rintro (err | list) ⟨hfailed, es, hlist⟩
    · intro err' herrno
      cases herrno
      obtain ⟨q, a, t, hgoes, herrno, hpost⟩ := hfailed err rfl
      exact hinv.2 err (.parent hmeets hgoes (hpost err herrno))
    · exact ⟨symlink_errno hinv.1 hlevel, fun err hfails =>
        hinv.2 err (.behindLink hmeets hlist hfails)⟩

/-- A failure that is met is the errno of the look-up. -/
theorem FailsWith.errno {q : Question} (hfails : FailsWith session err left q)
    (hres : res.mresErrno = none)
    (h : Yields (resolutionBody session)
      (sbPathResolution session left q.ctx res q.absVirtualCleanSourcePathList) es a) :
    a.res.mresErrno = some err := by
  induction hfails generalizing res es a with
  | tooManyLinks hloop =>
    obtain ⟨-, rfl⟩ := yields_ret.1 h
    exact congrArg some hloop.symm
  | component hmeets =>
    obtain ⟨unchecked, walkEnd, hlevel⟩ := resolveUpToSymlink_ok h
    obtain ⟨a', rfl, herrno⟩ :=
      ((resolveUpToSymlink_endMatches hres hlevel).failed err).2 ⟨_, _, hmeets⟩
    rw [sbPathResolution_answer hlevel] at h
    obtain ⟨es', h⟩ := (yields_behind_reports _ _ _).1 ⟨_, h⟩
    obtain ⟨-, rfl⟩ := yields_ret.1 h
    exact herrno
  | parent hmeets hgoes _ ih =>
    obtain ⟨es₁, cleaned, hclean, hfailed, -⟩ := yields_link hres hmeets h
    obtain ⟨es', hanswer⟩ := hgoes.answers
    have herror := ((cleanVirtualPath_reportsErrno _ _).goesOn hgoes err).2 (ih rfl hanswer)
    obtain ⟨es'', herror⟩ := hgoes.yields (herror ▸ yields_ret.2 ⟨rfl, rfl⟩)
    exact hfailed err (hclean.unique herror).2
  | behindLink hmeets hlist _ ih =>
    obtain ⟨es₁, cleaned, hclean, -, hok⟩ := yields_link hres hmeets h
    obtain ⟨res', es₂, hres', h⟩ := hok _ (hclean.unique hlist).2
    exact ih hres' h

theorem errno_iff_failsWith {q : Question} (h : Answers (resolutionBody session) q es a) :
    a.res.mresErrno = some err ↔
      FailsWith session err maxNesting q :=
  ⟨answered_post (failureContract session)
    (fun q _ => (levelRule_failsWith q.ctx).sat maxNesting ⟨rfl, fun _ => id⟩) trivial h
    (fun _ _ => trivial) err,
    fun hfails => hfails.errno rfl h⟩

end Failure

/-! ## Host paths -/

theorem resolveDotdots_host_no_error
    {restart : PathEntryList → Except Fault (Except Errno PathEntryList)}
    (hrestart : ∀ list err, restart list ≠ .ok (.error err)) (flags : PathFlags)
    (before rest : List PathEntry) (err : Errno) :
    resolveDotdots (hostParentOps host) restart flags before rest ≠ .ok (.error err) := by
  induction rest generalizing flags before with
  | nil =>
    intro h
    cases h
  | cons work next ih =>
    cases hwork : work.isDotdot with
    | false =>
      rw [resolveDotdots_host_ordinary hwork]
      exact ih flags (work :: before)
    | true =>
      rw [resolveDotdots_host_dotdot hwork]
      intro h
      split at h
      · cases h
      · split at h
        · cases h
        · split at h
          · split at h
            · cases h
            · exact hrestart _ err h
          · exact ih _ _ h

theorem cleanDotdotsPass_host_no_error
    {restart : PathEntryList → Except Fault (Except Errno PathEntryList)}
    (hrestart : ∀ list err, restart list ≠ .ok (.error err)) (list : PathEntryList) (err : Errno) :
    cleanDotdotsPass (hostParentOps host) restart list ≠ .ok (.error err) := by
  cases habs : list.plFlags.absolute with
  | false =>
    unfold cleanDotdotsPass
    rw [habs]
    exact nofun
  | true =>
    rw [cleanDotdotsPass_host habs]
    dsimp only
    split
    · exact nofun
    · split
      · exact resolveDotdots_host_no_error hrestart _ _ _ err
      · exact nofun

theorem cleanDotdotsFromPath_host_no_error (host : Host) (n : Nat) (list : PathEntryList)
    (err : Errno) : cleanDotdotsFromPath (hostParentOps host) n list ≠ .ok (.error err) := by
  induction n generalizing list err with
  | zero =>
    refine cleanDotdotsPass_host_no_error (fun _ _ h => ?_) list err
    cases h
  | succ n ih => exact cleanDotdotsPass_host_no_error ih list err

/-! ## The result -/

/-- A parent that cannot be resolved is reported exactly if its look-up meets a component that
cannot be examined, or too many links; and never for host paths. -/
theorem unresolvable_parent_reported_iff (session : Session) (ctx : PathMappingContext)
    (host : Host) (n : Nat) (list : PathEntryList) :
    (∀ (q : Question) (a : Answer) (t : Run (Except Errno PathEntryList)),
      GoesOn (resolutionBody session) (cleanDotdotsFromPath (virtualParentOps ctx) n list) q a t →
      a.Failed → ((∃ err, t = ret (.error err)) ↔
        ∃ err, FailsWith session err maxNesting q)) ∧
    ∀ err : Errno, cleanDotdotsFromPath (hostParentOps host) n list ≠ .ok (.error err) := by
  refine ⟨fun q a t hgoes _ => ?_, cleanDotdotsFromPath_host_no_error host n list⟩
  obtain ⟨es, hanswer⟩ := hgoes.answers
  exact exists_congr fun err => ((cleanDotdotsFromPath_reportsErrno n list).goesOn hgoes err).trans
    (errno_iff_failsWith hanswer)

/-! ## Both cases -/

def loopLink : List (CStr × LinkText) := [(['/', 'x'], ⟨['x'], by decide⟩)]

def behindX : PathEntryList := splitPathToPathList "/x/../u".toList

def parentX : Question :=
  ⟨exampleContext.forParents, ⟨freshEntries (Token.tokens '/' ['x']), { absolute := true }⟩⟩

/-- A link that leads to itself gives an errno. -/
theorem looping_parent_reported :
    ∃ a t, GoesOn (resolutionBody (linkSession loopLink none))
        (cleanDotdotsFromPath (virtualParentOps exampleContext) 1 behindX) parentX a t ∧
      a.Failed ∧ ∃ err, t = ret (.error err) := by
  let a : Answer := ⟨none, { mresErrno := some .ELOOP }⟩
  obtain ⟨es, hanswer⟩ := exists_answers
    (show runEnds (linkSession loopLink none) (ask parentX) (fun _ b => b = a) = true by
      decide +kernel)
  have hgoes : GoesOn (resolutionBody (linkSession loopLink none))
      (cleanDotdotsFromPath (virtualParentOps exampleContext) 1 behindX) parentX a _ :=
    .here hanswer
  have hfailed : a.Failed := .inl nofun
  have hlaw := unresolvable_parent_reported_iff (linkSession loopLink none) exampleContext
    (linkSession loopLink none).host 1 behindX
  exact ⟨a, _, hgoes, hfailed, (hlaw.1 _ _ _ hgoes hfailed).2
    ⟨.ELOOP, (errno_iff_failsWith hanswer).1 rfl⟩⟩

def onlyUSession : Session :=
  { linkSession [] none with
    fwdRules :=
      [{ ruleOffs := 1, selectorType := some .selDir, selector := some "/u".toList
         actionType := .useOrigPath }] }

/-- No rule matches `/x`: there is no errno and no path, and the missing path is compared. -/
theorem unmatched_parent_crashes :
    ∃ a, GoesOn (resolutionBody onlyUSession)
        (cleanDotdotsFromPath (virtualParentOps exampleContext) 1 behindX) parentX a
        (fault .nullPointer) ∧
      a.Failed := by
  let a : Answer := ⟨none, {}⟩
  obtain ⟨es, hanswer⟩ := exists_answers
    (show runEnds onlyUSession (ask parentX) (fun _ b => b = a) = true by decide +kernel)
  exact ⟨a, .here hanswer, .inr (.inr rfl)⟩

end Scratchbox
