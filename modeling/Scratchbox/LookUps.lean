import Scratchbox.ResolutionFacts

/-!
# What a look-up comes to

The loop of `sb_path_resolution` as a relation on the positions that it reaches, without the results
that it collects. The loop ends with an errno exactly if it meets a component that cannot be
examined, and with a link exactly if it meets that link (`resolveUpToSymlink_endMatches`). From this
follows which paths are looked up while a question is answered (`LooksUp`).
-/

namespace Scratchbox

open CallTree

/-! ## Positions in the loop -/

/-- The entries before the work pointer, last one first, those from it on, and the host path and
the flags of the component. -/
structure LoopPosition where
  before : List PathEntry
  rest : List PathEntry
  hostPath : Option CStr
  flags : RuleFlags

/-- The loop comes from a position to another one: the components between them are passed. -/
inductive LoopReaches (session : Session) (w : WalkContext) (goal : LoopPosition) :
    LoopPosition → Prop
  | here : LoopReaches session w goal goal
  | next {before rest : List PathEntry} {work e : PathEntry} {hostPath hostPath' : Option CStr}
      {flags flags' : RuleFlags} {res res' : MappingResults} :
      stopsBefore session w.ctx w.source.plFlags.hasTrailingSlash flags false = false →
      componentStatus session.host w.ctx work hostPath false = .passed →
      nextHostPath session w (before.reverse ++ [work, e]) e.pePathComponent hostPath flags res =
        .ok (hostPath', flags', res') →
      LoopReaches session w goal ⟨work :: before, e :: rest, hostPath', flags'⟩ →
      LoopReaches session w goal ⟨before, work :: e :: rest, hostPath, flags⟩

/-- The loop comes to a component, and finds out its status. -/
def LoopMeets (session : Session) (w : WalkContext) (start : LoopPosition) (status : LinkStatus)
    (b n : List PathEntry) : Prop :=
  ∃ work hostPath flags, LoopReaches session w ⟨b, work :: n, hostPath, flags⟩ start ∧
    stopsBefore session w.ctx w.source.plFlags.hasTrailingSlash flags n.isEmpty = false ∧
    componentStatus session.host w.ctx work hostPath n.isEmpty = status

def LevelReaches (session : Session) (ctx : PathMappingContext) (source : PathEntryList)
    (p : LoopPosition) : Prop :=
  ∃ req t before rest, LevelStart session ctx source req t before rest ∧
    LoopReaches session (req.walkContext ctx source) p ⟨before, rest, t.hostPath, t.flags⟩

def LevelMeets (session : Session) (ctx : PathMappingContext) (source : PathEntryList)
    (status : LinkStatus) (b n : List PathEntry) : Prop :=
  ∃ req t before rest, LevelStart session ctx source req t before rest ∧
    LoopMeets session (req.walkContext ctx source) ⟨before, rest, t.hostPath, t.flags⟩ status b n

/-- The path that is looked up in place of one whose component is a link. -/
def linkPath (session : Session) (source : PathEntryList) (dest : LinkText)
    (before next : List PathEntry) : PathEntryList :=
  newAbsVirtualLinkDestPathList session dest source.plFlags before next

/-- While the path of a question is looked up, that of another one is: the path that a link leads
to, or that of a directory before a `..` in the path of a link. -/
inductive LooksUp (session : Session) (goal : Question) : Question → Prop
  | here : LooksUp session goal goal
  | link {ctx : PathMappingContext} {source list : PathEntryList} {dest : LinkText}
      {before next : List PathEntry} {es : List Event} :
      LevelMeets session ctx source (.symlink dest) before next →
      Yields (resolutionBody session)
        (cleanVirtualPath ctx (linkPath session source dest before next)) es (.ok list) →
      LooksUp session goal ⟨ctx, list⟩ → LooksUp session goal ⟨ctx, source⟩
  | parent {ctx : PathMappingContext} {source : PathEntryList} {dest : LinkText}
      {before next : List PathEntry} {q : Question} :
      LevelMeets session ctx source (.symlink dest) before next →
      Asks (resolutionBody session)
        (cleanVirtualPath ctx (linkPath session source dest before next)) q →
      LooksUp session goal q → LooksUp session goal ⟨ctx, source⟩

/-! ## The end of the loop -/

/-- What the end of a look-up says about the components that were met. -/
structure EndMatches (Meets : LinkStatus → List PathEntry → List PathEntry → Prop)
    (walkEnd : WalkEnd) : Prop where
  failed : ∀ err, (∃ a, walkEnd = .answer a ∧ a.res.mresErrno = some err) ↔
    ∃ b n, Meets (.failed err) b n
  symlink : ∀ dest b n, (∃ res, walkEnd = .symlink dest b n res) ↔ Meets (.symlink dest) b n

/-- Nothing is met, and there is no errno. -/
theorem endMatches_answer {Meets : LinkStatus → List PathEntry → List PathEntry → Prop}
    {a : Answer} (herrno : a.res.mresErrno = none)
    (hnone : ∀ status b n, status ≠ .passed → ¬ Meets status b n) :
    EndMatches Meets (.answer a) where
  failed err := by
    refine iff_of_false ?_ fun ⟨b, n, hmeets⟩ => hnone (.failed err) b n nofun hmeets
    rintro ⟨a, heq, hsome⟩
    cases heq
    rw [herrno] at hsome
    cases hsome
  symlink dest b n := iff_of_false nofun (hnone (.symlink dest) b n nofun)

variable {session : Session} {ctx : PathMappingContext} {w : WalkContext} {status : LinkStatus}
  {before rest b n : List PathEntry} {work : PathEntry} {hostPath : Option CStr}
  {flags : RuleFlags} {res : MappingResults} {unchecked : List (Option CStr)} {walkEnd : WalkEnd}
  {source : PathEntryList}

/-- The results so far do not matter for the next host path. -/
theorem nextHostPath_agree {upToNext : List PathEntry} {c : Component}
    {res' : MappingResults} {r r' : Option CStr × RuleFlags × MappingResults}
    (h : nextHostPath session w upToNext c hostPath flags res = .ok r)
    (h' : nextHostPath session w upToNext c hostPath flags res' = .ok r') :
    r.1 = r'.1 ∧ r.2.1 = r'.2.1 := by
  unfold nextHostPath at h h'
  split at h
  · rename_i hall
    rw [if_pos hall] at h'
    obtain ⟨t, ht, h⟩ := Except.bind_eq_ok_iff.1 h
    obtain ⟨t', ht', h'⟩ := Except.bind_eq_ok_iff.1 h'
    rw [ht] at ht'
    cases ht'
    cases h
    cases h'
    exact ⟨rfl, rfl⟩
  · rename_i hall
    rw [if_neg hall] at h'
    cases h
    cases h'
    exact ⟨rfl, rfl⟩

/-- Where a component is not passed, it is the only one that is met. -/
theorem loopMeets_here {status' : LinkStatus} {next : List PathEntry}
    (hstop : stopsBefore session w.ctx w.source.plFlags.hasTrailingSlash flags
      next.isEmpty = false)
    (hstatus : componentStatus session.host w.ctx work hostPath next.isEmpty = status')
    (hne : status' ≠ .passed) :
    LoopMeets session w ⟨before, work :: next, hostPath, flags⟩ status b n ↔
      status = status' ∧ b = before ∧ n = next := by
  constructor
  · rintro ⟨work', hostPath', flags', hreaches, -, hhere⟩
    cases hreaches with
    | here => exact ⟨hhere.symm.trans hstatus, rfl, rfl⟩
    | next _ hpassed => exact absurd (hstatus.symm.trans hpassed) hne
  · rintro ⟨rfl, rfl, rfl⟩
    exact ⟨work, hostPath, flags, .here, hstop, hstatus⟩

/-- A component that is passed is not met; the loop goes on behind it. -/
theorem loopMeets_next (hne : status ≠ .passed) {e : PathEntry} {hostPath' : Option CStr}
    {flags' : RuleFlags} {res' : MappingResults}
    (hstop : stopsBefore session w.ctx w.source.plFlags.hasTrailingSlash flags false = false)
    (hpassed : componentStatus session.host w.ctx work hostPath false = .passed)
    (hnext : nextHostPath session w (before.reverse ++ [work, e]) e.pePathComponent hostPath flags
      res = .ok (hostPath', flags', res')) :
    LoopMeets session w ⟨before, work :: e :: rest, hostPath, flags⟩ status b n ↔
      LoopMeets session w ⟨work :: before, e :: rest, hostPath', flags'⟩ status b n := by
  constructor
  · rintro ⟨work', hostPath'', flags'', hreaches, hgoes, hmet⟩
    cases hreaches with
    | here => exact absurd (hmet.symm.trans hpassed) hne
    | next _ _ hnext' hreaches =>
      obtain ⟨rfl, rfl⟩ := nextHostPath_agree hnext hnext'
      exact ⟨work', hostPath'', flags'', hreaches, hgoes, hmet⟩
  · rintro ⟨work', hostPath'', flags'', hreaches, hgoes, hmet⟩
    exact ⟨work', hostPath'', flags'', .next hstop hpassed hnext hreaches, hgoes, hmet⟩

theorem walk_endMatches (hres : res.mresErrno = none)
    (h : walk session w res before rest hostPath flags = .ok (unchecked, walkEnd)) :
    EndMatches (LoopMeets session w ⟨before, rest, hostPath, flags⟩) walkEnd := by
  induction rest generalizing res before hostPath flags unchecked walkEnd with
  | nil =>
    cases h
    exact endMatches_answer hres fun _ _ _ _ ⟨_, _, _, hreaches, _⟩ => nomatch hreaches
  | cons work next ih =>
    cases hstop : stopsBefore session w.ctx w.source.plFlags.hasTrailingSlash flags
        next.isEmpty with
    | true =>
      rw [walk_stop hstop] at h
      cases h
      refine endMatches_answer hres fun _ _ _ _ ⟨_, _, _, hreaches, hgoes, _⟩ => ?_
      cases hreaches with
      | here => exact nomatch hstop.symm.trans hgoes
      | next hgoes => exact nomatch hstop.symm.trans hgoes
    | false =>
      cases hstatus : componentStatus session.host w.ctx work hostPath next.isEmpty with
      | failed err =>
        rw [walk_failed hstop hstatus] at h
        cases h
        refine ⟨fun err' => ?_, fun dest b n => ?_⟩
        · simp [loopMeets_here hstop hstatus nofun, eq_comm]
        · simp [loopMeets_here hstop hstatus nofun]
      | symlink dest =>
        rw [walk_symlink hstop hstatus] at h
        cases h
        refine ⟨fun err => ?_, fun dest' b n => ?_⟩
        · simp [loopMeets_here hstop hstatus nofun]
        · simp [loopMeets_here hstop hstatus nofun, eq_comm]
      | passed =>
        cases next with
        | nil =>
          rw [walk_last hstop hstatus] at h
          cases h
          refine endMatches_answer hres fun _ _ _ hne ⟨_, _, _, hreaches, _, hmet⟩ => ?_
          cases hreaches with
          | here => exact hne (hmet.symm.trans hstatus)
        | cons e rest =>
          obtain ⟨hostPath', flags', res', more, hnext, hwalk, -⟩ := walk_next_ok hstop hstatus h
          have hmatches := ih ((nextHostPath_same hnext).errno ▸ hres) hwalk
          refine ⟨fun err => (hmatches.failed err).trans ?_, fun dest b n =>
            (hmatches.symlink dest b n).trans ?_⟩
          · exact exists₂_congr fun b n =>
              (loopMeets_next (nofun : LinkStatus.failed err ≠ .passed) hstop hstatus hnext).symm
          · exact
              (loopMeets_next (nofun : LinkStatus.symlink dest ≠ .passed) hstop hstatus hnext).symm

theorem symlink_errno {dest : LinkText} {next : List PathEntry} {res' : MappingResults}
    (hres : res.mresErrno = none)
    (h : resolveUpToSymlink session ctx res source =
      .ok (unchecked, .symlink dest before next res')) : res'.mresErrno = none := by
  cases (resolveUpToSymlink_cases h).2.2 with
  | symlink _ hsame _ => exact hsame.errno.trans hres

theorem LevelStart.meets_iff {req : MappingRequirements} {t : Translation}
    (hstart : LevelStart session ctx source req t before rest) :
    LevelMeets session ctx source status b n ↔ LoopMeets session (req.walkContext ctx source)
      ⟨before, rest, t.hostPath, t.flags⟩ status b n := by
  refine ⟨?_, fun hmeets => ⟨req, t, before, rest, hstart, hmeets⟩⟩
  rintro ⟨req', t', before', rest', hstart', hmeets⟩
  cases hstart.required.symm.trans hstart'.required
  cases hstart.skipped.symm.trans hstart'.skipped
  cases hstart.translated.symm.trans hstart'.translated
  exact hmeets

theorem resolveUpToSymlink_endMatches (hres : res.mresErrno = none)
    (h : resolveUpToSymlink session ctx res source = .ok (unchecked, walkEnd)) :
    EndMatches (LevelMeets session ctx source) walkEnd := by
  cases (resolveUpToSymlink_run h).2.2 with
  | noRule _ _ hnone =>
    exact endMatches_answer hres fun _ _ _ _ ⟨_, _, _, _, hstart, _⟩ => hnone _ _ _ _ hstart
  | @walk req t before rest _ hstart hwalk =>
    have hmatches := walk_endMatches (show (res.withTranslation t).mresErrno = none from hres) hwalk
    exact ⟨fun err => by simp only [hmatches.failed err, hstart.meets_iff],
      fun dest b n => by simp only [hmatches.symlink dest b n, hstart.meets_iff]⟩

end Scratchbox
