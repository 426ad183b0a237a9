import Mathlib.Data.List.Forall2
import Scratchbox.LookUps
import Scratchbox.Chroot

/-!
# Resolution after a change of the chroot directory

Two resolutions of one path are compared: one in a session, the other in the same
session with another chroot directory and with fewer entries marked as not being
symbolic links. As long as the links that are followed are relative and what was
passed without looking at it is a directory, the second resolution gives the same
answer as the first (`resolutionBody_follows`).
-/

namespace Scratchbox

open CallTree

/-! ## Lists without their marks -/

structure DropsMark (e e' : PathEntry) : Prop where
  component : e'.pePathComponent = e.pePathComponent
  mark : e'.peNotSymlink = true → e.peNotSymlink = true

structure DropsMarks (list list' : PathEntryList) : Prop where
  flags : list'.plFlags = list.plFlags
  entries : List.Forall₂ DropsMark list.plFirst list'.plFirst

theorem DropsMarks.refl (list : PathEntryList) : DropsMarks list list :=
  ⟨rfl, List.forall₂_same.2 fun _ _ => ⟨rfl, id⟩⟩

theorem dropsMark_freshEntries (entries : List PathEntry) :
    List.Forall₂ DropsMark entries (freshEntries (components entries)) := by
  induction entries with
  | nil => exact .nil
  | cons e entries ih => exact .cons ⟨rfl, fun h => (nomatch h)⟩ ih

variable {entries entries' upToNext : List PathEntry} {source' source list' list : PathEntryList}

theorem components_of_dropsMark
    (h : List.Forall₂ DropsMark entries entries') : components entries' = components entries := by
  induction h with
  | nil => rfl
  | cons he _ ih => rw [components_cons, components_cons, he.component, ih]

theorem isEmpty_of_dropsMark
    (h : List.Forall₂ DropsMark entries entries') : entries'.isEmpty = entries.isEmpty := by
  cases h <;> rfl

theorem pathEntriesToString_congr (h : components entries' = components entries)
    (flags : PathFlags) :
    pathEntriesToString entries' flags = pathEntriesToString entries flags := by
  cases entries with
  | nil =>
    rw [components_eq_nil.1 h]
  | cons e es =>
    cases entries' with
    | nil => cases h
    | cons e' es' => simp only [pathEntriesToString, h]

theorem DropsMarks.pathListToString_eq (h : DropsMarks list list') :
    pathListToString list' = pathListToString list := by
  rw [pathListToString, pathListToString, h.flags]
  exact pathEntriesToString_congr (components_of_dropsMark h.entries) _

theorem DropsMarks.isCleanPath_eq (h : DropsMarks list list') :
    isCleanPath list'.plFirst = .clean ↔ isCleanPath list.plFirst = .clean := by
  rw [isCleanPath_eq_clean, isCleanPath_eq_clean, components_of_dropsMark h.entries]

/-! ## The walk -/

def IsDirectory (host : Host) (hostPath : Option CStr) : Prop :=
  ∃ path, hostPath = some path ∧ host.readlink path = .error .EINVAL ∧
    host.stat path = .ok .directory

variable {session : Session} {ctx : PathMappingContext} {res : MappingResults}
  {chroot : Option CStr}

variable {hostPath : Option CStr} {flags : RuleFlags} {w w' : WalkContext}
  {before before' rest rest' : List PathEntry} {unchecked : List (Option CStr)} {walkEnd : WalkEnd}
  {q' q : Question}

theorem componentStatus_dropsMark {host : Host} {work work' : PathEntry}
    (hwork : DropsMark work work')
    (hdirs : ∀ path ∈ uncheckedPath work hostPath, IsDirectory host path) (isLast : Bool) :
    componentStatus host ctx work' hostPath isLast =
      componentStatus host ctx work hostPath isLast := by
  cases hmark' : work'.peNotSymlink with
  | true => simp only [componentStatus, hmark', hwork.mark hmark', if_true]
  | false =>
    cases hmark : work.peNotSymlink with
    | false => simp [componentStatus, hmark, hmark']
    | true =>
      obtain ⟨path, rfl, hread, hstat⟩ := hdirs hostPath (by simp [uncheckedPath, hmark])
      simp [componentStatus, hmark, hmark', examineComponent, hread, hstat]

/-- The flag `force_orig_path_unless_chroot` makes no difference: it is not set,
or both sessions are inside a chroot, or none is. -/
def StopsAlike (session : Session) (chroot : Option CStr) (flags : RuleFlags) : Prop :=
  chroot.isNone = session.sboxChrootPath.isNone ∨ flags.forceOrigPathUnlessChroot = false

/-- The same wherever the loop stands while a question is answered. -/
def ChrootBlind (session : Session) (chroot : Option CStr) (q : Question) : Prop :=
  ∀ ctx source, LooksUp session ⟨ctx, source⟩ q → ∀ p, LevelReaches session ctx source p →
    StopsAlike session chroot p.flags

theorem stopsBefore_withChroot (h : StopsAlike session chroot flags) (trailing isLast : Bool) :
    stopsBefore (session.withChroot chroot) ctx trailing flags isLast =
      stopsBefore session ctx trailing flags isLast := by
  rcases h with h | h
  · simp [stopsBefore, Session.withChroot, h]
  · simp [stopsBefore, h]

inductive SameEnd : WalkEnd → WalkEnd → Prop
  | answer {a : Answer} : SameEnd (.answer a) (.answer a)
  | symlink {dest : LinkText} {before before' next next' : List PathEntry}
      {res : MappingResults} : components before' = components before →
      components next' = components next →
      SameEnd (.symlink dest before next res) (.symlink dest before' next' res)

/-- The loop over a list with fewer marks. -/
structure SameWalk (w w' : WalkContext) : Prop where
  ctx : w'.ctx = w.ctx
  rule : w'.rule = w.rule
  forAll : w'.callTranslateForAll = w.callTranslateForAll
  source : DropsMarks w.source w'.source

theorem SameWalk.finish_eq (h : SameWalk w w') (res : MappingResults) :
    w'.finish res = w.finish res := by
  simp only [WalkContext.finish, h.source.pathListToString_eq, h.rule]

theorem SameWalk.nextHostPath_eq (h : SameWalk w w') {upToNext' : List PathEntry}
    (hup : components upToNext' = components upToNext) (c : Component) (hostPath : Option CStr)
    (flags : RuleFlags) :
    nextHostPath (session.withChroot chroot) w' upToNext' c hostPath flags res =
      nextHostPath session w upToNext c hostPath flags res := by
  unfold nextHostPath
  rw [h.forAll, h.rule, h.source.flags, pathEntriesToString_congr hup]
  rfl

theorem walk_follows (hw : SameWalk w w')
    (hblind : ∀ p, LoopReaches session w p ⟨before, rest, hostPath, flags⟩ →
      StopsAlike session chroot p.flags) (hbefore : components before' = components before)
    (hrest : List.Forall₂ DropsMark rest rest')
    (h : walk session w res before rest hostPath flags = .ok (unchecked, walkEnd))
    (hdirs : ∀ path ∈ unchecked, IsDirectory session.host path) :
    ∃ unchecked' walkEnd', SameEnd walkEnd walkEnd' ∧
      walk (session.withChroot chroot) w' res before' rest' hostPath flags =
        .ok (unchecked', walkEnd') := by
  induction hrest generalizing res before before' hostPath flags unchecked walkEnd with
  | nil =>
    cases h
    exact ⟨[], .answer (w.finish res), .answer, by rw [walk, hw.finish_eq]⟩
  | @cons work work' next next' hwork hnext ih =>
    -- both walks do the same at this component; only the host path of the next one differs
    have hstop' : stopsBefore (session.withChroot chroot) w'.ctx
        w'.source.plFlags.hasTrailingSlash flags next'.isEmpty =
        stopsBefore session w.ctx w.source.plFlags.hasTrailingSlash flags next.isEmpty := by
      rw [stopsBefore_withChroot (hblind _ .here), hw.ctx, hw.source.flags,
        isEmpty_of_dropsMark hnext]
    cases hstop : stopsBefore session w.ctx w.source.plFlags.hasTrailingSlash flags
        next.isEmpty with
    | true =>
      rw [walk_stop hstop] at h
      cases h
      exact ⟨[], _, .answer, by rw [walk_stop (hstop'.trans hstop), hw.finish_eq]⟩
    | false =>
      have hstatus' : (∀ path ∈ uncheckedPath work hostPath, IsDirectory session.host path) →
          componentStatus (session.withChroot chroot).host w'.ctx work' hostPath next'.isEmpty =
            componentStatus session.host w.ctx work hostPath next.isEmpty := by
        intro hpaths
        rw [isEmpty_of_dropsMark hnext, hw.ctx]
        exact componentStatus_dropsMark hwork hpaths _
      cases hstatus : componentStatus session.host w.ctx work hostPath next.isEmpty with
      | failed err =>
        rw [walk_failed hstop hstatus] at h
        cases h
        exact ⟨_, _, .answer, walk_failed (hstop'.trans hstop) ((hstatus' hdirs).trans hstatus)⟩
      | symlink dest =>
        rw [walk_symlink hstop hstatus] at h
        cases h
        exact ⟨_, _, .symlink hbefore (components_of_dropsMark hnext),
          walk_symlink (hstop'.trans hstop) ((hstatus' hdirs).trans hstatus)⟩
      | passed =>
        cases hnext with
        | nil =>
          rw [walk_last hstop hstatus] at h
          cases h
          refine ⟨uncheckedPath work' hostPath, _, .answer, ?_⟩
          rw [walk_last (hstop'.trans hstop) ((hstatus' hdirs).trans hstatus), hw.finish_eq]
        | @cons e e' rest rest' he hrest =>
          obtain ⟨hostPath', flags', res', more, hstep, hwalk, rfl⟩ :=
            walk_next_ok hstop hstatus h
          have hdirs₁ := fun path hpath => hdirs path (List.mem_append_left more hpath)
          have hdirs₂ := fun path hpath => hdirs path (List.mem_append_right _ hpath)
          have hbefore' : components (work' :: before') = components (work :: before) := by
            rw [components_cons, components_cons, hwork.component, hbefore]
          obtain ⟨unchecked', walkEnd', hsame, hwalk'⟩ :=
            ih (fun p hp => hblind p (.next hstop hstatus hstep hp)) hbefore' hwalk hdirs₂
          refine ⟨uncheckedPath work' hostPath ++ unchecked', walkEnd', hsame, ?_⟩
          rw [walk_next (hstop'.trans hstop) ((hstatus' hdirs₁).trans hstatus), he.component]
          have hup : components (before'.reverse ++ [work', e']) =
              components (before.reverse ++ [work, e]) := by
            simp [hbefore, hwork.component, he.component]
          rw [hw.nextHostPath_eq hup, hstep]
          change Except.bind (walk (session.withChroot chroot) w' res' (work' :: before')
            (e' :: rest') hostPath' flags') _ = _
          rw [hwalk']
          rfl

/-! ## One level -/

theorem skipComponents_dropsMark {minLen skipped : Nat} {before₁ : List PathEntry}
    (hbefore : components before' = components before) (hrest : List.Forall₂ DropsMark rest rest')
    (h : skipComponents minLen skipped before rest = some (before₁, entries)) :
    ∃ before₁' entries', skipComponents minLen skipped before' rest' = some (before₁', entries') ∧
      components before₁' = components before₁ ∧ List.Forall₂ DropsMark entries entries' := by
  induction hrest generalizing skipped before before' with
  | nil =>
    rw [skipComponents] at h ⊢
    split at h
    · cases h
    · rename_i hlen
      cases h
      exact ⟨before', [], if_neg hlen, hbefore, .nil⟩
  | @cons work work' next next' hwork hnext ih =>
    rw [skipComponents] at h ⊢
    rw [hwork.component]
    split at h
    · rename_i hlen
      rw [if_pos hlen]
      refine ih ?_ h
      rw [components_cons, components_cons, hwork.component, hbefore]
    · rename_i hlen
      cases h
      exact ⟨before', work' :: next', if_neg hlen, hbefore, .cons hwork hnext⟩

theorem components_take_one (h : List.Forall₂ DropsMark rest rest') :
    components (rest'.take 1) = components (rest.take 1) := by
  cases h with
  | nil => rfl
  | cons he _ => simp [he.component]

theorem resolveUpToSymlink_follows
    (hblind : ∀ p, LevelReaches session ctx source p → StopsAlike session chroot p.flags)
    (hsource : DropsMarks source source')
    (h : resolveUpToSymlink session ctx res source = .ok (unchecked, walkEnd))
    (hdirs : ∀ path ∈ unchecked, IsDirectory session.host path) :
    ∃ unchecked' walkEnd', SameEnd walkEnd walkEnd' ∧
      resolveUpToSymlink (session.withChroot chroot) ctx res source' =
        .ok (unchecked', walkEnd') := by
  obtain ⟨habs, hclean, -⟩ := resolveUpToSymlink_cases h
  have hcleanPath := isCleanPath_eq_clean.2 hclean
  have hcleanPath' := hsource.isCleanPath_eq.2 hcleanPath
  unfold resolveUpToSymlink at h ⊢
  simp only [habs, hcleanPath, Bool.not_true, Bool.false_eq_true, if_false, ne_eq,
    not_true_eq_false] at h
  simp only [hsource.flags, habs, hcleanPath', Bool.not_true, Bool.false_eq_true, if_false, ne_eq,
    not_true_eq_false]
  have hrules' : ruletreeGetRuleListOffs (session.withChroot chroot) true =
      ruletreeGetRuleListOffs session true := rfl
  rw [hrules']
  cases hrules : ruletreeGetRuleListOffs session true with
  | error errormsg =>
    rw [hrules] at h
    cases h
    exact ⟨[], _, .answer, rfl⟩
  | ok rules =>
    rw [hrules] at h
    obtain rfl := ruletreeGetRuleListOffs_fwd hrules
    have hreq' : ruletreeGetMappingRequirements session.fwdRules ctx source' =
        ruletreeGetMappingRequirements session.fwdRules ctx source := by
      simp only [ruletreeGetMappingRequirements, hsource.pathListToString_eq]
    simp only [hreq']
    cases hreq : ruletreeGetMappingRequirements session.fwdRules ctx source with
    | none =>
      simp only [hreq] at h
      cases h
      exact ⟨[], _, .answer, rfl⟩
    | some req =>
      simp only [hreq] at h
      cases hskip : skipComponents req.minPathLen 1 [] source.plFirst with
      | none =>
        simp only [hskip] at h
        cases h
      | some split =>
        obtain ⟨before, rest⟩ := split
        simp only [hskip] at h
        obtain ⟨before', rest', hskip', hbefore, hrest⟩ :=
          skipComponents_dropsMark rfl hsource.entries hskip
        obtain ⟨t, ht, hwalk⟩ := Except.bind_eq_ok_iff.1 h
        have hup : components (before'.reverse ++ rest'.take 1) =
            components (before.reverse ++ rest.take 1) := by
          rw [components_append, components_append, components_reverse, components_reverse,
            hbefore, components_take_one hrest]
        have hw : SameWalk ⟨ctx, req.rule, req.callTranslateForAll, source⟩
            ⟨ctx, req.rule, req.callTranslateForAll, source'⟩ := ⟨rfl, rfl, rfl, hsource⟩
        obtain ⟨unchecked', walkEnd', hsame, hwalk'⟩ :=
          walk_follows hw (fun p hp => hblind p ⟨req, t, before, rest,
            ⟨hrules, hreq, hskip, ht⟩, hp⟩) hbefore hrest hwalk hdirs
        refine ⟨unchecked', walkEnd', hsame, ?_⟩
        simp only [hskip']
        rw [pathEntriesToString_congr hup]
        exact Except.bind_eq_ok_iff.2 ⟨t, ht, hwalk'⟩

/-! ## Whole resolutions -/

/-- What is allowed to happen: relative links are followed, and what is passed
without looking at it is a directory. -/
def FollowsRelative (host : Host) : Event → Prop
  | .symlink dest => dest.text.head? ≠ some '/'
  | .dotdot _ => True
  | .unchecked hostPath => IsDirectory host hostPath

/-- The same question, possibly with fewer marks. -/
structure SameQuestion (q q' : Question) : Prop where
  ctx : q'.ctx = q.ctx
  list : DropsMarks q.absVirtualCleanSourcePathList q'.absVirtualCleanSourcePathList

theorem newList_withChroot {dest : LinkText} (hrel : dest.text.head? ≠ some '/') (flags : PathFlags)
    {next next' : List PathEntry} (hbefore : components before' = components before)
    (hnext : components next' = components next) :
    newAbsVirtualLinkDestPathList (session.withChroot chroot) dest flags before' next' =
      newAbsVirtualLinkDestPathList session dest flags before next := by
  have hrest : duplicatePathEntries next' = duplicatePathEntries next := by
    rw [duplicatePathEntries, duplicatePathEntries, hnext]
  have hdirnam : duplicatePathEntries before'.reverse = duplicatePathEntries before.reverse := by
    rw [duplicatePathEntries, duplicatePathEntries, components_reverse, components_reverse,
      hbefore]
  have hempty : next'.isEmpty = next.isEmpty := by
    have h := congrArg List.isEmpty hnext
    simpa [components] using h
  have hflags : ∀ linkFlags : PathFlags, linkFlags.ofLink next' = linkFlags.ofLink next := by
    intro linkFlags
    rw [PathFlags.ofLink, PathFlags.ofLink, hempty]
  simp only [newAbsVirtualLinkDestPathList, if_neg hrel, hrest, hdirnam, hflags]

/-- Corresponding questions, where the first one is answered without regard to the chroot. -/
def SameBlindQuestion (session : Session) (chroot : Option CStr) (q q' : Question) : Prop :=
  SameQuestion q q' ∧ ChrootBlind session chroot q

/-- The induction is on the number of nested calls left: after a relative link
both resolutions go on with one list. -/
theorem sbPathResolution_follows (left : Nat) (hres : res.mresErrno = none)
    (hblind : ChrootBlind session chroot ⟨ctx, source⟩) (hsource : DropsMarks source source') :
    Follows (FollowsRelative session.host) (SameBlindQuestion session chroot)
      (fun q _ a a' => a = a' ∧ ∃ es, Answers (resolutionBody session) q es a) Eq
      (sbPathResolution session left ctx res source)
      (sbPathResolution (session.withChroot chroot) left ctx res source') := by
  induction left generalizing res source source' with
  | zero => exact .ret rfl
  | succ left ih =>
    cases hlevel : resolveUpToSymlink session ctx res source with
    | error f =>
      rw [sbPathResolution_fault hlevel]
      exact .fault
    | ok result =>
      obtain ⟨unchecked, walkEnd⟩ := result
      cases walkEnd with
      | answer a =>
        rw [sbPathResolution_answer hlevel]
        refine .forM_left fun hdirs => ?_
        obtain ⟨unchecked', walkEnd', hsame, hlevel'⟩ :=
          resolveUpToSymlink_follows (hblind ctx source .here) hsource hlevel hdirs
        cases hsame
        rw [sbPathResolution_answer hlevel']
        exact .forM_right (.ret rfl)
      | symlink dest before next res' =>
        cases habs : (newAbsVirtualLinkDestPathList session dest source.plFlags before
            next).plFlags.absolute with
        | false =>
          rw [sbPathResolution_relative hlevel habs]
          exact .forM_left fun _ => .logLeft fun _ => .fault
        | true =>
          rw [sbPathResolution_symlink hlevel habs]
          refine .forM_left fun hdirs => .logLeft fun hrel => ?_
          obtain ⟨unchecked', walkEnd', hsame, hlevel'⟩ :=
            resolveUpToSymlink_follows (hblind ctx source .here) hsource hlevel hdirs
          cases hsame with
          | @symlink _ _ before' _ next' _ hbefore hnext =>
            have hnew : newAbsVirtualLinkDestPathList (session.withChroot chroot) dest
                source'.plFlags before' next' =
                newAbsVirtualLinkDestPathList session dest source.plFlags before next := by
              rw [hsource.flags]
              exact newList_withChroot hrel source.plFlags hbefore hnext
            rw [sbPathResolution_symlink hlevel' (by rw [hnew]; exact habs), hnew]
            refine .forM_right (.logRight ?_)
            -- the cleaning of the link's path is the same, and part of this look-up
            have hmeets : LevelMeets session ctx source (.symlink dest) before next :=
              ((resolveUpToSymlink_endMatches hres hlevel).symlink dest before next).1 ⟨res', rfl⟩
            refine (Follows.refl (fun _ _ _ h => h) _ (fun q hasks => ⟨⟨rfl, .refl _⟩,
                fun ctx' source' hup => hblind ctx' source' (.parent hmeets hasks hup)⟩)
              (r := fun r r' => r = r' ∧ ∃ es, Yields (resolutionBody session) _ es r)
              fun es r h => ⟨rfl, es, h⟩).bind ?_
            rintro r _ ⟨rfl, es, hyields⟩
            cases r with
            | error err => exact .ret rfl
            | ok list =>
              exact ih (symlink_errno hres hlevel) (fun ctx' source' hup =>
                hblind ctx' source' (.link hmeets hyields hup)) (.refl list)

/-- A resolution that follows only relative links has the same answer after a
change of the chroot directory. -/
theorem answers_withChroot (hblind : ChrootBlind session chroot q) (hq : SameQuestion q q')
    {es : List Event} {a : Answer} (h : Answers (resolutionBody session) q es a)
    (hes : ∀ e ∈ es, FollowsRelative session.host e) :
    ∃ es', Answers (resolutionBody (session.withChroot chroot)) q' es' a := by
  have hbody : ∀ q q', SameBlindQuestion session chroot q q' →
      Follows (FollowsRelative session.host) (SameBlindQuestion session chroot)
        (fun q _ a a' => a = a' ∧ ∃ es, Answers (resolutionBody session) q es a) Eq
        (resolutionBody session q) (resolutionBody (session.withChroot chroot) q') := by
    rintro q q' ⟨hq, hblind⟩
    unfold resolutionBody
    rw [hq.ctx]
    exact sbPathResolution_follows maxNesting rfl hblind hq.list
  obtain ⟨es', a', h', rfl⟩ := Follows.sound hbody ⟨hq, hblind⟩ h hes
  exact ⟨es', h'⟩

end Scratchbox
