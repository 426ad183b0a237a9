import Scratchbox.Resolution
import Scratchbox.Lib.CallRules

/-!
# Rules for cleaning virtual paths

The cleaner of `Dotdots.lean`, used with `virtualParentOps`, asks one question for
each `..` it resolves. The two rules here say what has to be shown about one such
step and about one pass; the results about cleaned paths are inductions over
these rules and never look at the code of the cleaner again.
-/

namespace Scratchbox

open CallTree

variable {S : Contract Question Answer Event Fault}
  {P : Except Errno PathEntryList → Prop} {ctx : PathMappingContext}
  {restart : PathEntryList → Run (Except Errno PathEntryList)} {flags : PathFlags}
  {work : PathEntry} {α : Type}

theorem resolveParent_bind (parent : PathEntryList) (f : Except Errno (Option CStr) → Run α) :
    ((virtualParentOps ctx).resolveParent parent >>= f) =
      call ⟨ctx.forParents, parent⟩ fun a => f a.parentLocation := rfl

theorem evaluated_bind (dir : List Component) (f : Unit → Run α) :
    ((virtualParentOps ctx).evaluated dir >>= f) = log (.dotdot dir) (f ()) := rfl

structure CleanQuestion (q : Question) : Prop where
  absolute : q.absVirtualCleanSourcePathList.plFlags.absolute = true
  clean : Clean (components q.absVirtualCleanSourcePathList.plFirst)

def parentQuestion (ctx : PathMappingContext) (flags : PathFlags) (before : List PathEntry) :
    Question :=
  ⟨ctx.forParents, ⟨duplicatePathEntries before.reverse, flags⟩⟩

def parentString (flags : PathFlags) (before : List PathEntry) : CStr :=
  pathListToString ⟨duplicatePathEntries before.reverse, flags⟩

theorem parentString_absolute (habs : flags.absolute = true) (before : List PathEntry) :
    parentString flags before =
      absoluteString (components before.reverse) flags.hasTrailingSlash := by
  rw [parentString, pathListToString_absolute habs, components_duplicate]

/-- Step 3 at a `..`: the parent is asked for; it is an error, or it is elsewhere
and the cleaner starts again, or it is where it was. -/
theorem resolveDotdots_dotdot_sat (hwork : work.isDotdot = true) {before next : List PathEntry}
    (hclean : Clean (components before.reverse)) (hpre : S.pre (parentQuestion ctx flags before))
    (herror : ∀ a err, S.post (parentQuestion ctx flags before) a →
      a.res.mresErrno = some err → P (.error err))
    (hnull : ∀ a, S.post (parentQuestion ctx flags before) a → a.res.mresErrno = none →
      a.res.mresResultBuf = none → S.fault .nullPointer)
    (hroot : ∀ a buf, S.post (parentQuestion ctx flags before) a → a.res.mresErrno = none →
      a.res.mresResultBuf = some buf → parentString flags before ≠ buf → before = [] →
      S.fault .nullPointer)
    (hmoved : ∀ a buf, S.post (parentQuestion ctx flags before) a → a.res.mresErrno = none →
      a.res.mresResultBuf = some buf → parentString flags before ≠ buf → before ≠ [] →
      (restart ⟨markedEntries (Token.tokens '/' buf) ++ work :: next, flags⟩).Sat S P)
    (hsame : ∀ a, S.post (parentQuestion ctx flags before) a → a.res.mresErrno = none →
      a.res.mresResultBuf = some (parentString flags before) →
      S.event (.dotdot (components before.reverse)) →
      (resolveDotdots (virtualParentOps ctx) restart (flags.setTrailingSlashIf next.isEmpty)
        before.tail next).Sat S P) :
    (resolveDotdots (virtualParentOps ctx) restart flags before (work :: next)).Sat S P := by
  have hparent : isCleanPath (duplicatePathEntries before.reverse) = .clean :=
    isCleanPath_eq_clean.2 (by simpa using hclean)
  have horig : pathListToString ⟨duplicatePathEntries before.reverse, flags⟩ =
      parentString flags before := rfl
  rw [resolveDotdots]
  simp only [hwork, if_true, hparent, horig, ne_eq, not_true_eq_false, if_false,
    resolveParent_bind, evaluated_bind]
  refine ⟨hpre, fun a ha => ?_⟩
  cases herrno : a.res.mresErrno with
  | some err =>
    simp only [Answer.parentLocation, herrno]
    exact herror a err ha herrno
  | none =>
    cases hbuf : a.res.mresResultBuf with
    | none =>
      simp only [Answer.parentLocation, herrno, hbuf]
      exact hnull a ha herrno hbuf
    | some buf =>
      simp only [Answer.parentLocation, herrno, hbuf]
      by_cases hsamebuf : parentString flags before = buf
      · subst hsamebuf
        rw [if_neg (not_not_intro rfl)]
        exact fun hev => hsame a ha herrno hbuf hev
      · rw [if_pos hsamebuf]
        cases before with
        | nil => exact hroot a buf ha herrno hbuf hsamebuf rfl
        | cons prev before =>
          have h := hmoved a buf ha herrno hbuf hsamebuf (List.cons_ne_nil _ _)
          simpa [markedEntries] using h

theorem resolveDotdots_ordinary (hwork : work.isDotdot = false) (flags : PathFlags)
    (before next : List PathEntry) :
    resolveDotdots (virtualParentOps ctx) restart flags before (work :: next) =
      resolveDotdots (virtualParentOps ctx) restart flags (work :: before) next := by
  rw [resolveDotdots, hwork]
  simp

theorem cleanDotdotsPass_sat {absPath : PathEntryList}
    (habs : absPath.plFlags.absolute = true)
    (hdone : (∀ e ∈ absPath.plFirst.takeWhile PathEntry.isDotdot, S.event (.dotdot [])) →
      Component.dotdot ∉ components (dropLeadingDotdots absPath.plFirst).1 →
      P (.ok ⟨(dropLeadingDotdots absPath.plFirst).1,
        absPath.plFlags.setTrailingSlashIf (dropLeadingDotdots absPath.plFirst).2⟩))
    (hscan : ∀ scan flags,
      (∀ e ∈ absPath.plFirst.takeWhile PathEntry.isDotdot, S.event (.dotdot [])) →
      scan = removeKnownDotdots [] (dropLeadingDotdots absPath.plFirst).1 →
      flags = (absPath.plFlags.setTrailingSlashIf
        (dropLeadingDotdots absPath.plFirst).2).setTrailingSlashIf scan.lastRemoved →
      (∀ dir ∈ scan.dirs, S.event (.dotdot dir)) →
      if scan.hasNontrivialDotdots then
        (resolveDotdots (virtualParentOps ctx) restart flags [] scan.entries).Sat S P
      else P (.ok ⟨scan.entries, flags⟩)) :
    (cleanDotdotsPass (virtualParentOps ctx) restart absPath).Sat S P := by
  rw [cleanDotdotsPass]
  simp only [habs, Bool.not_true, Bool.false_eq_true, if_false]
  refine sat_forM_report.2 fun hleading => ?_
  by_cases hdd : isCleanPath (dropLeadingDotdots absPath.plFirst).1 = .dotdot
  · simp only [hdd, ne_eq, not_true_eq_false, if_false]
    refine sat_forM_report.2 fun hdirs => ?_
    have h := hscan _ _ hleading rfl rfl hdirs
    cases hnt :
      (removeKnownDotdots [] (dropLeadingDotdots absPath.plFirst).1).hasNontrivialDotdots with
    | false => simpa [hnt] using h
    | true => simpa [hnt] using h
  · simp only [hdd, ne_eq, not_false_eq_true, if_true]
    exact hdone hleading fun hm => hdd (isCleanPath_eq_dotdot.2 hm)

/-! ## Whole cleaning -/

theorem cleanVirtualPath_plain (ctx : PathMappingContext) {list : PathEntryList}
    (h : Component.dotdot ∉ components list.plFirst) :
    cleanVirtualPath ctx list = ret (.ok (removeDotsFromPathList list)) := by
  unfold cleanVirtualPath
  cases hclean : isCleanPath list.plFirst with
  | clean =>
    rw [removeDotsFromPathList_of_clean (isCleanPath_eq_clean.1 hclean)]
    rfl
  | dot => rfl
  | dotdot => exact absurd (isCleanPath_eq_dotdot.1 hclean) h

/-- Cleaning starts with the removal of the `.` components. -/
theorem cleanVirtualPath_dotdot (ctx : PathMappingContext) {list : PathEntryList}
    (h : Component.dotdot ∈ components list.plFirst) :
    cleanVirtualPath ctx list =
      cleanDotdotsFromPath (virtualParentOps ctx)
        (countDotdots (removeDotsFromPathList list).plFirst) (removeDotsFromPathList list) := by
  unfold cleanVirtualPath
  rw [isCleanPath_eq_dotdot.2 h]

theorem dotdot_mem_removeDots {list : PathEntryList} :
    Component.dotdot ∈ components (removeDotsFromPathList list).plFirst ↔
      Component.dotdot ∈ components list.plFirst := by
  rw [components_removeDots]
  exact dotdot_mem_withoutDots

theorem cleanVirtualPath_congr (ctx : PathMappingContext) {list list' : PathEntryList}
    (h : removeDotsFromPathList list = removeDotsFromPathList list') :
    cleanVirtualPath ctx list = cleanVirtualPath ctx list' := by
  by_cases hdd : Component.dotdot ∈ components list.plFirst
  · have hdd' : Component.dotdot ∈ components list'.plFirst := by
      rwa [← dotdot_mem_removeDots, ← h, dotdot_mem_removeDots]
    rw [cleanVirtualPath_dotdot ctx hdd, cleanVirtualPath_dotdot ctx hdd', h]
  · have hdd' : Component.dotdot ∉ components list'.plFirst := by
      rwa [← dotdot_mem_removeDots, ← h, dotdot_mem_removeDots]
    rw [cleanVirtualPath_plain ctx hdd, cleanVirtualPath_plain ctx hdd', h]

def contextContract (ctx : PathMappingContext) : Contract Question Answer Event Fault where
  pre q := q.ctx = ctx.forParents
  post _ _ := True
  event _ := True
  fault _ := True

theorem resolveDotdots_context
    (hrestart : ∀ list, (restart list).Sat (contextContract ctx) fun _ => True)
    (flags : PathFlags) (before rest : List PathEntry) :
    (resolveDotdots (virtualParentOps ctx) restart flags before rest).Sat
      (contextContract ctx) fun _ => True := by
  induction rest generalizing flags before with
  | nil => trivial
  | cons work next ih =>
    cases hwork : work.isDotdot with
    | false =>
      rw [resolveDotdots_ordinary hwork]
      exact ih flags (work :: before)
    | true =>
      by_cases hclean : Clean (components before.reverse)
      · exact resolveDotdots_dotdot_sat hwork hclean rfl (fun _ _ _ _ => trivial)
          (fun _ _ _ _ => trivial) (fun _ _ _ _ _ _ _ => trivial)
          (fun _ _ _ _ _ _ _ => hrestart _) (fun _ _ _ _ _ => ih _ _)
      · have hparent : isCleanPath (duplicatePathEntries before.reverse) ≠ .clean :=
          fun h => hclean (by simpa using isCleanPath_eq_clean.1 h)
        rw [resolveDotdots]
        simp only [hwork, if_true, if_pos hparent]
        trivial

theorem cleanVirtualPath_context (ctx : PathMappingContext) (list : PathEntryList) :
    (cleanVirtualPath ctx list).Sat (contextContract ctx) fun _ => True := by
  have hpass : ∀ {restart : PathEntryList → Run (Except Errno PathEntryList)},
      (∀ list, (restart list).Sat (contextContract ctx) fun _ => True) → ∀ list,
      (cleanDotdotsPass (virtualParentOps ctx) restart list).Sat (contextContract ctx)
        fun _ => True := by
    intro restart hrestart list
    cases habs : list.plFlags.absolute with
    | false =>
      rw [cleanDotdotsPass]
      simp only [habs, Bool.not_false, if_true]
      trivial
    | true =>
      refine cleanDotdotsPass_sat habs (fun _ _ => trivial) fun scan flags _ _ _ _ => ?_
      split
      · exact resolveDotdots_context hrestart _ _ _
      · trivial
  have hfuel : ∀ n list, (cleanDotdotsFromPath (virtualParentOps ctx) n list).Sat
      (contextContract ctx) fun _ => True := by
    intro n
    induction n with
    | zero => exact hpass fun _ => trivial
    | succ n ih => exact hpass ih
  unfold cleanVirtualPath
  split
  · trivial
  · trivial
  · exact hfuel _ _

end Scratchbox
