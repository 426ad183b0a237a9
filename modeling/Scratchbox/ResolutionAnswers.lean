import Scratchbox.CleanInvariant
import Scratchbox.ResolutionFacts

/-!
# What resolution answers

Facts that hold of every answer of path resolution, and the form in which they
are used when the `..` components of a path are cleaned with these answers.
-/

namespace Scratchbox

open CallTree List Component

def anyContract : Contract Question Answer Event Fault :=
  ⟨fun _ => True, fun _ _ => True, fun _ => True, fun _ => True⟩

/-- A resolved path is clean and absolute, and the root is resolved to itself. -/
def LocatedAnswer (q : Question) (a : Answer) : Prop :=
  ∀ buf, a.res.mresErrno = none → a.res.mresResultBuf = some buf →
    ∃ cs trailing, buf = absoluteString cs trailing ∧ Clean cs ∧
      (q.absVirtualCleanSourcePathList.plFirst = [] → cs = [])

/-- The invariant: no path has been returned yet, and the root stays the root. -/
theorem levelRule_located (session : Session) (q : Question) :
    LevelRule session q.ctx anyContract (LocatedAnswer q) fun _ res source =>
      res.mresResultBuf = none ∧
        (q.absVirtualCleanSourcePathList.plFirst = [] → source.plFirst = []) where
  tooDeep _ := fun _ herrno _ => nomatch herrno
  fault _ _ := trivial
  answer hinv hlevel _ := by
    obtain ⟨habs, hclean, hcases⟩ := resolveUpToSymlink_cases hlevel
    cases hcases with
    | noRule _ hsame _ =>
      intro buf _ hbuf
      rw [hsame.buf, hinv.1] at hbuf
      cases hbuf
    | failed _ => exact fun _ herrno _ => nomatch herrno
    | finish _ _ =>
      intro buf _ hbuf
      obtain rfl := Option.some.inj hbuf
      refine ⟨_, _, pathListToString_absolute habs, hclean, fun hroot => ?_⟩
      rw [hinv.2 hroot, components_nil]
  relative _ _ _ := trivial
  symlink hinv hlevel _ _ _ := by
    obtain ⟨-, -, hcases⟩ := resolveUpToSymlink_cases hlevel
    cases hcases with
    | symlink hsplit hsame _ =>
      refine (sat_trivial _).mono fun r _ => ?_
      cases r with
      | error err => exact fun _ herrno _ => nomatch herrno
      | ok list =>
        refine ⟨hsame.buf.trans hinv.1, fun hroot => ?_⟩
        rw [hinv.2 hroot] at hsplit
        exact absurd hsplit (by simp)

theorem resolutionBody_located (session : Session) (q : Question) :
    (resolutionBody session q).Sat anyContract (LocatedAnswer q) :=
  (levelRule_located session q).sat maxNesting ⟨rfl, id⟩

/-- What is known of all answers, whatever is asked. -/
def locatedContract : Contract Question Answer Event Fault :=
  ⟨fun _ => True, LocatedAnswer, fun _ => True, fun _ => True⟩

theorem keeps_located (session : Session) :
    Keeps locatedContract (resolutionBody session) := by
  intro q _
  have hallowed : (resolutionBody session q).Sat locatedContract fun _ => True :=
    sat_of_allowed (fun _ => trivial) (fun _ => trivial) _
  exact (hallowed.and (resolutionBody_located session q) (fun _ _ => trivial)
    (fun _ _ _ => trivial)).mono fun _ h => h.2

def endsInDots (cs : List Component) : Bool :=
  cs.getLast? = some Component.dot || cs.getLast? = some Component.dotdot

/-- The trailing slash flag of the cleaned path is known from the start: a `..` at
the end sets it when it is removed. -/
theorem cleanerKeeps_trailing (ctx : PathMappingContext) (b : Bool) :
    CleanerKeeps locatedContract ctx (fun _ => True) fun flags cs =>
      (flags.hasTrailingSlash || decide (cs.getLast? = some dotdot)) = b where
  root {flags rest} hJ _ := by
    cases rest with
    | nil => simpa [PathFlags.setTrailingSlashIf] using hJ
    | cons c rest => simpa [PathFlags.setTrailingSlashIf, getLast?_cons_cons] using hJ
  pair {flags dir rest c} hJ _ _ := by
    cases rest with
    | nil => simpa [PathFlags.setTrailingSlashIf] using hJ
    | cons d rest => simpa [PathFlags.setTrailingSlashIf, getLast?_cons_cons] using hJ
  pre _ _ _ := trivial
  error _ _ _ := trivial
  null _ _ _ := trivial
  located {flags dir a buf} ha herrno hbuf := by
    obtain ⟨cs, trailing, hbuf, hcs, hroot⟩ := ha buf herrno hbuf
    refine ⟨cs, trailing, hbuf, hcs, fun hdir => hroot ?_⟩
    rw [hdir]
    rfl
  moved {flags dir rest cs trailing a} hJ _ _ _ _ _ := by
    rw [getLast?_append_of_ne_nil dir (cons_ne_nil _ _)] at hJ
    rwa [getLast?_append_of_ne_nil cs (cons_ne_nil _ _)]

theorem endsInDots_eq (cs : List Component) :
    (decide (cs.getLast? = some dot) ||
      decide ((cs.filter (· ≠ dot)).getLast? = some dotdot)) =
      endsInDots cs := by
  rcases eq_nil_or_concat cs with rfl | ⟨cs, c, rfl⟩
  · rfl
  · by_cases hdot : c = dot
    · simp [endsInDots, hdot]
    · have hfilter : [c].filter (· ≠ dot) = [c] := by simp [hdot]
      rw [concat_eq_append, filter_append, hfilter, endsInDots]
      simp

/-- What cleaning leaves: a clean absolute path, and a trailing slash if there was
one or if the path ended in `.` or `..`. -/
theorem cleanVirtualPath_cleaned {session : Session} {ctx : PathMappingContext}
    {list list' : PathEntryList} (habs : list.plFlags.absolute = true)
    (hmarks : DotdotsUnmarked list.plFirst) {es : List Event}
    (h : Yields (resolutionBody session) (cleanVirtualPath ctx list) es (.ok list')) :
    list'.plFlags.absolute = true ∧ Clean (components list'.plFirst) ∧
      list'.plFlags.hasTrailingSlash =
        (list.plFlags.hasTrailingSlash || endsInDots (components list.plFirst)) := by
  have hsat := cleanVirtualPath_sat (cleanerKeeps_trailing ctx _) habs hmarks rfl
  obtain ⟨habs', hclean, htrailing⟩ := hsat.sound (keeps_located session) h fun _ _ => trivial
  have hlast : (components list'.plFirst).getLast? ≠ some dotdot :=
    fun hl => hclean.no_dotdot (mem_of_getLast? hl)
  refine ⟨habs', hclean, ?_⟩
  rw [decide_eq_false hlast, Bool.or_false] at htrailing
  rw [htrailing, ← endsInDots_eq, ← Bool.or_assoc]
  rfl

/-- The path with a link's contents in place of the link has only fresh entries. -/
theorem not_marked_newList (session : Session) (dest : LinkText) (flags : PathFlags)
    (before next : List PathEntry) :
    ∀ e ∈ (newAbsVirtualLinkDestPathList session dest flags before next).plFirst,
      e.peNotSymlink = false := by
  have hfresh : ∀ (cs : List Component), ∀ e ∈ freshEntries cs, e.peNotSymlink = false := by
    intro cs e he
    obtain ⟨c, -, rfl⟩ := mem_map.1 he
    rfl
  have happend : ∀ {head new : List PathEntry}, (∀ e ∈ head, e.peNotSymlink = false) →
      (∀ e ∈ new, e.peNotSymlink = false) →
      ∀ e ∈ head ++ new, e.peNotSymlink = false := by
    intro head new hhead hnew e he
    rcases mem_append.1 he with he | he
    · exact hhead e he
    · exact hnew e he
  have hsnd : ∀ (head new : List PathEntry), (appendPathEntries head new).2 ⊆ head ++ new := by
    intro head new
    cases head with
    | nil => exact nil_subset _
    | cons e es => exact List.Subset.refl _
  intro e he
  unfold newAbsVirtualLinkDestPathList at he
  simp only [splitPathToPathEntries_entries, appendPathEntries_fst, duplicatePathEntries] at he
  split at he
  · dsimp only at he
    split at he
    · exact hfresh _ e he
    · exact happend (hfresh _) (hfresh _) e (hsnd _ _ he)
  · dsimp only at he
    split at he
    · exact happend (hfresh _) (hfresh _) e he
    · exact happend (happend (hfresh _) (hfresh _)) (hfresh _) e he

theorem dotdotsUnmarked_newList (session : Session) (dest : LinkText) (flags : PathFlags)
    (before next : List PathEntry) :
    DotdotsUnmarked
      (newAbsVirtualLinkDestPathList session dest flags before next).plFirst := by
  intro e he hmark
  rw [not_marked_newList session dest flags before next e he] at hmark
  cases hmark

end Scratchbox
