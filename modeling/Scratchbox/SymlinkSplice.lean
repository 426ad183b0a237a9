import Scratchbox.ResolutionFacts

/-!
# What a symbolic link is replaced by

When a component of a path is a symbolic link, resolution goes on with a path in which the link's
contents have taken its place. `SpliceLaw` says what that path should be. With an absolute link, the
components after it are lost when the contents are nothing but slashes, and a slash at the end of
the source path is forgotten (`splice_law_iff`).
-/

namespace Scratchbox

open CallTree List Token

/-! ## The law -/

/-- The components with which resolution should go on when component `i` is a
symbolic link. -/
def splicedComponents (session : Session) (cs : List Component) (i : Nat) (dest : LinkText) :
    List Component :=
  (if dest.text.head? = some '/' then Token.tokens '/' (session.sboxChrootPath.getD [])
    else cs.take i) ++ Token.tokens '/' dest.text ++ cs.drop (i + 1)

/-- A `.` or `..` at the end becomes a trailing slash when the path is cleaned. -/
def IsDots (c : Component) : Prop := c = Component.dot ∨ c = Component.dotdot

/-- The last component of the path will be resolved even if it is a symbolic
link. -/
def ForcesLast (listp : PathEntryList) : Prop :=
  listp.plFlags.hasTrailingSlash = true ∨
    ∃ c, (components listp.plFirst).getLast? = some c ∧ IsDots c

/-- The path with which resolution goes on, before it is cleaned, compared with
the source path whose component `i` is the link. -/
structure SpliceLaw (session : Session) (source : PathEntryList) (i : Nat) (dest : LinkText)
    (newList : PathEntryList) : Prop where
  components_eq : components newList.plFirst =
    splicedComponents session (components source.plFirst) i dest
  forces : source.plFlags.hasTrailingSlash = true → ForcesLast newList

def chrootedText (session : Session) (dest : LinkText) : CStr :=
  session.sboxChrootPath.getD [] ++ dest.text

def EndsForced (s : CStr) : Prop :=
  Token.openEnd '/' s = true ∨ ∃ c, (Token.tokens '/' s).getLast? = some c ∧ IsDots c

/-- When the law holds: the link is relative, or its contents have a component
unless nothing comes after it, and there is no slash at the end of the source
path unless the link is last and has its own. -/
def SpliceKept (session : Session) (dest : LinkText) (trailing : Bool) (next : List PathEntry) :
    Prop :=
  dest.text.head? = some '/' →
    (next = [] ∨ Token.tokens '/' (chrootedText session dest) ≠ []) ∧
    (trailing = true → next = [] ∧ EndsForced (chrootedText session dest))

/-! ## The new list -/

section NewList

variable {session : Session} {dest : LinkText} {flags : PathFlags} {before next : List PathEntry}

theorem components_newList_relative (hrel : dest.text.head? ≠ some '/') :
    components (newAbsVirtualLinkDestPathList session dest flags before next).plFirst =
      components before.reverse ++ tokens '/' dest.text ++ components next := by
  unfold newAbsVirtualLinkDestPathList
  rw [if_neg hrel]
  cases next with
  | nil => simp [duplicatePathEntries]
  | cons e next => simp [duplicatePathEntries]

theorem trailing_newList_relative (hrel : dest.text.head? ≠ some '/')
    (ht : flags.hasTrailingSlash = true) :
    (newAbsVirtualLinkDestPathList session dest flags before
      next).plFlags.hasTrailingSlash = true := by
  unfold newAbsVirtualLinkDestPathList
  rw [if_neg hrel]
  simp [PathFlags.union, ht]

section

variable (habs : dest.text.head? = some '/')

include habs

theorem components_newList_last :
    components (newAbsVirtualLinkDestPathList session dest flags before []).plFirst =
      tokens '/' (chrootedText session dest) := by
  unfold newAbsVirtualLinkDestPathList
  rw [if_pos habs]
  simp [duplicatePathEntries, chrootedText]

theorem plFirst_newList_absolute (e : PathEntry) :
    (newAbsVirtualLinkDestPathList session dest flags before (e :: next)).plFirst =
      (appendPathEntries (freshEntries (tokens '/' (chrootedText session dest)))
        (duplicatePathEntries (e :: next))).2 := by
  unfold newAbsVirtualLinkDestPathList
  rw [if_pos habs]
  simp [duplicatePathEntries, freshEntries, chrootedText]

theorem components_newList_kept (hne : tokens '/' (chrootedText session dest) ≠ []) :
    components (newAbsVirtualLinkDestPathList session dest flags before next).plFirst =
      tokens '/' (chrootedText session dest) ++ components next := by
  cases next with
  | nil => rw [components_newList_last habs, components_nil, append_nil]
  | cons e next =>
    have hfresh : freshEntries (tokens '/' (chrootedText session dest)) ≠ [] :=
      fun h => hne (freshEntries_eq_nil.1 h)
    rw [plFirst_newList_absolute habs, appendPathEntries_snd_of_ne_nil _ hfresh,
      components_append, components_freshEntries, components_duplicate]

/-- Only slashes: what comes after the link is not reached from the list's head. -/
theorem components_newList_lost (hnil : tokens '/' (chrootedText session dest) = []) :
    components (newAbsVirtualLinkDestPathList session dest flags before next).plFirst = [] := by
  cases next with
  | nil => rw [components_newList_last habs, hnil]
  | cons e next =>
    rw [plFirst_newList_absolute habs, hnil]
    rfl

theorem trailing_newList_absolute :
    (newAbsVirtualLinkDestPathList session dest flags before next).plFlags.hasTrailingSlash =
      (next.isEmpty && openEnd '/' (chrootedText session dest)) := by
  unfold newAbsVirtualLinkDestPathList
  rw [if_pos habs]
  cases next with
  | nil => simp [PathFlags.ofLink, chrootedText]
  | cons e next => simp [PathFlags.ofLink]

theorem tokens_chrootedText :
    tokens '/' (chrootedText session dest) =
      tokens '/' (session.sboxChrootPath.getD []) ++ tokens '/' dest.text := by
  obtain ⟨rest, hrest⟩ : ∃ rest, dest.text = '/' :: rest := head?_eq_some_iff.1 habs
  rw [chrootedText, hrest, tokens_append_sep, tokens_cons_sep]

end

end NewList

/-! ## The condition -/

variable {before next : List PathEntry} {source : PathEntryList} {session : Session}
  {link : PathEntry} {dest : LinkText}

theorem spliceLaw_relative (hsplit : before.reverse ++ link :: next = source.plFirst)
    (hrel : dest.text.head? ≠ some '/') :
    SpliceLaw session source before.length dest
      (newAbsVirtualLinkDestPathList session dest source.plFlags before next) := by
  constructor
  · rw [components_newList_relative hrel, splicedComponents, if_neg hrel, ← hsplit]
    simp [components, drop_append]
  · exact fun ht => .inl (trailing_newList_relative hrel ht)

theorem spliceLaw_absolute_iff (hclean : Clean (components source.plFirst))
    (hsplit : before.reverse ++ link :: next = source.plFirst) (habs : dest.text.head? = some '/') :
    SpliceLaw session source before.length dest
        (newAbsVirtualLinkDestPathList session dest source.plFlags before next) ↔
      (next = [] ∨ tokens '/' (chrootedText session dest) ≠ []) ∧
      (source.plFlags.hasTrailingSlash = true →
        next = [] ∧ EndsForced (chrootedText session dest)) := by
  have hspliced : splicedComponents session (components source.plFirst) before.length dest =
      tokens '/' (chrootedText session dest) ++ components next := by
    rw [splicedComponents, if_pos habs, tokens_chrootedText habs, ← hsplit]
    simp [components, drop_append]
  have hnext : Clean (components next) :=
    hclean.subset fun c hc => by
      rw [← hsplit]
      simp [components] at hc ⊢
      exact .inr (.inr hc)
  constructor
  · intro hlaw
    have hkept : next = [] ∨ tokens '/' (chrootedText session dest) ≠ [] := by
      by_cases hnil : tokens '/' (chrootedText session dest) = []
      · have heq := hlaw.components_eq
        rw [components_newList_lost habs hnil, hspliced, hnil, nil_append] at heq
        exact .inl (components_eq_nil.1 heq.symm)
      · exact .inr hnil
    refine ⟨hkept, fun ht => ?_⟩
    cases next with
    | nil =>
      refine ⟨rfl, ?_⟩
      rcases hlaw.forces ht with htrail | ⟨c, hc, hdots⟩
      · rw [trailing_newList_absolute habs] at htrail
        exact .inl htrail
      · rw [components_newList_last habs] at hc
        exact .inr ⟨c, hc, hdots⟩
    | cons e next =>
      -- the flag of the link was cleared and the last component is one of the source path
      rcases hlaw.forces ht with htrail | ⟨c, hc, hdots⟩
      · rw [trailing_newList_absolute habs] at htrail
        cases htrail
      · have hmem : c ∈ components (e :: next) := by
          rw [hlaw.components_eq, hspliced, components_cons,
            getLast?_append_of_ne_nil _ (cons_ne_nil _ _)] at hc
          exact mem_of_getLast? hc
        rcases hdots with rfl | rfl
        · exact absurd hmem hnext.no_dot
        · exact absurd hmem hnext.no_dotdot
  · rintro ⟨hkept, hforced⟩
    constructor
    · rw [hspliced]
      rcases hkept with rfl | hne
      · rw [components_newList_last habs, components_nil, append_nil]
      · exact components_newList_kept habs hne
    · intro ht
      obtain ⟨rfl, hend⟩ := hforced ht
      rcases hend with hopen | ⟨c, hc, hdots⟩
      · exact .inl (by rw [trailing_newList_absolute habs, hopen]; rfl)
      · exact .inr ⟨c, by rw [components_newList_last habs]; exact hc, hdots⟩

/-- When a symbolic link is met in the look-up of a clean absolute path, the path
with which resolution goes on obeys the law exactly under `SpliceKept`. -/
theorem splice_law_iff {session : Session} {ctx : PathMappingContext} {res res' : MappingResults}
    {source : PathEntryList} {unchecked : List (Option CStr)} {dest : LinkText}
    {before next : List PathEntry}
    (h : resolveUpToSymlink session ctx res source =
      .ok (unchecked, .symlink dest before next res')) :
    ∃ i, i < source.plFirst.length ∧ before = (source.plFirst.take i).reverse ∧
      next = source.plFirst.drop (i + 1) ∧
      (SpliceLaw session source i dest
          (newAbsVirtualLinkDestPathList session dest source.plFlags before next) ↔
        SpliceKept session dest source.plFlags.hasTrailingSlash next) := by
  obtain ⟨-, hclean, hcases⟩ := resolveUpToSymlink_cases h
  cases hcases with
  | symlink hsplit _ _ =>
    refine ⟨before.length, ?_, ?_, ?_, ?_⟩
    · rw [← hsplit]
      simp
    · rw [← hsplit]
      simp
    · rw [← hsplit]
      simp [drop_append]
    · by_cases habs : dest.text.head? = some '/'
      · rw [spliceLaw_absolute_iff hclean hsplit habs]
        exact ⟨fun hlaw _ => hlaw, fun hkept => hkept habs⟩
      · exact ⟨fun _ hslash => absurd hslash habs, fun _ => spliceLaw_relative hsplit habs⟩

/-- `/a` is a symbolic link with the given contents. -/
def oneLinkSession (dest : LinkText) : Session := linkSession [("/a".toList, dest)] none

/-- `/a` is a symbolic link to `b/c` and `/a/x/` is looked up. -/
theorem splice_law_at_relative_link :
    SpliceLaw (oneLinkSession ⟨"b/c".toList, by decide⟩) (splitPathToPathList "/a/x/".toList) 0
      ⟨"b/c".toList, by decide⟩
      (newAbsVirtualLinkDestPathList (oneLinkSession ⟨"b/c".toList, by decide⟩)
        ⟨"b/c".toList, by decide⟩ (splitPathToPathList "/a/x/".toList).plFlags []
        (splitPathToPathList "x".toList).plFirst) := by
  have hlink : resolveUpToSymlink (oneLinkSession ⟨"b/c".toList, by decide⟩) exampleContext {}
      (splitPathToPathList "/a/x/".toList) = .ok ([], .symlink ⟨"b/c".toList, by decide⟩ []
        (splitPathToPathList "x".toList).plFirst {}) := by rfl
  obtain ⟨i, hi, hbefore, -, hiff⟩ := splice_law_iff hlink
  have hzero : i = 0 := by
    have hlen := congrArg List.length hbefore
    rw [length_reverse, length_take, Nat.min_eq_left (Nat.le_of_lt hi)] at hlen
    exact hlen.symm
  subst hzero
  exact hiff.2 fun h => absurd h (by decide)

/-- `/a` is a symbolic link to `/`. The look-up of `/a/b` meets the link, the law
does not hold for the new path, and the resolved path is `/`: `b` is lost. -/
theorem splice_law_fails_at_root_link :
    ∃ res' before next,
      resolveUpToSymlink (oneLinkSession ⟨['/'], by decide⟩) exampleContext {}
        (splitPathToPathList "/a/b".toList) =
          .ok ([], .symlink ⟨['/'], by decide⟩ before next res') ∧
      ¬ SpliceLaw (oneLinkSession ⟨['/'], by decide⟩) (splitPathToPathList "/a/b".toList) 0
        ⟨['/'], by decide⟩
        (newAbsVirtualLinkDestPathList (oneLinkSession ⟨['/'], by decide⟩) ⟨['/'], by decide⟩
          (splitPathToPathList "/a/b".toList).plFlags before next) ∧
      lookUpEnds (oneLinkSession ⟨['/'], by decide⟩) "/a/b".toList fun _ a => a.isPath ['/'] := by
  refine ⟨{}, [], (splitPathToPathList "b".toList).plFirst, by rfl, ?_, by decide +kernel⟩
  intro hlaw
  exact absurd hlaw.components_eq (by decide)

end Scratchbox
