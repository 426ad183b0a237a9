import Scratchbox.Engine
import Scratchbox.ResolutionAnswers
import Scratchbox.SymlinkSplice

/-!
# Paths inside a simulated chroot

With chroot simulation active, the chroot directory is glued in front of absolute
paths and of absolute symbolic links. A `..` that follows is evaluated on the
glued path: `..` of the chroot directory is its parent, not the directory itself.

1. `chroot_confined`: a look-up in which no `..` is evaluated in the chroot
   directory itself ends in that directory or below it.
2. `chroot_escape`: with `/c` as the chroot directory, `/..` is resolved to `/`.
-/

namespace Scratchbox

open CallTree List Component

variable {session : Session} {C : List Component}

/-- No component of the directory is a symbolic link: when a path below it is
walked, a link is met only behind it. -/
def NoLinksIn (session : Session) (C : List Component) : Prop :=
  ∀ ctx res source unchecked dest before next res',
    resolveUpToSymlink session ctx res source = .ok (unchecked, .symlink dest before next res') →
    C <+: components source.plFirst → C.length ≤ before.length

/-- An active chroot simulation: an absolute clean directory other than the root,
without symbolic links. -/
structure ChrootAt (session : Session) (C : List Component) : Prop where
  path : ∃ trailing, session.sboxChrootPath = some (absoluteString C trailing)
  clean : Clean C
  ne_nil : C ≠ []
  noLinks : NoLinksIn session C

def Below (C : List Component) (a : Answer) : Prop :=
  ∀ buf, a.res.mresErrno = none → a.res.mresResultBuf = some buf →
    C <+: Token.tokens '/' buf

/-- Look-ups below the directory stay there as long as no `..` is evaluated in the
directory itself. -/
def confinedContract (C : List Component) : Contract Question Answer Event Fault where
  pre q := C <+: components q.absVirtualCleanSourcePathList.plFirst
  post q a := LocatedAnswer q a ∧ Below C a
  event e := e ≠ .dotdot C
  fault _ := True

/-! ## Cleaning -/

/-- A directory without `..` that is above a `..` is above the part before it. -/
theorem below_before_dotdot (hC : Clean C) {dir rest : List Component}
    (h : C <+: dir ++ dotdot :: rest) : C <+: dir := by
  by_cases hlen : C.length ≤ dir.length
  · exact prefix_of_prefix_length_le h (prefix_append _ _) hlen
  · have hpre : dir ++ [dotdot] <+: dir ++ dotdot :: rest :=
      ⟨rest, by simp⟩
    have hmem : dir ++ [dotdot] <+: C :=
      prefix_of_prefix_length_le hpre h (by simp; omega)
    exact absurd (hmem.subset (by simp)) hC.no_dotdot

theorem below_filter (hC : Clean C) {cs : List Component} (h : C <+: cs) :
    C <+: cs.filter (· ≠ dot) := by
  have hfilter : C.filter (· ≠ dot) = C :=
    filter_eq_self.2 fun c hc => by
      simpa using fun heq : c = dot => hC.no_dot (heq ▸ hc)
  have hdots := h.filter fun c => decide (c ≠ dot)
  rwa [hfilter] at hdots

theorem cleanerKeeps_confined (hC : Clean C) (hne : C ≠ []) (ctx : PathMappingContext) :
    CleanerKeeps (confinedContract C) ctx (fun _ => True) fun _ cs => C <+: cs where
  root {flags rest} hJ _ := by
    have hroot : C <+: [] ++ dotdot :: rest := hJ
    exact absurd (prefix_nil.1 (below_before_dotdot hC hroot)) hne
  pair {flags dir rest c} hJ _ hev := by
    have hpair : C <+: (dir ++ [c]) ++ dotdot :: rest := by simpa using hJ
    rcases prefix_concat_iff.1 (below_before_dotdot hC hpair) with heq | hdir
    · exact absurd (by rw [heq]) hev
    · exact hdir.trans (prefix_append _ _)
  pre _ hJ _ := by
    have hdir := below_before_dotdot hC hJ
    simpa [confinedContract] using hdir
  error _ _ _ := trivial
  null _ _ _ := trivial
  located {flags dir a buf} ha herrno hbuf := by
    obtain ⟨cs, trailing, hbuf, hcs, hroot⟩ := ha.1 buf herrno hbuf
    refine ⟨cs, trailing, hbuf, hcs, fun hdir => hroot ?_⟩
    rw [hdir]
    rfl
  moved {flags dir rest cs trailing a} _ _ ha herrno hbuf _ := by
    have hcs := ha.2 _ herrno hbuf
    rw [tokens_absoluteString] at hcs
    exact hcs.trans (prefix_append _ _)

/-! ## Symbolic links -/

/-- The path with a link's contents in place of the link is below the directory. -/
theorem below_newList (hchroot : ChrootAt session C) (dest : LinkText) (flags : PathFlags)
    {before next : List PathEntry} {link : PathEntry}
    (hsource : C <+: components (before.reverse ++ link :: next))
    (hlen : C.length ≤ before.length) :
    C <+: components (newAbsVirtualLinkDestPathList session dest flags before next).plFirst := by
  obtain ⟨trailing, hpath⟩ := hchroot.path
  by_cases habs : dest.text.head? = some '/'
  · have htokens : Token.tokens '/' (chrootedText session dest) =
        C ++ Token.tokens '/' dest.text := by
      rw [tokens_chrootedText habs, hpath, Option.getD_some, tokens_absoluteString]
    have hne : Token.tokens '/' (chrootedText session dest) ≠ [] := by
      rw [htokens]
      simp [hchroot.ne_nil]
    rw [components_newList_kept habs hne, htokens, append_assoc]
    exact prefix_append _ _
  · rw [components_newList_relative habs, append_assoc]
    rw [components_append] at hsource
    have hbefore : C <+: components before.reverse :=
      prefix_of_prefix_length_le hsource (prefix_append _ _)
        (by simpa [components] using hlen)
    exact hbefore.trans (prefix_append _ _)

theorem levelRule_confined (hchroot : ChrootAt session C) (ctx : PathMappingContext) :
    LevelRule session ctx (confinedContract C) (Below C) fun _ res source =>
      res.mresResultBuf = none ∧ C <+: components source.plFirst where
  tooDeep _ := fun _ herrno _ => nomatch herrno
  fault _ _ := trivial
  answer hinv hlevel _ := by
    obtain ⟨habs, -, hcases⟩ := resolveUpToSymlink_cases hlevel
    cases hcases with
    | noRule _ hsame _ =>
      intro buf _ hbuf
      rw [hsame.buf, hinv.1] at hbuf
      cases hbuf
    | failed _ => exact fun _ herrno _ => nomatch herrno
    | finish _ _ =>
      intro buf _ hbuf
      obtain rfl := Option.some.inj hbuf
      rw [pathListToString_absolute habs, tokens_absoluteString]
      exact hinv.2
  relative _ _ _ := trivial
  symlink {left res res' source unchecked dest before next} hinv hlevel _ _ habs := by
    obtain ⟨-, -, hcases⟩ := resolveUpToSymlink_cases hlevel
    cases hcases with
    | symlink hsplit hsame _ =>
      have hlen := hchroot.noLinks _ _ _ _ _ _ _ _ hlevel hinv.2
      rw [← hsplit] at hinv
      have hbelow := below_newList hchroot dest source.plFlags hinv.2 hlen
      refine (cleanVirtualPath_sat (cleanerKeeps_confined hchroot.clean hchroot.ne_nil ctx) habs
        (dotdotsUnmarked_newList _ _ _ _ _) (below_filter hchroot.clean hbelow)).mono
        fun r hr => ?_
      cases r with
      | error err => exact fun _ herrno _ => nomatch herrno
      | ok list => exact ⟨hsame.buf.trans hinv.1, hr.2.2⟩

theorem keeps_confined (hchroot : ChrootAt session C) :
    CallTree.Keeps (confinedContract C) (resolutionBody session) := by
  intro q hq
  have hbelow : (resolutionBody session q).Sat (confinedContract C) (Below C) :=
    (levelRule_confined hchroot q.ctx).sat maxNesting ⟨rfl, hq⟩
  have hboth := hbelow.and (resolutionBody_located session q) (fun _ _ => trivial)
    fun _ _ _ => trivial
  exact hboth.mono fun a ha => ⟨ha.2, ha.1⟩

/-! ## The result -/

/-- While chroot simulation is active, an absolute virtual path is resolved to the
chroot directory or to a path below it, provided that no `..` is evaluated in the
chroot directory itself on the way. -/
theorem chroot_confined (hchroot : ChrootAt session C) {sb2 : Sb2Context}
    {ctx : PathMappingContext} {path : CStr} (habs : path.head? = some '/') {m : PathToMap}
    (hm : absVirtualPathForRuleSelection session sb2 ctx path = .ok (some m))
    {es : List Event} {a : Answer} {buf : CStr}
    (h : Yields (resolutionBody session) (lookUp ctx m.list) es (.ok a))
    (hev : Event.dotdot C ∉ es) (herrno : a.res.mresErrno = none)
    (hbuf : a.res.mresResultBuf = some buf) : C <+: Token.tokens '/' buf := by
  obtain ⟨trailing, hpath⟩ := hchroot.path
  have hlist : m.list = splitPathToPathList (absoluteString C trailing ++ '/' :: path) := by
    unfold absVirtualPathForRuleSelection at hm
    rw [if_neg (not_not_intro habs), hpath] at hm
    cases hm
    rfl
  have hcomps : C <+: components m.list.plFirst := by
    rw [hlist, splitPathToPathList_plFirst, components_freshEntries, Token.tokens_append_sep,
      tokens_absoluteString]
    exact prefix_append _ _
  have habs' : m.list.plFlags.absolute = true := by
    rw [hlist]
    simp
  have hmarks : DotdotsUnmarked m.list.plFirst := by
    rw [hlist, splitPathToPathList_plFirst]
    exact dotdotsUnmarked_freshEntries _
  rcases yields_lookUp.1 h with ⟨err, -, hr⟩ | ⟨list', es₁, es₂, a', hclean, ha, hr, rfl⟩
  · cases hr
  · cases hr
    have hcleaned := (cleanVirtualPath_sat
      (cleanerKeeps_confined hchroot.clean hchroot.ne_nil ctx) habs' hmarks
      (below_filter hchroot.clean hcomps)).sound (keeps_confined hchroot) hclean
      fun e he heq => hev (heq ▸ mem_append_left es₂ he)
    have hpre : (confinedContract C).pre ⟨ctx, list'⟩ := hcleaned.2.2
    have hanswer := (keeps_confined hchroot).post hpre ha
      fun e he heq => hev (heq ▸ mem_append_right es₁ he)
    exact hanswer.2 buf herrno hbuf

def chrootSession : Session := linkSession [] (some "/c".toList)

theorem chrootAt_chrootSession : ChrootAt chrootSession (Token.tokens '/' "/c".toList) where
  path := ⟨false, by decide⟩
  clean := ⟨by decide, by decide⟩
  ne_nil := by decide
  noLinks := by
    intro ctx res source unchecked dest before next res' hlevel _
    obtain ⟨-, -, hcases⟩ := resolveUpToSymlink_cases hlevel
    cases hcases with
    | @symlink _ _ _ _ _ path _ _ hread =>
      have hmem : (path, dest) ∈ [] := mem_of_readlink_linkHost hread
      exact absurd hmem not_mem_nil

/-- With `/c` as the chroot directory, `/x/../y` is resolved to `/c/y`, a path below
`/c`. -/
theorem chroot_confined_below :
    Token.tokens '/' "/c".toList <+: Token.tokens '/' "/c/y".toList := by
  obtain ⟨es, a, h, hp⟩ : ∃ es a, Yields (resolutionBody chrootSession)
      (lookUp exampleContext (splitPathToPathList "/c//x/../y".toList)) es (.ok a) ∧
      (decide (Event.dotdot (Token.tokens '/' "/c".toList) ∉ es) &&
        a.isPath "/c/y".toList) = true :=
    exists_of_lookUpEnds (by decide +kernel)
  rw [Bool.and_eq_true, decide_eq_true_eq, Answer.isPath, decide_eq_true_eq] at hp
  have hm : absVirtualPathForRuleSelection chrootSession {} exampleContext "/x/../y".toList =
      .ok (some { list := splitPathToPathList "/c//x/../y".toList, sb2ctx := {} }) := by rfl
  exact chroot_confined chrootAt_chrootSession (by decide) hm h hp.1 hp.2.1 hp.2.2

/-- With `/c` as the chroot directory, `/..` is resolved to `/`. -/
theorem chroot_escape :
    ChrootAt chrootSession (Token.tokens '/' "/c".toList) ∧
    ∃ m es a, absVirtualPathForRuleSelection chrootSession {} exampleContext "/..".toList =
        .ok (some m) ∧
      Yields (resolutionBody chrootSession) (lookUp exampleContext m.list) es (.ok a) ∧
      a.res.mresErrno = none ∧ a.res.mresResultBuf = some "/".toList ∧
      ¬ Token.tokens '/' "/c".toList <+: Token.tokens '/' "/".toList := by
  obtain ⟨es, a, h, hp⟩ : ∃ es a, Yields (resolutionBody chrootSession)
      (lookUp exampleContext (splitPathToPathList "/c//..".toList)) es (.ok a) ∧
      a.isPath "/".toList = true := exists_of_lookUpEnds (by decide +kernel)
  rw [Answer.isPath, decide_eq_true_eq] at hp
  exact ⟨chrootAt_chrootSession, { list := splitPathToPathList "/c//..".toList, sb2ctx := {} },
    es, a, by rfl, h, hp.1, hp.2, by decide⟩

end Scratchbox
