import Mathlib.Data.List.Induction
import Scratchbox.DotdotEval
import Scratchbox.EngineFacts

/-!
# Chains of openat

A directory is opened by its absolute virtual path, and then one name below the other with the
descriptor of the call before. A descriptor opened by a relative name gets the host path to which it
was mapped (`openat_step`). So the next call maps a path that was mapped already, and chains work
exactly where paths are mapped to themselves.
-/

namespace Scratchbox

open CallTree List Token Component

/-! ## Paths that meet no symbolic links -/

/-- One component further: a `..` leaves the directory. -/
def stepInto (dir : List Component) (c : Component) : List Component :=
  if c = Component.dotdot then dir.dropLast else dir ++ [c]

/-- The path that the components name where there are no symbolic links. -/
def lexicalPath (cs : List Component) : List Component := cs.foldl stepInto []

/-- The components of a text, without `.`. -/
def virtualComponents (path : CStr) : List Component := withoutDots (Token.tokens '/' path)

/-- The text is the virtual path, with its `..` evaluated. -/
def SameVirtual (text path : CStr) : Prop :=
  virtualComponents text = lexicalPath (virtualComponents path)

instance (text path : CStr) : Decidable (SameVirtual text path) :=
  inferInstanceAs (Decidable (virtualComponents text = lexicalPath (virtualComponents path)))

/-- The directory of the question is located where it is. -/
def InPlace (body : Question → Run Answer) (q : Question) : Prop :=
  ∃ es a, Answers body q es a ∧ a.res.mresErrno = none ∧
    a.res.mresResultBuf = some (pathListToString q.absVirtualCleanSourcePathList)

def inPlaceContract (body : Question → Run Answer) : Contract Question Answer Event Fault where
  pre := InPlace body
  post q a := a.res.mresErrno = none ∧
    a.res.mresResultBuf = some (pathListToString q.absVirtualCleanSourcePathList)
  event _ := True
  fault _ := False

/-- No `..` is behind a symbolic link: every directory that a `..` leaves is located where
it is. A `..` before all names leaves the root, for which nothing is looked up. -/
def MeetsNoLinks (body : Question → Run Answer) (ctx : PathMappingContext) (flags : PathFlags)
    (cs : List Component) : Prop :=
  ∀ before after, cs = before ++ Component.dotdot :: after →
    (∃ c ∈ before, c ≠ Component.dotdot) →
    InPlace body ⟨ctx.forParents, ⟨freshEntries (lexicalPath before), flags⟩⟩

section Lexical

variable {path path' name : CStr} {ctx : PathMappingContext} {body : Question → Run Answer}
  {restart : PathEntryList → Run (Except Errno PathEntryList)} {flags : PathFlags}
  {cs dir rest : List Component}

theorem stepInto_dotdot (dir : List Component) : stepInto dir dotdot = dir.dropLast := rfl

theorem stepInto_ordinary {c : Component} (h : c ≠ dotdot) (dir : List Component) :
    stepInto dir c = dir ++ [c] := if_neg h

theorem mem_foldl_stepInto {c : Component} (h : c ∈ cs.foldl stepInto dir) :
    c ∈ dir ∨ c ∈ cs ∧ c ≠ dotdot := by
  induction cs generalizing dir with
  | nil => exact .inl h
  | cons x cs ih =>
    rcases ih h with hmem | ⟨hmem, hne⟩
    · by_cases hx : x = dotdot
      · rw [hx, stepInto_dotdot] at hmem
        exact .inl (dropLast_subset dir hmem)
      · rw [stepInto_ordinary hx, mem_append, mem_singleton] at hmem
        rcases hmem with hmem | rfl
        · exact .inl hmem
        · exact .inr ⟨mem_cons_self, hx⟩
    · exact .inr ⟨mem_cons_of_mem x hmem, hne⟩

theorem mem_lexicalPath {c : Component} (h : c ∈ lexicalPath cs) : c ∈ cs ∧ c ≠ dotdot :=
  (mem_foldl_stepInto h).resolve_left not_mem_nil

theorem foldl_stepInto_append (h : dotdot ∉ cs) : cs.foldl stepInto dir = dir ++ cs := by
  induction cs generalizing dir with
  | nil => simp
  | cons c cs ih =>
    rw [foldl_cons, stepInto_ordinary fun heq => h (heq ▸ mem_cons_self),
      ih fun hm => h (mem_cons_of_mem c hm), append_assoc, singleton_append]

/-- What is behind a path starts in the directory that the path names. -/
theorem lexicalPath_append (cs cs' : List Component) :
    lexicalPath (lexicalPath cs ++ cs') = lexicalPath (cs ++ cs') := by
  have hself : lexicalPath (lexicalPath cs) = lexicalPath cs :=
    (foldl_stepInto_append fun hm => (mem_lexicalPath hm).2 rfl).trans (nil_append _)
  unfold lexicalPath at hself ⊢
  rw [foldl_append, foldl_append, hself]

theorem lexicalPath_leading (h : ∀ c ∈ cs, c = dotdot) (rest : List Component) :
    lexicalPath (cs ++ rest) = lexicalPath rest := by
  have hcs : lexicalPath cs = [] :=
    eq_nil_iff_forall_not_mem.2 fun c hc => (mem_lexicalPath hc).2 (h c (mem_lexicalPath hc).1)
  rw [← lexicalPath_append, hcs, nil_append]

/-- Step 3 where the directories are in place. The induction is on what is left to read. -/
theorem resolveDotdots_inPlace (dir : List Component) (habs : flags.absolute = true)
    (hdir : Clean dir) (hdot : dot ∉ rest)
    (hplace : ∀ before after, rest = before ++ dotdot :: after →
      InPlace body ⟨ctx.forParents, ⟨freshEntries (before.foldl stepInto dir), flags⟩⟩) :
    (resolveDotdots (virtualParentOps ctx) restart flags (freshEntries dir).reverse
      (freshEntries rest)).Sat (inPlaceContract body) (· = .ok
        ⟨freshEntries (rest.foldl stepInto dir),
          flags.setTrailingSlashIf (rest.getLast? = some dotdot)⟩) := by
  induction rest generalizing dir flags with
  | nil => simp [resolveDotdots, freshEntries, pure]
  | cons x rest ih =>
    have hdot' : dot ∉ rest := fun hm => hdot (mem_cons_of_mem x hm)
    rw [freshEntries_cons]
    by_cases hx : x = dotdot
    · have hwork : PathEntry.isDotdot { pePathComponent := x } = true := isDotdot_eq_true.2 hx
      subst hx
      have hquestion : parentQuestion ctx flags (freshEntries dir).reverse =
          ⟨ctx.forParents, ⟨freshEntries dir, flags⟩⟩ := by
        simp [parentQuestion, duplicatePathEntries]
      have hbefore : Clean (components (freshEntries dir).reverse.reverse) := by simpa using hdir
      refine resolveDotdots_dotdot_sat hwork hbefore ?_ ?_ ?_ ?_ ?_ ?_
      · rw [hquestion]
        exact hplace [] rest rfl
      · rintro a err ⟨herrno, -⟩ herr
        rw [herrno] at herr
        cases herr
      · rintro a ⟨-, hbuf⟩ - hnull
        rw [hnull] at hbuf
        cases hbuf
      · rintro a buf ⟨-, hbuf⟩ - hbuf' hne -
        rw [hbuf] at hbuf'
        exact absurd (Option.some.inj hbuf') hne
      · rintro a buf ⟨-, hbuf⟩ - hbuf' hne -
        rw [hbuf] at hbuf'
        exact absurd (Option.some.inj hbuf') hne
      · rintro a - - - -
        have htail : (freshEntries dir).reverse.tail = (freshEntries dir.dropLast).reverse := by
          rw [tail_reverse, freshEntries, freshEntries, map_dropLast]
        rw [htail, foldl_cons, stepInto_dotdot, decide_getLast?_dotdot, ← setTrailingSlashIf_twice,
          isEmpty_freshEntries]
        refine ih _ habs (hdir.subset (dropLast_subset dir)) hdot' fun before after hrest => ?_
        have hne : rest.isEmpty = false := by simp [hrest]
        rw [hne, setTrailingSlashIf_false]
        exact hplace (dotdot :: before) after (by rw [hrest, cons_append])
    · have hpush : ({ pePathComponent := x } : PathEntry) :: (freshEntries dir).reverse =
          (freshEntries (dir ++ [x])).reverse := by
        simp [freshEntries]
      have hclean : Clean (dir ++ [x]) := by
        refine hdir.append ⟨fun hm => hdot ?_, fun hm => hx (mem_singleton.1 hm).symm⟩
        rw [mem_singleton.1 hm]
        exact mem_cons_self
      rw [resolveDotdots_ordinary (isDotdot_eq_false.2 hx), hpush, foldl_cons,
        stepInto_ordinary hx, decide_getLast?_ordinary hx]
      refine ih _ habs hclean hdot' fun before after hrest => ?_
      have h := hplace (x :: before) after (by rw [hrest, cons_append])
      rwa [foldl_cons, stepInto_ordinary hx] at h

theorem dropLeadingDotdots_fresh (cs : List Component) :
    ∃ lead rest, cs = lead ++ rest ∧ (∀ c ∈ lead, c = dotdot) ∧ rest.head? ≠ some dotdot ∧
      dropLeadingDotdots (freshEntries cs) =
        (freshEntries rest, !lead.isEmpty && rest.isEmpty) := by
  induction cs with
  | nil => exact ⟨[], [], rfl, fun _ hm => absurd hm not_mem_nil, by simp, rfl⟩
  | cons x cs ih =>
    rw [freshEntries_cons, dropLeadingDotdots]
    by_cases hx : x = dotdot
    · obtain ⟨lead, rest, rfl, hlead, hhead, hdrop⟩ := ih
      have hwork : PathEntry.isDotdot { pePathComponent := x } = true := isDotdot_eq_true.2 hx
      refine ⟨x :: lead, rest, rfl, forall_mem_cons.2 ⟨hx, hlead⟩, hhead, ?_⟩
      rw [if_pos hwork, hdrop, isEmpty_freshEntries]
      cases lead with
      | nil => simp
      | cons y lead => simp
    · have hwork : PathEntry.isDotdot { pePathComponent := x } = false := isDotdot_eq_false.2 hx
      refine ⟨[], x :: cs, rfl, fun _ hm => absurd hm not_mem_nil, by simpa using hx, ?_⟩
      rw [hwork]
      rfl

theorem cleanDotdotsPass_inPlace (habs : flags.absolute = true) (hdot : dot ∉ cs)
    (hlinks : MeetsNoLinks body ctx flags cs) :
    (cleanDotdotsPass (virtualParentOps ctx) restart ⟨freshEntries cs, flags⟩).Sat
      (inPlaceContract body) (· = .ok ⟨freshEntries (lexicalPath cs),
        flags.setTrailingSlashIf (cs.getLast? = some dotdot)⟩) := by
  obtain ⟨lead, rest, rfl, hlead, hhead, hdrop⟩ := dropLeadingDotdots_fresh cs
  have hdot' : dot ∉ rest := fun hm => hdot (mem_append_right lead hm)
  have hflags : (flags.setTrailingSlashIf (!lead.isEmpty && rest.isEmpty)).setTrailingSlashIf
        (rest.getLast? = some dotdot) =
      flags.setTrailingSlashIf ((lead ++ rest).getLast? = some dotdot) := by
    rw [setTrailingSlashIf_twice]
    congr 1
    cases rest with
    | cons y rest => simp
    | nil =>
      rcases eq_nil_or_concat lead with rfl | ⟨lead, y, rfl⟩
      · rfl
      · simp [hlead y (by simp)]
  rw [lexicalPath_leading hlead, ← hflags]
  apply cleanDotdotsPass_sat
  · exact habs
  · intro _ hno
    rw [hdrop, components_freshEntries] at hno
    have hlast : rest.getLast? ≠ some dotdot := fun hl => hno (mem_of_getLast? hl)
    rw [hdrop, lexicalPath, foldl_stepInto_append hno, nil_append, decide_eq_false hlast,
      setTrailingSlashIf_false]
  · rintro scan flags' - hscan hflags' -
    rw [hdrop] at hscan hflags'
    cases rest with
    | nil =>
      rw [hflags', hscan]
      simp [removeKnownDotdots, freshEntries, lexicalPath]
    | cons x rest =>
      have hx : x ≠ dotdot := by simpa using hhead
      rw [freshEntries_cons, removeKnownDotdots_ordinary (isDotdot_eq_false.2 hx),
        removeKnownDotdots_kept _ rfl] at hscan
      have hflags'' : flags' = flags.setTrailingSlashIf (!lead.isEmpty && (x :: rest).isEmpty) := by
        rw [hflags', hscan, setTrailingSlashIf_false]
      have hentries : scan.entries = freshEntries (x :: rest) := by
        rw [hscan]
        rfl
      rw [hentries, hscan, ← hflags'']
      by_cases hdd : dotdot ∈ rest
      · rw [if_pos (decide_eq_true hdd)]
        have hsame : flags' = flags := by
          rw [hflags'', isEmpty_cons, Bool.and_false, setTrailingSlashIf_false]
        have habs' : flags'.absolute = true := hsame ▸ habs
        refine resolveDotdots_inPlace [] habs' clean_nil hdot' fun before after heq => ?_
        rw [hsame]
        have hname : ∃ c ∈ lead ++ before, c ≠ dotdot := by
          cases before with
          | nil => exact absurd (List.cons.inj heq).1 hx
          | cons y before =>
            obtain ⟨rfl, -⟩ := List.cons.inj heq
            exact ⟨x, mem_append_right lead mem_cons_self, hx⟩
        have h := hlinks (lead ++ before) after (by rw [heq, append_assoc]) hname
        rwa [lexicalPath_leading hlead] at h
      · rw [if_neg (by simpa using hdd)]
        have hno : dotdot ∉ x :: rest := fun hm => (mem_cons.1 hm).elim (hx ·.symm) hdd
        have hlast : (x :: rest).getLast? ≠ some dotdot := fun hl => hno (mem_of_getLast? hl)
        rw [lexicalPath, foldl_stepInto_append hno, nil_append, decide_eq_false hlast,
          setTrailingSlashIf_false]

/-- The trailing slash flag comes from the name alone. -/
theorem nameFlags_setTrailingSlashIf (hname : RelativeName name) (dir : List Component) :
    (nameFlags name).setTrailingSlashIf
        ((dir ++ virtualComponents name).getLast? = some dotdot) =
      (nameFlags name).setTrailingSlashIf ((virtualComponents name).getLast? = some dotdot) := by
  by_cases hnil : virtualComponents name = []
  · -- only `.`: the flag is set already
    have hset : (nameFlags name).hasTrailingSlash = true := by
      cases hlast : (tokens '/' name).getLast? with
      | none => exact absurd (getLast?_eq_none_iff.1 hlast) hname.tokens_ne_nil
      | some c =>
        have hc : c = dot := by
          have hmem := filter_eq_nil_iff.1 hnil c (mem_of_getLast? hlast)
          simpa using hmem
        simp [nameFlags, PathFlags.setTrailingSlashIf, hlast, hc]
    simp [PathFlags.setTrailingSlashIf, hset]
  · rw [getLast?_append_of_ne_nil dir hnil]

theorem virtualComponents_below (path name : CStr) :
    virtualComponents (path ++ '/' :: name) = virtualComponents path ++ virtualComponents name := by
  rw [virtualComponents, tokens_append_sep, withoutDots_append]
  rfl

/-- Cleaning a path that meets no symbolic links leaves the path that its text names. -/
theorem yields_cleanVirtualPath_inPlace (habs : path.head? = some '/') (hname : RelativeName name)
    (hlinks : MeetsNoLinks body ctx (nameFlags name) (virtualComponents (path ++ '/' :: name))) :
    ∃ es, Yields body (cleanVirtualPath ctx (splitPathToPathList (path ++ '/' :: name))) es
      (.ok ⟨freshEntries (lexicalPath (virtualComponents (path ++ '/' :: name))),
        (nameFlags name).setTrailingSlashIf
          ((virtualComponents name).getLast? = some dotdot)⟩) := by
  have hdots : removeDotsFromPathList (splitPathToPathList (path ++ '/' :: name)) =
      ⟨freshEntries (virtualComponents (path ++ '/' :: name)), nameFlags name⟩ := by
    rw [removeDots_below habs hname, virtualComponents_below]
    rfl
  have hcomponents : dotdot ∈ components (splitPathToPathList (path ++ '/' :: name)).plFirst ↔
      dotdot ∈ virtualComponents (path ++ '/' :: name) := by
    rw [← dotdot_mem_removeDots, hdots, components_freshEntries]
  rw [← nameFlags_setTrailingSlashIf hname (virtualComponents path), ← virtualComponents_below]
  generalize hcs : virtualComponents (path ++ '/' :: name) = cs at hlinks hdots hcomponents
  by_cases hdd : dotdot ∈ cs
  · have hdot : dot ∉ cs := by
      rw [← hcs]
      exact fun hm => absurd (of_mem_filter hm) (by decide)
    have hsat : (cleanDotdotsFromPath (virtualParentOps ctx) (countDotdots (freshEntries cs))
        ⟨freshEntries cs, nameFlags name⟩).Sat (inPlaceContract body) (· = .ok
          ⟨freshEntries (lexicalPath cs),
            (nameFlags name).setTrailingSlashIf (cs.getLast? = some dotdot)⟩) := by
      cases countDotdots (freshEntries cs) with
      | zero => exact cleanDotdotsPass_inPlace rfl hdot hlinks
      | succ n => exact cleanDotdotsPass_inPlace rfl hdot hlinks
    rw [cleanVirtualPath_dotdot ctx (hcomponents.2 hdd), hdots]
    obtain ⟨es, r, hrun, rfl⟩ :=
      hsat.exists_yields (fun _ hf => hf) (fun _ => trivial) (fun _ hq => hq)
    exact ⟨es, hrun⟩
  · have hlast : cs.getLast? ≠ some dotdot := fun hl => hdd (mem_of_getLast? hl)
    rw [cleanVirtualPath_plain ctx (mt hcomponents.1 hdd), hdots, lexicalPath,
      foldl_stepInto_append hdd, nil_append, decide_eq_false hlast, setTrailingSlashIf_false]
    exact ⟨[], yields_ret.2 ⟨rfl, rfl⟩⟩

/-- A name that meets no symbolic links below a path meets none below the path's text. -/
theorem MeetsNoLinks.same {text : CStr}
    (h : MeetsNoLinks body ctx flags (virtualComponents (path ++ '/' :: name)))
    (hsame : SameVirtual text path) :
    MeetsNoLinks body ctx flags (virtualComponents (text ++ '/' :: name)) := by
  rw [virtualComponents_below] at h ⊢
  rw [hsame]
  intro before after heq ⟨c, hc, hne⟩
  have hno : dotdot ∉ lexicalPath (virtualComponents path) := fun hm => (mem_lexicalPath hm).2 rfl
  obtain ⟨pre, rfl, hname⟩ : ∃ pre, before = lexicalPath (virtualComponents path) ++ pre ∧
      virtualComponents name = pre ++ dotdot :: after := by
    rcases append_eq_append_iff.1 heq with ⟨pre, hbefore, hname⟩ | ⟨pre, hlex, hname⟩
    · exact ⟨pre, hbefore, hname⟩
    · cases pre with
      | nil => exact ⟨[], by simpa using hlex.symm, by simpa using hname.symm⟩
      | cons x pre =>
        obtain ⟨rfl, -⟩ := List.cons.inj hname
        exact absurd (by simp [hlex]) hno
  rw [lexicalPath_append]
  refine h (virtualComponents path ++ pre) after (by rw [hname, append_assoc]) ⟨c, ?_, hne⟩
  rcases mem_append.1 hc with hc | hc
  · exact mem_append_left pre (mem_lexicalPath hc).1
  · exact mem_append_right _ hc

end Lexical

/-! ## One call -/

variable {path name : CStr}

section Step

variable {p p' : Process} {sb2 : Sb2Context} {es : List Event} {flags : OpenFlags}
  {real : CStr → Except Errno Nat} {fd : Nat} {res : MappingResults} {d : CStr} {dirfd : Int}

/-- A process in which the chains are looked at: mapping is active and no chroot is. -/
structure PlainProcess (p : Process) (sb2 : Sb2Context) : Prop where
  context : p.sb2ctx = some sb2
  active : MappingActive p.session sb2
  noChroot : p.session.sboxChrootPath = none

theorem yields_fwdMapPath_absolute (hp : PlainProcess p sb2) {path : CStr}
    (habs : path.head? = some '/') {body : Question → Run Answer} :
    Yields body (fwdMapPath p (some path) flags.mapFlags flags.classmask) es (res, p') ↔
      Yields body (mapPathList p.session (p.mappingContext flags.mapFlags flags.classmask)
        { list := splitPathToPathList path, sb2ctx := sb2 } false) es res ∧ p' = p := by
  have hne : path ≠ [] := by
    rintro rfl
    cases habs
  have htarget : absVirtualPathForRuleSelection p.session sb2
      (p.mappingContext flags.mapFlags flags.classmask) path =
      .ok (some { list := splitPathToPathList path, sb2ctx := sb2 }) := by
    rw [ruleSelection_absolute habs, hp.noChroot]
    rfl
  rw [yields_fwdMapPath_target hp.context hp.active hne htarget, ← hp.context]

theorem open_step (hp : PlainProcess p sb2) (habs : d.head? = some '/')
    (h : Yields (resolutionBody p.session) (openWrapper p d flags real) es ⟨res, .ok fd, p'⟩) :
    PlainProcess p' sb2 ∧ p'.session = p.session ∧ p'.sboxBinaryName = p.sboxBinaryName ∧
      p'.fdPathDb fd = some d := by
  obtain ⟨p₁, hmap, ⟨path, hpath⟩, rfl⟩ := yields_finishOpen h
  obtain ⟨hlist, rfl⟩ := (yields_fwdMapPath_absolute hp habs).1 hmap
  have hbuf : res.mresResultBuf = some path := by
    rw [← mapPathList_resultPath rfl hlist]
    exact hpath
  refine ⟨⟨hp.context, hp.active, hp.noChroot⟩, rfl, rfl, ?_⟩
  have hneg : ¬ ((fd : Int) < 0) := by omega
  simp [fdpathdbRegisterMappingResult, fdpathdbRegisterMappedPath, habs, hneg, hbuf,
    pathToRegister]

/-- What is registered for a descriptor opened by a relative name: its host path. -/
theorem openat_step (hp : PlainProcess p sb2) (hname : RelativeName name) (hcwd : dirfd ≠ atFdcwd)
    (hdir : ∀ dir, p.fdPathDb dirfd = some dir → dir.head? = some '/')
    (h : Yields (resolutionBody p.session) (openatWrapper p dirfd name flags real) es
      ⟨res, .ok fd, p'⟩) :
    PlainProcess p' sb2 ∧ p'.session = p.session ∧ p'.sboxBinaryName = p.sboxBinaryName ∧
      res.mresResultPath = res.mresResultBuf ∧
      p'.fdPathDb fd = pathToRegister res.mresResultBuf (some name) ∧
      ∀ dir, p.fdPathDb dirfd = some dir → Yields (resolutionBody p.session)
        (fwdMapPath p (some (dir ++ '/' :: name)) flags.mapFlags flags.classmask) es (res, p) := by
  obtain ⟨p₁, hmap, -, rfl⟩ := yields_finishOpen h
  have hneg : ¬ ((fd : Int) < 0) := by omega
  cases hreg : p.fdPathDb dirfd with
  | none =>
    rw [sboxMapPathAt_unregistered hname hcwd hreg] at hmap
    obtain ⟨-, heq⟩ := yields_ret.1 hmap
    cases heq
    refine ⟨⟨hp.context, hp.active, hp.noChroot⟩, rfl, rfl, rfl, ?_, fun dir hd => nomatch hd⟩
    simp [fdpathdbRegisterMappingResult, fdpathdbRegisterMappedPath, hname.relative, hneg,
      origPathAsResult]
  | some dir =>
    rw [sboxMapPathAt_registered hname hcwd hreg] at hmap
    obtain ⟨hlist, rfl⟩ := (yields_fwdMapPath_absolute hp
      (head?_append_absolute (hdir dir hreg) _)).1 hmap
    have hvcwd : res.mresVirtualCwd = none := mapPathList_virtualCwd hlist
    refine ⟨⟨hp.context, hp.active, hp.noChroot⟩, rfl, rfl, mapPathList_resultPath rfl hlist,
      ?_, ?_⟩
    · simp [fdpathdbRegisterMappingResult, fdpathdbRegisterMappedPath, hname.relative, hneg, hvcwd]
    · intro dir' hd
      cases hd
      exact hmap

end Step

/-! ## Chains -/

/-- One call of `openat` in a chain: its arguments, the mapping results, and the path
registered for its descriptor. -/
structure OpenStep where
  name : CStr
  flags : OpenFlags
  res : MappingResults
  registered : Option CStr

/-- The directory `d` is opened by its absolute path, then each name below the
descriptor of the call before. -/
inductive OpenatChain (p₀ : Process) (d : CStr) : List OpenStep → Process → Nat → Prop
  | opened {flags : OpenFlags} {real : CStr → Except Errno Nat} {es : List Event}
      {res : MappingResults} {fd : Nat} {p : Process} :
      Yields (resolutionBody p₀.session) (openWrapper p₀ d flags real) es ⟨res, .ok fd, p⟩ →
      OpenatChain p₀ d [] p fd
  | openat {steps : List OpenStep} {p p' : Process} {fd fd' : Nat} {name : CStr}
      {flags : OpenFlags} {real : CStr → Except Errno Nat} {es : List Event}
      {res : MappingResults} : OpenatChain p₀ d steps p fd → RelativeName name →
      Yields (resolutionBody p.session) (openatWrapper p fd name flags real) es
        ⟨res, .ok fd', p'⟩ →
      OpenatChain p₀ d (steps ++ [⟨name, flags, res, p'.fdPathDb fd'⟩]) p' fd'

def virtualPath (d : CStr) (steps : List OpenStep) : CStr :=
  d ++ steps.flatMap fun step => '/' :: step.name

theorem virtualPath_concat (d : CStr) (steps : List OpenStep) (step : OpenStep) :
    virtualPath d (steps ++ [step]) = virtualPath d steps ++ '/' :: step.name := by
  simp [virtualPath]

def MapsTo (p : Process) (flags : OpenFlags) (path : CStr) (res : MappingResults) : Prop :=
  ∃ es p', Yields (resolutionBody p.session)
    (sboxMapPath p (some path) flags.mapFlags flags.classmask) es (res, p')

/-- A name below a directory meets no symbolic links before its `..` components, and those
of the directory. -/
def NoLinksBelow (p : Process) (flags : OpenFlags) (dir name : CStr) : Prop :=
  MeetsNoLinks (resolutionBody p.session) (p.mappingContext flags.mapFlags flags.classmask)
    (nameFlags name) (virtualComponents (dir ++ '/' :: name))

def MapsToItself (p : Process) (flags : OpenFlags) (path : CStr) : Prop :=
  ∃ res text, MapsTo p flags path res ∧ res.mresResultBuf = some text ∧
    text.head? = some '/' ∧ SameVirtual text path

/-- The chain works: every call has the host path that `open` of the virtual path has,
and every descriptor has its virtual path registered. -/
structure ChainRight (p₀ : Process) (d : CStr) (steps : List OpenStep) : Prop where
  hostPath : ∀ before step, before ++ [step] <+: steps → ∃ res,
    MapsTo p₀ step.flags (virtualPath d (before ++ [step])) res ∧
    step.res.mresResultPath = res.mresResultPath
  registered : ∀ before step, before ++ [step] <+: steps → ∃ text,
    step.registered = some text ∧ SameVirtual text (virtualPath d (before ++ [step]))

/-! ## What every chain does -/

/-- The path registered for the descriptor with which the next call is made. -/
def registeredBefore (d : CStr) (before : List OpenStep) : Option CStr :=
  match before.getLast? with
  | none => some d
  | some step => step.registered

/-- What is known of a call in a chain: its host path is registered, and it is the
mapping of its name behind the path registered before. -/
structure StepFacts (p₀ : Process) (d : CStr) (before : List OpenStep) (step : OpenStep) :
    Prop where
  name : RelativeName step.name
  registered : step.registered = pathToRegister step.res.mresResultBuf (some step.name)
  resultPath : step.res.mresResultPath = step.res.mresResultBuf
  mapped : ∀ dir, registeredBefore d before = some dir →
    MapsTo p₀ step.flags (dir ++ '/' :: step.name) step.res

structure ChainState (p₀ : Process) (sb2 : Sb2Context) (d : CStr) (steps : List OpenStep)
    (p : Process) (fd : Nat) : Prop where
  plain : PlainProcess p sb2
  session : p.session = p₀.session
  binaryName : p.sboxBinaryName = p₀.sboxBinaryName
  registered : p.fdPathDb fd = registeredBefore d steps
  absolute : ∀ dir, registeredBefore d steps = some dir → dir.head? = some '/'
  facts : ∀ before step, before ++ [step] <+: steps → StepFacts p₀ d before step

section Chain

variable {p₀ p : Process} {sb2 : Sb2Context} {d : CStr} {steps : List OpenStep} {fd : Nat}
  {res : MappingResults} {flags : OpenFlags}

theorem OpenatChain.state (hp : PlainProcess p₀ sb2) (habs : d.head? = some '/')
    (h : OpenatChain p₀ d steps p fd) : ChainState p₀ sb2 d steps p fd := by
  induction h with
  | opened hopen =>
    obtain ⟨hplain, hsession, hname, hreg⟩ := open_step hp habs hopen
    refine ⟨hplain, hsession, hname, hreg, ?_, ?_⟩
    · rintro dir ⟨⟩
      exact habs
    · intro before step hpre
      exact absurd (prefix_nil.1 hpre) (by simp)
  | @openat steps p p' fd fd' name flags real es res _ hname h ih =>
    have hdir : ∀ dir, p.fdPathDb fd = some dir → dir.head? = some '/' := by
      rw [ih.registered]
      exact ih.absolute
    obtain ⟨hplain, hsession, hbinary, hpath, hreg, hmap⟩ :=
      openat_step ih.plain hname (natCast_ne_atFdcwd fd) hdir h
    have hlast : registeredBefore d (steps ++ [⟨name, flags, res, p'.fdPathDb fd'⟩]) =
        p'.fdPathDb fd' := by
      simp [registeredBefore]
    refine ⟨hplain, hsession.trans ih.session, hbinary.trans ih.binaryName, hlast.symm, ?_, ?_⟩
    · intro dir hd
      rw [hlast, hreg, pathToRegister_relative hname.relative] at hd
      exact hd.2
    · intro before step hpre
      rcases prefix_concat_iff.1 hpre with heq | hpre
      · obtain ⟨rfl, hstep⟩ := append_inj' heq rfl
        cases hstep
        refine ⟨hname, hreg, hpath, fun dir hd => ?_⟩
        rw [← ih.registered] at hd
        -- the process has changed only in its descriptors
        have hhead := head?_append_absolute (hdir dir hd) ('/' :: name)
        obtain ⟨hlist, -⟩ := (yields_fwdMapPath_absolute ih.plain hhead).1 (hmap dir hd)
        have hctx : p.mappingContext flags.mapFlags flags.classmask =
            p₀.mappingContext flags.mapFlags flags.classmask := by
          simp only [Process.mappingContext, Process.binaryName, ih.binaryName]
        rw [ih.session, hctx] at hlist
        exact ⟨es, p₀, (yields_fwdMapPath_absolute hp hhead).2 ⟨hlist, rfl⟩⟩
      · exact ih.facts before step hpre

/-- Names below a directory are mapped alike through the texts for one virtual path. -/
theorem mapsTo_below (hp : PlainProcess p₀ sb2) {text name : CStr} (htext : text.head? = some '/')
    (habs : path.head? = some '/') (hsame : SameVirtual text path) (hname : RelativeName name)
    (hlinks : NoLinksBelow p₀ flags path name)
    (h : MapsTo p₀ flags (text ++ '/' :: name) res) :
    MapsTo p₀ flags (path ++ '/' :: name) res := by
  obtain ⟨es, p', h⟩ := h
  obtain ⟨hlist, -⟩ := (yields_fwdMapPath_absolute hp (head?_append_absolute htext _)).1 h
  obtain ⟨es₁, hclean⟩ := yields_cleanVirtualPath_inPlace habs hname hlinks
  obtain ⟨es₂, hclean'⟩ := yields_cleanVirtualPath_inPlace htext hname (hlinks.same hsame)
  have hcleaned : lexicalPath (virtualComponents (text ++ '/' :: name)) =
      lexicalPath (virtualComponents (path ++ '/' :: name)) := by
    rw [virtualComponents_below, virtualComponents_below, hsame, lexicalPath_append]
  rw [hcleaned] at hclean'
  unfold mapPathList at hlist
  obtain ⟨es₃, r, es₄, hr, hrest, rfl⟩ := yields_bind.1 hlist
  obtain ⟨-, rfl⟩ := hr.unique hclean'
  refine ⟨es₁ ++ es₄, p₀, (yields_fwdMapPath_absolute hp (head?_append_absolute habs _)).2
    ⟨?_, rfl⟩⟩
  unfold mapPathList
  exact yields_bind.2 ⟨es₁, _, es₄, hclean, hrest, rfl⟩

theorem head?_virtualPath (habs : d.head? = some '/') (steps : List OpenStep) :
    (virtualPath d steps).head? = some '/' :=
  head?_append_absolute habs _

theorem MapsTo.unique {res' : MappingResults} (h : MapsTo p₀ flags path res)
    (h' : MapsTo p₀ flags path res') : res = res' := by
  obtain ⟨es, p₁, h⟩ := h
  obtain ⟨es', p₂, h'⟩ := h'
  exact congrArg Prod.fst (h.unique h').2

/-- Where all paths of a chain are mapped to themselves, its calls are mapped as `open`
of the virtual paths is. The induction is on the calls before. -/
theorem chain_mapped (hp : PlainProcess p₀ sb2) (habs : d.head? = some '/')
    (hlinks : ∀ before step, before ++ [step] <+: steps →
      NoLinksBelow p₀ step.flags (virtualPath d before) step.name)
    (facts : ∀ before step, before ++ [step] <+: steps → StepFacts p₀ d before step)
    (hself : ∀ before step, before ++ [step] <+: steps →
      MapsToItself p₀ step.flags (virtualPath d (before ++ [step])))
    {before : List OpenStep} {step : OpenStep} (hpre : before ++ [step] <+: steps) :
    MapsTo p₀ step.flags (virtualPath d (before ++ [step])) step.res := by
  induction before using List.reverseRecOn generalizing step with
  | nil =>
    have hmapped := (facts [] step hpre).mapped d rfl
    simpa [virtualPath] using hmapped
  | append_singleton before prev ih =>
    have hprev : before ++ [prev] <+: steps := (prefix_append _ _).trans hpre
    obtain ⟨res, text, hres, hbuf, htext, hsame⟩ := hself before prev hprev
    -- the call before was mapped to its own path, and that is registered
    obtain rfl := (ih hprev).unique hres
    have hreg : registeredBefore d (before ++ [prev]) = some text := by
      have hprevFacts := facts before prev hprev
      have hregistered : registeredBefore d (before ++ [prev]) = prev.registered := by
        simp [registeredBefore]
      rw [hregistered, hprevFacts.registered,
        pathToRegister_relative hprevFacts.name.relative]
      exact ⟨hbuf, htext⟩
    have hstep := facts (before ++ [prev]) step hpre
    rw [virtualPath_concat]
    exact mapsTo_below hp htext (head?_virtualPath habs _) hsame hstep.name
      (hlinks (before ++ [prev]) step hpre) (hstep.mapped text hreg)

/-- A chain that meets no symbolic links works exactly if the rules map the virtual path of
each of its calls to itself. Only the descriptor of the directory always has its virtual path. -/
theorem openat_chain_iff (hp : PlainProcess p₀ sb2) (habs : d.head? = some '/')
    (hchain : OpenatChain p₀ d steps p fd)
    (hlinks : ∀ before step, before ++ [step] <+: steps →
      NoLinksBelow p₀ step.flags (virtualPath d before) step.name) :
    (steps = [] → p.fdPathDb fd = some d) ∧
    (ChainRight p₀ d steps ↔ ∀ before step, before ++ [step] <+: steps →
      MapsToItself p₀ step.flags (virtualPath d (before ++ [step]))) := by
  have hstate := hchain.state hp habs
  refine ⟨fun hnil => by rw [hstate.registered, hnil]; rfl, ?_, ?_⟩
  · intro hright before step hpre
    obtain ⟨res, hres, hpath⟩ := hright.hostPath before step hpre
    obtain ⟨text, hreg, hsame⟩ := hright.registered before step hpre
    have hfacts := hstate.facts before step hpre
    rw [hfacts.registered, pathToRegister_relative hfacts.name.relative] at hreg
    have hbuf : res.mresResultBuf = some text := by
      obtain ⟨es, p', hmap⟩ := hres
      obtain ⟨hlist, -⟩ := (yields_fwdMapPath_absolute hp (head?_virtualPath habs _)).1 hmap
      rw [← mapPathList_resultPath rfl hlist, ← hpath, hfacts.resultPath]
      exact hreg.1
    exact ⟨res, text, hres, hbuf, hreg.2, hsame⟩
  · intro hself
    have hmapped : ∀ {before : List OpenStep} {step : OpenStep}, before ++ [step] <+: steps →
        MapsTo p₀ step.flags (virtualPath d (before ++ [step])) step.res :=
      fun hpre => chain_mapped hp habs hlinks hstate.facts hself hpre
    refine ⟨fun before step hpre => ⟨step.res, hmapped hpre, rfl⟩, fun before step hpre => ?_⟩
    obtain ⟨res, text, hres, hbuf, htext, hsame⟩ := hself before step hpre
    obtain rfl := (hmapped hpre).unique hres
    have hfacts := hstate.facts before step hpre
    refine ⟨text, ?_, hsame⟩
    rw [hfacts.registered, pathToRegister_relative hfacts.name.relative]
    exact ⟨hbuf, htext⟩

end Chain

/-! ## Examples of both -/

/-- The directory `/d` is opened, then `a` below it, and a name below that. -/
def openTwoBelow (p : Process) (name : CStr) : Run (OpenResult × OpenResult × OpenResult) := do
  let r ← openWrapper p "/d".toList {} fun _ => .ok 3
  let r₁ ← openatWrapper r.process 3 "a".toList {} fun _ => .ok 4
  let r₂ ← openatWrapper r₁.process 4 name {} fun _ => .ok 5
  pure (r, r₁, r₂)

/-- All calls have succeeded. -/
def allOpened (r : OpenResult × OpenResult × OpenResult) : Bool :=
  match r.1.ret, r.2.1.ret, r.2.2.ret with
  | .ok 3, .ok 4, .ok 5 => true
  | _, _, _ => false

theorem chain_openTwoBelow {p₀ : Process} {sb2 : Sb2Context} (hp : PlainProcess p₀ sb2)
    {es : List Event} {r : OpenResult × OpenResult × OpenResult}
    (hname : RelativeName name)
    (h : Yields (resolutionBody p₀.session) (openTwoBelow p₀ name) es r)
    (hopened : allOpened r = true) :
    OpenatChain p₀ "/d".toList
      [⟨"a".toList, {}, r.2.1.res, r.2.1.process.fdPathDb 4⟩,
        ⟨name, {}, r.2.2.res, r.2.2.process.fdPathDb 5⟩] r.2.2.process 5 := by
  obtain ⟨es₁, ⟨res, ret, p⟩, es₂, h₁, h, -⟩ := yields_bind.1 h
  obtain ⟨es₃, ⟨res₁, ret₁, p₁⟩, es₄, h₂, h, -⟩ := yields_bind.1 h
  obtain ⟨es₅, ⟨res₂, ret₂, p₂⟩, es₆, h₃, h, -⟩ := yields_bind.1 h
  obtain ⟨-, rfl⟩ := yields_ret.1 h
  unfold allOpened at hopened
  split at hopened
  · rename_i hr hr₁ hr₂
    dsimp only at hr hr₁ hr₂ h₁ h₂ h₃
    subst hr hr₁ hr₂
    have hstate := (OpenatChain.opened h₁).state hp rfl
    rw [← hstate.session] at h₂
    have hchain := (OpenatChain.opened h₁).openat ⟨by decide, by decide⟩ h₂
    have hstate₁ := hchain.state hp rfl
    rw [← hstate₁.session] at h₃
    exact hchain.openat hname h₃
  · cases hopened

theorem plainProcess_of_rules (rules : List FsRule) :
    PlainProcess
      { linkProcess [] none with session := { linkSession [] none with fwdRules := rules } } {} :=
  ⟨rfl, ⟨rfl, rfl, rfl⟩, rfl⟩

def mapsToPath (p : Process) (path text : CStr) : Bool :=
  runEnds p.session (sboxMapPath p (some path) {} 1) fun _ r =>
    r.1.mresResultBuf = some text && r.1.mresResultPath = some text

theorem exists_of_mapsToPath {p : Process} {text : CStr} (h : mapsToPath p path text = true) :
    ∃ res, MapsTo p {} path res ∧ res.mresResultBuf = some text ∧
      res.mresResultPath = some text := by
  obtain ⟨es, ⟨res, p'⟩, hmap, hcheck⟩ := exists_of_runEnds h
  rw [Bool.and_eq_true, decide_eq_true_eq, decide_eq_true_eq] at hcheck
  exact ⟨res, ⟨es, p', hmap⟩, hcheck⟩

theorem concat_prefix_pair {s₁ s₂ step : OpenStep} {before : List OpenStep}
    (h : before ++ [step] <+: [s₁, s₂]) :
    before = [] ∧ step = s₁ ∨ before = [s₁] ∧ step = s₂ := by
  rcases prefix_concat_iff.1 (show before ++ [step] <+: [s₁] ++ [s₂] from h) with heq | h
  · obtain ⟨rfl, hstep⟩ := append_inj' heq rfl
    exact .inr ⟨rfl, (List.cons.inj hstep).1⟩
  · rcases prefix_concat_iff.1 (show before ++ [step] <+: [] ++ [s₁] from h) with heq | h
    · obtain ⟨rfl, hstep⟩ := append_inj' heq rfl
      exact .inl ⟨rfl, (List.cons.inj hstep).1⟩
    · exact absurd (prefix_nil.1 h) (by simp)

theorem inPlace_of_runEnds {session : Session} {q : Question}
    (h : runEnds session (resolutionBody session q) (fun _ a => a.res.mresErrno = none &&
      a.res.mresResultBuf = some (pathListToString q.absVirtualCleanSourcePathList)) = true) :
    InPlace (resolutionBody session) q := by
  obtain ⟨es, a, hrun, hcheck⟩ := exists_of_runEnds h
  rw [Bool.and_eq_true, decide_eq_true_eq, decide_eq_true_eq] at hcheck
  exact ⟨es, a, hrun, hcheck⟩

/-- Without rules that move paths the chain works, also with a name that leaves a directory. -/
theorem openat_chain_unmapped :
    ∃ s₁ s₂ p, OpenatChain (linkProcess [] none) "/d".toList [s₁, s₂] p 5 ∧
      s₂.name = "../b".toList ∧ ChainRight (linkProcess [] none) "/d".toList [s₁, s₂] := by
  have hp : PlainProcess (linkProcess [] none) {} := plainProcess_of_rules [rootRule]
  obtain ⟨es, r, hrun, hopened⟩ := exists_of_runEnds
    (show runEnds (linkProcess [] none).session (openTwoBelow (linkProcess [] none) "../b".toList)
      (fun _ r => allOpened r) = true by decide +kernel)
  have hchain := chain_openTwoBelow hp ⟨by decide, by decide⟩ hrun hopened
  have hself : ∀ path text : CStr, mapsToPath (linkProcess [] none) path text = true →
      text.head? = some '/' → SameVirtual text path →
      MapsToItself (linkProcess [] none) {} path := by
    intro path text hpath habs hsame
    obtain ⟨res, hres, hbuf, -⟩ := exists_of_mapsToPath hpath
    exact ⟨res, text, hres, hbuf, habs, hsame⟩
  have hplain : NoLinksBelow (linkProcess [] none) {} "/d".toList "a".toList := by
    intro before after heq
    have hmem : dotdot ∈ virtualComponents ("/d".toList ++ '/' :: "a".toList) := by
      rw [heq]
      simp
    exact absurd hmem (by decide)
  have hleaving : NoLinksBelow (linkProcess [] none) {} "/d/a".toList "../b".toList := by
    intro before after heq _
    have hparts : tokens '/' "/d/a".toList ++ dotdot :: tokens '/' "b".toList =
        virtualComponents ("/d/a".toList ++ '/' :: "../b".toList) := by decide
    obtain ⟨rfl, -, -⟩ := (append_cons_inj_of_notMem (by decide) (by decide)).1 (hparts.trans heq)
    exact inPlace_of_runEnds (by decide +kernel)
  refine ⟨_, _, _, hchain, rfl, (openat_chain_iff hp rfl hchain ?_).2.2 ?_⟩
  · intro before step hpre
    rcases concat_prefix_pair hpre with ⟨rfl, rfl⟩ | ⟨rfl, rfl⟩
    · exact hplain
    · exact hleaving
  · intro before step hpre
    rcases concat_prefix_pair hpre with ⟨rfl, rfl⟩ | ⟨rfl, rfl⟩
    · exact hself "/d/a".toList "/d/a".toList (by decide +kernel) rfl (by decide)
    · exact hself "/d/a/../b".toList "/d/b".toList (by decide +kernel) rfl (by decide)

/-- A process in which every path is mapped to a path below `/T`. -/
def mapToProcess : Process :=
  { linkProcess [] none with
    session :=
      { linkSession [] none with
        fwdRules :=
          [{ ruleOffs := 1
             selectorType := some .selDir
             selector := some ['/']
             actionType := .mapTo
             actionStr := some "/T".toList }] } }

/-- The descriptor of `a` has its host path registered, and `b` below it is mapped twice. -/
theorem openat_chain_mapped_twice :
    ∃ s₁ s₂ p res, OpenatChain mapToProcess "/d".toList [s₁, s₂] p 5 ∧
      s₁.name = "a".toList ∧ s₂.name = "b".toList ∧
      s₁.registered = some "/T/d/a".toList ∧
      s₂.res.mresResultPath = some "/T/T/d/a/b".toList ∧
      MapsTo mapToProcess s₂.flags "/d/a/b".toList res ∧
      res.mresResultPath = some "/T/d/a/b".toList := by
  obtain ⟨es, r, hrun, hcheck⟩ := exists_of_runEnds
    (show runEnds mapToProcess.session (openTwoBelow mapToProcess "b".toList) (fun _ r =>
      allOpened r && (r.2.1.process.fdPathDb 4 = some "/T/d/a".toList &&
        r.2.2.res.mresResultPath = some "/T/T/d/a/b".toList)) = true by decide +kernel)
  rw [Bool.and_eq_true, Bool.and_eq_true, decide_eq_true_eq, decide_eq_true_eq] at hcheck
  obtain ⟨hopened, hreg, hpath⟩ := hcheck
  obtain ⟨res, hres, -, hdirect⟩ := exists_of_mapsToPath
    (show mapsToPath mapToProcess "/d/a/b".toList "/T/d/a/b".toList = true by decide +kernel)
  exact ⟨_, _, _, res, chain_openTwoBelow (plainProcess_of_rules _) ⟨by decide, by decide⟩ hrun
    hopened, rfl, rfl, hreg, hpath, hres, hdirect⟩

end Scratchbox
