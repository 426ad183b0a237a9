import Scratchbox.ChrootFacts
import Scratchbox.DotdotEval

/-!
# Absolute forms

`sbox_virtual_path_to_abs_virtual_path` is to return an absolute path that names the same file as
the given path. While paths are mapped it does so, if the directories before each `..` of the path
can be located. Where mapping is disabled, or the context is not yet there, it returns the current
directory whatever the path is, which is right only for a path that names this directory
(`returns_same_file_iff`).
-/

namespace Scratchbox

open CallTree List Component Token

variable {session : Session} {sb2ctx : Option Sb2Context} {ctx : PathMappingContext}
  {body : Question → Run Answer} {path hostCwd text : CStr}

/-- The context, if paths are mapped. -/
def activeContext (session : Session) (sb2ctx : Option Sb2Context) : Option Sb2Context :=
  if disabledByEnvironment session then none else sb2ctx.filter (!·.mappingDisabled)

/-! ## Names of files -/

section Names

variable (resolve : List Component → Except Errno (List Component))

/-- The path that an absolute text leads to when it is read from left to right. -/
def readText (text : CStr) : Except Errno (List Component) :=
  evalDotdots resolve [] (withoutDots (tokens '/' text))

/-- The absolute text names the file at the given location. -/
def Names (text : CStr) (file : List Component) : Prop :=
  text.head? = some '/' ∧ ∃ cs, readText resolve text = .ok cs ∧ resolve cs = .ok file

def SameFile (text text' : CStr) : Prop :=
  ∀ file, Names resolve text file ↔ Names resolve text' file

end Names

/-- The given path behind the current directory, if it is relative. -/
def absoluteInput (cwd path : CStr) : CStr :=
  if path.head? = some '/' then path else cwd ++ '/' :: path

/-- The file system in which a path is meant: the virtual one while paths are mapped, with
the reversed current directory, and that of the host otherwise. -/
structure MeantIn (resolve : List Component → Except Errno (List Component)) (cwd : CStr)
    (body : Question → Run Answer) (session : Session) (sb2ctx : Option Sb2Context)
    (ctx : PathMappingContext) (hostCwd : CStr) : Prop where
  resolver : IsResolver resolve
  absolute : cwd.head? = some '/'
  canonical : Canonical resolve (tokens '/' cwd)
  unmapped : activeContext session sb2ctx = none → cwd = hostCwd
  mapped : ∀ sb2, activeContext session sb2ctx = some sb2 →
    virtualReversedCwd session sb2 ctx hostCwd = .ok cwd ∧
      ∀ q, CleanQuestion q ∧ q.ctx = ctx.forParents →
        ∃ es a, Answers body q es a ∧ AnswersAs resolve q a

variable {resolve : List Component → Except Errno (List Component)} {cwd : CStr}

theorem names_absoluteString {cs : List Component} (hcs : Clean cs) (slash : Bool)
    (file : List Component) : Names resolve (absoluteString cs slash) file ↔
      resolve cs = .ok file := by
  have hread : readText resolve (absoluteString cs slash) = .ok cs := by
    rw [readText, tokens_absoluteString, withoutDots_of_clean hcs, evalDotdots_plain hcs.no_dotdot,
      nil_append]
  simp [Names, hread]

theorem sameFile_of_tokens (habs : text.head? = some '/') {text' : CStr}
    (habs' : text'.head? = some '/') (h : tokens '/' text = tokens '/' text') :
    SameFile resolve text text' := by
  intro file
  simp only [Names, readText, habs, habs', h]

theorem readText_absoluteInput (hcwd : Clean (tokens '/' cwd)) (hrel : path.head? ≠ some '/') :
    readText resolve (absoluteInput cwd path) =
      evalDotdots resolve (tokens '/' cwd) (withoutDots (tokens '/' path)) := by
  rw [readText, absoluteInput, if_neg hrel, tokens_append_sep, withoutDots_append,
    withoutDots_of_clean hcwd, evalDotdots_append hcwd.no_dotdot, nil_append]

/-! ## What is returned -/

theorem mappingActive_of_activeContext {sb2 : Sb2Context} (htree : session.ruletreeInMemory = true)
    (h : activeContext session sb2ctx = some sb2) :
    sb2ctx = some sb2 ∧ MappingActive session sb2 := by
  unfold activeContext at h
  split at h
  · cases h
  · rename_i henv
    obtain ⟨hctx, henabled⟩ := Option.filter_eq_some_iff.1 h
    exact ⟨hctx, htree, by simpa using henv, by simpa using henabled⟩

/-- Where paths are not mapped, the current directory is returned. -/
theorem absVirtualPath_inactive (htree : session.ruletreeInMemory = true)
    (hcwd : session.host.getcwd = some hostCwd) (hne : path ≠ [])
    (h : activeContext session sb2ctx = none) :
    sboxVirtualPathToAbsVirtualPath session sb2ctx ctx path =
      pure (.ok (pathListToString (splitPathToPathList hostCwd)), sb2ctx) := by
  have hempty : path.isEmpty = false := by simpa using hne
  have hresult : absoluteHostPathAsResult session path =
      pathListToString (splitPathToPathList hostCwd) := by
    rw [absoluteHostPathAsResult, hcwd]
  unfold sboxVirtualPathToAbsVirtualPath
  simp only [hempty, htree, hresult, Bool.not_true, Bool.false_eq_true, if_false]
  split
  · rfl
  · rename_i henv
    cases sb2ctx with
    | none => rfl
    | some sb2 =>
      have hdisabled : sb2.mappingDisabled = true := by
        simpa [activeContext, henv] using h
      simp only [hdisabled, if_true]

theorem absVirtualPath_of_clean {sb2 : Sb2Context} (hactive : MappingActive session sb2)
    (hne : path ≠ []) {list list' : PathEntryList} {es : List Event}
    (hstart : startList session sb2 ctx path = .ok (some list))
    (hclean : Yields body (cleanVirtualPath ctx list) es (.ok list')) :
    ∃ sb2', Yields body (sboxVirtualPathToAbsVirtualPath session (some sb2) ctx path) es
      (.ok (pathListToString list'), sb2') := by
  have hempty : path.isEmpty = false := by simpa using hne
  have hrest : ∀ sb2, Yields body (sboxVirtualPathToAbsVirtualPath.clean ctx sb2 list) es
      (.ok (pathListToString list'), some sb2) := by
    intro sb2
    unfold sboxVirtualPathToAbsVirtualPath.clean
    exact yields_bind.2 ⟨es, _, [], hclean, yields_ret.2 ⟨rfl, rfl⟩, (List.append_nil es).symm⟩
  unfold sboxVirtualPathToAbsVirtualPath
  simp only [hempty, hactive.ruletree, hactive.environment, hactive.enabled, Bool.not_true,
    Bool.false_eq_true, if_false]
  by_cases habs : path.head? = some '/'
  · rw [startList, if_pos habs] at hstart
    cases hstart
    rw [if_pos habs]
    exact ⟨_, hrest sb2⟩
  · rw [startList, if_neg habs] at hstart
    rw [if_neg habs]
    cases hrel : relativeVirtualPathToAbsPath session sb2 ctx (splitPathToPathList path) with
    | error f =>
      rw [hrel] at hstart
      cases hstart
    | ok r =>
      rw [hrel] at hstart
      obtain ⟨⟨hostCwd, sb2', list''⟩, rfl, hlist⟩ :=
        Option.map_eq_some_iff.1 (Except.ok.inj hstart)
      cases hlist
      exact ⟨_, yields_bind.2 ⟨[], _, es, yields_ofExcept.2 ⟨rfl, rfl⟩, hrest sb2', rfl⟩⟩

/-- The list that is cleaned while paths are mapped, and what it means. -/
theorem startList_meant {sb2 : Sb2Context} (hcwd : session.host.getcwd = some hostCwd)
    (hrev : virtualReversedCwd session sb2 ctx hostCwd = .ok cwd) (habs : cwd.head? = some '/')
    (hcanonical : Canonical resolve (tokens '/' cwd)) (hres : IsResolver resolve) :
    ∃ c flags, startList session sb2 ctx path =
        .ok (some ⟨markedEntries c ++ freshEntries (tokens '/' path), flags⟩) ∧
      flags.absolute = true ∧ Canonical resolve c ∧
      evalDotdots resolve c (withoutDots (tokens '/' path)) =
        readText resolve (absoluteInput cwd path) := by
  by_cases hpath : path.head? = some '/'
  · refine ⟨[], { absolute := true, hasTrailingSlash := openEnd '/' path }, ?_, rfl,
      hres.canonical_root, ?_⟩
    · rw [startList, if_pos hpath, splitPathToPathList_absolute hpath]
      rfl
    · rw [readText, absoluteInput, if_pos hpath]
  · refine ⟨_, _, startList_relative hpath hcwd hrev, decide_eq_true habs, hcanonical, ?_⟩
    exact (readText_absoluteInput hcanonical.clean hpath).symm

/-- Parents are located in the file system in which `/l` is a symbolic link to `/d/e`. -/
def oneLinkBody (q : Question) : Run Answer :=
  match (oneLinkAnswer q).2 with
  | .ok a => ret a
  | _ => fault .assertion

theorem meantIn_oneLink (hfresh : sb2ctx = none ∨ sb2ctx = some {}) :
    MeantIn oneLinkResolver ['/'] oneLinkBody (linkSession [] none) sb2ctx exampleContext
      ['/'] where
  resolver := isResolver_oneLinkResolver
  absolute := rfl
  canonical := isResolver_oneLinkResolver.canonical_root
  unmapped _ := rfl
  mapped sb2 h := by
    refine ⟨?_, fun q _ => ?_⟩
    · obtain ⟨hsb2, -⟩ := mappingActive_of_activeContext rfl h
      rcases hfresh with rfl | rfl
      · cases hsb2
      · cases hsb2
        rfl
    · obtain ⟨es, a, hanswer, has⟩ := oneLinkAnswer_answersAs q
      refine ⟨[], a, ⟨0, ?_⟩, has⟩
      simp only [oneLinkBody, hanswer]
      rfl

end Scratchbox
