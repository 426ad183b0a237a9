import Scratchbox.CleanRules
import Scratchbox.FdPathDb

/-!
# What the engine does with a path

Inversion lemmas for `sbox_map_path_internal__c_engine` while mapping is active:
the list it starts with, and which fields of the results it fills. A name below a directory
is looked up with the components of both (`removeDots_below`).
-/

namespace Scratchbox

open CallTree

variable {session : Session} {sb2 : Sb2Context} {ctx : PathMappingContext} {path : CStr}
  {body : Question → Run Answer} {es : List Event} {res : MappingResults} {target : PathToMap}
  {sb2' : Option Sb2Context} {res' : MappingResults} {answer : Answer}

theorem yields_sboxMapPathInternal (hactive : MappingActive session sb2) (hne : path ≠ [])
    (htarget : absVirtualPathForRuleSelection session sb2 ctx path = .ok (some target)) :
    Yields body (sboxMapPathInternal session (some sb2) ctx path false) es (res, sb2') ↔
      Yields body (mapPathList session ctx target false) es res ∧ sb2' = some target.sb2ctx := by
  have hempty : path.isEmpty = false := by simpa using hne
  have hmap : sboxMapPathInternal session (some sb2) ctx path false =
      (mapPathList session ctx target false >>= fun res => ret (res, some target.sb2ctx)) := by
    unfold sboxMapPathInternal
    simp only [hempty, hactive.environment, hactive.ruletree, hactive.enabled, Bool.not_true,
      Bool.false_eq_true, if_false, htarget]
    rfl
  rw [hmap, yields_bind]
  constructor
  · rintro ⟨es₁, res', es₂, hlist, hret, rfl⟩
    obtain ⟨rfl, heq⟩ := yields_ret.1 hret
    cases heq
    exact ⟨by rwa [List.append_nil], rfl⟩
  · rintro ⟨hlist, rfl⟩
    exact ⟨es, res, [], hlist, yields_ret.2 ⟨rfl, rfl⟩, (List.append_nil es).symm⟩

theorem ruleSelection_absolute (habs : path.head? = some '/') :
    absVirtualPathForRuleSelection session sb2 ctx path =
      .ok (some
        { list := splitPathToPathList (pathForNewRoot session.sboxChrootPath path)
          sb2ctx := sb2 }) := by
  unfold absVirtualPathForRuleSelection
  rw [if_neg (not_not_intro habs)]
  cases hchroot : session.sboxChrootPath with
  | none => rfl
  | some chroot => simp [pathForNewRoot, habs]

theorem yields_fwdMapPath_target {p p' : Process} {flags : MapFlags} {classmask : UInt32}
    (hsb2 : p.sb2ctx = some sb2) (hactive : MappingActive p.session sb2) (hne : path ≠ [])
    (htarget : absVirtualPathForRuleSelection p.session sb2 (p.mappingContext flags classmask)
      path = .ok (some target)) :
    Yields body (fwdMapPath p (some path) flags classmask) es (res, p') ↔
      Yields body (mapPathList p.session (p.mappingContext flags classmask) target false) es res ∧
        p' = { p with sb2ctx := some target.sb2ctx } := by
  rw [yields_fwdMapPath_some, hsb2]
  constructor
  · rintro ⟨sb2ctx, hmap, rfl⟩
    obtain ⟨hlist, rfl⟩ := (yields_sboxMapPathInternal hactive hne htarget).1 hmap
    exact ⟨hlist, rfl⟩
  · rintro ⟨hlist, rfl⟩
    exact ⟨_, (yields_sboxMapPathInternal hactive hne htarget).2 ⟨hlist, rfl⟩, rfl⟩

theorem natCast_ne_atFdcwd (fd : Nat) : (fd : Int) ≠ atFdcwd := by
  unfold atFdcwd
  omega

/-- The list of a relative path: it starts with the components of the current
directory, whose virtual path is left in the context. -/
structure RelativeTarget (session : Session) (sb2 : Sb2Context) (ctx : PathMappingContext)
    (path : CStr) (target : PathToMap) (hostCwd reversed : CStr) : Prop where
  getcwd : session.host.getcwd = some hostCwd
  reversing : virtualReversedCwd session sb2 ctx hostCwd = .ok reversed
  hostCwd : target.hostCwd = some hostCwd
  virtualCwd : target.sb2ctx.virtualReversedCwd = some reversed
  entries : target.list.plFirst =
    markedEntries (Token.tokens '/' reversed) ++ freshEntries (Token.tokens '/' path)
  absolute : reversed.head? = some '/' → target.list.plFlags.absolute = true

theorem ruleSelection_relative (hrel : path.head? ≠ some '/')
    (h : absVirtualPathForRuleSelection session sb2 ctx path = .ok (some target)) :
    ∃ hostCwd reversed, RelativeTarget session sb2 ctx path target hostCwd reversed := by
  unfold absVirtualPathForRuleSelection at h
  rw [if_pos hrel] at h
  dsimp only at h
  split at h
  · cases h
  · obtain ⟨result, hresult, h⟩ := Except.bind_eq_ok_iff.1 h
    cases hcwd : session.host.getcwd with
    | none =>
      simp only [relativeVirtualPathToAbsPath, hcwd] at hresult
      cases hresult
      cases h
    | some hostCwd =>
      simp only [relativeVirtualPathToAbsPath, hcwd] at hresult
      obtain ⟨reversed, hrev, hresult⟩ := Except.bind_eq_ok_iff.1 hresult
      cases hresult
      cases h
      refine ⟨hostCwd, reversed, hcwd, hrev, rfl, rfl, ?_, fun hslash => ?_⟩
      · simp [markedEntries]
      · simp [PathFlags.union, splitPathToPathEntries, hslash]

theorem mapResolvedPath_virtualCwd (h : mapResolvedPath session res answer = .ok res') :
    res'.mresVirtualCwd = res.mresVirtualCwd := by
  unfold mapResolvedPath at h
  split at h
  · cases h
    rfl
  · cases h
    rfl
  · cases h
    rfl
  · obtain ⟨t, -, h⟩ := Except.bind_eq_ok_iff.1 h
    dsimp only at h
    split at h
    · cases h
      rfl
    · cases h
      rfl

theorem mapResolvedPath_resultPath (hres : res.mresResultPath = res.mresResultBuf)
    (h : mapResolvedPath session res answer = .ok res') :
    res'.mresResultPath = res'.mresResultBuf := by
  unfold mapResolvedPath at h
  split at h
  · cases h
    exact hres
  · cases h
    exact hres
  · cases h
    exact hres
  · obtain ⟨t, -, h⟩ := Except.bind_eq_ok_iff.1 h
    dsimp only at h
    split at h
    · cases h
      rfl
    · cases h
      rfl

theorem withResultPath_virtualCwd (exec : Bool) (res : MappingResults) :
    (target.withResultPath exec res).mresVirtualCwd = res.mresVirtualCwd := by
  unfold PathToMap.withResultPath
  split
  · split
    · rfl
    · rfl
  · rfl

def PathToMap.initialResults (target : PathToMap) : MappingResults :=
  { mresVirtualCwd := target.hostCwd.bind fun _ => target.sb2ctx.virtualReversedCwd }

/-- What holds of the results in the three ways in which they are made: the path
could not be cleaned, it is not absolute, or it was resolved. -/
theorem mapPathList_cases {P : MappingResults → Prop}
    (herror : ∀ err, P { target.initialResults with mresErrno := some err })
    (hrelative : ∀ text, P (target.withResultPath false
      { target.initialResults with
        mresResultBuf := some text
        mresResultPath := some text
        mresErrorText := some "mapping failed; failed to make absolute path" }))
    (hresolved : ∀ answer res', mapResolvedPath session target.initialResults answer = .ok res' →
      P (target.withResultPath false res'))
    (h : Yields body (mapPathList session ctx target false) es res) : P res := by
  unfold mapPathList at h
  obtain ⟨es₁, r, es₂, -, hrest, -⟩ := yields_bind.1 h
  cases r with
  | error err =>
    obtain ⟨-, rfl⟩ := yields_ret.1 hrest
    exact herror err
  | ok list =>
    dsimp only at hrest
    split at hrest
    · obtain ⟨-, rfl⟩ := yields_ret.1 hrest
      exact hrelative _
    · obtain ⟨es₃, answer, es₄, -, hrest, -⟩ := yields_bind.1 hrest
      obtain ⟨es₅, res', es₆, hres, hret, -⟩ := yields_bind.1 hrest
      obtain ⟨-, hres⟩ := yields_ofExcept.1 hres
      obtain ⟨-, rfl⟩ := yields_ret.1 hret
      exact hresolved answer res' hres

theorem mapPathList_virtualCwd
    (h : Yields body (mapPathList session ctx target false) es res) :
    res.mresVirtualCwd = target.hostCwd.bind fun _ => target.sb2ctx.virtualReversedCwd := by
  refine mapPathList_cases (P := fun res => res.mresVirtualCwd = _) (fun err => rfl)
    (fun text => ?_) (fun answer res' hres => ?_) h
  · rw [withResultPath_virtualCwd]
    rfl
  · rw [withResultPath_virtualCwd, mapResolvedPath_virtualCwd hres]
    rfl

theorem mapPathList_resultPath (hcwd : target.hostCwd = none)
    (h : Yields body (mapPathList session ctx target false) es res) :
    res.mresResultPath = res.mresResultBuf := by
  have hwith : ∀ res : MappingResults, target.withResultPath false res = res := by
    intro res
    simp [PathToMap.withResultPath, hcwd]
  refine mapPathList_cases (P := fun res => res.mresResultPath = res.mresResultBuf)
    (fun err => rfl) (fun text => ?_) (fun answer res' hres => ?_) h
  · rw [hwith]
  · rw [hwith]
    exact mapResolvedPath_resultPath rfl hres

theorem mapPathList_resultBuf (h : Yields body (mapPathList session ctx target false) es res) :
    res.mresResultPath.isSome = res.mresResultBuf.isSome := by
  have hwith : ∀ res : MappingResults, res.mresResultPath = res.mresResultBuf →
      (target.withResultPath false res).mresResultPath.isSome =
        (target.withResultPath false res).mresResultBuf.isSome := by
    intro res hres
    unfold PathToMap.withResultPath
    split
    · rename_i hbuf
      split
      · simp [hbuf]
      · rw [hres]
    · rw [hres]
  refine mapPathList_cases (P := fun res => res.mresResultPath.isSome = res.mresResultBuf.isSome)
    (fun err => rfl) (fun text => hwith _ rfl) (fun answer res' hres => ?_) h
  exact hwith res' (mapResolvedPath_resultPath rfl hres)

/-! ## Names below a directory -/

section Below

open Token

variable {name : CStr}

theorem RelativeName.tokens_ne_nil (h : RelativeName name) : tokens '/' name ≠ [] := by
  obtain ⟨c, name, rfl⟩ := List.exists_cons_of_ne_nil h.ne_nil
  refine tokens_cons_ne_nil ?_ name
  rintro rfl
  exact h.relative rfl

/-- The flags of a path that ends in the name, without its `.` components. -/
def nameFlags (name : CStr) : PathFlags :=
  PathFlags.setTrailingSlashIf { absolute := true, hasTrailingSlash := openEnd '/' name }
    ((tokens '/' name).getLast? = some Component.dot)

theorem removeDots_below (habs : path.head? = some '/') (hname : RelativeName name) :
    removeDotsFromPathList (splitPathToPathList (path ++ '/' :: name)) =
      ⟨freshEntries (withoutDots (tokens '/' path) ++ withoutDots (tokens '/' name)),
        nameFlags name⟩ := by
  have hlist := splitPathToPathList_absolute (head?_append_absolute habs ('/' :: name))
  rw [tokens_append_sep, openEnd_append_sep] at hlist
  have hdots := removeDots_markedEntries clean_nil (tokens '/' path ++ tokens '/' name)
    { absolute := true, hasTrailingSlash := openEnd '/' name }
  rw [markedEntries_nil, List.nil_append, List.nil_append, List.nil_append, withoutDots_append,
    List.getLast?_append_of_ne_nil _ hname.tokens_ne_nil] at hdots
  rw [hlist, hdots]
  rfl

end Below

end Scratchbox
