import Mathlib.Logic.Function.Basic
import Scratchbox.ChrootFacts

/-!
# Descriptors and their paths

`fdpathdb.c`, and the generated wrappers of `open` and `openat`. When a file has
been opened, a postprocessor registers a path for the new descriptor, and a later
call with a path relative to that descriptor is mapped as if that path stood in
front of it (`sbox_map_path_at`).
-/

namespace Scratchbox

open CallTree

/-! ## The database -/

/-- What `fdpathdb_find_path` gives for each descriptor. -/
abbrev FdPathDb := Int → Option CStr

/-- The path that is registered: the original one if it is absolute, otherwise the
mapped one if that is absolute. -/
def pathToRegister (mappedPath origPath : Option CStr) : Option CStr :=
  match mappedPath, origPath with
  | some mapped, some orig =>
    if orig.head? = some '/' then some orig
    -- "Oops. Should not come here"
    else if mapped.head? = some '/' then some mapped
    else none
  | _, _ => none

def fdpathdbRegisterMappedPath (db : FdPathDb) (fd : Int) (mappedPath origPath : Option CStr) :
    FdPathDb :=
  if fd < 0 then db else Function.update db fd (pathToRegister mappedPath origPath)

def fdpathdbRegisterMappingResult (db : FdPathDb) (retFd : Int) (res : MappingResults)
    (pathname : CStr) : FdPathDb :=
  if pathname.head? = some '/' then
    fdpathdbRegisterMappedPath db retFd res.mresResultBuf (some pathname)
  else
    match res.mresVirtualCwd with
    | some cwd =>
      fdpathdbRegisterMappedPath db retFd res.mresResultBuf (some (cwd ++ '/' :: pathname))
    | none => fdpathdbRegisterMappedPath db retFd res.mresResultBuf (some pathname)

def openPostprocessPathname (db : FdPathDb) (retFd : Int) (res : MappingResults)
    (pathname : CStr) : FdPathDb :=
  fdpathdbRegisterMappingResult db retFd res pathname

/-- `openat_postprocess_pathname`: the descriptor of the directory is not used. -/
def openatPostprocessPathname (db : FdPathDb) (retFd : Int) (res : MappingResults) (_dirfd : Int)
    (pathname : CStr) : FdPathDb :=
  fdpathdbRegisterMappingResult db retFd res pathname

def dupPostprocess (db : FdPathDb) (ret fd : Int) : FdPathDb :=
  if 0 ≤ ret then fdpathdbRegisterMappedPath db ret (db fd) (db fd) else db

/-- `dup2_postprocess_` and `dup3_postprocess_`. -/
def dup2Postprocess (db : FdPathDb) (ret fd fd2 : Int) : FdPathDb :=
  if 0 ≤ ret ∧ fd ≠ fd2 then fdpathdbRegisterMappedPath db fd2 (db fd) (db fd) else db

def closePostprocess (db : FdPathDb) (fd : Int) : FdPathDb :=
  fdpathdbRegisterMappedPath db fd none none

/-! ## The wrappers -/

/-- What the wrappers look at in the flags of `open`: `O_NOFOLLOW`, `O_CREAT`, and
whether any of `OPEN_FLAGS_RW_MODE` is set. -/
structure OpenFlags where
  nofollow : Bool := false
  creat : Bool := false
  rwMode : Bool := false
  deriving DecidableEq

/-- `class(OPEN) conditionally_class(flags&O_CREAT,CREAT)`. -/
def OpenFlags.classmask (flags : OpenFlags) : UInt32 := if flags.creat then 0x4001 else 0x1

/-- `dont_resolve_final_symlink_if(flags&O_NOFOLLOW)`. -/
def OpenFlags.mapFlags (flags : OpenFlags) : MapFlags :=
  { dontResolveFinalSymlink := flags.nofollow }

/-- The mapping results that a wrapper worked with, what it returned, and the
process afterwards. -/
structure OpenResult where
  res : MappingResults
  ret : Except Errno Nat
  process : Process

/-- The real function with a path that may be NULL. -/
def realOpen (real : CStr → Except Errno Nat) : Option CStr → Except Errno Nat
  | none => .error .EFAULT
  | some path => real path

/-- The part of the wrappers that follows the mapping. A failed call returns -1,
for which nothing is registered. -/
def finishOpen (real : CStr → Except Errno Nat) (flags : OpenFlags)
    (postprocess : FdPathDb → Int → MappingResults → FdPathDb) (res : MappingResults)
    (p : Process) : OpenResult :=
  match res.mresErrno with
  | some err => ⟨res, .error err, p⟩
  | none =>
    if res.mresReadonly && flags.rwMode then ⟨res, .error .EROFS, p⟩
    else
      match realOpen real res.mresResultPath with
      | .error err => ⟨res, .error err, p⟩
      | .ok fd => ⟨res, .ok fd, { p with fdPathDb := postprocess p.fdPathDb fd res }⟩

def openWrapper (p : Process) (pathname : CStr) (flags : OpenFlags)
    (real : CStr → Except Errno Nat) : Run OpenResult := do
  let (res, p) ← sboxMapPath p (some pathname) flags.mapFlags flags.classmask
  pure (finishOpen real flags (fun db fd res => openPostprocessPathname db fd res pathname) res p)

def openatWrapper (p : Process) (dirfd : Int) (pathname : CStr) (flags : OpenFlags)
    (real : CStr → Except Errno Nat) : Run OpenResult := do
  let (res, p) ← sboxMapPathAt p dirfd (some pathname) flags.mapFlags flags.classmask
  pure (finishOpen real flags
    (fun db fd res => openatPostprocessPathname db fd res dirfd pathname) res p)

/-! ## Facts about the database -/

theorem pathToRegister_absolute {mapped orig : Option CStr} {path : CStr}
    (h : pathToRegister mapped orig = some path) : path.head? = some '/' := by
  unfold pathToRegister at h
  split at h
  · split at h
    · rename_i habs
      cases h
      exact habs
    · split at h
      · rename_i habs
        cases h
        exact habs
      · cases h
  · cases h

/-- A relative original path is not registered: the mapped path is, if it is absolute. -/
theorem pathToRegister_relative {buf : Option CStr} {name text : CStr}
    (hrel : name.head? ≠ some '/') :
    pathToRegister buf (some name) = some text ↔ buf = some text ∧ text.head? = some '/' := by
  cases buf with
  | none => simp [pathToRegister]
  | some mapped =>
    by_cases habs : mapped.head? = some '/'
    · simp only [pathToRegister, hrel, habs, if_false, if_true, Option.some.injEq]
      constructor
      · rintro rfl
        exact ⟨rfl, habs⟩
      · exact fun h => h.1
    · simp only [pathToRegister, hrel, habs, if_false, Option.some.injEq]
      constructor
      · exact fun h => (nomatch h)
      · rintro ⟨rfl, h⟩
        exact absurd h habs

@[simp] theorem registerMappedPath_self (db : FdPathDb) (fd : Nat) (mapped orig : Option CStr) :
    fdpathdbRegisterMappedPath db fd mapped orig fd = pathToRegister mapped orig := by
  have hneg : ¬ ((fd : Int) < 0) := by omega
  rw [fdpathdbRegisterMappedPath, if_neg hneg, Function.update_self]

/-! ## Facts about the wrappers -/

section

variable {body : Question → Run Answer} {es : List Event} {p p' : Process} {flags : OpenFlags}
  {real : CStr → Except Errno Nat} {fd : Nat} {res : MappingResults} {mapFlags : MapFlags}
  {classmask : UInt32} {dirfd : Int} {name : CStr}

theorem finishOpen_ok {postprocess : FdPathDb → Int → MappingResults → FdPathDb}
    {res' : MappingResults}
    (h : finishOpen real flags postprocess res p = ⟨res', .ok fd, p'⟩) :
    res' = res ∧ res.mresErrno = none ∧ (∃ path, res.mresResultPath = some path) ∧
      p' = { p with fdPathDb := postprocess p.fdPathDb fd res } := by
  unfold finishOpen at h
  cases herrno : res.mresErrno with
  | some err =>
    simp [herrno] at h
  | none =>
    simp only [herrno] at h
    split at h
    · simp at h
    · cases hpath : res.mresResultPath with
      | none => simp [hpath, realOpen] at h
      | some path =>
        cases hreal : real path with
        | error err => simp [hpath, realOpen, hreal] at h
        | ok fd' =>
          simp only [hpath, realOpen, hreal, OpenResult.mk.injEq, Except.ok.injEq] at h
          obtain ⟨hres, rfl, hp⟩ := h
          exact ⟨hres.symm, rfl, ⟨path, rfl⟩, hp.symm⟩

theorem yields_fwdMapPath_some {path : CStr} :
    Yields body (fwdMapPath p (some path) mapFlags classmask) es (res, p') ↔
      ∃ sb2ctx, Yields body (sboxMapPathInternal p.session p.sb2ctx
          (p.mappingContext mapFlags classmask) path false) es (res, sb2ctx) ∧
        p' = { p with sb2ctx } := by
  unfold fwdMapPath
  rw [yields_bind]
  constructor
  · rintro ⟨es₁, ⟨res', sb2ctx⟩, es₂, hmap, hret, rfl⟩
    obtain ⟨rfl, heq⟩ := yields_ret.1 hret
    cases heq
    exact ⟨sb2ctx, by rwa [List.append_nil], rfl⟩
  · rintro ⟨sb2ctx, hmap, rfl⟩
    exact ⟨es, (res, sb2ctx), [], hmap, yields_ret.2 ⟨rfl, rfl⟩, (List.append_nil es).symm⟩

theorem yields_finishOpen {mapping : Run (MappingResults × Process)} {pathname : CStr}
    (h : Yields body (mapping >>= fun r => pure (finishOpen real flags
      (fun db fd res => fdpathdbRegisterMappingResult db fd res pathname) r.1 r.2)) es
      ⟨res, .ok fd, p'⟩) :
    ∃ p₁, Yields body mapping es (res, p₁) ∧ (∃ path, res.mresResultPath = some path) ∧
      p' = { p₁ with
        fdPathDb := fdpathdbRegisterMappingResult p₁.fdPathDb fd res pathname } := by
  obtain ⟨es₁, ⟨res₁, p₁⟩, es₂, hmap, hret, rfl⟩ := yields_bind.1 h
  obtain ⟨rfl, heq⟩ := yields_ret.1 hret
  obtain ⟨rfl, -, hpath, rfl⟩ := finishOpen_ok heq.symm
  exact ⟨p₁, by rwa [List.append_nil], hpath, rfl⟩

structure RelativeName (name : CStr) : Prop where
  ne_nil : name ≠ []
  relative : name.head? ≠ some '/'

theorem sboxMapPathAt_registered {dirfdPath : CStr} (hname : RelativeName name)
    (hcwd : dirfd ≠ atFdcwd) (hdir : p.fdPathDb dirfd = some dirfdPath) (mapFlags : MapFlags)
    (classmask : UInt32) :
    sboxMapPathAt p dirfd (some name) mapFlags classmask =
      fwdMapPath p (some (dirfdPath ++ '/' :: name)) mapFlags classmask := by
  have hempty : name.isEmpty = false := by simpa using hname.ne_nil
  simp [sboxMapPathAt, hempty, hname.relative, hcwd, hdir]

theorem sboxMapPathAt_unregistered (hname : RelativeName name) (hcwd : dirfd ≠ atFdcwd)
    (hdir : p.fdPathDb dirfd = none) (mapFlags : MapFlags) (classmask : UInt32) :
    sboxMapPathAt p dirfd (some name) mapFlags classmask = ret (origPathAsResult name, p) := by
  have hempty : name.isEmpty = false := by simpa using hname.ne_nil
  simp [sboxMapPathAt, hempty, hname.relative, hcwd, hdir]

theorem yields_sboxMapPathAt {path : Option CStr}
    (h : Yields body (sboxMapPathAt p dirfd path mapFlags classmask) es (res, p')) :
    ∃ sb2ctx, p' = { p with sb2ctx } := by
  have hsame : ∀ {res' : MappingResults}, Yields body (ret (res', p)) es (res, p') →
      ∃ sb2ctx, p' = { p with sb2ctx } := by
    intro res' h
    obtain ⟨-, heq⟩ := yields_ret.1 h
    cases heq
    exact ⟨p.sb2ctx, rfl⟩
  unfold sboxMapPathAt at h
  split at h
  · exact hsame h
  · split at h
    · exact hsame h
    · split at h
      · exact yields_fwdMapPath h
      · split at h
        · exact yields_fwdMapPath h
        · exact hsame h

end

end Scratchbox
