import Scratchbox.Chroot
import Scratchbox.ResolutionFacts

/-!
# What a call of chroot leaves behind

A call that fails leaves the session as it was; one that succeeds stores the
cleaned absolute virtual path of its argument, or ends the simulation if that is
the root (`yields_chrootGate`). The list that is cleaned is the one that mapping
the same argument would start with (`startList_of_ruleSelection`).
-/

namespace Scratchbox

open CallTree

variable {session : Session} {sb2 : Sb2Context} {ctx : PathMappingContext}
  {body : Question → Run Answer} {es : List Event} {d text : CStr}

/-- Paths are mapped: the rule tree is there and nothing disables mapping. -/
structure MappingActive (session : Session) (sb2 : Sb2Context) : Prop where
  ruletree : session.ruletreeInMemory = true
  environment : disabledByEnvironment session = false
  enabled : sb2.mappingDisabled = false

/-! ## Where a path starts -/

/-- The absolute list for a path, before it is cleaned; `none` if the current
directory is not known. -/
def startList (session : Session) (sb2 : Sb2Context) (ctx : PathMappingContext) (path : CStr) :
    Except Fault (Option PathEntryList) :=
  if path.head? = some '/' then .ok (some (splitPathToPathList path))
  else (relativeVirtualPathToAbsPath session sb2 ctx (splitPathToPathList path)).map
    (Option.map fun r => r.2.2)

def PathEntryList.extend (list : PathEntryList) (x : CStr) : PathEntryList :=
  { plFirst := list.plFirst ++ freshEntries (Token.tokens '/' x)
    plFlags := { list.plFlags with hasTrailingSlash := Token.openEnd '/' x } }

theorem splitPathToPathList_append (hd : d ≠ []) (x : CStr) :
    splitPathToPathList (d ++ '/' :: x) = (splitPathToPathList d).extend x := by
  have hhead : (d ++ '/' :: x).head? = d.head? := List.head?_append_of_ne_nil d hd
  have hentries := splitPathToPathList_plFirst (d ++ '/' :: x)
  have hflags := splitPathToPathList_plFlags (d ++ '/' :: x)
  rw [Token.tokens_append_sep, freshEntries_append] at hentries
  rw [Token.openEnd_append_sep, hhead] at hflags
  rw [PathEntryList.extend, splitPathToPathList_plFirst, splitPathToPathList_plFlags, ← hentries,
    ← hflags]

variable {path hostCwd : CStr} {sb2' : Option Sb2Context} {list : PathEntryList} {p : Process}

/-- The list of a path taken from a known current directory, whose components are
marked. -/
theorem startList_relative {reversed : CStr} (hrel : path.head? ≠ some '/')
    (hcwd : session.host.getcwd = some hostCwd)
    (hrev : virtualReversedCwd session sb2 ctx hostCwd = .ok reversed) :
    startList session sb2 ctx path =
      .ok (some
        { plFirst := markedEntries (Token.tokens '/' reversed) ++
            freshEntries (Token.tokens '/' path)
          plFlags :=
            { absolute := reversed.head? = some '/'
              hasTrailingSlash := Token.openEnd '/' path } }) := by
  rw [startList, if_neg hrel, relativeVirtualPathToAbsPath]
  simp only [hcwd, hrev]
  simp [Bind.bind, Except.bind, Except.map, Pure.pure, Except.pure, PathFlags.union,
    markedEntries, hrel]

theorem startList_no_cwd (hrel : path.head? ≠ some '/') (hcwd : session.host.getcwd = none) :
    startList session sb2 ctx path = .ok none := by
  rw [startList, if_neg hrel, relativeVirtualPathToAbsPath]
  simp only [hcwd]
  rfl

theorem startList_fault {f : Fault} (hrel : path.head? ≠ some '/')
    (hcwd : session.host.getcwd = some hostCwd)
    (hrev : virtualReversedCwd session sb2 ctx hostCwd = .error f) :
    startList session sb2 ctx path = .error f := by
  rw [startList, if_neg hrel, relativeVirtualPathToAbsPath]
  simp only [hcwd, hrev]
  rfl

/-- The list of a path: the components of a marked current directory, if the path
is relative, and those of the path. -/
theorem startList_some (h : startList session sb2 ctx path = .ok (some list)) :
    ∃ c absolute, list =
        { plFirst := markedEntries c ++ freshEntries (Token.tokens '/' path)
          plFlags := { absolute, hasTrailingSlash := Token.openEnd '/' path } } ∧
      (path.head? = some '/' ∧ c = [] ∧ absolute = true ∨
        ∃ hostCwd reversed, path.head? ≠ some '/' ∧ session.host.getcwd = some hostCwd ∧
          virtualReversedCwd session sb2 ctx hostCwd = .ok reversed ∧
          c = Token.tokens '/' reversed ∧ absolute = (reversed.head? = some '/' : Bool)) := by
  by_cases habs : path.head? = some '/'
  · rw [startList, if_pos habs] at h
    cases h
    exact ⟨[], true, splitPathToPathList_absolute habs, .inl ⟨habs, rfl, rfl⟩⟩
  · cases hcwd : session.host.getcwd with
    | none =>
      rw [startList_no_cwd habs hcwd] at h
      cases h
    | some hostCwd =>
      cases hrev : virtualReversedCwd session sb2 ctx hostCwd with
      | error f =>
        rw [startList_fault habs hcwd hrev] at h
        cases h
      | ok reversed =>
        rw [startList_relative habs hcwd hrev] at h
        cases h
        exact ⟨_, _, rfl, .inr ⟨hostCwd, reversed, habs, rfl, hrev, rfl, rfl⟩⟩

theorem startList_append (hd : d ≠ []) (x : CStr) :
    startList session sb2 ctx (d ++ '/' :: x) =
      (startList session sb2 ctx d).map (Option.map fun list => list.extend x) := by
  have hhead : (d ++ '/' :: x).head? = d.head? := List.head?_append_of_ne_nil d hd
  by_cases habs : d.head? = some '/'
  · rw [startList, startList, if_pos (hhead.trans habs), if_pos habs,
      splitPathToPathList_append hd]
    rfl
  · have hrel : (d ++ '/' :: x).head? ≠ some '/' := hhead ▸ habs
    cases hcwd : session.host.getcwd with
    | none =>
      rw [startList_no_cwd habs hcwd, startList_no_cwd hrel hcwd]
      rfl
    | some hostCwd =>
      cases hrev : virtualReversedCwd session sb2 ctx hostCwd with
      | error f =>
        rw [startList_fault habs hcwd hrev, startList_fault hrel hcwd hrev]
        rfl
      | ok reversed =>
        rw [startList_relative habs hcwd hrev, startList_relative hrel hcwd hrev,
          Token.tokens_append_sep, Token.openEnd_append_sep, freshEntries_append,
          ← List.append_assoc]
        rfl

theorem startList_ne_none (hcwd : session.host.getcwd = some hostCwd) (path : CStr) :
    startList session sb2 ctx path ≠ .ok none := by
  intro h
  by_cases habs : path.head? = some '/'
  · rw [startList, if_pos habs] at h
    cases h
  · cases hrev : virtualReversedCwd session sb2 ctx hostCwd with
    | error f =>
      rw [startList_fault habs hcwd hrev] at h
      cases h
    | ok reversed =>
      rw [startList_relative habs hcwd hrev] at h
      cases h

def AbsoluteRoot (session : Session) : Prop :=
  ∀ chroot, session.sboxChrootPath = some chroot → chroot.head? = some '/'

theorem head?_pathForNewRoot (hroot : AbsoluteRoot session) (path : CStr) :
    (pathForNewRoot session.sboxChrootPath path).head? = some '/' ↔ path.head? = some '/' := by
  unfold pathForNewRoot
  cases hchroot : session.sboxChrootPath with
  | none => exact Iff.rfl
  | some chroot =>
    by_cases habs : path.head? = some '/'
    · have hhead := hroot chroot hchroot
      cases chroot with
      | nil => cases hhead
      | cons c chroot => simpa [habs] using hhead
    · simp [habs]

/-- Mapping a path starts with the list that the gate would clean for it. -/
theorem startList_of_ruleSelection (hroot : AbsoluteRoot session) {target : PathToMap}
    (h : absVirtualPathForRuleSelection session sb2 ctx path = .ok (some target)) :
    startList session sb2 ctx (pathForNewRoot session.sboxChrootPath path) =
      .ok (some target.list) := by
  unfold absVirtualPathForRuleSelection at h
  unfold startList
  by_cases habs : path.head? = some '/'
  · rw [if_pos ((head?_pathForNewRoot hroot path).2 habs)]
    rw [if_neg (not_not_intro habs)] at h
    cases hchroot : session.sboxChrootPath with
    | none =>
      rw [hchroot] at h
      cases h
      rfl
    | some chroot =>
      rw [hchroot] at h
      cases h
      simp [pathForNewRoot, habs]
  · rw [if_neg (mt (head?_pathForNewRoot hroot path).1 habs)]
    rw [if_pos habs] at h
    have hpath : pathForNewRoot session.sboxChrootPath path = path := by
      unfold pathForNewRoot
      cases session.sboxChrootPath <;> simp [habs]
    rw [hpath]
    dsimp only at h
    split at h
    · cases h
    · obtain ⟨result, hresult, h⟩ := Except.bind_eq_ok_iff.1 h
      rw [hresult]
      cases result with
      | none => cases h
      | some r =>
        cases h
        rfl

theorem pathForNewRoot_ne_nil (chroot : Option CStr) (h : path ≠ []) :
    pathForNewRoot chroot path ≠ [] := by
  unfold pathForNewRoot
  cases chroot with
  | none => exact h
  | some chroot =>
    dsimp only
    split
    · simp
    · exact h

theorem pathForNewRoot_append (chroot : Option CStr) (hd : d ≠ []) (x : CStr) :
    pathForNewRoot chroot (d ++ '/' :: x) = pathForNewRoot chroot d ++ '/' :: x := by
  have hhead : (d ++ '/' :: x).head? = d.head? := List.head?_append_of_ne_nil d hd
  unfold pathForNewRoot
  rw [hhead]
  cases chroot with
  | none => rfl
  | some chroot =>
    by_cases habs : d.head? = some '/'
    · simp [habs]
    · simp [habs]

/-! ## The gate -/

theorem yields_clean
    (h : Yields body (sboxVirtualPathToAbsVirtualPath.clean ctx sb2 list) es (.ok text, sb2')) :
    ∃ list', Yields body (cleanVirtualPath ctx list) es (.ok list') ∧
      text = pathListToString list' := by
  unfold sboxVirtualPathToAbsVirtualPath.clean at h
  obtain ⟨es₁, r, es₂, hclean, hret, rfl⟩ := yields_bind.1 h
  cases r with
  | error err =>
    obtain ⟨-, heq⟩ := yields_ret.1 hret
    cases heq
  | ok list' =>
    obtain ⟨rfl, heq⟩ := yields_ret.1 hret
    cases heq
    exact ⟨list', by rwa [List.append_nil], rfl⟩

/-- The absolute virtual path of a path is its cleaned list, unless the current
directory is not known. -/
theorem yields_absVirtualPath (hactive : MappingActive session sb2) (hne : path ≠ [])
    (h : Yields body (sboxVirtualPathToAbsVirtualPath session (some sb2) ctx path) es
      (.ok text, sb2')) :
    startList session sb2 ctx path = .ok none ∨
      ∃ list list', startList session sb2 ctx path = .ok (some list) ∧
        Yields body (cleanVirtualPath ctx list) es (.ok list') ∧ text = pathListToString list' := by
  have hempty : path.isEmpty = false := by simpa using hne
  unfold sboxVirtualPathToAbsVirtualPath at h
  simp only [hempty, hactive.ruletree, hactive.environment, hactive.enabled, Bool.not_true,
    Bool.false_eq_true, if_false] at h
  by_cases habs : path.head? = some '/'
  · rw [if_pos habs] at h
    obtain ⟨list', hclean, htext⟩ := yields_clean h
    exact .inr ⟨_, list', if_pos habs, hclean, htext⟩
  · rw [if_neg habs] at h
    obtain ⟨es₁, r, es₂, hrel, hrest, rfl⟩ := yields_bind.1 h
    obtain ⟨rfl, hlist⟩ := yields_ofExcept.1 hrel
    have hstart : startList session sb2 ctx path = .ok (r.map fun r => r.2.2) := by
      rw [startList, if_neg habs, hlist]
      rfl
    cases r with
    | none => exact .inl hstart
    | some r =>
      obtain ⟨list', hclean, htext⟩ := yields_clean hrest
      exact .inr ⟨_, list', hstart, hclean, htext⟩

theorem yields_fwdMapPath {p' : Process} {path : Option CStr} {flags : MapFlags} {fnClass : UInt32}
    {res : MappingResults} (h : Yields body (fwdMapPath p path flags fnClass) es (res, p')) :
    ∃ sb2ctx, p' = { p with sb2ctx } := by
  unfold fwdMapPath at h
  cases path with
  | none =>
    obtain ⟨-, heq⟩ := yields_ret.1 h
    cases heq
    exact ⟨p.sb2ctx, rfl⟩
  | some path =>
    obtain ⟨es₁, ⟨res', sb2ctx⟩, es₂, -, hret, -⟩ := yields_bind.1 h
    obtain ⟨-, heq⟩ := yields_ret.1 hret
    cases heq
    exact ⟨sb2ctx, rfl⟩

def storedRoot (newChrootPath : CStr) : Option CStr :=
  if newChrootPath = ['/'] then none else some newChrootPath

/-- How a call of the gate ends: with an error and the old chroot directory, or
with the new one. -/
inductive GateCases (body : Question → Run Answer) (p : Process) (path : CStr) :
    Except Errno Unit × Process → Prop
  | failed {err : Errno} {sb2ctx : Option Sb2Context} :
      GateCases body p path (.error err, { p with sb2ctx })
  | entered {es : List Event} {newChrootPath : CStr} {sb2ctx sb2ctx' : Option Sb2Context} :
      Yields body (sboxVirtualPathToAbsVirtualPath p.session p.sb2ctx p.chrootContext
        (pathForNewRoot p.session.sboxChrootPath path)) es (.ok newChrootPath, sb2ctx') →
      GateCases body p path
        (.ok (), { p.withChroot (storedRoot newChrootPath) with sb2ctx })

theorem yields_chrootGate {r : Except Errno Unit × Process}
    (h : Yields body (chrootGate p path) es r) : GateCases body p path r := by
  unfold chrootGate at h
  obtain ⟨es₁, ⟨text, sb2ctx⟩, es₂, htext, hrest, -⟩ := yields_bind.1 h
  cases text with
  | error err =>
    obtain ⟨-, rfl⟩ := yields_ret.1 hrest
    exact .failed
  | ok newChrootPath =>
    dsimp only at hrest
    by_cases hnew : newChrootPath = ['/']
    · rw [if_pos hnew] at hrest
      obtain ⟨-, rfl⟩ := yields_ret.1 hrest
      have hstored : storedRoot newChrootPath = none := if_pos hnew
      exact hstored ▸ .entered htext
    · rw [if_neg hnew] at hrest
      obtain ⟨es₃, ⟨res, p'⟩, es₄, hmap, hcheck, -⟩ := yields_bind.1 hrest
      obtain ⟨sb2ctx', rfl⟩ := yields_fwdMapPath hmap
      dsimp only at hcheck
      cases hroot : checkNewRoot p.session.host res with
      | error err =>
        rw [hroot] at hcheck
        obtain ⟨-, rfl⟩ := yields_ret.1 hcheck
        exact .failed
      | ok _ =>
        rw [hroot] at hcheck
        obtain ⟨-, rfl⟩ := yields_ret.1 hcheck
        have hstored : storedRoot newChrootPath = some newChrootPath := if_neg hnew
        exact hstored ▸ .entered htext

/-! ## A process for examples -/

def linkProcess (links : List (CStr × LinkText)) (sboxChrootPath : Option CStr) : Process :=
  { session := linkSession links sboxChrootPath
    sb2ctx := some {}
    sboxBinaryName := some "ls".toList
    fdPathDb := fun _ => none }

theorem mappingActive_linkSession (links : List (CStr × LinkText)) (chroot : Option CStr) :
    MappingActive (linkSession links chroot) {} := ⟨rfl, rfl, rfl⟩

/-- Whether a call of the gate that needs at most three levels of questions
succeeds and leaves the given chroot directory. -/
def gateLeaves (p : Process) (path : CStr) (sboxChrootPath : Option CStr) : Bool :=
  match (chrootGate p path).run (level (resolutionBody p.session) 3) with
  | (_, .ok (.ok (), p')) => p'.session.sboxChrootPath = sboxChrootPath
  | _ => false

theorem exists_of_gateLeaves {chroot : Option CStr} (h : gateLeaves p path chroot = true) :
    ∃ es sb2ctx, Yields (resolutionBody p.session) (chrootGate p path) es
      (.ok (), { p.withChroot chroot with sb2ctx }) := by
  unfold gateLeaves at h
  split at h
  · rename_i es p' hrun
    have hyields : Yields (resolutionBody p.session) (chrootGate p path) es (.ok (), p') :=
      ⟨3, hrun⟩
    cases yields_chrootGate hyields with
    | @entered _ newChrootPath sb2ctx _ _ =>
      have hstored : storedRoot newChrootPath = chroot := of_decide_eq_true h
      rw [hstored] at hyields
      exact ⟨es, sb2ctx, hyields⟩
  · cases h

end Scratchbox
