import Scratchbox.EngineFacts

/-!
# Descriptors and changes of the chroot directory

In a run of a process, files are opened by absolute and by relative paths and below descriptors,
and chroot is called in between. The path that is registered for a descriptor contains the chroot
directory or not depending on the way it was opened (`registered_of_run`), and a later look-up puts
the chroot directory of that moment in front of it. So a look-up starts in the directory that was
opened exactly under the conditions of `RightRoot`.
-/

namespace Scratchbox

open CallTree Token

/-! ## Records of descriptors -/

/-- The way in which a descriptor was opened: by an absolute path in a chroot directory
(or none), by a relative path, or below another descriptor. Then the process that opened it,
the flags and the absolute virtual path are kept. -/
inductive OpenedAs where
  | absolute (sboxChrootPath : Option CStr)
  | relative
  | below (opener : Process) (flags : OpenFlags) (path : CStr)

/-- What a descriptor was opened on: the components of the virtual directory (without `.`,
with the `..` of its path), and the way it was opened. -/
structure OpenRecord where
  dir : List Component
  openedAs : OpenedAs

/-- A process with the records of its descriptors. -/
structure World where
  process : Process
  records : Nat → Option OpenRecord

def openedBy (chroot : Option CStr) (path : CStr) : OpenedAs :=
  if path.head? = some '/' then .absolute chroot else .relative

def PathToMap.AbsoluteCwd (target : PathToMap) : Prop :=
  ∀ reversed, target.sb2ctx.virtualReversedCwd = some reversed → target.hostCwd.isSome →
    reversed.head? = some '/'

def rootComponents (chroot : Option CStr) : List Component :=
  withoutDots (Token.tokens '/' (chroot.getD []))

/-- The absolute virtual path of a name below a directory. -/
def virtualBelow (dir : List Component) (name : CStr) : CStr :=
  absoluteString dir false ++ '/' :: name

/-- The rules map an absolute virtual path to a host path. -/
def MapsToHost (p : Process) (flags : OpenFlags) (path text : CStr) : Prop :=
  ∃ sb2 es res, p.sb2ctx = some sb2 ∧ res.mresResultBuf = some text ∧
    Yields (resolutionBody p.session)
      (mapPathList p.session (p.mappingContext flags.mapFlags flags.classmask)
        ⟨splitPathToPathList path, none, sb2⟩ false) es res

/-- Whether a descriptor fits the chroot directory of a process. -/
def RightRoot (chroot : Option CStr) (record : OpenRecord) : Prop :=
  match record.openedAs with
  | .absolute chrootThen => rootComponents chroot = rootComponents chrootThen
  | .relative => rootComponents chroot = []
  | .below opener flags path => ∃ text, MapsToHost opener flags path text ∧
      text.head? = some '/' ∧
      rootComponents chroot ++ withoutDots (Token.tokens '/' text) = record.dir

/-! ## Runs -/

/-- The steps of a run, with the descriptor below which a name is opened. -/
inductive DescriptorStep : World → Option Nat → World → Prop
  | openPath {p p' : Process} {records : Nat → Option OpenRecord} {sb2 : Sb2Context}
      {path : CStr} {flags : OpenFlags} {real : CStr → Except Errno Nat} {es : List Event}
      {res : MappingResults} {fd : Nat} {target : PathToMap} :
      p.sb2ctx = some sb2 → MappingActive p.session sb2 → path ≠ [] →
      absVirtualPathForRuleSelection p.session sb2
        (p.mappingContext flags.mapFlags flags.classmask) path = .ok (some target) →
      target.AbsoluteCwd →
      Yields (resolutionBody p.session) (openWrapper p path flags real) es ⟨res, .ok fd, p'⟩ →
      DescriptorStep ⟨p, records⟩ none ⟨p', Function.update records fd (some
        ⟨withoutDots (components target.list.plFirst),
          openedBy p.session.sboxChrootPath path⟩)⟩
  | openBelow {p p' : Process} {records : Nat → Option OpenRecord} {sb2 : Sb2Context}
      {dirfd fd : Nat} {record : OpenRecord} {name : CStr} {flags : OpenFlags}
      {real : CStr → Except Errno Nat} {es : List Event} {res : MappingResults} :
      p.sb2ctx = some sb2 → MappingActive p.session sb2 → AbsoluteRoot p.session →
      records dirfd = some record → RelativeName name →
      Yields (resolutionBody p.session) (openatWrapper p dirfd name flags real) es
        ⟨res, .ok fd, p'⟩ →
      DescriptorStep ⟨p, records⟩ (some dirfd) ⟨p', Function.update records fd (some
        ⟨record.dir ++ withoutDots (Token.tokens '/' name),
          .below p flags (virtualBelow record.dir name)⟩)⟩
  | chroot {p p' : Process} {records : Nat → Option OpenRecord} {path : CStr} {es : List Event}
      {r : Except Errno Unit} :
      Yields (resolutionBody p.session) (chrootGate p path) es (r, p') →
      DescriptorStep ⟨p, records⟩ none ⟨p', records⟩
  | dup {p : Process} {records : Nat → Option OpenRecord} {fd ret : Nat} :
      DescriptorStep ⟨p, records⟩ none
        ⟨{ p with fdPathDb := dupPostprocess p.fdPathDb ret fd },
          Function.update records ret (records fd)⟩
  | dup2 {p : Process} {records : Nat → Option OpenRecord} {fd fd2 ret : Nat} :
      DescriptorStep ⟨p, records⟩ none
        ⟨{ p with fdPathDb := dup2Postprocess p.fdPathDb ret fd fd2 },
          Function.update records fd2 (records fd)⟩
  | close {p : Process} {records : Nat → Option OpenRecord} {fd : Nat} :
      DescriptorStep ⟨p, records⟩ none
        ⟨{ p with fdPathDb := closePostprocess p.fdPathDb fd },
          Function.update records fd none⟩
  /-- Whatever else happens, calls that fail included. -/
  | other {p p' : Process} {records : Nat → Option OpenRecord} : p'.fdPathDb = p.fdPathDb →
      DescriptorStep ⟨p, records⟩ none ⟨p', records⟩

/-- A descriptor with a record fits the chroot directory of the moment. -/
def World.Fits (w : World) (fd : Nat) : Prop :=
  ∀ record, w.records fd = some record → RightRoot w.process.session.sboxChrootPath record

/-- The worlds that a process reaches which starts without registered descriptors and opens
names only below descriptors that fit. -/
inductive DescriptorRun : World → Prop
  | start {p : Process} : (∀ fd, p.fdPathDb fd = none) → DescriptorRun ⟨p, fun _ => none⟩
  | step {w w' : World} {dirfd : Option Nat} : DescriptorRun w → DescriptorStep w dirfd w' →
      (∀ fd, dirfd = some fd → w.Fits fd) → DescriptorRun w'

theorem DescriptorRun.step_none {w w' : World} (h : DescriptorRun w)
    (hstep : DescriptorStep w none w') : DescriptorRun w' :=
  h.step hstep fun _ hnone => nomatch hnone

/-! ## What is registered -/

/-- The path registered for a descriptor: inside the chroot directory of that time, or
with it; for a name below a descriptor, the host path. -/
def RegisteredAs (db : FdPathDb) (fd : Nat) (record : OpenRecord) : Prop :=
  match record.openedAs with
  | .absolute chroot => ∃ path, db fd = some path ∧
      record.dir = rootComponents chroot ++ withoutDots (Token.tokens '/' path)
  | .relative => ∃ path, db fd = some path ∧ record.dir = withoutDots (Token.tokens '/' path)
  | .below opener flags path => ∀ text, db fd = some text ↔
      MapsToHost opener flags path text ∧ text.head? = some '/'

structure WorldInvariant (w : World) : Prop where
  absolute : ∀ fd path, w.process.fdPathDb fd = some path → path.head? = some '/'
  registered : ∀ fd record, w.records fd = some record →
    RegisteredAs w.process.fdPathDb fd record

theorem RegisteredAs.congr {db db' : FdPathDb} {fd fd' : Nat} {record : OpenRecord}
    (h : RegisteredAs db fd record) (hsame : db' fd' = db fd) : RegisteredAs db' fd' record := by
  unfold RegisteredAs at h ⊢
  rw [hsame]
  exact h

/-- What the registered path is in the chroot directory depends on the way in which the
descriptor was opened. -/
theorem registered_in_root_iff {record : OpenRecord} {db : FdPathDb}
    {fd : Nat} (hreg : RegisteredAs db fd record) (chroot : Option CStr) :
    (∃ path, db fd = some path ∧
      rootComponents chroot ++ withoutDots (tokens '/' path) = record.dir) ↔
      RightRoot chroot record := by
  obtain ⟨dir, openedAs⟩ := record
  cases openedAs with
  | absolute chrootThen =>
    obtain ⟨path, hpath, rfl⟩ := hreg
    simp [hpath, RightRoot]
  | relative =>
    obtain ⟨path, hpath, rfl⟩ := hreg
    simp [hpath, RightRoot]
  | below opener flags path =>
    have hpath : ∀ text, db fd = some text ↔
        MapsToHost opener flags path text ∧ text.head? = some '/' := hreg
    simp only [hpath, RightRoot, and_assoc]

variable {p' p : Process}

/-- Registering a path for a descriptor keeps the invariant, if the record of that
descriptor is right. -/
theorem WorldInvariant.register {records : Nat → Option OpenRecord}
    (h : WorldInvariant ⟨p, records⟩) {fd : Nat} {mapped orig : Option CStr}
    (hdb : p'.fdPathDb = fdpathdbRegisterMappedPath p.fdPathDb fd mapped orig)
    {record : Option OpenRecord} (hrecord : ∀ r, record = some r → RegisteredAs p'.fdPathDb fd r) :
    WorldInvariant ⟨p', Function.update records fd record⟩ := by
  have hneg : ¬ ((fd : Int) < 0) := by omega
  rw [fdpathdbRegisterMappedPath, if_neg hneg] at hdb
  constructor
  · intro fd' path hpath
    change p'.fdPathDb fd' = some path at hpath
    rw [hdb, Function.update_apply] at hpath
    split at hpath
    · exact pathToRegister_absolute hpath
    · exact h.absolute fd' path hpath
  · intro fd' r hr
    change Function.update records fd record fd' = some r at hr
    rw [Function.update_apply] at hr
    split at hr
    · rename_i hfd
      subst hfd
      exact hrecord r hr
    · rename_i hfd
      refine (h.registered fd' r hr).congr ?_
      change p'.fdPathDb fd' = p.fdPathDb fd'
      rw [hdb, Function.update_of_ne (by exact_mod_cast hfd)]

/-! ## The steps -/

section Steps

variable {sb2 : Sb2Context} {es : List Event} {flags : OpenFlags} {real : CStr → Except Errno Nat}
  {fd : Nat} {res : MappingResults} {path : CStr} {w : World}

theorem components_absolute_target (habs : path.head? = some '/') (chroot : Option CStr) :
    withoutDots (components (splitPathToPathList (pathForNewRoot chroot path)).plFirst) =
      rootComponents chroot ++ withoutDots (tokens '/' path) := by
  rw [splitPathToPathList_plFirst, components_freshEntries, rootComponents, ← withoutDots_append]
  cases chroot with
  | none => rfl
  | some chroot => simp [pathForNewRoot, habs, tokens_append_sep]

theorem openPath_registered {target : PathToMap} (hsb2 : p.sb2ctx = some sb2)
    (hactive : MappingActive p.session sb2) (hne : path ≠ [])
    (htarget : absVirtualPathForRuleSelection p.session sb2
      (p.mappingContext flags.mapFlags flags.classmask) path = .ok (some target))
    (hcwd : target.AbsoluteCwd)
    (h : Yields (resolutionBody p.session) (openWrapper p path flags real) es ⟨res, .ok fd, p'⟩) :
    ∃ mapped orig, p'.fdPathDb = fdpathdbRegisterMappedPath p.fdPathDb fd mapped orig ∧
      RegisteredAs p'.fdPathDb fd
        ⟨withoutDots (components target.list.plFirst),
          openedBy p.session.sboxChrootPath path⟩ := by
  obtain ⟨p₁, hmap, ⟨resultPath, hresult⟩, rfl⟩ := yields_finishOpen h
  obtain ⟨hlist, rfl⟩ := (yields_fwdMapPath_target hsb2 hactive hne htarget).1 hmap
  obtain ⟨mapped, hbuf⟩ : ∃ mapped, res.mresResultBuf = some mapped := by
    have hsome := mapPathList_resultBuf hlist
    rw [hresult] at hsome
    exact Option.isSome_iff_exists.1 hsome.symm
  by_cases habs : path.head? = some '/'
  · refine ⟨some mapped, some path, ?_, ?_⟩
    · simp only [fdpathdbRegisterMappingResult, habs, if_true, hbuf]
    · rw [ruleSelection_absolute habs] at htarget
      cases htarget
      rw [openedBy, if_pos habs]
      refine ⟨path, ?_, ?_⟩
      · simp [fdpathdbRegisterMappingResult, habs, hbuf, pathToRegister]
      · exact components_absolute_target habs _
  · obtain ⟨hostCwd, reversed, htarget'⟩ := ruleSelection_relative habs htarget
    obtain ⟨-, -, hhost, hrev, hentries, -⟩ := htarget'
    have hvcwd : res.mresVirtualCwd = some reversed := by
      rw [mapPathList_virtualCwd hlist, hhost, hrev]
      rfl
    have hrevabs : reversed.head? = some '/' := hcwd reversed hrev (by rw [hhost]; rfl)
    have horig := head?_append_absolute hrevabs ('/' :: path)
    refine ⟨some mapped, some (reversed ++ '/' :: path), ?_, ?_⟩
    · simp only [fdpathdbRegisterMappingResult, habs, if_false, hvcwd, hbuf]
    · rw [openedBy, if_neg habs]
      refine ⟨reversed ++ '/' :: path, ?_, ?_⟩
      · simp [fdpathdbRegisterMappingResult, habs, hvcwd, hbuf, pathToRegister, horig]
      · dsimp only
        rw [hentries, components_append, components_markedEntries, components_freshEntries,
          tokens_append_sep]

/-- A name below a registered path is mapped as the virtual path that both name together. -/
theorem mapPathList_virtualBelow (hroot : AbsoluteRoot p.session) {name : CStr}
    (hname : RelativeName name) (habs : path.head? = some '/') {dir : List Component}
    (hdir : rootComponents p.session.sboxChrootPath ++ withoutDots (tokens '/' path) = dir)
    (ctx : PathMappingContext) :
    mapPathList p.session ctx ⟨splitPathToPathList
        (pathForNewRoot p.session.sboxChrootPath (path ++ '/' :: name)), none, sb2⟩ false =
      mapPathList p.session ctx ⟨splitPathToPathList (virtualBelow dir name), none, sb2⟩ false := by
  have hhead := head?_append_absolute habs ('/' :: name)
  have hsplit : pathForNewRoot p.session.sboxChrootPath (path ++ '/' :: name) =
      pathForNewRoot p.session.sboxChrootPath path ++ '/' :: name := by
    cases p.session.sboxChrootPath <;> simp [pathForNewRoot, habs, hhead]
  have hcomponents := components_absolute_target habs p.session.sboxChrootPath
  rw [splitPathToPathList_plFirst, components_freshEntries, hdir] at hcomponents
  have hclean : Component.dot ∉ dir := by
    rw [← hcomponents]
    exact fun hm => absurd (List.of_mem_filter hm) (by decide)
  have hdots : removeDotsFromPathList (splitPathToPathList
      (pathForNewRoot p.session.sboxChrootPath (path ++ '/' :: name))) =
      removeDotsFromPathList (splitPathToPathList (virtualBelow dir name)) := by
    have hdir' : withoutDots dir = dir := by
      refine List.filter_eq_self.2 fun c hc => ?_
      simpa using fun heq : c = Component.dot => hclean (heq ▸ hc)
    rw [hsplit, removeDots_below ((head?_pathForNewRoot hroot path).2 habs) hname, virtualBelow,
      removeDots_below (head?_absoluteString dir false) hname, tokens_absoluteString, hcomponents,
      hdir']
  unfold mapPathList
  dsimp only
  rw [cleanVirtualPath_congr ctx hdots]
  rfl

theorem openBelow_registered {dirfd : Nat} {name : CStr} {record : OpenRecord}
    (hsb2 : p.sb2ctx = some sb2) (hactive : MappingActive p.session sb2)
    (hroot : AbsoluteRoot p.session) (hname : RelativeName name)
    (hdir : ∀ path, p.fdPathDb dirfd = some path → path.head? = some '/')
    (hreg : RegisteredAs p.fdPathDb dirfd record)
    (hfits : RightRoot p.session.sboxChrootPath record)
    (h : Yields (resolutionBody p.session) (openatWrapper p dirfd name flags real) es
      ⟨res, .ok fd, p'⟩) :
    ∃ mapped orig, p'.fdPathDb = fdpathdbRegisterMappedPath p.fdPathDb fd mapped orig ∧
      RegisteredAs p'.fdPathDb fd
        ⟨record.dir ++ withoutDots (tokens '/' name),
          .below p flags (virtualBelow record.dir name)⟩ := by
  obtain ⟨p₁, hmap, -, rfl⟩ := yields_finishOpen h
  obtain ⟨sb2ctx, hp₁⟩ := yields_sboxMapPathAt hmap
  obtain ⟨path, hpath, hcomponents⟩ := (registered_in_root_iff hreg _).2 hfits
  rw [sboxMapPathAt_registered hname (natCast_ne_atFdcwd dirfd) hpath] at hmap
  have habs := head?_append_absolute (hdir path hpath) ('/' :: name)
  obtain ⟨hlist, -⟩ := (yields_fwdMapPath_target hsb2 hactive (by simp)
    (ruleSelection_absolute habs)).1 hmap
  have hvcwd : res.mresVirtualCwd = none := mapPathList_virtualCwd hlist
  rw [mapPathList_virtualBelow hroot hname (hdir path hpath) hcomponents] at hlist
  have hdb : fdpathdbRegisterMappingResult p₁.fdPathDb fd res name =
      fdpathdbRegisterMappedPath p.fdPathDb fd res.mresResultBuf (some name) := by
    rw [hp₁]
    simp only [fdpathdbRegisterMappingResult, hname.relative, if_false, hvcwd]
  refine ⟨res.mresResultBuf, some name, hdb, fun text => ?_⟩
  change fdpathdbRegisterMappingResult p₁.fdPathDb fd res name fd = some text ↔ _
  rw [hdb, registerMappedPath_self, pathToRegister_relative hname.relative]
  refine and_congr_left fun _ => ⟨fun hbuf => ⟨sb2, es, res, hsb2, hbuf, hlist⟩, ?_⟩
  rintro ⟨sb2', es', res', hsb2', hbuf, hlist'⟩
  rw [hsb2] at hsb2'
  cases hsb2'
  rw [(hlist.unique hlist').2]
  exact hbuf

/-- A copy of a descriptor has its path. -/
theorem registerCopy_self (h : ∀ path, p.fdPathDb fd = some path → path.head? = some '/')
    (copy : Nat) :
    fdpathdbRegisterMappedPath p.fdPathDb copy (p.fdPathDb fd) (p.fdPathDb fd) copy =
      p.fdPathDb fd := by
  rw [registerMappedPath_self]
  cases hpath : p.fdPathDb fd with
  | none => rfl
  | some path => simp [pathToRegister, h path hpath]

theorem WorldInvariant.copy {records : Nat → Option OpenRecord}
    (hw : WorldInvariant ⟨p, records⟩) {copy : Nat} {db : FdPathDb}
    (hdb : db = fdpathdbRegisterMappedPath p.fdPathDb copy (p.fdPathDb fd) (p.fdPathDb fd)) :
    WorldInvariant ⟨{ p with fdPathDb := db }, Function.update records copy (records fd)⟩ := by
  refine hw.register hdb fun r hr => ?_
  refine (hw.registered fd r hr).congr ?_
  change db copy = _
  rw [hdb]
  exact registerCopy_self (fun path => hw.absolute _ path) copy

theorem DescriptorStep.invariant {w' : World} {dirfd : Option Nat}
    (h : DescriptorStep w dirfd w') (hfits : ∀ fd, dirfd = some fd → w.Fits fd)
    (hw : WorldInvariant w) : WorldInvariant w' := by
  cases h with
  | openPath hsb2 hactive hne htarget hcwd h =>
    obtain ⟨mapped, orig, hdb, hreg⟩ := openPath_registered hsb2 hactive hne htarget hcwd h
    exact hw.register hdb fun r hr => Option.some.inj hr ▸ hreg
  | openBelow hsb2 hactive hroot hrecord hname h =>
    obtain ⟨mapped, orig, hdb, hreg⟩ := openBelow_registered hsb2 hactive hroot hname
      (fun path => hw.absolute _ path) (hw.registered _ _ hrecord) (hfits _ rfl _ hrecord) h
    exact hw.register hdb fun r hr => Option.some.inj hr ▸ hreg
  | chroot h =>
    cases yields_chrootGate h with
    | failed => exact ⟨hw.absolute, hw.registered⟩
    | entered _ => exact ⟨hw.absolute, hw.registered⟩
  | @dup p records fd ret => exact hw.copy (if_pos (Int.natCast_nonneg ret))
  | @dup2 p records fd fd2 ret =>
    by_cases hsame : fd = fd2
    · -- nothing is done
      subst hsame
      have hdb : dup2Postprocess p.fdPathDb ret fd fd = p.fdPathDb := if_neg fun h => h.2 rfl
      rw [hdb, Function.update_eq_self]
      exact hw
    · exact hw.copy (if_pos ⟨Int.natCast_nonneg ret, by exact_mod_cast hsame⟩)
  | close => exact hw.register rfl fun r hr => nomatch hr
  | other hdb =>
    refine ⟨fun fd path => ?_, fun fd record hrecord => ?_⟩
    · rw [hdb]
      exact hw.absolute fd path
    · exact (hw.registered fd record hrecord).congr (by rw [hdb])

/-- In every run the registered paths are as the records tell. -/
theorem registered_of_run (h : DescriptorRun w) : WorldInvariant w := by
  induction h with
  | start hempty =>
    refine ⟨fun fd path hpath => ?_, fun fd record hrecord => nomatch hrecord⟩
    rw [hempty] at hpath
    cases hpath
  | step _ hstep hfits ih => exact hstep.invariant hfits ih

end Steps

/-! ## Look-ups -/

section LookUps

variable {sb2 : Sb2Context} {flags : MapFlags} {classmask : UInt32} {fd : Nat} {name : CStr}
  {target : PathToMap}

/-- What `sbox_map_path_at` starts with when it maps a name below a descriptor: nothing, if
the name is passed on as it is. -/
def lookUpTarget (p : Process) (flags : MapFlags) (classmask : UInt32) (dirfd : Nat)
    (name : CStr) : Option PathToMap := do
  let sb2 ← p.sb2ctx
  let dirfdPath ← p.fdPathDb dirfd
  (absVirtualPathForRuleSelection p.session sb2 (p.mappingContext flags classmask)
    (dirfdPath ++ '/' :: name)).toOption.join

/-- A look-up starts with the components of the given directory, and the name. -/
def LooksBelow (p : Process) (flags : MapFlags) (classmask : UInt32) (dirfd : Nat) (name : CStr)
    (dir : List Component) : Prop :=
  ∃ target, lookUpTarget p flags classmask dirfd name = some target ∧
    withoutDots (components target.list.plFirst) =
      dir ++ withoutDots (Token.tokens '/' name)

theorem lookUpTarget_eq_some (hsb2 : p.sb2ctx = some sb2)
    (habs : ∀ path, p.fdPathDb fd = some path → path.head? = some '/') :
    lookUpTarget p flags classmask fd name = some target ↔
      ∃ path, p.fdPathDb fd = some path ∧
        target = ⟨splitPathToPathList
          (pathForNewRoot p.session.sboxChrootPath (path ++ '/' :: name)), none, sb2⟩ := by
  unfold lookUpTarget
  rw [hsb2]
  cases hpath : p.fdPathDb fd with
  | none => simp
  | some path =>
    have hhead := head?_append_absolute (habs path hpath) ('/' :: name)
    simp [ruleSelection_absolute hhead, Except.toOption, eq_comm]

theorem yields_sboxMapPathAt_target (hsb2 : p.sb2ctx = some sb2)
    (hactive : MappingActive p.session sb2) (hname : RelativeName name)
    (habs : ∀ path, p.fdPathDb fd = some path → path.head? = some '/')
    (htarget : lookUpTarget p flags classmask fd name = some target) {es : List Event}
    {res : MappingResults} {p' : Process} :
    Yields (resolutionBody p.session) (sboxMapPathAt p fd (some name) flags classmask) es
        (res, p') ↔
      Yields (resolutionBody p.session)
          (mapPathList p.session (p.mappingContext flags classmask) target false) es res ∧
        p' = { p with sb2ctx := some sb2 } := by
  obtain ⟨path, hpath, rfl⟩ := (lookUpTarget_eq_some hsb2 habs).1 htarget
  have hhead := head?_append_absolute (habs path hpath) ('/' :: name)
  rw [sboxMapPathAt_registered hname (natCast_ne_atFdcwd fd) hpath]
  exact yields_fwdMapPath_target hsb2 hactive (by simp) (ruleSelection_absolute hhead)

/-- The directory of a look-up is the registered path in the chroot directory. -/
theorem looksBelow_iff_registered (hsb2 : p.sb2ctx = some sb2)
    (habs : ∀ path, p.fdPathDb fd = some path → path.head? = some '/') {dir : List Component} :
    LooksBelow p flags classmask fd name dir ↔
      ∃ path, p.fdPathDb fd = some path ∧
        rootComponents p.session.sboxChrootPath ++ withoutDots (tokens '/' path) = dir := by
  have hcomponents : ∀ path, p.fdPathDb fd = some path →
      withoutDots (components (splitPathToPathList
        (pathForNewRoot p.session.sboxChrootPath (path ++ '/' :: name))).plFirst) =
      (rootComponents p.session.sboxChrootPath ++ withoutDots (tokens '/' path)) ++
        withoutDots (tokens '/' name) := by
    intro path hpath
    have hhead := head?_append_absolute (habs path hpath) ('/' :: name)
    rw [components_absolute_target hhead, tokens_append_sep, withoutDots_append,
      List.append_assoc]
  unfold LooksBelow
  constructor
  · rintro ⟨target, htarget, hdir⟩
    obtain ⟨path, hpath, rfl⟩ := (lookUpTarget_eq_some hsb2 habs).1 htarget
    rw [hcomponents path hpath] at hdir
    exact ⟨path, hpath, List.append_cancel_right hdir⟩
  · rintro ⟨path, hpath, rfl⟩
    exact ⟨_, (lookUpTarget_eq_some hsb2 habs).2 ⟨path, hpath, rfl⟩, hcomponents path hpath⟩

end LookUps

/-! ## Examples of both -/

def openD (p : Process) : Run OpenResult := openWrapper p "/d".toList {} fun _ => .ok 3

def recordD (chroot : Option CStr) : OpenRecord :=
  ⟨rootComponents chroot ++ Token.tokens '/' "/d".toList, .absolute chroot⟩

theorem descriptorRun_openD {sb2 : Sb2Context} (hempty : ∀ fd, p.fdPathDb fd = none)
    (hsb2 : p.sb2ctx = some sb2) (hactive : MappingActive p.session sb2)
    {es : List Event} {res : MappingResults}
    (h : Yields (resolutionBody p.session) (openD p) es ⟨res, .ok 3, p'⟩) :
    p'.session = p.session ∧ p'.sb2ctx = some sb2 ∧
      ∃ records, records 3 = some (recordD p.session.sboxChrootPath) ∧
        DescriptorRun ⟨p', records⟩ := by
  have habs : "/d".toList.head? = some '/' := rfl
  have hcomponents := components_absolute_target habs p.session.sboxChrootPath
  rw [show withoutDots (tokens '/' "/d".toList) = tokens '/' "/d".toList by decide]
    at hcomponents
  obtain ⟨p₁, hmap, -, hp'⟩ := yields_finishOpen h
  obtain ⟨-, rfl⟩ := (yields_fwdMapPath_target hsb2 hactive (by decide)
    (ruleSelection_absolute habs)).1 hmap
  refine ⟨by rw [hp'], by rw [hp'], Function.update (fun _ => none) 3 _,
    Function.update_self 3 _ _, (DescriptorRun.start hempty).step_none ?_⟩
  rw [recordD, ← hcomponents]
  exact .openPath hsb2 hactive (by decide) (ruleSelection_absolute habs)
    (fun _ _ hcwd => nomatch hcwd) h

/-- The directory `/d` is opened, then `/c` becomes the chroot directory. -/
def openThenChroot (p : Process) : Run (OpenResult × Except Errno Unit × Process) := do
  let r ← openD p
  let (e, p') ← chrootGate r.process "/c".toList
  pure (r, e, p')

/-- All calls have succeeded, and `/c` is the chroot directory. -/
def openedThenChrooted (r : OpenResult × Except Errno Unit × Process) : Bool :=
  match r.1.ret, r.2.1 with
  | .ok 3, .ok () => r.2.2.sb2ctx.isSome && r.2.2.session.sboxChrootPath = some "/c".toList
  | _, _ => false

end Scratchbox
