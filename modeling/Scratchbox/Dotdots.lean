import Scratchbox.PathList

/-!
# Cleaning `..` from a path

`clean_dotdots_from_path` of `pathresolution.c`. A `..` may be removed together with the component
before it only if that component is not a symbolic link, so the cleaner asks for the location of
the path before the `..`. Parents are located by path resolution for virtual paths, and by
`realpath` for host paths (`ParentOps`).

The steps of the C function are `dropLeadingDotdots`, `removeKnownDotdots` and `resolveDotdots`.
When a parent turns out to be elsewhere, the function calls itself; `cleanDotdotsFromPath` takes the
number of such restarts it may make.
-/

namespace Scratchbox

open Component List

structure Errno where
  code : Nat
  ne_zero : code ≠ 0
  deriving DecidableEq

namespace Errno

def EPERM : Errno := ⟨1, by decide⟩
def ENOENT : Errno := ⟨2, by decide⟩
def EFAULT : Errno := ⟨14, by decide⟩
def EEXIST : Errno := ⟨17, by decide⟩
def ENOTDIR : Errno := ⟨20, by decide⟩
def EISDIR : Errno := ⟨21, by decide⟩
def EINVAL : Errno := ⟨22, by decide⟩
def EROFS : Errno := ⟨30, by decide⟩
def ENOTEMPTY : Errno := ⟨39, by decide⟩
def ELOOP : Errno := ⟨40, by decide⟩

end Errno

/-- The ways in which the C code does not return at all: a failing `assert`, a
NULL pointer that is followed, a read outside of a string, a buffer used before
it was filled. The last one is not in the source: more restarts than the model
was asked to make. -/
inductive Fault where
  | assertion
  | nullPointer
  | outOfBounds
  | undefinedBuffer
  | tooManyRestarts
  deriving DecidableEq

/-- What the cleaner needs from its surroundings. `resolveParent` locates the
path before a `..`: it fails with an errno or gives `mres_result_buf`, which may
be NULL. `evaluated` is told the directory in which a `..` was evaluated, each
time one is removed. -/
structure ParentOps (m : Type → Type) where
  resolveParent : PathEntryList → m (Except Errno (Option CStr))
  evaluated : List Component → m Unit
  crash : {α : Type} → Fault → m α

/-! ## The three steps -/

/-- Step 1: leading `..` entries are removed, and whether the last entry was one
of them. -/
def dropLeadingDotdots : List PathEntry → List PathEntry × Bool
  | [] => ([], false)
  | work :: next =>
    if work.isDotdot then
      ((dropLeadingDotdots next).1, (dropLeadingDotdots next).2 || next.isEmpty)
    else (work :: next, false)

/-- The outcome of step 2: the entries left, whether the last entry was removed,
whether some `..` was kept, and the directories of the removed ones. -/
structure Scan where
  entries : List PathEntry
  lastRemoved : Bool
  hasNontrivialDotdots : Bool
  dirs : List (List Component)

/-- Step 2: a `..` at the root or after an entry known not to be a symlink is
removed, with that entry. `before` is the list left of the work pointer, last
entry first. -/
def removeKnownDotdots : List PathEntry → List PathEntry → Scan
  | before, [] => ⟨before.reverse, false, false, []⟩
  | before, work :: next =>
    if work.isDotdot then
      match before with
      | [] =>
        let scan := removeKnownDotdots [] next
        { scan with lastRemoved := scan.lastRemoved || next.isEmpty, dirs := [] :: scan.dirs }
      | prev :: before' =>
        if prev.peNotSymlink then
          let scan := removeKnownDotdots before' next
          { scan with
            lastRemoved := scan.lastRemoved || next.isEmpty
            dirs := components (prev :: before').reverse :: scan.dirs }
        else
          { removeKnownDotdots (work :: prev :: before') next with hasNontrivialDotdots := true }
    else removeKnownDotdots (work :: before) next

/-- `PATH_FLAGS_HAS_TRAILING_SLASH` is set when the last component was removed. -/
def PathFlags.setTrailingSlashIf (flags : PathFlags) (last : Bool) : PathFlags :=
  { flags with hasTrailingSlash := flags.hasTrailingSlash || last }

variable {m : Type → Type} [Monad m]

/-- Step 3: the path before each remaining `..` is resolved. If it is where it
was, the `..` is removed with the entry before it; otherwise the resolved path
replaces it and the cleaner starts again. -/
def resolveDotdots (ops : ParentOps m)
    (restart : PathEntryList → m (Except Errno PathEntryList)) :
    PathFlags → List PathEntry → List PathEntry → m (Except Errno PathEntryList)
  | flags, before, [] => pure (.ok ⟨before.reverse, flags⟩)
  | flags, before, work :: next =>
    if work.isDotdot then
      let absPathToParent : PathEntryList := ⟨duplicatePathEntries before.reverse, flags⟩
      let origPathToParent := pathListToString absPathToParent
      if isCleanPath absPathToParent.plFirst ≠ .clean then ops.crash .assertion
      else do
        match ← ops.resolveParent absPathToParent with
        | .error err => pure (.error err)
        | .ok none => ops.crash .nullPointer
        | .ok (some resultBuf) =>
          if origPathToParent ≠ resultBuf then
            match before with
            -- work->pe_prev is followed to cut the list
            | [] => ops.crash .nullPointer
            | _ :: _ =>
              let realVirtualPathToParent :=
                setNotSymlinkInPathEntries (splitPathToPathEntries resultBuf).1
              restart ⟨(appendPathEntries realVirtualPathToParent (work :: next)).1, flags⟩
          else do
            ops.evaluated (components before.reverse)
            resolveDotdots ops restart (flags.setTrailingSlashIf next.isEmpty) before.tail next
    else resolveDotdots ops restart flags (work :: before) next

/-! ## The whole function -/

/-- One pass of `clean_dotdots_from_path`, with what a restart does. -/
def cleanDotdotsPass (ops : ParentOps m)
    (restart : PathEntryList → m (Except Errno PathEntryList)) (absPath : PathEntryList) :
    m (Except Errno PathEntryList) :=
  if !absPath.plFlags.absolute then ops.crash .assertion
  else do
    let leading := absPath.plFirst.takeWhile PathEntry.isDotdot
    leading.forM fun _ => ops.evaluated []
    let (entries, last) := dropLeadingDotdots absPath.plFirst
    let flags := absPath.plFlags.setTrailingSlashIf last
    if isCleanPath entries ≠ .dotdot then pure (.ok ⟨entries, flags⟩)
    else
      let scan := removeKnownDotdots [] entries
      scan.dirs.forM ops.evaluated
      let flags := flags.setTrailingSlashIf scan.lastRemoved
      if !scan.hasNontrivialDotdots then pure (.ok ⟨scan.entries, flags⟩)
      else resolveDotdots ops restart flags [] scan.entries

/-- `clean_dotdots_from_path` with at most the given number of restarts. -/
def cleanDotdotsFromPath (ops : ParentOps m) :
    Nat → PathEntryList → m (Except Errno PathEntryList)
  | 0 => cleanDotdotsPass ops fun _ => ops.crash .tooManyRestarts
  | restarts + 1 => cleanDotdotsPass ops (cleanDotdotsFromPath ops restarts)

def countDotdots (entries : List PathEntry) : Nat := entries.countP PathEntry.isDotdot

/-! ## Facts about the steps -/

@[simp] theorem setTrailingSlashIf_false (flags : PathFlags) :
    flags.setTrailingSlashIf false = flags := by
  simp [PathFlags.setTrailingSlashIf]

@[simp] theorem setTrailingSlashIf_twice (flags : PathFlags) (a b : Bool) :
    (flags.setTrailingSlashIf a).setTrailingSlashIf b = flags.setTrailingSlashIf (a || b) := by
  simp [PathFlags.setTrailingSlashIf, Bool.or_assoc]

theorem removeDots_flags (listp : PathEntryList) :
    (removeDotsFromPathList listp).plFlags =
      listp.plFlags.setTrailingSlashIf
        ((components listp.plFirst).getLast? = some dot) := by
  change PathFlags.setTrailingSlashIf listp.plFlags (removeDots listp.plFirst).2 = _
  rw [removeDots_snd]

def markedEntries (cs : List Component) : List PathEntry :=
  setNotSymlinkInPathEntries (freshEntries cs)

variable {e work : PathEntry} (cs : List Component) {es : List PathEntry} {prev : PathEntry}

@[simp] theorem components_markedEntries : components (markedEntries cs) = cs := by
  simp [markedEntries]

@[simp] theorem markedEntries_nil : markedEntries [] = [] := rfl

theorem removeDots_markedEntries {c : List Component} (hc : Clean c) (rest : List Component)
    (flags : PathFlags) :
    removeDotsFromPathList ⟨markedEntries c ++ freshEntries rest, flags⟩ =
      ⟨markedEntries c ++ freshEntries (withoutDots rest),
        flags.setTrailingSlashIf ((c ++ rest).getLast? = some dot)⟩ := by
  have hflags := removeDots_flags ⟨markedEntries c ++ freshEntries rest, flags⟩
  simp only [components_append, components_markedEntries, components_freshEntries] at hflags
  have hentries : (removeDotsFromPathList ⟨markedEntries c ++ freshEntries rest, flags⟩).plFirst =
      markedEntries c ++ freshEntries (withoutDots rest) := by
    change (removeDots (markedEntries c ++ freshEntries rest)).1 = _
    rw [removeDots_fst, filter_append]
    congr 1
    · refine filter_eq_self.2 fun e he => ?_
      have hmem : e.pePathComponent ∈ c := by
        have h := mem_map_of_mem (f := PathEntry.pePathComponent) he
        rwa [show (markedEntries c).map PathEntry.pePathComponent = c from
          components_markedEntries c] at h
      simpa [PathEntry.isDot] using fun heq : e.pePathComponent = dot =>
        hc.no_dot (heq ▸ hmem)
    · simp [freshEntries, withoutDots, filter_map, Function.comp_def, PathEntry.isDot]
  rw [← hentries, ← hflags]

theorem reverse_markedEntries_concat (c : Component) :
    (markedEntries (cs ++ [c])).reverse =
      { pePathComponent := c, peNotSymlink := true } :: (markedEntries cs).reverse := by
  simp [markedEntries, freshEntries, setNotSymlinkInPathEntries]

theorem isDotdot_eq_true : e.isDotdot = true ↔ e.pePathComponent = dotdot := by
  simp [PathEntry.isDotdot]

theorem isDotdot_eq_false : e.isDotdot = false ↔ e.pePathComponent ≠ dotdot := by
  simp [PathEntry.isDotdot]

theorem isDotdot_false_of_mem (h : dotdot ∉ components es)
    (he : e ∈ es) : e.isDotdot = false :=
  isDotdot_eq_false.2 fun heq => h (heq ▸ mem_map_of_mem he)

@[simp] theorem countDotdots_freshEntries :
    countDotdots (freshEntries cs) = cs.count dotdot := by
  induction cs with
  | nil => rfl
  | cons c cs ih =>
    simp only [countDotdots, freshEntries, map_cons, countP_cons, count_cons,
      PathEntry.isDotdot] at ih ⊢
    rw [ih]
    simp

theorem removeKnownDotdots_ordinary (h : work.isDotdot = false) (before next : List PathEntry) :
    removeKnownDotdots before (work :: next) = removeKnownDotdots (work :: before) next := by
  rw [removeKnownDotdots.eq_def]
  simp [h]

theorem removeKnownDotdots_root (h : work.isDotdot = true) (next : List PathEntry) :
    removeKnownDotdots [] (work :: next) =
      { removeKnownDotdots [] next with
        lastRemoved := (removeKnownDotdots [] next).lastRemoved || next.isEmpty
        dirs := [] :: (removeKnownDotdots [] next).dirs } := by
  rw [removeKnownDotdots.eq_def]
  simp [h]

theorem removeKnownDotdots_marked (h : work.isDotdot = true) (hprev : prev.peNotSymlink = true)
    (before next : List PathEntry) :
    removeKnownDotdots (prev :: before) (work :: next) =
      { removeKnownDotdots before next with
        lastRemoved := (removeKnownDotdots before next).lastRemoved || next.isEmpty
        dirs := components (prev :: before).reverse :: (removeKnownDotdots before next).dirs } := by
  rw [removeKnownDotdots.eq_def]
  simp [h, hprev]

theorem removeKnownDotdots_unmarked (h : work.isDotdot = true) (hprev : prev.peNotSymlink = false)
    (before next : List PathEntry) :
    removeKnownDotdots (prev :: before) (work :: next) =
      { removeKnownDotdots (work :: prev :: before) next with hasNontrivialDotdots := true } := by
  rw [removeKnownDotdots.eq_def]
  simp [h, hprev]

theorem removeKnownDotdots_append (h : dotdot ∉ components es)
    (before rest : List PathEntry) :
    removeKnownDotdots before (es ++ rest) = removeKnownDotdots (es.reverse ++ before) rest := by
  induction es generalizing before with
  | nil => rfl
  | cons e es ih =>
    have he : e.isDotdot = false := isDotdot_false_of_mem h mem_cons_self
    have hes : dotdot ∉ components es := fun hm => h (mem_cons_of_mem _ hm)
    rw [cons_append, removeKnownDotdots_ordinary he, ih hes]
    simp

theorem removeKnownDotdots_kept (prev : PathEntry) (hprev : prev.peNotSymlink = false)
    (before : List PathEntry) (cs : List Component) :
    removeKnownDotdots (prev :: before) (freshEntries cs) =
      ⟨(prev :: before).reverse ++ freshEntries cs, false, decide (dotdot ∈ cs), []⟩ := by
  induction cs generalizing prev before with
  | nil => simp [freshEntries, removeKnownDotdots]
  | cons c cs ih =>
    have hrec := ih { pePathComponent := c } rfl (prev :: before)
    rw [freshEntries_cons]
    by_cases hc : c = dotdot
    · rw [removeKnownDotdots_unmarked (isDotdot_eq_true.2 hc) hprev, hrec]
      simp [hc]
    · rw [removeKnownDotdots_ordinary (isDotdot_eq_false.2 hc), hrec]
      simp [Ne.symm hc]

section

variable (ops : ParentOps m) (restart : PathEntryList → m (Except Errno PathEntryList))

theorem resolveDotdots_append {es : List PathEntry} (h : dotdot ∉ components es)
    (flags : PathFlags) (before rest : List PathEntry) :
    resolveDotdots ops restart flags before (es ++ rest) =
      resolveDotdots ops restart flags (es.reverse ++ before) rest := by
  induction es generalizing before with
  | nil => rfl
  | cons e es ih =>
    have he : e.isDotdot = false := isDotdot_false_of_mem h mem_cons_self
    have hes : dotdot ∉ components es := fun hm => h (mem_cons_of_mem _ hm)
    rw [cons_append, resolveDotdots, he]
    simp [ih hes]

end

end Scratchbox
