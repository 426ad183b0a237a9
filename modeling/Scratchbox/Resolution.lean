import Scratchbox.RuleTree
import Scratchbox.Lib.Calls

/-!
# Path resolution

`sb_path_resolution` and `sb_path_resolution_resolve_symlink` of `pathresolution.c` call each other
once for each symbolic link that is followed, and the nesting counter bounds that recursion.
Cleaning `..` from the contents of a link calls `sb_path_resolution` again, for the path before the
`..` and with the counter at zero: such a call is a question of a call tree.
-/

namespace Scratchbox

open CallTree

/-! ## Types -/

/-- `mapping_results_t`. -/
structure MappingResults where
  mresResultBuf : Option CStr := none
  mresResultPath : Option CStr := none
  mresReadonly : Bool := false
  mresErrno : Option Errno := none
  mresVirtualCwd : Option CStr := none
  mresExecPolicyName : Option CStr := none
  mresErrorText : Option String := none
  mresErrormsg : Option String := none
  deriving DecidableEq

/-- The process as the mapping code sees it: the host, whether the rule tree is in
memory, the active mode with its rules, and `sbox_chroot_path`. -/
structure Session where
  host : Host
  ruletreeInMemory : Bool
  modename : Option CStr
  fwdRules : List FsRule
  revRules : List FsRule
  sboxChrootPath : Option CStr

/-- A call of `sb_path_resolution` with cleared results and a nesting count of
zero. -/
structure Question where
  ctx : PathMappingContext
  absVirtualCleanSourcePathList : PathEntryList

/-- The returned rule and the results. -/
structure Answer where
  rule : Option FsRule
  res : MappingResults
  deriving DecidableEq

/-- What is reported on the way: a symbolic link that is followed, the directory
in which a `..` was evaluated, a host path that is passed without looking at it
because its entry is marked as not being a symbolic link. -/
inductive Event where
  | symlink (dest : LinkText)
  | dotdot (dir : List Component)
  | unchecked (hostPath : Option CStr)
  deriving DecidableEq

/-- Computations of the resolution code. -/
abbrev Run := CallTree Question Answer Event Fault

def ruletreeGetRuleListOffs (session : Session) (useFwdRules : Bool) :
    Except String (List FsRule) :=
  if session.modename.isNone then .error "No default modename!"
  else if session.fwdRules.isEmpty then .error "No rules found from ruletree!"
  else .ok (if useFwdRules then session.fwdRules else session.revRules)

/-! ## Cleaning virtual paths -/

/-- The context of the look-ups made while `..` is cleaned: the path before it
must be an existing directory and a link at its end is followed. -/
def PathMappingContext.forParents (ctx : PathMappingContext) : PathMappingContext :=
  { ctx with
    pmcDontResolveFinalSymlink := false
    pmcFileMustExist := true
    pmcMustBeDirectory := true }

/-- What the cleaner looks at when a parent has been resolved. -/
def Answer.parentLocation (a : Answer) : Except Errno (Option CStr) :=
  match a.res.mresErrno with
  | some err => .error err
  | none => .ok a.res.mresResultBuf

/-- The cleaner's surroundings for virtual paths: a parent is located by
`sb_path_resolution`, with a new nesting count. -/
def virtualParentOps (ctx : PathMappingContext) : ParentOps Run where
  resolveParent parent := do
    let answer ← ask ⟨ctx.forParents, parent⟩
    pure answer.parentLocation
  evaluated dir := report (.dotdot dir)
  crash f := fault f

/-- The cleaning that stands before every use of a virtual path: `switch
(is_clean_path(..))`. -/
def cleanVirtualPath (ctx : PathMappingContext) (list : PathEntryList) :
    Run (Except Errno PathEntryList) :=
  match isCleanPath list.plFirst with
  | .clean => pure (.ok list)
  | .dot => pure (.ok (removeDotsFromPathList list))
  | .dotdot =>
    let list := removeDotsFromPathList list
    cleanDotdotsFromPath (virtualParentOps ctx) (countDotdots list.plFirst) list

/-! ## Following a symbolic link -/

def PathFlags.union (f g : PathFlags) : PathFlags :=
  { absolute := f.absolute || g.absolute
    hasTrailingSlash := f.hasTrailingSlash || g.hasTrailingSlash
    hostPath := f.hostPath || g.hostPath }

/-- The trailing slash of a link is dropped unless the link ends the path. -/
def PathFlags.ofLink (flags : PathFlags) (next : List PathEntry) : PathFlags :=
  if next.isEmpty then flags else { flags with hasTrailingSlash := false }

/-- `new_abs_virtual_link_dest_path_list` of `sb_path_resolution_resolve_symlink`:
the path with which resolution goes on, before it is cleaned. `before` are the
entries before the link, last one first, and `next` those after it. -/
def newAbsVirtualLinkDestPathList (session : Session) (linkDest : LinkText)
    (sourceFlags : PathFlags) (before next : List PathEntry) : PathEntryList :=
  let restOfVirtualPath := duplicatePathEntries next
  if linkDest.text.head? = some '/' then
    let (symlinkEntries, flags) :=
      splitPathToPathEntries (session.sboxChrootPath.getD [] ++ linkDest.text)
    -- the list returned by append_path_entries() is not used
    { plFirst :=
        if restOfVirtualPath.isEmpty then symlinkEntries
        else (appendPathEntries symlinkEntries restOfVirtualPath).2
      plFlags := flags.ofLink next }
  else
    let dirnamEntries := duplicatePathEntries before.reverse
    let (linkDestEntries, flags) := splitPathToPathEntries linkDest.text
    let symlinkEntries := (appendPathEntries dirnamEntries linkDestEntries).1
    { plFirst :=
        if restOfVirtualPath.isEmpty then symlinkEntries
        else (appendPathEntries symlinkEntries restOfVirtualPath).1
      plFlags := sourceFlags.union (flags.ofLink next) }

/-- `sb_path_resolution_resolve_symlink`; `recurse` is `sb_path_resolution` with
the next nesting count. -/
def sbPathResolutionResolveSymlink (session : Session)
    (recurse : PathMappingContext → MappingResults → PathEntryList → Run Answer)
    (ctx : PathMappingContext) (linkDest : LinkText) (sourceFlags : PathFlags)
    (before next : List PathEntry) (res : MappingResults) : Run Answer :=
  let newList := newAbsVirtualLinkDestPathList session linkDest sourceFlags before next
  if !newList.plFlags.absolute then fault .assertion
  else do
    match ← cleanVirtualPath ctx newList with
    | .error err => pure ⟨none, { res with mresErrno := some err }⟩
    | .ok list => recurse ctx res list

/-! ## The walk -/

/-- What is found out about one component. -/
inductive LinkStatus where
  | symlink (dest : LinkText)
  | passed
  | failed (err : Errno)

/-- The part of the loop that looks at a component whose status is unknown. -/
def examineComponent (host : Host) (ctx : PathMappingContext) (hostPath : Option CStr)
    (isLast : Bool) : LinkStatus :=
  match hostPath with
  | none => .failed .EFAULT
  | some path =>
    match host.readlink path with
    | .ok dest => .symlink dest
    | .error err =>
      if err = .EINVAL then
        if ctx.pmcMustBeDirectory && isLast then
          match host.stat path with
          | .error err => .failed err
          | .ok .other => .failed .ENOTDIR
          | .ok .directory => .passed
        else .passed
      else if err = .ENOENT && !ctx.pmcFileMustExist && isLast then .passed
      else if err = .ENOENT && ctx.pmcAllowNonexistent then .passed
      else .failed err

/-- The status of a component: an entry marked as not being a symbolic link is
passed without looking at the host. -/
def componentStatus (host : Host) (ctx : PathMappingContext) (work : PathEntry)
    (hostPath : Option CStr) (isLast : Bool) : LinkStatus :=
  if work.peNotSymlink then .passed else examineComponent host ctx hostPath isLast

/-- The host path of a component that is passed without looking at it. -/
def uncheckedPath (work : PathEntry) (hostPath : Option CStr) : List (Option CStr) :=
  if work.peNotSymlink then [hostPath] else []

/-- Whether the loop ends before looking at a component. -/
def stopsBefore (session : Session) (ctx : PathMappingContext) (hasTrailingSlash : Bool)
    (flags : RuleFlags) (isLast : Bool) : Bool :=
  if flags.forceOrigPathUnlessChroot && session.sboxChrootPath.isNone then true
  else if !flags.forceOrigPathUnlessChroot && flags.forceOrigPath then true
  else !hasTrailingSlash && ctx.pmcDontResolveFinalSymlink && isLast

/-- The results with what a translation says about policy and errors. -/
def MappingResults.withTranslation (res : MappingResults) (t : Translation) : MappingResults :=
  { res with
    mresExecPolicyName := t.execPolicyName
    mresErrormsg := t.errormsg.or res.mresErrormsg }

/-- What stays the same during the loop of `sb_path_resolution`. -/
structure WalkContext where
  ctx : PathMappingContext
  rule : FsRule
  callTranslateForAll : Bool
  source : PathEntryList

/-- The end of `sb_path_resolution`, when all symbolic links have been resolved. -/
def WalkContext.finish (w : WalkContext) (res : MappingResults) : Answer :=
  let buf := pathListToString w.source
  ⟨some w.rule, { res with mresResultBuf := some buf, mresResultPath := some buf }⟩

def nextHostPath (session : Session) (w : WalkContext) (upToNext : List PathEntry)
    (nextComponent : Component) (hostPath : Option CStr) (flags : RuleFlags)
    (res : MappingResults) : Except Fault (Option CStr × RuleFlags × MappingResults) :=
  if w.callTranslateForAll then do
    let t ← ruletreeTranslatePath session.host (some w.rule)
      (pathEntriesToString upToNext w.source.plFlags)
    pure (t.hostPath, t.flags, res.withTranslation t)
  else .ok (some (printfString hostPath ++ '/' :: nextComponent.val), flags, res)

/-- How the loop ends: the function returns, or a symbolic link is to be
followed that stands between two lists of entries. -/
inductive WalkEnd where
  | answer (a : Answer)
  | symlink (dest : LinkText) (before next : List PathEntry) (res : MappingResults)

/-- The loop of `sb_path_resolution` up to the first symbolic link, with the host
paths that were passed unchecked. `before` are the entries before the work
pointer, last one first. -/
def walk (session : Session) (w : WalkContext) :
    MappingResults → List PathEntry → List PathEntry → Option CStr → RuleFlags →
      Except Fault (List (Option CStr) × WalkEnd)
  | res, _, [], _, _ => .ok ([], .answer (w.finish res))
  | res, before, work :: next, hostPath, flags =>
    if stopsBefore session w.ctx w.source.plFlags.hasTrailingSlash flags next.isEmpty then
      .ok ([], .answer (w.finish res))
    else
      match componentStatus session.host w.ctx work hostPath next.isEmpty with
      | .failed err =>
        .ok (uncheckedPath work hostPath, .answer ⟨none, { res with mresErrno := some err }⟩)
      | .symlink dest => .ok (uncheckedPath work hostPath, .symlink dest before next res)
      | .passed =>
        match next with
        | [] => .ok (uncheckedPath work hostPath, .answer (w.finish res))
        | e :: rest => do
          let (hostPath', flags', res') ←
            nextHostPath session w (before.reverse ++ [work, e]) e.pePathComponent hostPath flags
              res
          let (more, walkEnd) ← walk session w res' (work :: before) (e :: rest) hostPath' flags'
          pure (uncheckedPath work hostPath ++ more, walkEnd)

/-! ## The function -/

/-- The components that are not checked because the rule needs a path of some
length: the entries before the first one that is, last one first, and the others.
`none` if the list ends first and its next pointer is followed. -/
def skipComponents (minPathLenToCheck : Nat) :
    Nat → List PathEntry → List PathEntry → Option (List PathEntry × List PathEntry)
  | skippedLen, before, [] =>
    if skippedLen < minPathLenToCheck then none else some (before, [])
  | skippedLen, before, work :: next =>
    if skippedLen < minPathLenToCheck then
      skipComponents minPathLenToCheck (skippedLen + work.pePathComponent.val.length + 1)
        (work :: before) next
    else some (before, work :: next)

/-- `sb_path_resolution` up to the first symbolic link it follows. -/
def resolveUpToSymlink (session : Session) (ctx : PathMappingContext) (res : MappingResults)
    (source : PathEntryList) : Except Fault (List (Option CStr) × WalkEnd) :=
  if !source.plFlags.absolute then .error .assertion
  else if isCleanPath source.plFirst ≠ .clean then .error .assertion
  else
    match ruletreeGetRuleListOffs session true with
    | .error errormsg => .ok ([], .answer ⟨none, { res with mresErrormsg := some errormsg }⟩)
    | .ok rules =>
      match ruletreeGetMappingRequirements rules ctx source with
      | none => .ok ([], .answer ⟨none, { res with mresErrormsg := none }⟩)
      | some req =>
        match skipComponents req.minPathLen 1 [] source.plFirst with
        | none => .error .nullPointer
        | some (before, rest) => do
          let t ← ruletreeTranslatePath session.host (some req.rule)
            (pathEntriesToString (before.reverse ++ rest.take 1) { absolute := true })
          walk session ⟨ctx, req.rule, req.callTranslateForAll, source⟩ (res.withTranslation t)
            before rest t.hostPath t.flags

/-- `sb_path_resolution`. The first argument is how many more nested calls are
allowed, 17 at a nesting count of zero. -/
def sbPathResolution (session : Session) :
    Nat → PathMappingContext → MappingResults → PathEntryList → Run Answer
  | 0, _, res, _ => pure ⟨none, { res with mresErrno := some .ELOOP }⟩
  | left + 1, ctx, res, source => do
    let (unchecked, walkEnd) ← ofExcept (resolveUpToSymlink session ctx res source)
    unchecked.forM fun hostPath => report (.unchecked hostPath)
    match walkEnd with
    | .answer a => pure a
    | .symlink dest before next res => do
      report (.symlink dest)
      sbPathResolutionResolveSymlink session (sbPathResolution session left) ctx dest
        source.plFlags before next res

/-- The greatest nesting of symbolic links, plus one. -/
def maxNesting : Nat := 17

def resolutionBody (session : Session) (q : Question) : Run Answer :=
  sbPathResolution session maxNesting q.ctx {} q.absVirtualCleanSourcePathList

/-- The way of a virtual path through the engine: it is cleaned and then
resolved. -/
def lookUp (ctx : PathMappingContext) (list : PathEntryList) : Run (Except Errno Answer) := do
  match ← cleanVirtualPath ctx list with
  | .error err => pure (.error err)
  | .ok list => do
    let answer ← ask ⟨ctx, list⟩
    pure (.ok answer)

end Scratchbox
