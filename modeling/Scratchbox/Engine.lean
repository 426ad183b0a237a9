import Scratchbox.Resolution

/-!
# The mapping engine

`sbox_map_path_internal__c_engine`, `sbox_reverse_path_internal__c_engine` and
`sbox_virtual_path_to_abs_virtual_path` of `pathresolution.c`, and the public
entries of `pathmapping_interf.c`. A path is made absolute (from the current
directory or the simulated root), cleaned, resolved, and translated by the rule
that resolution returned.
-/

namespace Scratchbox

open CallTree

/-! ## Reversing -/

/-- `struct sb2context`: the one-slot cache for the reversed current directory,
and whether mapping is disabled. -/
structure Sb2Context where
  hostCwd : Option CStr := none
  virtualReversedCwd : Option CStr := none
  mappingDisabled : Bool := false
  deriving DecidableEq

/-- The end of `sbox_reverse_path_internal__c_engine`: the chroot prefix is
dropped. The result may be NULL, which is not noticed. -/
def dropChrootPrefix (sboxChrootPath : Option CStr) (resultVirtualPath : Option CStr) :
    Except Fault (Option CStr) :=
  match sboxChrootPath, resultVirtualPath with
  | none, result => .ok result
  | some _, none => .error .nullPointer
  | some chroot, some path =>
    if chroot <+: path then
      match path.drop chroot.length with
      | [] => .ok (some ['/'])
      | '/' :: rest => .ok (some ('/' :: rest))
      | _ => .ok (some path)
    else .ok (some path)

/-- `sbox_reverse_path_internal__c_engine` without dropping the chroot prefix. -/
def reverseByRules (session : Session) (ctx : PathMappingContext) (absHostPath : CStr) :
    Except Fault (Option CStr) :=
  match ruletreeGetRuleListOffs session false with
  | .error _ => .ok none
  | .ok rules =>
    match ruletreeGetMappingRequirements rules ctx (splitPathToPathList absHostPath) with
    | none => .ok none
    | some req => do
      let t ← ruletreeTranslatePath session.host (some req.rule) absHostPath
      pure (if t.errormsg.isSome then none else t.hostPath)

/-- `sbox_reverse_path_internal__c_engine`. -/
def sboxReversePathInternal (session : Session) (ctx : PathMappingContext) (absHostPath : CStr)
    (dropPrefix : Bool) : Except Fault (Option CStr) :=
  if !session.ruletreeInMemory then .ok none
  else do
    let result ← reverseByRules session ctx absHostPath
    if dropPrefix then dropChrootPrefix session.sboxChrootPath result else pure result

/-! ## Absolute paths -/

/-- The virtual path of the current directory: from the cache, or by reversing
the host's. -/
def virtualReversedCwd (session : Session) (sb2ctx : Sb2Context) (ctx : PathMappingContext)
    (hostCwd : CStr) : Except Fault CStr :=
  match sb2ctx.hostCwd, sb2ctx.virtualReversedCwd with
  | some cached, some reversed =>
    if hostCwd = cached then .ok reversed else reverseCwd
  | _, _ => reverseCwd
where
  reverseCwd : Except Fault CStr :=
    if hostCwd = ['/'] then .ok hostCwd
    else do
      let reversed ← sboxReversePathInternal session ctx hostCwd false
      pure (reversed.getD hostCwd)

/-- `relative_virtual_path_to_abs_path`: the host's current directory, the context
with the new cache, and the absolute list; `none` if there is no current
directory. -/
def relativeVirtualPathToAbsPath (session : Session) (sb2ctx : Sb2Context)
    (ctx : PathMappingContext) (pathList : PathEntryList) :
    Except Fault (Option (CStr × Sb2Context × PathEntryList)) :=
  match session.host.getcwd with
  | none => .ok none
  | some hostCwd => do
    let reversed ← virtualReversedCwd session sb2ctx ctx hostCwd
    let (cwdEntries, cwdFlags) := splitPathToPathEntries reversed
    pure (some (hostCwd,
      { sb2ctx with hostCwd := some hostCwd, virtualReversedCwd := some reversed },
      { plFirst :=
          (appendPathEntries (setNotSymlinkInPathEntries cwdEntries) pathList.plFirst).1
        plFlags := pathList.plFlags.union { cwdFlags with hasTrailingSlash := false } }))

def disabledByEnvironment (session : Session) : Bool :=
  (session.host.getenv "SBOX_DISABLE_MAPPING".toList).isSome

/-- The label `use_absolute_host_path_as_result_and_exit`. The path is not used:
the printed list is the current directory. -/
def absoluteHostPathAsResult (session : Session) (virtualOrigPath : CStr) : CStr :=
  match session.host.getcwd with
  | none => virtualOrigPath
  | some hostCwd => pathListToString (splitPathToPathList hostCwd)

/-- `sbox_virtual_path_to_abs_virtual_path`: the absolute path or an errno, and the
context with its new cache. -/
def sboxVirtualPathToAbsVirtualPath (session : Session) (sb2ctx : Option Sb2Context)
    (ctx : PathMappingContext) (virtualOrigPath : CStr) :
    Run (Except Errno CStr × Option Sb2Context) :=
  if virtualOrigPath.isEmpty then pure (.ok [], sb2ctx)
  else if !session.ruletreeInMemory then pure (.ok virtualOrigPath, sb2ctx)
  else if disabledByEnvironment session then
    pure (.ok (absoluteHostPathAsResult session virtualOrigPath), sb2ctx)
  else
    match sb2ctx with
    | none => pure (.ok (absoluteHostPathAsResult session virtualOrigPath), none)
    | some sb2 =>
      if sb2.mappingDisabled then
        pure (.ok (absoluteHostPathAsResult session virtualOrigPath), some sb2)
      else if virtualOrigPath.head? = some '/' then
        clean sb2 (splitPathToPathList virtualOrigPath)
      else do
        match ← ofExcept (relativeVirtualPathToAbsPath session sb2 ctx
            (splitPathToPathList virtualOrigPath)) with
        | none => pure (.ok (absoluteHostPathAsResult session virtualOrigPath), some sb2)
        | some (_, sb2, list) => clean sb2 list
where
  clean (sb2 : Sb2Context) (list : PathEntryList) : Run (Except Errno CStr × Option Sb2Context) :=
    do
      match ← cleanVirtualPath ctx list with
      | .error err => pure (.error err, some sb2)
      | .ok list => pure (.ok (pathListToString list), some sb2)

/-! ## Mapping -/

/-- `SB2_INTERFACE_CLASS_DLOPEN`. -/
def interfaceClassDlopen : UInt32 := 0x80000

def origPathAsResult (virtualOrigPath : CStr) : MappingResults :=
  { mresResultBuf := some virtualOrigPath, mresResultPath := some virtualOrigPath }

/-- What `sbox_map_path_internal__c_engine` works on: the path list, the host's
current directory if the path was relative, and the context afterwards. -/
structure PathToMap where
  list : PathEntryList
  hostCwd : Option CStr := none
  sb2ctx : Sb2Context

/-- How the path list is made; `none` if the path is not to be mapped. -/
def absVirtualPathForRuleSelection (session : Session) (sb2 : Sb2Context)
    (ctx : PathMappingContext) (virtualOrigPath : CStr) : Except Fault (Option PathToMap) :=
  if virtualOrigPath.head? ≠ some '/' then
    let list := splitPathToPathList virtualOrigPath
    if list.plFirst.length = 1 ∧ ctx.pmcFnClass &&& interfaceClassDlopen ≠ 0 then .ok none
    else do
      let result ← relativeVirtualPathToAbsPath session sb2 ctx list
      pure (result.map fun (hostCwd, sb2ctx, list) => { list, hostCwd := some hostCwd, sb2ctx })
  else
    match session.sboxChrootPath with
    | some chroot =>
      .ok (some { list := splitPathToPathList (chroot ++ '/' :: virtualOrigPath), sb2ctx := sb2 })
    | none => .ok (some { list := splitPathToPathList virtualOrigPath, sb2ctx := sb2 })

/-- `mres_readonly` from the flags of the translation. -/
def readonlyFromFlags (host : Host) (flags : RuleFlags) : Bool :=
  if flags.readonlyFsIfNotRoot then !host.euidIsRoot
  else flags.readonly || flags.readonlyFsAlways

/-- What is done with the answer of `sb_path_resolution`: the resolved path is
translated by the rule that came with it. -/
def mapResolvedPath (session : Session) (res : MappingResults) (answer : Answer) :
    Except Fault MappingResults :=
  match answer.res.mresErrormsg, answer.res.mresErrno, answer.res.mresResultPath with
  | some errormsg, _, _ => .ok { res with mresErrormsg := some errormsg }
  | none, some err, _ => .ok { res with mresErrno := some err }
  | none, none, none =>
    .ok { res with mresErrorText := some "mapping failed; path resolution path failed" }
  | none, none, some resolvedVirtualPath => do
    let t ← ruletreeTranslatePath session.host answer.rule resolvedVirtualPath
    let res : MappingResults :=
      { res with
        mresResultBuf := t.hostPath
        mresResultPath := t.hostPath
        mresExecPolicyName := t.execPolicyName }
    match t.errormsg with
    | some errormsg => pure { res with mresErrormsg := some errormsg }
    | none => pure { res with mresReadonly := readonlyFromFlags session.host t.flags }

def relativeToCwd (hostCwd mappingResult : CStr) : CStr :=
  if mappingResult = hostCwd then ['.']
  else if hostCwd <+: mappingResult then
    match mappingResult.drop hostCwd.length with
    | '/' :: c :: rest => if c ≠ '/' then c :: rest else mappingResult
    | _ => mappingResult
  else mappingResult

/-- The end of the engine: a relative path gets a relative result if possible. -/
def PathToMap.withResultPath (p : PathToMap) (processPathForExec : Bool) (res : MappingResults) :
    MappingResults :=
  match p.hostCwd, res.mresResultBuf with
  | some hostCwd, some mappingResult =>
    if !processPathForExec && mappingResult.head? = some '/' then
      { res with mresResultPath := some (relativeToCwd hostCwd mappingResult) }
    else res
  | _, _ => res

def mapPathList (session : Session) (ctx : PathMappingContext) (p : PathToMap)
    (processPathForExec : Bool) : Run MappingResults := do
  let res : MappingResults :=
    { mresVirtualCwd := p.hostCwd.bind fun _ => p.sb2ctx.virtualReversedCwd }
  match ← cleanVirtualPath ctx p.list with
  | .error err => pure { res with mresErrno := some err }
  | .ok list =>
    if !list.plFlags.absolute then
      let mappingResult := pathListToString list
      pure (p.withResultPath processPathForExec
        { res with
          mresResultBuf := some mappingResult
          mresResultPath := some mappingResult
          mresErrorText := some "mapping failed; failed to make absolute path" })
    else do
      let answer ← ask ⟨ctx, list⟩
      let res ← ofExcept (mapResolvedPath session res answer)
      pure (p.withResultPath processPathForExec res)

/-- `sbox_map_path_internal__c_engine`, with the context after the call. -/
def sboxMapPathInternal (session : Session) (sb2ctx : Option Sb2Context)
    (ctx : PathMappingContext) (virtualOrigPath : CStr) (processPathForExec : Bool) :
    Run (MappingResults × Option Sb2Context) :=
  if virtualOrigPath.isEmpty then pure (origPathAsResult [], sb2ctx)
  else if disabledByEnvironment session then pure (origPathAsResult virtualOrigPath, sb2ctx)
  else if !session.ruletreeInMemory then
    pure ({ mresErrormsg := some "No ruletree" }, sb2ctx)
  else
    match sb2ctx with
    | none => pure (origPathAsResult virtualOrigPath, none)
    | some sb2 =>
      if sb2.mappingDisabled then pure (origPathAsResult virtualOrigPath, some sb2)
      else do
        match ← ofExcept (absVirtualPathForRuleSelection session sb2 ctx virtualOrigPath) with
        | none => pure (origPathAsResult virtualOrigPath, some sb2)
        | some p => do
          let res ← mapPathList session ctx p processPathForExec
          pure (res, some p.sb2ctx)

/-! ## The public entries -/

/-- A process: what the mapping code sees, its mapping context, its name, and the
paths registered for its file descriptors. -/
structure Process where
  session : Session
  sb2ctx : Option Sb2Context
  sboxBinaryName : Option CStr
  fdPathDb : Int → Option CStr

structure MapFlags where
  dontResolveFinalSymlink : Bool := false
  allowNonexistent : Bool := false
  deriving DecidableEq

/-- `sbox_binary_name ? sbox_binary_name : "UNKNOWN"`. -/
def Process.binaryName (p : Process) : CStr := p.sboxBinaryName.getD "UNKNOWN".toList

def Process.mappingContext (p : Process) (flags : MapFlags) (classmask : UInt32) :
    PathMappingContext :=
  { pmcBinaryName := p.binaryName
    pmcFnClass := classmask
    pmcDontResolveFinalSymlink := flags.dontResolveFinalSymlink
    pmcAllowNonexistent := flags.allowNonexistent }

/-- `fwd_map_path`, with the process after the call. -/
def fwdMapPath (p : Process) (virtualPath : Option CStr) (flags : MapFlags)
    (fnClass : UInt32) : Run (MappingResults × Process) :=
  match virtualPath with
  | none => pure ({ mresReadonly := true }, p)
  | some path => do
    let (res, sb2ctx) ←
      sboxMapPathInternal p.session p.sb2ctx (p.mappingContext flags fnClass) path false
    pure (res, { p with sb2ctx })

def sboxMapPath (p : Process) (virtualPath : Option CStr) (flags : MapFlags)
    (classmask : UInt32) : Run (MappingResults × Process) :=
  fwdMapPath p virtualPath flags classmask

def atFdcwd : Int := -100

def sboxMapPathAt (p : Process) (dirfd : Int) (virtualPath : Option CStr) (flags : MapFlags)
    (classmask : UInt32) : Run (MappingResults × Process) :=
  match virtualPath with
  | none => pure ({ mresReadonly := true }, p)
  | some path =>
    if path.isEmpty then pure (origPathAsResult path, p)
    else if path.head? = some '/' ∨ dirfd = atFdcwd then fwdMapPath p (some path) flags classmask
    else
      match p.fdPathDb dirfd with
      | some dirfdPath => fwdMapPath p (some (dirfdPath ++ '/' :: path)) flags classmask
      | none => pure (origPathAsResult path, p)

/-- `reverse_map_path`, as `scratchbox_reverse_path` calls it. -/
def scratchboxReversePath (p : Process) (absHostPath : CStr) (classmask : UInt32) :
    Except Fault (Option CStr) :=
  sboxReversePathInternal p.session (p.mappingContext {} classmask) absHostPath true

end Scratchbox
