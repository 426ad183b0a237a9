import Scratchbox.Engine
import Scratchbox.Lib.CallRules

/-!
# The chroot gate

`chroot_gate` of `chrootgate.c`. The real `chroot` is never called: the gate
stores the absolute virtual path of the new root, and the mapping engine puts it
in front of absolute paths. The path is cleaned, but its symbolic links are not
resolved.
-/

namespace Scratchbox

open CallTree

/-- `SB2_INTERFACE_CLASS_CHROOT`. -/
def interfaceClassChroot : UInt32 := 0x10000

def Session.withChroot (session : Session) (sboxChrootPath : Option CStr) : Session :=
  { session with sboxChrootPath }

def Process.withChroot (p : Process) (sboxChrootPath : Option CStr) : Process :=
  { p with session := p.session.withChroot sboxChrootPath }

def Process.chrootContext (p : Process) : PathMappingContext :=
  p.mappingContext {} interfaceClassChroot

/-- The path whose absolute form is stored: inside a chroot, an absolute path is
taken from there. -/
def pathForNewRoot (sboxChrootPath : Option CStr) (path : CStr) : CStr :=
  match sboxChrootPath with
  | some chroot => if path.head? = some '/' then chroot ++ '/' :: path else path
  | none => path

/-- The tests on the mapped path: it must exist and be a directory. -/
def checkNewRoot (host : Host) (res : MappingResults) : Except Errno Unit :=
  if res.mresErrno.isSome then .error .EPERM
  else
    match res.mresResultPath with
    -- stat() fails with EFAULT
    | none => .error .ENOENT
    | some path =>
      match host.stat path with
      | .error _ => .error .ENOENT
      | .ok .other => .error .ENOTDIR
      | .ok .directory => .ok ()

/-- `chroot_gate`: the result, and the process after the call. -/
def chrootGate (p : Process) (path : CStr) : Run (Except Errno Unit × Process) := do
  let (newChrootPath, sb2ctx) ← sboxVirtualPathToAbsVirtualPath p.session p.sb2ctx p.chrootContext
    (pathForNewRoot p.session.sboxChrootPath path)
  let p := { p with sb2ctx }
  match newChrootPath with
  | .error err => pure (.error err, p)
  | .ok newChrootPath =>
    if newChrootPath = ['/'] then pure (.ok (), p.withChroot none)
    else do
      let (mappedChrootPath, p) ← sboxMapPath p (some path) {} interfaceClassChroot
      match checkNewRoot p.session.host mappedChrootPath with
      | .error err => pure (.error err, p)
      | .ok () => pure (.ok (), p.withChroot (some newChrootPath))

end Scratchbox
