import Scratchbox.ChmodGates
import Scratchbox.ChownGates

/-!
# Directories under a simulated root

`mkdir_gate` and `mkdirat_gate` in `vperm_filestatgates.c`, and `chmod` for directories. A directory
should get the rights 0700 for its real owner, and the mode that was asked for is only shown.
`mkdirat_gate` computes these rights, but does not pass them on; a `chmod` that the operating system
refuses cannot give them; and with them the mode is shown without the umask
(`simulated_root_directories`).
-/

namespace Scratchbox

/-! ## The gates -/

def vpermSetOwnerAndGroup (machine : Machine) (ref : FileRef) : Machine :=
  match machine.files.stat ref with
  | .ok buf =>
    { machine with
      vperm := vpermChown machine.vperm.initializeIds buf
        (vpermGeteuid machine.vperm.source machine.vperm.ids)
        (vpermGetegid machine.vperm.source machine.vperm.ids) }
  | .error _ => machine

/-- `vperm_mkdir_prepare`: the state, and the rights that are forced. -/
def vpermMkdirPrepare (vperm : VpermState) (mode : BitVec 32) : VpermState × BitVec 32 :=
  (vperm.initializeIds,
    if vperm.simulatesRootFs then
      if mode &&& 0o700#32 ≠ 0o700#32 then 0o700#32 else 0
    else 0)

/-- `vperm_mkdir_finalize`, with `true` for a result of `0`. -/
def vpermMkdirFinalize (machine : Machine) (ref : FileRef) (mode forcedOwnerRights : BitVec 32) :
    Machine × Bool :=
  if forcedOwnerRights ≠ 0 then
    match machine.files.stat ref with
    | .ok buf => ({ machine with vperm := vpermChmod machine.vperm buf mode 0 }, true)
    | .error _ => (machine, false)
  else (machine, true)

/-- A directory that the operating system makes: its inode and ids, and whether it takes over
the set-group-id bit of the directory that it is in. -/
structure NewDirectory where
  inode : Inode
  uid : BitVec 32
  gid : BitVec 32
  sgid : Bool

def NewDirectory.attributes (new : NewDirectory) (umask mode : BitVec 32) : FileAttributes where
  mode := 0o040000#32 ||| (if new.sgid then sIsgid else 0) ||| mode &&& ~~~umask &&& permBits
  nlink := 2
  uid := new.uid
  gid := new.gid
  rdev := 0

def RealFiles.mkdir (files : RealFiles) (ref : FileRef) (verdict : Except Errno NewDirectory)
    (umask mode : BitVec 32) : RealFiles × Except Errno Unit :=
  match verdict with
  | .error err => (files, .error err)
  | .ok new =>
    ({ resolve := Function.update files.resolve ref (.ok new.inode)
       attributes := Function.update files.attributes new.inode (new.attributes umask mode) },
      .ok ())

def mkdirGatesDone (machine : Machine) (res : Except Errno Unit) (ref : FileRef)
    (mode forcedOwnerRights : BitVec 32) : Machine × Except Errno Unit :=
  match res with
  | .ok () =>
    let machine :=
      if vpermUidOrGidVirtualizationIsActive machine.vperm.source machine.vperm.ids then
        vpermSetOwnerAndGroup machine ref
      else machine
    let machine :=
      if forcedOwnerRights ≠ 0 then (vpermMkdirFinalize machine ref mode forcedOwnerRights).1
      else machine
    (machine, .ok ())
  | .error err => (machine, .error err)

def mkdirGate (machine : Machine) (verdict : Except Errno NewDirectory) (umask : BitVec 32)
    (path : CStr) (mode : BitVec 32) : Machine × Except Errno Unit :=
  let prepared := vpermMkdirPrepare machine.vperm mode
  let real := machine.files.mkdir (.path atFdcwd path 0) verdict umask (mode ||| prepared.2)
  mkdirGatesDone ⟨prepared.1, real.1⟩ real.2 (.path atFdcwd path 0) mode prepared.2

/-- `mkdirat_gate`: the real call gets the mode without the forced rights. -/
def mkdiratGate (machine : Machine) (verdict : Except Errno NewDirectory) (umask : BitVec 32)
    (dirfd : Int) (path : CStr) (mode : BitVec 32) : Machine × Except Errno Unit :=
  let prepared := vpermMkdirPrepare machine.vperm mode
  let real := machine.files.mkdir (.path dirfd path 0) verdict umask mode
  mkdirGatesDone ⟨prepared.1, real.1⟩ real.2 (.path dirfd path 0) mode prepared.2

inductive MkdirCall
  | mkdir (path : CStr) (mode : BitVec 32)
  | mkdirat (dirfd : Int) (path : CStr) (mode : BitVec 32)

namespace MkdirCall

def run (machine : Machine) (verdict : Except Errno NewDirectory) (umask : BitVec 32) :
    MkdirCall → Machine × Except Errno Unit
  | mkdir path mode => mkdirGate machine verdict umask path mode
  | mkdirat dirfd path mode => mkdiratGate machine verdict umask dirfd path mode

def mode : MkdirCall → BitVec 32
  | mkdir _ mode => mode
  | mkdirat _ _ mode => mode

/-- The name of the new directory. -/
def ref : MkdirCall → FileRef
  | mkdir path _ => .path atFdcwd path 0
  | mkdirat dirfd path _ => .path dirfd path 0

/-- The rights that the real call gets besides the mode. -/
def added (vperm : VpermState) : MkdirCall → BitVec 32
  | mkdir _ mode => (vpermMkdirPrepare vperm mode).2
  | mkdirat _ _ _ => 0

theorem run_eq (machine : Machine) (new : NewDirectory) (umask : BitVec 32) (call : MkdirCall) :
    call.run machine (.ok new) umask =
      mkdirGatesDone
        ⟨machine.vperm.initializeIds,
          { resolve := Function.update machine.files.resolve call.ref (.ok new.inode)
            attributes := Function.update machine.files.attributes new.inode
              (new.attributes umask (call.mode ||| call.added machine.vperm)) }⟩
        (.ok ()) call.ref call.mode (vpermMkdirPrepare machine.vperm call.mode).2 := by
  cases call with
  | mkdir path mode => rfl
  | mkdirat dirfd path mode =>
    have same : mode ||| 0 = mode := BitVec.or_zero
    show mkdiratGate machine (.ok new) umask dirfd path mode = _
    simp only [added, MkdirCall.mode, same]
    rfl

end MkdirCall

/-! ## New directories -/

section Mkdir

variable {machine : Machine} {new : NewDirectory} {umask : BitVec 32} {call : MkdirCall}
  {vperm : VpermState} {after : Machine}

theorem vpermMkdirPrepare_forced (root : vperm.simulatesRootFs = true) (mode : BitVec 32) :
    (vpermMkdirPrepare vperm mode).2 = if mode &&& 0o700#32 ≠ 0o700#32 then 0o700#32 else 0 :=
  if_pos root

theorem virtualized_initializeIds (root : vperm.simulatesRootFs = true) :
    vpermUidOrGidVirtualizationIsActive vperm.initializeIds.source vperm.initializeIds.ids =
      true := by
  rw [VpermState.simulatesRootFs, Bool.and_eq_true, Bool.and_eq_true] at root
  rw [← root.1.1, vpermUidOrGidVirtualizationIsActive, VpermState.initializeIds]
  dsimp only
  rw [initializeSimulatedIds_of_initialized initializeSimulatedIds_initialized]
  rfl

structure MkdirDone (machine after : Machine) (new : NewDirectory) (umask : BitVec 32)
    (call : MkdirCall) : Prop where
  visible : after.vperm.db.Reveals new.inode
  real : after.realMode new.inode =
    (new.attributes umask (call.mode ||| call.added machine.vperm)).mode
  kept : call.mode &&& 0o700#32 = 0o700#32 →
    (after.record new.inode).shownMode = (machine.record new.inode).shownMode
  hidden : call.mode &&& 0o700#32 ≠ 0o700#32 →
    (after.record new.inode).shownMode (after.realMode new.inode) &&& permBits =
      call.mode &&& permBits

theorem mkdirCall_done (root : machine.vperm.simulatesRootFs = true)
    (visible : machine.vperm.db.Reveals new.inode) :
    MkdirDone machine (call.run machine (.ok new) umask).1 new umask call := by
  rw [MkdirCall.run_eq, mkdirGatesDone]
  simp only [if_pos (virtualized_initializeIds root), vpermMkdirPrepare_forced root]
  generalize made : (⟨Function.update machine.files.resolve call.ref (.ok new.inode),
    Function.update machine.files.attributes new.inode
      (new.attributes umask (call.mode ||| call.added machine.vperm))⟩ : RealFiles) = files
  have real : files.attributes new.inode =
      new.attributes umask (call.mode ||| call.added machine.vperm) := by
    rw [← made]
    exact Function.update_self ..
  have stat : files.stat call.ref = .ok (files.statOf new.inode) := by
    refine files.stat_of_resolve ?_
    rw [← made]
    exact Function.update_self ..
  -- First the owner and group are recorded, which changes nothing about the mode.
  generalize chowned : vpermChown machine.vperm.initializeIds.initializeIds
    (files.statOf new.inode)
    (vpermGeteuid machine.vperm.initializeIds.source machine.vperm.initializeIds.ids)
    (vpermGetegid machine.vperm.initializeIds.source machine.vperm.initializeIds.ids) = owned
  have setOwner : vpermSetOwnerAndGroup ⟨machine.vperm.initializeIds, files⟩ call.ref =
      ⟨owned, files⟩ := by
    rw [vpermSetOwnerAndGroup, ← chowned]
    simp only [stat]
  have ownedVisible : owned.db.Reveals new.inode := by
    rw [← chowned]
    exact vpermChown_reveals machine.vperm.initializeIds.initializeIds (files.statOf new.inode) _ _
      visible
  have ownedMode : (recordOr new.inode (owned.db.lookUp new.inode)).shownMode =
      (machine.record new.inode).shownMode := by
    rw [← chowned]
    exact (vpermChown_changed machine.vperm.initializeIds.initializeIds (files.statOf new.inode)
      _ _).mode
  simp only [setOwner]
  by_cases full : call.mode &&& 0o700#32 = 0o700#32
  · simp only [full, ne_eq, not_true_eq_false, if_false]
    exact ⟨ownedVisible, congrArg FileAttributes.mode real, fun _ => ownedMode,
      fun lacks => absurd full lacks⟩
  · have finalized : vpermMkdirFinalize ⟨owned, files⟩ call.ref call.mode 0o700#32 =
        (⟨vpermChmod owned (files.statOf new.inode) call.mode 0, files⟩, true) := by
      rw [vpermMkdirFinalize, if_pos (by decide)]
      simp only [stat]
    have record : (⟨vpermChmod owned (files.statOf new.inode) call.mode 0, files⟩ : Machine).record
        new.inode = chmodRecord (owned.db.lookUp new.inode) (files.statOf new.inode) call.mode 0 :=
      vpermChmod_lookUp owned (files.statOf new.inode) call.mode 0
    have forced : (0o700#32 : BitVec 32) ≠ 0 := by decide
    simp only [if_pos full, if_pos forced, finalized]
    refine ⟨?_, congrArg FileAttributes.mode real, fun all => absurd all full, fun _ => ?_⟩
    · have visible : owned.db.Reveals (files.statOf new.inode).inode := ownedVisible
      exact vpermChmod_reveals visible call.mode 0
    · rw [record]
      exact chmodRecord_perm _ BitVec.zero_and

/-- A umask that leaves the owner alone leaves the owner's rights as they are given. -/
theorem NewDirectory.attributes_rights (new : NewDirectory) (mode : BitVec 32)
    (owner : umask &&& 0o700#32 = 0) :
    (new.attributes umask mode).mode &&& 0o700#32 = mode &&& 0o700#32 := by
  have passes := MaskedBits.not_and_eq_of_and_eq_zero owner
  have perm : permBits &&& 0o700#32 = 0o700#32 := rfl
  have sgid : (if new.sgid then sIsgid else 0) &&& 0o700#32 = 0 := by cases new.sgid <;> rfl
  rw [NewDirectory.attributes, BitVec.and_or_distrib_right, BitVec.and_or_distrib_right, sgid,
    BitVec.and_assoc, perm, BitVec.and_assoc, passes]
  simp

theorem NewDirectory.attributes_perm (new : NewDirectory) (umask mode : BitVec 32) :
    (new.attributes umask mode).mode &&& permBits = mode &&& ~~~umask &&& permBits := by
  have sgid : (if new.sgid then sIsgid else 0) &&& permBits = 0 := by cases new.sgid <;> rfl
  rw [NewDirectory.attributes, BitVec.and_or_distrib_right, BitVec.and_or_distrib_right, sgid,
    BitVec.and_assoc, BitVec.and_self]
  simp [permBits]

theorem forced_rights (mode : BitVec 32) :
    (mode ||| if mode &&& 0o700#32 ≠ 0o700#32 then 0o700#32 else 0) &&& 0o700#32 = 0o700#32 := by
  rw [BitVec.and_or_distrib_right]
  by_cases full : mode &&& 0o700#32 = 0o700#32
  · rw [if_neg (not_not.2 full), full]
    rfl
  · rw [if_pos full]
    ext i hi
    simp only [BitVec.getElem_or, BitVec.getElem_and]
    cases (0o700#32 : BitVec 32)[i] <;> simp

def MkdirCall.passesRights : MkdirCall → Bool
  | mkdir _ _ => true
  | mkdirat _ _ _ => false

theorem MkdirDone.rights_iff (done : MkdirDone machine after new umask call)
    (root : machine.vperm.simulatesRootFs = true) (owner : umask &&& 0o700#32 = 0) :
    after.realMode new.inode &&& 0o700#32 = 0o700#32 ↔
      call.passesRights = true ∨ call.mode &&& 0o700#32 = 0o700#32 := by
  rw [done.real, new.attributes_rights _ owner]
  cases call with
  | mkdir path mode =>
    refine iff_of_true ?_ (.inl rfl)
    show (mode ||| (vpermMkdirPrepare machine.vperm mode).2) &&& 0o700#32 = _
    rw [vpermMkdirPrepare_forced root]
    exact forced_rights mode
  | mkdirat dirfd path mode =>
    have same : mode ||| 0 = mode := BitVec.or_zero
    show (mode ||| 0) &&& 0o700#32 = _ ↔ false = true ∨ _
    rw [same, or_iff_right Bool.false_ne_true]
    rfl

theorem MkdirDone.shown_perm (done : MkdirDone machine after new umask call)
    (root : machine.vperm.simulatesRootFs = true) :
    (after.shown new.inode).mode &&& permBits =
      (if call.mode &&& 0o700#32 ≠ 0o700#32 then call.mode
        else if (machine.record new.inode).activeFields &&& simMode ≠ 0 then
          (machine.record new.inode).mode
        else call.mode &&& ~~~umask) &&& permBits := by
  rw [Machine.shown_mode done.visible]
  by_cases full : call.mode &&& 0o700#32 = 0o700#32
  · have nothing : call.added machine.vperm = 0 := by
      cases call with
      | mkdir path mode =>
        exact (vpermMkdirPrepare_forced root mode).trans (if_neg (not_not.2 full))
      | mkdirat dirfd path mode => rfl
    have same : call.mode ||| 0 = call.mode := BitVec.or_zero
    rw [if_neg (not_not.2 full), done.kept full, InodeSimu.shownMode_perm]
    split
    · rfl
    · rw [done.real, nothing, same, new.attributes_perm]
  · rw [if_pos full, done.hidden full]

end Mkdir

/-! ## All calls -/

theorem realModeAfter_rights_iff {machine : Machine} {inode : Inode}
    (root : machine.vperm.simulatesRootFs = true)
    (directory : sIsdir (machine.realMode inode) = true) (verdict : Except Errno Unit)
    (mode : BitVec 32) :
    machine.realModeAfter inode verdict mode &&& 0o700#32 = 0o700#32 ↔
      (errnoOf verdict = none ∧ machine.isDevice inode = false) ∨
        machine.realMode inode &&& 0o700#32 = 0o700#32 := by
  rw [Machine.realModeAfter]
  split
  next changes =>
    refine iff_of_true ?_ (.inl changes)
    have forced : machine.forcedOwnerRights inode mode =
        if mode &&& 0o700#32 ≠ 0o700#32 then 0o700#32 else 0 := by
      rw [Machine.forcedOwnerRights, if_pos root]
      exact if_congr (and_iff_right directory) rfl rfl
    have rights (added : BitVec 32) :
        (machine.realMode inode &&& sIfmt |||
          (mode &&& ~~~(sIsuid ||| sIsgid) ||| added) &&& sIallugo) &&& 0o700#32 =
            (mode ||| added) &&& 0o700#32 := by
      simp [BitVec.and_or_distrib_right, BitVec.and_assoc, sIfmt, sIallugo, sIsuid, sIsgid]
    rw [rights, forced, forced_rights]
  next keeps => exact (or_iff_right keeps).symm

/-- Directories of a simulated root. A `chmod` gives the directory the owner's rights if the
operating system lets it; the permissions that are shown are those that were asked for, and the
set-id bits as for other files. `mkdir` gives these rights, and `mkdirat` only those it was
asked for. If rights are missing in the mode, it is shown as it was asked for; otherwise it is
shown with the umask, unless there is a mode in the records already. -/
theorem simulated_root_directories (machine : Machine)
    (root : machine.vperm.simulatesRootFs = true) (fits : machine.vperm.db.stored < 2 ^ 32) :
    (∀ (call : ChmodCall) (verdict : Except Errno Unit) (inode : Inode),
      machine.files.resolve call.ref = .ok inode → sIsdir (machine.realMode inode) = true →
      (call.run machine verdict).2 = .ok () →
      let after := (call.run machine verdict).1
      (after.realMode inode &&& 0o700#32 = 0o700#32 ↔
        (errnoOf verdict = none ∧ machine.isDevice inode = false) ∨
          machine.realMode inode &&& 0o700#32 = 0o700#32) ∧
      (after.shown inode).mode &&& permBits = call.mode &&& permBits ∧
      ((after.shown inode).mode &&& (sIsuid ||| sIsgid) = call.mode &&& (sIsuid ||| sIsgid) ↔
        machine.ShowsBits inode verdict call.mode)) ∧
    ∀ (call : MkdirCall) (new : NewDirectory) (umask : BitVec 32), umask &&& 0o700#32 = 0 →
      let after := (call.run machine (.ok new) umask).1
      (after.realMode new.inode &&& 0o700#32 = 0o700#32 ↔
        call.passesRights = true ∨ call.mode &&& 0o700#32 = 0o700#32) ∧
      (after.shown new.inode).mode &&& permBits =
        (if call.mode &&& 0o700#32 ≠ 0o700#32 then call.mode
          else if (machine.record new.inode).activeFields &&& simMode ≠ 0 then
            (machine.record new.inode).mode
          else call.mode &&& ~~~umask) &&& permBits := by
  constructor
  · intro call verdict inode target directory success after
    have visible : machine.vperm.db.Reveals inode := VpermDb.reveals fits inode
    have done : ChmodDone machine after inode verdict call.mode := by
      show ChmodDone machine (call.run machine verdict).1 inode verdict call.mode
      rw [ChmodCall.run_eq] at success ⊢
      exact chmodGates_done target visible success
    refine ⟨?_, done.perm, ?_⟩
    · rw [done.real]
      exact realModeAfter_rights_iff root directory verdict call.mode
    · rw [done.suidSgid_iff, done.real, showsBits_iff]
  · intro call new umask owner after
    have done : MkdirDone machine after new umask call :=
      mkdirCall_done root (VpermDb.reveals fits new.inode)
    exact ⟨done.rights_iff root owner, done.shown_perm root⟩

def simulatedRoot : IdSource :=
  ⟨some ['u', '0', ':', '0', ':', '0', ':', '0'], 1000, 1000, 1000, 1000⟩

def newDirectory : NewDirectory := ⟨(1, 2), 1000, 1000, false⟩

/-- A directory that only its group may use: the owner gets all rights, and 0070 is shown. -/
theorem hidden_rights :
    let machine := oneFile simulatedRoot 0o040755
    let after := ((ChmodCall.chmod ['d'] 0o070).run machine (.ok ())).1
    let made := ((MkdirCall.mkdir ['e'] 0o070).run machine (.ok newDirectory) 0).1
    (after.realMode (1, 1) &&& 0o700#32 = 0o700#32 ∧
      (after.shown (1, 1)).mode &&& permBits = 0o070 &&& permBits) ∧
    made.realMode (1, 2) &&& 0o700#32 = 0o700#32 ∧
      (made.shown (1, 2)).mode &&& permBits = 0o070 &&& permBits := by
  have all := simulated_root_directories (oneFile simulatedRoot 0o040755) (by decide +kernel)
    (by decide +kernel)
  obtain ⟨rights, perm, -⟩ := all.1 (.chmod ['d'] 0o070) (.ok ()) (1, 1) rfl (by decide +kernel)
    (by decide +kernel)
  obtain ⟨madeRights, madePerm⟩ := all.2 (.mkdir ['e'] 0o070) newDirectory 0 (by decide)
  exact ⟨⟨rights.2 (.inr (by decide +kernel)), perm⟩, madeRights.2 (.inl rfl), madePerm⟩

/-- A directory made with `mkdirat` lacks rights; one made with `mkdir` is shown without the umask
022; and the rights of a directory that belongs to someone else are missing as before. -/
theorem directory_without_rights :
    let machine := oneFile simulatedRoot 0o040055
    machine.vperm.simulatesRootFs = true ∧ machine.vperm.db.stored < 2 ^ 32 ∧
    (let made := (MkdirCall.mkdirat 5 ['e'] 0o070).run machine (.ok newDirectory) 0;
      made.2 = .ok () ∧ made.1.realMode (1, 2) = 0o040070) ∧
    (let made := (MkdirCall.mkdir ['e'] 0o077).run machine (.ok newDirectory) 0o022;
      made.2 = .ok () ∧ (made.1.shown (1, 2)).mode = 0o040077) ∧
    let after := (ChmodCall.chmod ['d'] 0o755).run machine (.error .EPERM)
    after.2 = .ok () ∧ after.1.realMode (1, 1) = 0o040055 := by
  decide +kernel

end Scratchbox
