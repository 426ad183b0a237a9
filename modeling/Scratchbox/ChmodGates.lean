import Scratchbox.VpermStat

/-!
# `chmod` and the mode that is shown

The gates of `chmod`, `fchmod` and `fchmodat` in `vperm_filestatgates.c`. A mode with set-id bits,
and one that the operating system refuses, is recorded in the database.

After a call that succeeds, `stat` shows the mode that was asked for except in two cases
(`chmod_shows_mode_iff`): recorded set-id bits can not be released, and permissions that are only
recorded hide set-id bits that the file really has.
-/

namespace Scratchbox

open Machine

/-! ## The gates -/

def sIsdir (mode : BitVec 32) : Bool := mode &&& sIfmt == 0o040000#32

/-- The mode bits that `chmod` can set. -/
def sIallugo : BitVec 32 := 0o7777#32

/-- The command that `vperm_chmod` sends. -/
def vpermChmodCommand (buf : Stat) (virtMode suidSgidBits : BitVec 32) : FileinfoCommand :=
  if buf.mode &&& ~~~(sIfmt ||| sIsuid ||| sIsgid) ≠
      virtMode &&& ~~~(sIfmt ||| sIsuid ||| sIsgid) ∨
      buf.mode &&& (sIsuid ||| sIsgid) ≠ suidSgidBits then
    ruletreeRpcVpermSetMode buf.dev buf.ino buf.mode
      (virtMode &&& ~~~(sIfmt ||| sIsuid ||| sIsgid)) (suidSgidBits &&& (sIsuid ||| sIsgid))
  else ruletreeRpcVpermReleaseMode buf.dev buf.ino

def vpermChmod (vperm : VpermState) (buf : Stat) (virtMode suidSgidBits : BitVec 32) :
    VpermState :=
  vperm.send (vpermChmodCommand buf virtMode suidSgidBits)

/-- `vperm_chmod_if_simulated_device`, with `true` for a result of `0`. -/
def vpermChmodIfSimulatedDevice (vperm : VpermState) (buf : Stat) (mode suidSgidBits : BitVec 32) :
    VpermState × Bool :=
  let found := vperm.db.find buf.inode
  let vperm := { vperm with db := found.1 }
  match found.2 with
  | some istat =>
    if istat.activeFields &&& simDevnode ≠ 0 then (vpermChmod vperm buf mode suidSgidBits, true)
    else (vperm, false)
  | none => (vperm, false)

/-- The condition for the simulation of root's permissions: ids are virtualized, and the
simulated user is root. -/
def VpermState.simulatesRootFs (vperm : VpermState) : Bool :=
  vpermUidOrGidVirtualizationIsActive vperm.source vperm.ids &&
    vpermGeteuid vperm.source vperm.ids == 0 &&
    vpermSimulateRootFsPermissions vperm.source vperm.ids

/-- What `vperm_chmod_prepare` leaves. -/
structure ChmodPrepared where
  vperm : VpermState
  forcedOwnerRights : BitVec 32
  returnZeroNow : Bool

def vpermChmodPrepare (machine : Machine) (ref : FileRef) (mode suidSgidBits : BitVec 32) :
    ChmodPrepared :=
  let device : VpermState × Bool :=
    if 0 < machine.vperm.db.numActiveInodestats then
      match machine.files.stat ref with
      | .ok buf => vpermChmodIfSimulatedDevice machine.vperm buf mode suidSgidBits
      | .error _ => (machine.vperm, false)
    else (machine.vperm, false)
  if device.2 then ⟨device.1, 0, true⟩
  else
    let forced : BitVec 32 :=
      if device.1.simulatesRootFs then
        match machine.files.stat ref with
        | .ok buf => if sIsdir buf.mode ∧ mode &&& 0o700#32 ≠ 0o700#32 then 0o700#32 else 0
        | .error _ => 0
      else 0
    ⟨device.1.initializeIds, forced, false⟩

/-- The real `chmod`, `fchmod` and `fchmodat`. Whether it is permitted is for the operating
system to say. -/
def RealFiles.chmod (files : RealFiles) (ref : FileRef) (verdict : Except Errno Unit)
    (mode : BitVec 32) : RealFiles × Except Errno Unit :=
  match files.resolve ref, verdict with
  | .error err, _ => (files, .error err)
  | .ok _, .error err => (files, .error err)
  | .ok inode, .ok () =>
    (files.change inode fun file =>
      { file with mode := file.mode &&& sIfmt ||| mode &&& sIallugo }, .ok ())

/-- `vperm_chmod_done_update_state`. An error has the `errno` of the real call, which is `0`
if that did not fail. -/
def vpermChmodDoneUpdateState (machine : Machine) (res : Except Errno Unit) (ref : FileRef)
    (mode suidSgidBits forcedOwnerRights : BitVec 32) : Machine × Except (Option Errno) Unit :=
  if suidSgidBits ≠ 0 ∨ forcedOwnerRights ≠ 0 ∨ errnoOf res = some .EPERM ∨
      errnoOf res = none ∧ 0 < machine.vperm.db.numActiveInodestats then
    match machine.files.stat ref with
    | .ok buf => ({ machine with vperm := vpermChmod machine.vperm buf mode suidSgidBits }, .ok ())
    | .error _ => (machine, .error (errnoOf res))
  else (machine, res.mapError some)

/-- The body of the three gates, for a file that is named in the same way in all calls. -/
def chmodGates (machine : Machine) (ref : FileRef) (verdict : Except Errno Unit)
    (mode : BitVec 32) : Machine × Except (Option Errno) Unit :=
  -- "separate SUID and SGID bits from mode. Never set real SUID/SGID bits."
  let suidSgidBits := mode &&& (sIsuid ||| sIsgid)
  let mode := mode &&& ~~~(sIsuid ||| sIsgid)
  let prepared := vpermChmodPrepare machine ref mode suidSgidBits
  if prepared.returnZeroNow then ({ machine with vperm := prepared.vperm }, .ok ())
  else
    let real := machine.files.chmod ref verdict (mode ||| prepared.forcedOwnerRights)
    vpermChmodDoneUpdateState ⟨prepared.vperm, real.1⟩ real.2 ref mode suidSgidBits
      prepared.forcedOwnerRights

def fchmodatGate (machine : Machine) (verdict : Except Errno Unit) (dirfd : Int) (path : CStr)
    (mode : BitVec 32) (flags : Nat) : Machine × Except (Option Errno) Unit :=
  chmodGates machine (.path dirfd path flags) verdict mode

def fchmodGate (machine : Machine) (verdict : Except Errno Unit) (fd : Int) (mode : BitVec 32) :
    Machine × Except (Option Errno) Unit :=
  chmodGates machine (.descriptor fd) verdict mode

def chmodGate (machine : Machine) (verdict : Except Errno Unit) (path : CStr) (mode : BitVec 32) :
    Machine × Except (Option Errno) Unit :=
  chmodGates machine (.path atFdcwd path 0) verdict mode

inductive ChmodCall
  | chmod (path : CStr) (mode : BitVec 32)
  | fchmod (fd : Int) (mode : BitVec 32)
  | fchmodat (dirfd : Int) (path : CStr) (mode : BitVec 32) (flags : Nat)

namespace ChmodCall

def run (machine : Machine) (verdict : Except Errno Unit) :
    ChmodCall → Machine × Except (Option Errno) Unit
  | chmod path mode => chmodGate machine verdict path mode
  | fchmod fd mode => fchmodGate machine verdict fd mode
  | fchmodat dirfd path mode flags => fchmodatGate machine verdict dirfd path mode flags

def mode : ChmodCall → BitVec 32
  | chmod _ mode => mode
  | fchmod _ mode => mode
  | fchmodat _ _ mode _ => mode

def ref : ChmodCall → FileRef
  | chmod path _ => .path atFdcwd path 0
  | fchmod fd _ => .descriptor fd
  | fchmodat dirfd path _ flags => .path dirfd path flags

theorem run_eq (machine : Machine) (verdict : Except Errno Unit) (call : ChmodCall) :
    call.run machine verdict = chmodGates machine call.ref verdict call.mode := by
  cases call <;> rfl

end ChmodCall

/-! ## The record after `vperm_chmod` -/

section Record

variable (istat : InodeSimu) {info : InodeSimu}

/-- Setting permissions or set-id bits sets both, and makes the permissions active. -/
theorem InodeSimu.set_mode (touches : info.activeFields &&& (simMode ||| simSuidsgid) ≠ 0) :
    (istat.set info).mode = info.mode ∧ (istat.set info).suidsgid = info.suidsgid ∧
      (istat.set info).activeFields &&& simMode ≠ 0 ∧
      (istat.set info).activeFields &&& simSuidsgid = info.activeFields &&& simSuidsgid := by
  unfold InodeSimu.set
  dsimp only
  simp only [if_pos touches]
  split_ifs <;> simp [BitVec.and_or_distrib_right, BitVec.and_assoc, simUid, simGid, simMode,
    simDevnode, simSuidsgid]

theorem InodeSimu.set_device (untouched : info.activeFields &&& simDevnode = 0) :
    (istat.set info).devmode = istat.devmode ∧ (istat.set info).rdev = istat.rdev ∧
      (istat.set info).activeFields &&& simDevnode = istat.activeFields &&& simDevnode := by
  unfold InodeSimu.set
  dsimp only
  simp only [if_neg (not_not.2 untouched)]
  split_ifs <;> simp [BitVec.and_or_distrib_right, BitVec.and_assoc, simUid, simGid, simMode,
    simDevnode, simSuidsgid]

theorem InodeSimu.release_mode (dev ino : BitVec 64) :
    istat.release { dev := dev, ino := ino, activeFields := simMode ||| simSuidsgid } =
      { istat with activeFields := istat.activeFields &&& ~~~simMode } := by
  simp [InodeSimu.release, InodeSimu.releaseField, simUid, simGid, simMode, simDevnode,
    simSuidsgid]

variable {old : Option InodeSimu} {buf : Stat} {virtMode suidSgidBits : BitVec 32}

def SamePerms (buf : Stat) (virtMode : BitVec 32) : Prop :=
  buf.mode &&& ~~~(sIfmt ||| sIsuid ||| sIsgid) = virtMode &&& ~~~(sIfmt ||| sIsuid ||| sIsgid)

instance : Decidable (SamePerms buf virtMode) := inferInstanceAs (Decidable (_ = _))

/-- The record after `vperm_chmod`. -/
def chmodRecord (old : Option InodeSimu) (buf : Stat) (virtMode suidSgidBits : BitVec 32) :
    InodeSimu :=
  recordOr buf.inode ((vpermChmodCommand buf virtMode suidSgidBits).apply old)

structure ModeRecorded (new old : InodeSimu) (buf : Stat) (virtMode suidSgidBits : BitVec 32) :
    Prop where
  mode : new.mode = virtMode &&& ~~~(sIfmt ||| sIsuid ||| sIsgid)
  suidsgid : new.suidsgid = suidSgidBits &&& (sIsuid ||| sIsgid)
  simMode : new.activeFields &&& simMode ≠ 0 ∨
    buf.mode &&& ~~~(sIsuid ||| sIsgid) = new.mode &&& ~~~(sIsuid ||| sIsgid)
  simSuidsgid : new.activeFields &&& simSuidsgid ≠ 0 ↔
    suidSgidBits &&& (sIsuid ||| sIsgid) ≠ buf.mode &&& (sIsuid ||| sIsgid)
  simDevnode : new.activeFields &&& simDevnode = old.activeFields &&& simDevnode
  devmode : new.devmode = old.devmode

section SetMode

variable (dev ino : BitVec 64) (realMode virt bits : BitVec 32)

theorem setMode_simMode :
    (ruletreeRpcVpermSetMode dev ino realMode virt bits).fileinfo.activeFields &&& simMode ≠ 0 ↔
      realMode &&& ~~~(sIsuid ||| sIsgid) ≠ virt &&& ~~~(sIsuid ||| sIsgid) := by
  dsimp only [ruletreeRpcVpermSetMode, FileinfoCommand.fileinfo]
  split_ifs <;> simp_all [simMode, simSuidsgid]

theorem setMode_simSuidsgid :
    (ruletreeRpcVpermSetMode dev ino realMode virt bits).fileinfo.activeFields &&& simSuidsgid ≠ 0 ↔
      bits ≠ realMode &&& (sIsuid ||| sIsgid) := by
  dsimp only [ruletreeRpcVpermSetMode, FileinfoCommand.fileinfo]
  split_ifs <;> simp_all [simMode, simSuidsgid]

theorem setMode_simDevnode :
    (ruletreeRpcVpermSetMode dev ino realMode virt bits).fileinfo.activeFields &&& simDevnode =
      0 := by
  dsimp only [ruletreeRpcVpermSetMode, FileinfoCommand.fileinfo]
  split_ifs <;> rfl

end SetMode

theorem differs_of_not_samePerms (differ : ¬ SamePerms buf virtMode) :
    buf.mode &&& ~~~(sIsuid ||| sIsgid) ≠
      virtMode &&& ~~~(sIfmt ||| sIsuid ||| sIsgid) &&& ~~~(sIsuid ||| sIsgid) := by
  intro same
  apply differ
  rw [SamePerms, MaskedBits.and_eq_of_part (by decide) same, BitVec.and_assoc, BitVec.and_self]

theorem modeRecorded_setMode (old : Option InodeSimu) (touches : ¬ SamePerms buf virtMode ∨
      suidSgidBits &&& (sIsuid ||| sIsgid) ≠ buf.mode &&& (sIsuid ||| sIsgid)) :
    ModeRecorded (recordOr buf.inode
      ((ruletreeRpcVpermSetMode buf.dev buf.ino buf.mode
        (virtMode &&& ~~~(sIfmt ||| sIsuid ||| sIsgid))
        (suidSgidBits &&& (sIsuid ||| sIsgid))).apply old)) (recordOr buf.inode old) buf virtMode
      suidSgidBits := by
  let command := ruletreeRpcVpermSetMode buf.dev buf.ino buf.mode
    (virtMode &&& ~~~(sIfmt ||| sIsuid ||| sIsgid)) (suidSgidBits &&& (sIsuid ||| sIsgid))
  have sentMode := setMode_simMode buf.dev buf.ino buf.mode
    (virtMode &&& ~~~(sIfmt ||| sIsuid ||| sIsgid)) (suidSgidBits &&& (sIsuid ||| sIsgid))
  have sentBits := setMode_simSuidsgid buf.dev buf.ino buf.mode
    (virtMode &&& ~~~(sIfmt ||| sIsuid ||| sIsgid)) (suidSgidBits &&& (sIsuid ||| sIsgid))
  have sentDevice := setMode_simDevnode buf.dev buf.ino buf.mode
    (virtMode &&& ~~~(sIfmt ||| sIsuid ||| sIsgid)) (suidSgidBits &&& (sIsuid ||| sIsgid))
  cases old with
  | none =>
    -- The new record is what was sent.
    refine ⟨rfl, rfl, ?_, sentBits, ?_, rfl⟩
    · exact or_iff_not_imp_left.2 fun clear => not_not.1 fun differ => clear (sentMode.2 differ)
    · exact sentDevice.trans BitVec.zero_and.symm
  | some istat =>
    have both : command.fileinfo.activeFields &&& (simMode ||| simSuidsgid) ≠ 0 := by
      rw [BitVec.and_or_distrib_left]
      intro zero
      obtain ⟨noMode, noBits⟩ := BitVec.or_eq_zero_iff.1 zero
      exact touches.elim (fun differ => sentMode.2 (differs_of_not_samePerms differ) noMode)
        fun differ => sentBits.2 differ noBits
    obtain ⟨mode, suidsgid, active, bits⟩ := istat.set_mode both
    obtain ⟨devmode, -, device⟩ := istat.set_device sentDevice
    refine ⟨mode, suidsgid, .inl active, ?_, device, devmode⟩
    show (istat.set command.fileinfo).activeFields &&& simSuidsgid ≠ 0 ↔ _
    rw [bits]
    exact sentBits

theorem chmodRecord_cases (old : Option InodeSimu)
    (bits : suidSgidBits &&& (sIsuid ||| sIsgid) = suidSgidBits) :
    (¬ (SamePerms buf virtMode ∧ buf.mode &&& (sIsuid ||| sIsgid) = suidSgidBits) ∧
      ModeRecorded (chmodRecord old buf virtMode suidSgidBits) (recordOr buf.inode old) buf virtMode
        suidSgidBits) ∨
    (SamePerms buf virtMode ∧ buf.mode &&& (sIsuid ||| sIsgid) = suidSgidBits) ∧
      chmodRecord old buf virtMode suidSgidBits = { recordOr buf.inode old with
        activeFields := (recordOr buf.inode old).activeFields &&& ~~~simMode } := by
  by_cases same : SamePerms buf virtMode ∧ buf.mode &&& (sIsuid ||| sIsgid) = suidSgidBits
  · right
    refine ⟨same, ?_⟩
    have sent : vpermChmodCommand buf virtMode suidSgidBits =
        ruletreeRpcVpermReleaseMode buf.dev buf.ino :=
      if_neg (not_or.2 ⟨not_not.2 same.1, not_not.2 same.2⟩)
    rw [chmodRecord, sent]
    cases old with
    | none =>
      have zero : (0 : BitVec 32) &&& ~~~simMode = 0 := BitVec.zero_and
      show recordOr buf.inode none = _
      simp only [recordOr, Option.getD_none, zero]
    | some istat => exact istat.release_mode buf.dev buf.ino
  · left
    have differ := not_and_or.1 same
    have sent : vpermChmodCommand buf virtMode suidSgidBits =
        ruletreeRpcVpermSetMode buf.dev buf.ino buf.mode
          (virtMode &&& ~~~(sIfmt ||| sIsuid ||| sIsgid)) (suidSgidBits &&& (sIsuid ||| sIsgid)) :=
      if_pos differ
    rw [chmodRecord, sent]
    refine ⟨same, modeRecorded_setMode old (differ.imp_right fun other => ?_)⟩
    rw [bits]
    exact Ne.symm other

/-- The permissions that are shown after `vperm_chmod` are those that were asked for. -/
theorem chmodRecord_perm (old : Option InodeSimu)
    (bits : suidSgidBits &&& (sIsuid ||| sIsgid) = suidSgidBits) :
    (chmodRecord old buf virtMode suidSgidBits).shownMode buf.mode &&& permBits =
      virtMode &&& permBits := by
  rw [InodeSimu.shownMode_perm]
  rcases chmodRecord_cases old bits with ⟨-, recorded⟩ | ⟨⟨same, -⟩, released⟩
  · have sent : (chmodRecord old buf virtMode suidSgidBits).mode &&& permBits =
        virtMode &&& permBits := by
      rw [recorded.mode, BitVec.and_assoc]
      rfl
    by_cases active : (chmodRecord old buf virtMode suidSgidBits).activeFields &&& simMode = 0
    · rw [if_neg (not_not.2 active), ← sent]
      exact MaskedBits.and_eq_of_part (by decide) (recorded.simMode.resolve_left (not_not.2 active))
    · rw [if_pos active, sent]
  · have clear : (chmodRecord old buf virtMode suidSgidBits).activeFields &&& simMode = 0 := by
      rw [released, BitVec.and_assoc]
      exact BitVec.and_zero
    rw [if_neg (not_not.2 clear)]
    exact MaskedBits.and_eq_of_part (by decide) same

theorem chmodRecord_type (old : Option InodeSimu)
    (bits : suidSgidBits &&& (sIsuid ||| sIsgid) = suidSgidBits) (mode : BitVec 32) :
    (chmodRecord old buf virtMode suidSgidBits).shownMode mode &&& sIfmt =
      (recordOr buf.inode old).shownMode mode &&& sIfmt := by
  rw [InodeSimu.shownMode_type, InodeSimu.shownMode_type]
  rcases chmodRecord_cases old bits with ⟨-, recorded⟩ | ⟨-, released⟩
  · rw [recorded.simDevnode, recorded.devmode]
  · have device : (chmodRecord old buf virtMode suidSgidBits).activeFields &&& simDevnode =
        (recordOr buf.inode old).activeFields &&& simDevnode := by
      rw [released, BitVec.and_assoc]
      rfl
    rw [device, released]

def RecordedBits (istat : InodeSimu) (suidSgidBits : BitVec 32) : Prop :=
  istat.activeFields &&& simSuidsgid ≠ 0 → istat.suidsgid &&& (sIsuid ||| sIsgid) = suidSgidBits

/-- The set-id bits that are shown after `vperm_chmod`. If the real ones are those that were
asked for, then nothing is recorded about them. -/
theorem chmodRecord_suidSgid_iff (old : Option InodeSimu) (buf : Stat) (virtMode : BitVec 32)
    (bits : suidSgidBits &&& (sIsuid ||| sIsgid) = suidSgidBits) :
    (chmodRecord old buf virtMode suidSgidBits).shownMode buf.mode &&& (sIsuid ||| sIsgid) =
        suidSgidBits ↔
      (buf.mode &&& (sIsuid ||| sIsgid) = suidSgidBits →
        if SamePerms buf virtMode then RecordedBits (recordOr buf.inode old) suidSgidBits
        else suidSgidBits = 0) := by
  rw [InodeSimu.shownMode_suidSgid]
  rcases chmodRecord_cases old bits with ⟨differ, recorded⟩ | ⟨⟨same, real⟩, released⟩
  · by_cases real : buf.mode &&& (sIsuid ||| sIsgid) = suidSgidBits
    · have perms : ¬ SamePerms buf virtMode := fun same => differ ⟨same, real⟩
      have clear : ¬ (chmodRecord old buf virtMode suidSgidBits).activeFields &&& simSuidsgid ≠ 0 :=
        fun active => recorded.simSuidsgid.1 active (bits.trans real.symm)
      have active : (chmodRecord old buf virtMode suidSgidBits).activeFields &&& simMode ≠ 0 := by
        refine recorded.simMode.resolve_right ?_
        rw [recorded.mode]
        exact differs_of_not_samePerms perms
      have none : (chmodRecord old buf virtMode suidSgidBits).mode &&& (sIsuid ||| sIsgid) = 0 := by
        rw [recorded.mode, BitVec.and_assoc]
        exact BitVec.and_zero
      rw [if_neg clear, if_pos active, if_neg perms, none, eq_comm]
      exact ⟨fun zero _ => zero, fun zero => zero real⟩
    · have active :
          (chmodRecord old buf virtMode suidSgidBits).activeFields &&& simSuidsgid ≠ 0 := by
        rw [recorded.simSuidsgid, bits]
        exact Ne.symm real
      rw [if_pos active, recorded.suidsgid, bits, bits]
      exact iff_of_true rfl fun asked => absurd asked real
  · have clear : (chmodRecord old buf virtMode suidSgidBits).activeFields &&& simMode = 0 := by
      rw [released, BitVec.and_assoc]
      exact BitVec.and_zero
    have stays : (chmodRecord old buf virtMode suidSgidBits).activeFields &&& simSuidsgid =
        (recordOr buf.inode old).activeFields &&& simSuidsgid := by
      rw [released, BitVec.and_assoc]
      rfl
    rw [if_neg (not_not.2 clear), stays, released, if_pos same, RecordedBits]
    by_cases active : (recordOr buf.inode old).activeFields &&& simSuidsgid = 0
    · rw [if_neg (not_not.2 active)]
      exact iff_of_true real fun _ still => absurd active still
    · rw [if_pos active]
      exact ⟨fun shown _ _ => shown, fun shown => shown real active⟩

end Record

/-! ## The gates -/

section Gates

variable {machine : Machine} {inode : Inode} {ref : FileRef} {verdict : Except Errno Unit}
  {vperm : VpermState} {mode : BitVec 32}

def Machine.isDevice (machine : Machine) (inode : Inode) : Bool :=
  (machine.record inode).activeFields &&& simDevnode != 0

/-- The owner rights that a directory gets for a simulated root. -/
def Machine.forcedOwnerRights (machine : Machine) (inode : Inode) (mode : BitVec 32) : BitVec 32 :=
  if machine.vperm.simulatesRootFs then
    if sIsdir (machine.files.attributes inode).mode ∧ mode &&& 0o700#32 ≠ 0o700#32 then 0o700#32
    else 0
  else 0

theorem vpermChmodCommand_inode (buf : Stat) (virtMode suidSgidBits : BitVec 32) :
    (vpermChmodCommand buf virtMode suidSgidBits).inode = buf.inode := by
  rw [vpermChmodCommand]
  split <;> rfl

theorem vpermChmod_lookUp (vperm : VpermState) (buf : Stat) (virtMode suidSgidBits : BitVec 32) :
    recordOr buf.inode ((vpermChmod vperm buf virtMode suidSgidBits).db.lookUp buf.inode) =
      chmodRecord (vperm.db.lookUp buf.inode) buf virtMode suidSgidBits := by
  have found := vperm.db.send_lookUp_self (vpermChmodCommand buf virtMode suidSgidBits)
  rw [vpermChmodCommand_inode] at found
  rw [chmodRecord, ← found]
  rfl

theorem vpermChmod_reveals {buf : Stat} (visible : vperm.db.Reveals buf.inode)
    (virtMode suidSgidBits : BitVec 32) :
    (vpermChmod vperm buf virtMode suidSgidBits).db.Reveals buf.inode := by
  rw [← vpermChmodCommand_inode buf virtMode suidSgidBits] at visible ⊢
  exact visible.send

theorem vpermChmodIfSimulatedDevice_eq (vperm : VpermState) (buf : Stat)
    (mode suidSgidBits : BitVec 32) :
    vpermChmodIfSimulatedDevice vperm buf mode suidSgidBits =
      let looked := { vperm with db := (vperm.db.find buf.inode).1 }
      if (recordOr buf.inode (vperm.db.lookUp buf.inode)).activeFields &&& simDevnode ≠ 0 then
        (vpermChmod looked buf mode suidSgidBits, true)
      else (looked, false) := by
  rw [vpermChmodIfSimulatedDevice]
  dsimp only
  rw [VpermDb.find_istat]
  cases vperm.db.lookUp buf.inode with
  | none => exact (if_neg (not_not.2 BitVec.zero_and)).symm
  | some istat => rfl

theorem vpermChmodPrepare_of_device (target : machine.files.resolve ref = .ok inode)
    (visible : machine.vperm.db.Reveals inode) (device : machine.isDevice inode = true)
    (mode suidSgidBits : BitVec 32) :
    ∃ vperm, machine.vperm.Alike vperm ∧ vpermChmodPrepare machine ref mode suidSgidBits =
      ⟨vpermChmod vperm (machine.files.statOf inode) mode suidSgidBits, 0, true⟩ := by
  have flag : (recordOr inode (machine.vperm.db.lookUp inode)).activeFields &&& simDevnode ≠ 0 :=
    bne_iff_ne.1 device
  have active : isActive (machine.vperm.db.lookUp inode) = true := by
    cases found : machine.vperm.db.lookUp inode with
    | none =>
      rw [found] at flag
      exact absurd BitVec.zero_and flag
    | some istat =>
      rw [isActive_some_iff]
      intro inactive
      rw [found] at flag
      refine flag (show istat.activeFields &&& simDevnode = 0 from ?_)
      rw [inactive]
      exact BitVec.zero_and
  have simulated := (vpermChmodIfSimulatedDevice_eq machine.vperm (machine.files.statOf inode) mode
    suidSgidBits).trans (if_pos flag)
  refine ⟨{ machine.vperm with db := (machine.vperm.db.find inode).1 }, ⟨rfl, rfl⟩, ?_⟩
  rw [vpermChmodPrepare]
  simp only [if_pos (visible active), machine.files.stat_of_resolve target, simulated, if_true]
  rfl

theorem vpermChmodPrepare_of_not_device (target : machine.files.resolve ref = .ok inode)
    (device : machine.isDevice inode = false) (mode suidSgidBits : BitVec 32) :
    ∃ vperm, machine.vperm.Alike vperm ∧ vpermChmodPrepare machine ref mode suidSgidBits =
      ⟨vperm, machine.forcedOwnerRights inode mode, false⟩ := by
  have flag :
      ¬ (recordOr inode (machine.vperm.db.lookUp inode)).activeFields &&& simDevnode ≠ 0 := by
    rw [← bne_iff_ne, Bool.not_eq_true]
    exact device
  by_cases counted : 0 < machine.vperm.db.numActiveInodestats
  · have real := (vpermChmodIfSimulatedDevice_eq machine.vperm (machine.files.statOf inode) mode
      suidSgidBits).trans (if_neg flag)
    refine ⟨VpermState.initializeIds { machine.vperm with db := (machine.vperm.db.find inode).1 },
      ⟨rfl, rfl⟩, ?_⟩
    rw [vpermChmodPrepare]
    simp only [if_pos counted, machine.files.stat_of_resolve target, real, Bool.false_eq_true,
      if_false]
    rfl
  · refine ⟨machine.vperm.initializeIds, ⟨rfl, rfl⟩, ?_⟩
    rw [vpermChmodPrepare]
    simp only [if_neg counted, machine.files.stat_of_resolve target, Bool.false_eq_true, if_false]
    rfl

def Machine.realMode (machine : Machine) (inode : Inode) : BitVec 32 :=
  (machine.files.attributes inode).mode

/-- The real mode after a call: set-id bits are removed, never set. -/
def Machine.realModeAfter (machine : Machine) (inode : Inode) (verdict : Except Errno Unit)
    (mode : BitVec 32) : BitVec 32 :=
  if errnoOf verdict = none ∧ machine.isDevice inode = false then
    machine.realMode inode &&& sIfmt |||
      (mode &&& ~~~(sIsuid ||| sIsgid) ||| machine.forcedOwnerRights inode mode) &&& sIallugo
  else machine.realMode inode

theorem realModeAfter_type (machine : Machine) (inode : Inode) (verdict : Except Errno Unit)
    (mode : BitVec 32) :
    machine.realModeAfter inode verdict mode &&& sIfmt = machine.realMode inode &&& sIfmt := by
  rw [realModeAfter]
  split
  · simp [BitVec.and_or_distrib_right, BitVec.and_assoc, sIfmt, sIallugo]
  · rfl

theorem forcedOwnerRights_virt (machine : Machine) (inode : Inode) (mode : BitVec 32) :
    machine.forcedOwnerRights inode (mode &&& ~~~(sIsuid ||| sIsgid)) =
      machine.forcedOwnerRights inode mode := by
  have same : mode &&& ~~~(sIsuid ||| sIsgid) &&& 0o700#32 = mode &&& 0o700#32 := by
    rw [BitVec.and_assoc]
    rfl
  rw [forcedOwnerRights, same, forcedOwnerRights]

/-- The state after a call that succeeded: the record was updated, or there is none that is
active and the real mode is the one that was asked for. -/
structure ChmodDone (machine after : Machine) (inode : Inode) (verdict : Except Errno Unit)
    (mode : BitVec 32) : Prop where
  visible : after.vperm.db.Reveals inode
  real : after.realMode inode = machine.realModeAfter inode verdict mode
  record : after.record inode = chmodRecord (machine.vperm.db.lookUp inode)
      (after.files.statOf inode) (mode &&& ~~~(sIsuid ||| sIsgid)) (mode &&& (sIsuid ||| sIsgid)) ∨
    after.record inode = machine.record inode ∧ (machine.record inode).activeFields = 0 ∧
      mode &&& (sIsuid ||| sIsgid) = 0 ∧
      after.realMode inode &&& sIallugo = mode &&& ~~~(sIsuid ||| sIsgid) &&& sIallugo

theorem chmodDone_of_vpermChmod {files : RealFiles} (alike : machine.vperm.Alike vperm)
    (visible : machine.vperm.db.Reveals inode)
    (real : (files.attributes inode).mode = machine.realModeAfter inode verdict mode) :
    ChmodDone machine ⟨vpermChmod vperm (files.statOf inode) (mode &&& ~~~(sIsuid ||| sIsgid))
      (mode &&& (sIsuid ||| sIsgid)), files⟩ inode verdict mode where
  visible := by
    have visible : vperm.db.Reveals (files.statOf inode).inode := alike.reveals visible
    have still := vpermChmod_reveals visible (mode &&& ~~~(sIsuid ||| sIsgid))
      (mode &&& (sIsuid ||| sIsgid))
    rw [RealFiles.statOf_inode] at still
    exact still
  real := real
  record := by
    have found := vpermChmod_lookUp vperm (files.statOf inode) (mode &&& ~~~(sIsuid ||| sIsgid))
      (mode &&& (sIsuid ||| sIsgid))
    rw [RealFiles.statOf_inode, alike.lookUp] at found
    exact .inl found

theorem RealFiles.chmod_spec (files : RealFiles) (target : files.resolve ref = .ok inode)
    (verdict : Except Errno Unit) (mode : BitVec 32) :
    (files.chmod ref verdict mode).2 = verdict ∧
      (files.chmod ref verdict mode).1.resolve = files.resolve ∧
      ((files.chmod ref verdict mode).1.attributes inode).mode =
        if errnoOf verdict = none then
          (files.attributes inode).mode &&& sIfmt ||| mode &&& sIallugo
        else (files.attributes inode).mode := by
  rcases verdict with err | ⟨⟩
  · have failed : files.chmod ref (.error err) mode = (files, .error err) := by
      simp only [RealFiles.chmod, target]
    rw [failed]
    exact ⟨rfl, rfl, rfl⟩
  · have changed : files.chmod ref (.ok ()) mode = (files.change inode fun file =>
        { file with mode := file.mode &&& sIfmt ||| mode &&& sIallugo }, .ok ()) := by
      simp only [RealFiles.chmod, target]
    rw [changed]
    refine ⟨rfl, rfl, ?_⟩
    rw [RealFiles.change_attributes]
    rfl

theorem chmodGates_done (target : machine.files.resolve ref = .ok inode)
    (visible : machine.vperm.db.Reveals inode)
    (success : (chmodGates machine ref verdict mode).2 = .ok ()) :
    ChmodDone machine (chmodGates machine ref verdict mode).1 inode verdict mode := by
  cases device : machine.isDevice inode with
  | true =>
    obtain ⟨vperm, alike, prepared⟩ := vpermChmodPrepare_of_device target visible device
      (mode &&& ~~~(sIsuid ||| sIsgid)) (mode &&& (sIsuid ||| sIsgid))
    have done : (chmodGates machine ref verdict mode).1 =
        ⟨vpermChmod vperm (machine.files.statOf inode) (mode &&& ~~~(sIsuid ||| sIsgid))
          (mode &&& (sIsuid ||| sIsgid)), machine.files⟩ := by
      rw [chmodGates]
      simp only [prepared, if_true]
    rw [done]
    refine chmodDone_of_vpermChmod alike visible ?_
    rw [realModeAfter, if_neg (by rw [device]; simp)]
    rfl
  | false =>
    obtain ⟨vperm, alike, prepared⟩ := vpermChmodPrepare_of_not_device target device
      (mode &&& ~~~(sIsuid ||| sIsgid)) (mode &&& (sIsuid ||| sIsgid))
    rw [forcedOwnerRights_virt] at prepared
    obtain ⟨res, resolve, left⟩ := machine.files.chmod_spec target verdict
      (mode &&& ~~~(sIsuid ||| sIsgid) ||| machine.forcedOwnerRights inode mode)
    let files := (machine.files.chmod ref verdict
      (mode &&& ~~~(sIsuid ||| sIsgid) ||| machine.forcedOwnerRights inode mode)).1
    have gate : chmodGates machine ref verdict mode =
        vpermChmodDoneUpdateState ⟨vperm, files⟩ verdict ref (mode &&& ~~~(sIsuid ||| sIsgid))
          (mode &&& (sIsuid ||| sIsgid)) (machine.forcedOwnerRights inode mode) := by
      rw [chmodGates]
      simp only [prepared, Bool.false_eq_true, if_false, res]
      rfl
    have real : (files.attributes inode).mode = machine.realModeAfter inode verdict mode := by
      rw [realModeAfter]
      simp only [device, and_true]
      exact left
    have stat : files.stat ref = .ok (files.statOf inode) := by
      refine files.stat_of_resolve ?_
      rw [show files.resolve = machine.files.resolve from resolve, target]
    rw [gate] at success ⊢
    rw [vpermChmodDoneUpdateState] at success ⊢
    split at success
    case isTrue update =>
      rw [if_pos update]
      simp only [stat]
      exact chmodDone_of_vpermChmod alike visible real
    case isFalse keep =>
      rw [if_neg keep]
      obtain ⟨noBits, notForced, -, notCounted⟩ : mode &&& (sIsuid ||| sIsgid) = 0 ∧
          machine.forcedOwnerRights inode mode = 0 ∧ _ ∧ _ := by
        simpa only [not_or, not_not] using keep
      have permitted : errnoOf verdict = none := by
        rcases verdict with err | ⟨⟩
        · cases success
        · rfl
      refine ⟨alike.reveals visible, real, .inr ⟨?_, ?_, noBits, ?_⟩⟩
      · rw [record, alike.lookUp, record]
      · refine record_inactive visible fun counted => notCounted ⟨permitted, ?_⟩
        rw [alike.counter]
        exact counted
      · show (files.attributes inode).mode &&& sIallugo = _
        rw [real, realModeAfter, if_pos ⟨permitted, device⟩, notForced]
        simp [BitVec.and_or_distrib_right, BitVec.and_assoc, sIfmt, sIallugo]

theorem Machine.shown_mode (visible : machine.vperm.db.Reveals inode) :
    (machine.shown inode).mode =
      (machine.record inode).shownMode (machine.realMode inode) := by
  rw [shown_eq visible]
  rfl

namespace ChmodDone

variable {after : Machine}

section

variable (done : ChmodDone machine after inode verdict mode)

include done

theorem perm :
    (after.shown inode).mode &&& permBits = mode &&& permBits := by
  have virt : mode &&& ~~~(sIsuid ||| sIsgid) &&& permBits = mode &&& permBits := by
    rw [BitVec.and_assoc]
    rfl
  rw [shown_mode done.visible]
  rcases done.record with updated | ⟨kept, inactive, -, real⟩
  · rw [updated, ← virt]
    exact chmodRecord_perm _ (by rw [BitVec.and_assoc, BitVec.and_self])
  · have clear : ¬ (machine.record inode).activeFields &&& simMode ≠ 0 := by
      rw [inactive]
      exact not_not.2 BitVec.zero_and
    rw [kept, InodeSimu.shownMode_perm, if_neg clear, ← virt]
    exact MaskedBits.and_eq_of_part (by decide) real

theorem type (visible : machine.vperm.db.Reveals inode) :
    (after.shown inode).mode &&& sIfmt = (machine.shown inode).mode &&& sIfmt := by
  have real : after.realMode inode &&& sIfmt = machine.realMode inode &&& sIfmt := by
    rw [done.real, realModeAfter_type]
  have record : (after.record inode).shownMode (after.realMode inode) &&& sIfmt =
      (machine.record inode).shownMode (after.realMode inode) &&& sIfmt := by
    rcases done.record with updated | ⟨kept, -⟩
    · rw [updated]
      exact chmodRecord_type _ (by rw [BitVec.and_assoc, BitVec.and_self]) _
    · rw [kept]
  rw [shown_mode done.visible, shown_mode visible, record,
    InodeSimu.shownMode_type, InodeSimu.shownMode_type]
  split
  · rfl
  · exact real

theorem suidSgid_iff :
    (after.shown inode).mode &&& (sIsuid ||| sIsgid) = mode &&& (sIsuid ||| sIsgid) ↔
      (after.realMode inode &&& (sIsuid ||| sIsgid) = mode &&& (sIsuid ||| sIsgid) →
        if after.realMode inode &&& ~~~(sIfmt ||| sIsuid ||| sIsgid) =
            mode &&& ~~~(sIfmt ||| sIsuid ||| sIsgid) then
          RecordedBits (machine.record inode) (mode &&& (sIsuid ||| sIsgid))
        else mode &&& (sIsuid ||| sIsgid) = 0) := by
  have virt : mode &&& ~~~(sIsuid ||| sIsgid) &&& ~~~(sIfmt ||| sIsuid ||| sIsgid) =
      mode &&& ~~~(sIfmt ||| sIsuid ||| sIsgid) := by
    rw [BitVec.and_assoc]
    rfl
  rw [shown_mode done.visible]
  rcases done.record with updated | ⟨kept, inactive, noBits, real⟩
  · have shown := chmodRecord_suidSgid_iff (machine.vperm.db.lookUp inode)
      (after.files.statOf inode) (mode &&& ~~~(sIsuid ||| sIsgid))
      (show mode &&& (sIsuid ||| sIsgid) &&& (sIsuid ||| sIsgid) = mode &&& (sIsuid ||| sIsgid) by
        rw [BitVec.and_assoc, BitVec.and_self])
    simp only [SamePerms, virt] at shown
    rw [updated]
    exact shown
  · have clear (field : BitVec 32) : ¬ (machine.record inode).activeFields &&& field ≠ 0 := by
      rw [inactive]
      exact not_not.2 BitVec.zero_and
    have none : after.realMode inode &&& (sIsuid ||| sIsgid) = 0 := by
      have part := MaskedBits.and_eq_of_part (show sIallugo &&& (sIsuid ||| sIsgid) = _ by decide)
        real
      rw [part, BitVec.and_assoc]
      exact BitVec.and_zero
    rw [kept, InodeSimu.shownMode_suidSgid, if_neg (clear _), if_neg (clear _), none, noBits]
    refine iff_of_true rfl fun _ => ?_
    split
    · exact fun active => absurd active (clear _)
    · rfl

end

end ChmodDone

/-- The set-id bits of the mode will be shown. If the operating system changes the real mode, it
leaves no set-id bits. So recorded bits must not stay when none are asked for; they are
overwritten only if the mode must be recorded anyway. If it does not, and the real bits are the
ones asked for, then either the record is released, and must not have other bits, or only the
permissions are recorded, and there must be no bits. -/
def Machine.ShowsBits (machine : Machine) (inode : Inode) (verdict : Except Errno Unit)
    (mode : BitVec 32) : Prop :=
  if errnoOf verdict = none ∧ machine.isDevice inode = false then
    mode &&& (sIsuid ||| sIsgid) = 0 →
      (mode ||| machine.forcedOwnerRights inode mode) &&& permBits =
        mode &&& ~~~(sIfmt ||| sIsuid ||| sIsgid) →
      RecordedBits (machine.record inode) 0
  else
    machine.realMode inode &&& (sIsuid ||| sIsgid) = mode &&& (sIsuid ||| sIsgid) →
      if machine.realMode inode &&& ~~~(sIfmt ||| sIsuid ||| sIsgid) =
          mode &&& ~~~(sIfmt ||| sIsuid ||| sIsgid) then
        RecordedBits (machine.record inode) (mode &&& (sIsuid ||| sIsgid))
      else mode &&& (sIsuid ||| sIsgid) = 0

theorem forcedOwnerRights_suidSgid (machine : Machine) (inode : Inode) (mode : BitVec 32) :
    machine.forcedOwnerRights inode mode &&& (sIsuid ||| sIsgid) = 0 := by
  rw [forcedOwnerRights]
  split_ifs <;> rfl

theorem showsBits_iff (machine : Machine) (inode : Inode) (verdict : Except Errno Unit)
    (mode : BitVec 32) :
    (machine.realModeAfter inode verdict mode &&& (sIsuid ||| sIsgid) =
          mode &&& (sIsuid ||| sIsgid) →
        if machine.realModeAfter inode verdict mode &&& ~~~(sIfmt ||| sIsuid ||| sIsgid) =
            mode &&& ~~~(sIfmt ||| sIsuid ||| sIsgid) then
          RecordedBits (machine.record inode) (mode &&& (sIsuid ||| sIsgid))
        else mode &&& (sIsuid ||| sIsgid) = 0) ↔
      machine.ShowsBits inode verdict mode := by
  by_cases changes : errnoOf verdict = none ∧ machine.isDevice inode = false
  · rw [Machine.ShowsBits, if_pos changes]
    have bits : machine.realModeAfter inode verdict mode &&& (sIsuid ||| sIsgid) = 0 := by
      rw [realModeAfter, if_pos changes, BitVec.and_or_distrib_right, BitVec.and_assoc,
        BitVec.and_assoc, show sIallugo &&& (sIsuid ||| sIsgid) = sIsuid ||| sIsgid from rfl,
        BitVec.and_or_distrib_right, forcedOwnerRights_suidSgid, BitVec.and_assoc]
      simp [sIfmt, sIsuid, sIsgid]
    have perms : machine.realModeAfter inode verdict mode &&& ~~~(sIfmt ||| sIsuid ||| sIsgid) =
        (mode ||| machine.forcedOwnerRights inode mode) &&& permBits := by
      rw [realModeAfter, if_pos changes]
      simp [BitVec.and_or_distrib_right, BitVec.and_assoc, sIfmt, sIallugo, sIsuid, sIsgid,
        permBits]
    rw [bits, perms, eq_comm]
    refine forall_congr' fun none => ?_
    rw [none]
    split
    next same => exact ⟨fun recorded _ => recorded, fun recorded => recorded same⟩
    next differ => exact iff_of_true rfl fun same => absurd same differ
  · rw [Machine.ShowsBits, if_neg changes, realModeAfter, if_neg changes]

/-- After a call that succeeds, the mode that was asked for is shown, and the type that was shown
before, exactly if the set-id bits come out right. -/
theorem chmod_shows_mode_iff (machine : Machine) (call : ChmodCall) (verdict : Except Errno Unit)
    (inode : Inode) (target : machine.files.resolve call.ref = .ok inode)
    (fits : machine.vperm.db.stored < 2 ^ 32)
    (success : (call.run machine verdict).2 = .ok ()) :
    let after := (call.run machine verdict).1
    ((after.shown inode).mode &&& sIallugo = call.mode &&& sIallugo ∧
      (after.shown inode).mode &&& sIfmt = (machine.shown inode).mode &&& sIfmt) ↔
      machine.ShowsBits inode verdict call.mode := by
  have visible : machine.vperm.db.Reveals inode := VpermDb.reveals fits inode
  rw [ChmodCall.run_eq] at success ⊢
  have done := chmodGates_done target visible success
  have parts : sIallugo = permBits ||| (sIsuid ||| sIsgid) := by decide
  intro after
  rw [parts, MaskedBits.and_or_eq_iff, done.suidSgid_iff, done.real, showsBits_iff]
  exact ⟨fun shown => shown.1.2, fun shows => ⟨⟨done.perm, shows⟩, done.type visible⟩⟩

end Gates

/-- A program gets its set-user-id bit. -/
theorem suid_bit_shown :
    let machine := oneFile plainUser 0o100644
    let after := ((ChmodCall.chmod ['f'] 0o4755).run machine (.ok ())).1
    (after.shown (1, 1)).mode &&& sIallugo = 0o4755 &&& sIallugo ∧
      (after.shown (1, 1)).mode &&& sIfmt = (machine.shown (1, 1)).mode &&& sIfmt := by
  refine (chmod_shows_mode_iff (oneFile plainUser 0o100644) (.chmod ['f'] 0o4755) (.ok ()) (1, 1)
    rfl (by decide +kernel) (by decide +kernel)).2 ?_
  rw [Machine.ShowsBits, if_pos (by decide +kernel)]
  exact fun none => absurd none (by decide)

/-- The mode 0755 after 04755 still shows the set-user-id bit. A program with a real one that
belongs to someone else shows none after 04700. -/
theorem suid_bits_shown_wrong :
    (let machine := ((ChmodCall.chmod ['f'] 0o4755).run (oneFile plainUser 0o100644) (.ok ())).1
      let after := (ChmodCall.chmod ['f'] 0o755).run machine (.ok ())
      machine.vperm.db.stored < 2 ^ 32 ∧ after.2 = .ok () ∧
        (after.1.shown (1, 1)).mode = 0o104755) ∧
    let after := (ChmodCall.chmod ['f'] 0o4700).run (oneFile plainUser 0o104755) (.error .EPERM)
    after.2 = .ok () ∧ (after.1.shown (1, 1)).mode = 0o100700 := by
  decide +kernel

end Scratchbox
