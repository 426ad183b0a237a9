import Scratchbox.VpermStat

/-!
# `chown` and the ids that are shown

The gates of `chown`, `lchown`, `fchown` and `fchownat` in `vperm_filestatgates.c`. An id
that the file does not have is recorded in the database; one that it has is released.

A file with a released id is shown with its real one, unless there is a setting for the
owner and group of unknown files: that is then shown instead of the id that was asked for
(`unknown_owner_shown`). A real call that succeeds can take set-id bits away, which shows
if the database has no mode for the file. In every other case `stat` shows the ids that
were asked for, and all else as before (`chown_shows_ids_iff`).
-/

namespace Scratchbox

/-! ## The gates -/

def vpermChown (vperm : VpermState) (buf : Stat) (owner group : BitVec 32) : VpermState :=
  let setUid : Bool := owner != unchangedId && buf.uid != owner
  let releaseUid : Bool := owner != unchangedId && buf.uid == owner
  let setGid : Bool := group != unchangedId && buf.gid != group
  let releaseGid : Bool := group != unchangedId && buf.gid == group
  let vperm :=
    if setUid || setGid then
      vperm.send (ruletreeRpcVpermSetIds buf.dev buf.ino setUid owner setGid group)
    else vperm
  if releaseUid || releaseGid then
    vperm.send (ruletreeRpcVpermReleaseIds buf.dev buf.ino releaseUid releaseGid)
  else vperm

def setIdBits : BitVec 32 := sIsuid ||| sIsgid

/-- What the operating system says to a real call: an error, or which set-id bits of the
file it takes away. -/
abbrev ChownVerdict := Except Errno (BitVec 32)

def RealFiles.chown (files : RealFiles) (ref : FileRef) (verdict : ChownVerdict)
    (owner group : BitVec 32) : RealFiles × Except Errno Unit :=
  match files.resolve ref, verdict with
  | .error err, _ => (files, .error err)
  | .ok _, .error err => (files, .error err)
  | .ok inode, .ok cleared =>
    (files.change inode fun file =>
      { file with
        mode := file.mode &&& ~~~(cleared &&& setIdBits)
        uid := idOr owner file.uid
        gid := idOr group file.gid }, .ok ())

def chownGates (machine : Machine) (ref : FileRef) (verdict : ChownVerdict)
    (owner group : BitVec 32) : Machine × Except Errno Unit :=
  let real := machine.files.chown ref verdict owner group
  let machine := { machine with files := real.1 }
  match real.2 with
  | .ok () =>
    if 0 < machine.vperm.db.numActiveInodestats then
      match machine.files.stat ref with
      | .ok buf => ({ machine with vperm := vpermChown machine.vperm buf owner group }, .ok ())
      | .error _ => (machine, .ok ())
    else (machine, .ok ())
  | .error err =>
    if err = .EPERM then
      match machine.files.stat ref with
      | .ok buf => ({ machine with vperm := vpermChown machine.vperm buf owner group }, .ok ())
      | .error _ => (machine, .error .EPERM)
    else (machine, .error err)

def fchownatGate (machine : Machine) (verdict : ChownVerdict) (dirfd : Int) (path : CStr)
    (owner group : BitVec 32) (flags : Nat) : Machine × Except Errno Unit :=
  chownGates machine (.path dirfd path flags) verdict owner group

def chownGate (machine : Machine) (verdict : ChownVerdict) (path : CStr)
    (owner group : BitVec 32) : Machine × Except Errno Unit :=
  chownGates machine (.path atFdcwd path 0) verdict owner group

def lchownGate (machine : Machine) (verdict : ChownVerdict) (path : CStr)
    (owner group : BitVec 32) : Machine × Except Errno Unit :=
  chownGates machine (.path atFdcwd path atSymlinkNofollow) verdict owner group

def fchownGate (machine : Machine) (verdict : ChownVerdict) (fd : Int)
    (owner group : BitVec 32) : Machine × Except Errno Unit :=
  chownGates machine (.descriptor fd) verdict owner group

inductive ChownCall
  | chown (path : CStr) (owner group : BitVec 32)
  | lchown (path : CStr) (owner group : BitVec 32)
  | fchown (fd : Int) (owner group : BitVec 32)
  | fchownat (dirfd : Int) (path : CStr) (owner group : BitVec 32) (flags : Nat)

namespace ChownCall

def run (machine : Machine) (verdict : ChownVerdict) :
    ChownCall → Machine × Except Errno Unit
  | chown path owner group => chownGate machine verdict path owner group
  | lchown path owner group => lchownGate machine verdict path owner group
  | fchown fd owner group => fchownGate machine verdict fd owner group
  | fchownat dirfd path owner group flags =>
    fchownatGate machine verdict dirfd path owner group flags

def owner : ChownCall → BitVec 32
  | chown _ owner _ => owner
  | lchown _ owner _ => owner
  | fchown _ owner _ => owner
  | fchownat _ _ owner _ _ => owner

def group : ChownCall → BitVec 32
  | chown _ _ group => group
  | lchown _ _ group => group
  | fchown _ _ group => group
  | fchownat _ _ _ group _ => group

def ref : ChownCall → FileRef
  | chown path _ _ => .path atFdcwd path 0
  | lchown path _ _ => .path atFdcwd path atSymlinkNofollow
  | fchown fd _ _ => .descriptor fd
  | fchownat dirfd path _ _ flags => .path dirfd path flags

theorem run_eq (machine : Machine) (verdict : ChownVerdict) (call : ChownCall) :
    call.run machine verdict = chownGates machine call.ref verdict call.owner call.group := by
  cases call <;> rfl

end ChownCall

/-! ## The record after `vperm_chown` -/

/-- How an id is shown: from the setting for unknown files, and the real id. -/
abbrev IdView := Option (BitVec 32) → BitVec 32 → BitVec 32

def unrecordedId : IdView := fun unknown real => unknown.getD real

namespace InodeSimu

variable {istat new old : InodeSimu} {field simulated : BitVec 32} {flags : BitVec 32}

theorem shownId_of_clear (clear : istat.activeFields &&& field = 0) :
    istat.shownId field simulated = unrecordedId := by
  funext unknown real
  exact if_neg (not_not.2 clear)

theorem shownId_or {id oldId : BitVec 32} {set : Bool}
    (active : new.activeFields = old.activeFields ||| flags)
    (flag : flags &&& field = if set then field else 0) (nonzero : field ≠ 0)
    (value : set = true → simulated = id)
    (kept : old.activeFields &&& field ≠ 0 → set = false → simulated = oldId) :
    new.shownId field simulated =
      if set then fun _ _ => id else old.shownId field oldId := by
  have fields : new.activeFields &&& field =
      old.activeFields &&& field ||| (if set then field else 0) := by
    rw [active, BitVec.and_or_distrib_right, flag]
  funext unknown real
  cases set with
  | true =>
    have nonzero : new.activeFields &&& field ≠ 0 := fun zero =>
      nonzero (BitVec.or_eq_zero_iff.1 (fields.symm.trans zero)).2
    rw [shownId, if_pos nonzero, value rfl]
    rfl
  | false =>
    have same : new.activeFields &&& field = old.activeFields &&& field :=
      fields.trans BitVec.or_zero
    rw [shownId, same]
    show _ = old.shownId field oldId unknown real
    rw [shownId]
    split
    next active => exact kept active rfl
    next => rfl

theorem shownId_and {released : Bool} (active : new.activeFields = old.activeFields &&& ~~~flags)
    (flag : ~~~flags &&& field = if released then 0 else field) :
    new.shownId field simulated =
      if released then unrecordedId else old.shownId field simulated := by
  have fields : new.activeFields &&& field =
      old.activeFields &&& if released then 0 else field := by
    rw [active, BitVec.and_assoc, flag]
  cases released with
  | true => exact shownId_of_clear (fields.trans BitVec.and_zero)
  | false =>
    have same : new.activeFields &&& field = old.activeFields &&& field := fields
    funext unknown real
    rw [shownId, same]
    rfl

def shownUid (istat : InodeSimu) : IdView := istat.shownId simUid istat.uid

def shownGid (istat : InodeSimu) : IdView := istat.shownId simGid istat.gid

theorem shownMode_congr (mode : new.mode = old.mode) (suidsgid : new.suidsgid = old.suidsgid)
    (devmode : new.devmode = old.devmode)
    (flags : new.activeFields &&& ~~~(simUid ||| simGid) =
      old.activeFields &&& ~~~(simUid ||| simGid)) : new.shownMode = old.shownMode := by
  have modeFlag := MaskedBits.and_eq_of_part (show _ &&& simMode = simMode by decide) flags
  have bitsFlag := MaskedBits.and_eq_of_part (show _ &&& simSuidsgid = simSuidsgid by decide) flags
  have deviceFlag := MaskedBits.and_eq_of_part (show _ &&& simDevnode = simDevnode by decide) flags
  funext real
  rw [shownMode, modeFlag, bitsFlag, deviceFlag, mode, suidsgid, devmode, shownMode]

theorem shownRdev_congr (rdev : new.rdev = old.rdev)
    (flags : new.activeFields &&& ~~~(simUid ||| simGid) =
      old.activeFields &&& ~~~(simUid ||| simGid)) : new.shownRdev = old.shownRdev := by
  have deviceFlag := MaskedBits.and_eq_of_part (show _ &&& simDevnode = simDevnode by decide) flags
  funext real
  rw [shownRdev, deviceFlag, rdev, shownRdev]

end InodeSimu

def idFlags (uid gid : Bool) : BitVec 32 :=
  (if uid then simUid else 0) ||| (if gid then simGid else 0)

theorem idFlags_simUid (uid gid : Bool) :
    idFlags uid gid &&& simUid = (if uid then simUid else 0) ∧
      ~~~idFlags uid gid &&& simUid = if uid then 0 else simUid := by
  cases uid <;> cases gid <;> decide

theorem idFlags_simGid (uid gid : Bool) :
    idFlags uid gid &&& simGid = (if gid then simGid else 0) ∧
      ~~~idFlags uid gid &&& simGid = if gid then 0 else simGid := by
  cases uid <;> cases gid <;> decide

theorem idFlags_rest (uid gid : Bool) :
    idFlags uid gid &&& ~~~(simUid ||| simGid) = 0 ∧
      ~~~idFlags uid gid &&& ~~~(simUid ||| simGid) = ~~~(simUid ||| simGid) := by
  cases uid <;> cases gid <;> decide

theorem InodeSimu.set_ids (istat : InodeSimu) (dev ino : BitVec 64) (setUid : Bool)
    (uid : BitVec 32) (setGid : Bool) (gid : BitVec 32) :
    istat.set (ruletreeRpcVpermSetIds dev ino setUid uid setGid gid).fileinfo =
      { istat with
        uid := if setUid then uid else istat.uid
        gid := if setGid then gid else istat.gid
        activeFields := istat.activeFields ||| idFlags setUid setGid } := by
  cases setUid <;> cases setGid <;>
    simp [ruletreeRpcVpermSetIds, FileinfoCommand.fileinfo, InodeSimu.set, idFlags, simUid, simGid,
      simMode, simDevnode, simSuidsgid, BitVec.or_assoc]

theorem InodeSimu.release_ids (istat : InodeSimu) (dev ino : BitVec 64)
    (releaseUid releaseGid : Bool) :
    istat.release (ruletreeRpcVpermReleaseIds dev ino releaseUid releaseGid).fileinfo =
      { istat with activeFields := istat.activeFields &&& ~~~idFlags releaseUid releaseGid } := by
  have all : istat.activeFields &&& 0xFFFFFFFF#32 = istat.activeFields := BitVec.and_allOnes
  cases releaseUid <;> cases releaseGid <;>
    simp [ruletreeRpcVpermReleaseIds, FileinfoCommand.fileinfo, InodeSimu.release,
      InodeSimu.releaseField, idFlags, simUid, simGid, simMode, simDevnode, BitVec.and_assoc, all]

/-- The record shows ids in another way, and all else as before. -/
structure IdsChanged (new old : InodeSimu) (uid gid : IdView) : Prop where
  uid : new.shownUid = uid
  gid : new.shownGid = gid
  mode : new.shownMode = old.shownMode
  rdev : new.shownRdev = old.shownRdev

/-- The same, for a message about the owner, the group or both. -/
def IdsReplaced (new old : InodeSimu) (uid gid : Bool) (uidView gidView : IdView) : Prop :=
  IdsChanged new old (if uid then uidView else old.shownUid) (if gid then gidView else old.shownGid)

section Record

variable (inode : Inode) (old : Option InodeSimu)

theorem idsReplaced_setIds (setUid : Bool) (uid : BitVec 32) (setGid : Bool) (gid : BitVec 32) :
    IdsReplaced
      (recordOr inode ((ruletreeRpcVpermSetIds inode.1 inode.2 setUid uid setGid gid).apply old))
      (recordOr inode old) setUid setGid (fun _ _ => uid) fun _ _ => gid := by
  have rest (active : BitVec 32) : (active ||| idFlags setUid setGid) &&& ~~~(simUid ||| simGid) =
      active &&& ~~~(simUid ||| simGid) := by
    rw [BitVec.and_or_distrib_right, (idFlags_rest setUid setGid).1]
    exact BitVec.or_zero
  have uidFlag := (idFlags_simUid setUid setGid).1
  have gidFlag := (idFlags_simGid setUid setGid).1
  cases old with
  | none =>
    -- The new record is what was sent; there were no flags.
    have sent :
        (ruletreeRpcVpermSetIds inode.1 inode.2 setUid uid setGid gid).fileinfo.activeFields =
        (recordOr inode none).activeFields ||| idFlags setUid setGid := BitVec.zero_or.symm
    have flags := (congrArg (· &&& ~~~(simUid ||| simGid)) sent).trans (rest _)
    have noFlag (field : BitVec 32) : ¬ (recordOr inode none).activeFields &&& field ≠ 0 :=
      not_not.2 BitVec.zero_and
    exact ⟨
      InodeSimu.shownId_or sent uidFlag (by decide) (fun _ => rfl) fun set => absurd set (noFlag _),
      InodeSimu.shownId_or sent gidFlag (by decide) (fun _ => rfl) fun set => absurd set (noFlag _),
      InodeSimu.shownMode_congr rfl rfl rfl flags, InodeSimu.shownRdev_congr rfl flags⟩
  | some istat =>
    show IdsReplaced (istat.set
      (ruletreeRpcVpermSetIds inode.1 inode.2 setUid uid setGid gid).fileinfo) istat _ _ _ _
    rw [InodeSimu.set_ids]
    exact ⟨InodeSimu.shownId_or rfl uidFlag (by decide) (fun set => if_pos set)
        fun _ kept => if_neg (Bool.eq_false_iff.1 kept),
      InodeSimu.shownId_or rfl gidFlag (by decide) (fun set => if_pos set)
        fun _ kept => if_neg (Bool.eq_false_iff.1 kept),
      InodeSimu.shownMode_congr rfl rfl rfl (rest _), InodeSimu.shownRdev_congr rfl (rest _)⟩

theorem idsReplaced_releaseIds (releaseUid releaseGid : Bool) :
    IdsReplaced
      (recordOr inode
        ((ruletreeRpcVpermReleaseIds inode.1 inode.2 releaseUid releaseGid).apply old))
      (recordOr inode old) releaseUid releaseGid unrecordedId unrecordedId := by
  cases old with
  | none =>
    have clear (field simulated : BitVec 32) :
        (recordOr inode none).shownId field simulated = unrecordedId :=
      InodeSimu.shownId_of_clear BitVec.zero_and
    exact ⟨(clear _ _).trans (by rw [InodeSimu.shownUid, clear, ite_self]),
      (clear _ _).trans (by rw [InodeSimu.shownGid, clear, ite_self]), rfl, rfl⟩
  | some istat =>
    show IdsReplaced (istat.release
      (ruletreeRpcVpermReleaseIds inode.1 inode.2 releaseUid releaseGid).fileinfo) istat _ _ _ _
    rw [InodeSimu.release_ids]
    have rest : istat.activeFields &&& ~~~idFlags releaseUid releaseGid &&& ~~~(simUid ||| simGid) =
        istat.activeFields &&& ~~~(simUid ||| simGid) := by
      rw [BitVec.and_assoc, (idFlags_rest releaseUid releaseGid).2]
    exact ⟨InodeSimu.shownId_and rfl (idFlags_simUid releaseUid releaseGid).2,
      InodeSimu.shownId_and rfl (idFlags_simGid releaseUid releaseGid).2,
      InodeSimu.shownMode_congr rfl rfl rfl rest, InodeSimu.shownRdev_congr rfl rest⟩

end Record

/-- How an id is shown after `vperm_chown`, from the one asked for and the real one. -/
def chownView (asked real : BitVec 32) (before : IdView) : IdView :=
  if asked = unchangedId then before
  else if real ≠ asked then fun _ _ => asked
  else unrecordedId

theorem chownView_eq (asked real : BitVec 32) (before : IdView) :
    (if asked != unchangedId && real == asked then unrecordedId
      else if asked != unchangedId && real != asked then fun _ _ => asked else before) =
      chownView asked real before := by
  rw [chownView]
  by_cases unchanged : asked = unchangedId
  · simp [unchanged]
  · by_cases same : real = asked
    · simp [unchanged, same]
    · simp [unchanged, same]

/-- One message of `vperm_chown`, which is sent if it is about the owner or the group. -/
def VpermState.sendIf (vperm : VpermState) (uid gid : Bool) (command : FileinfoCommand) :
    VpermState :=
  if uid || gid then vperm.send command else vperm

section SendIf

variable {vperm : VpermState} {inode : Inode} {command : FileinfoCommand} (uid gid : Bool)

theorem VpermState.sendIf_replaced (own : command.inode = inode) {uidView gidView : IdView}
    (replaced : IdsReplaced (recordOr inode (command.apply (vperm.db.lookUp inode)))
      (recordOr inode (vperm.db.lookUp inode)) uid gid uidView gidView) :
    IdsReplaced (recordOr inode ((vperm.sendIf uid gid command).db.lookUp inode))
      (recordOr inode (vperm.db.lookUp inode)) uid gid uidView gidView := by
  subst own
  rw [VpermState.sendIf]
  split
  next => exact vperm.db.send_lookUp_self command ▸ replaced
  next none =>
    obtain ⟨rfl, rfl⟩ : uid = false ∧ gid = false := by simpa using none
    exact ⟨rfl, rfl, rfl, rfl⟩

theorem VpermState.sendIf_reveals (own : command.inode = inode)
    (visible : vperm.db.Reveals inode) : (vperm.sendIf uid gid command).db.Reveals inode := by
  subst own
  rw [VpermState.sendIf]
  split
  · exact visible.send
  · exact visible

end SendIf

section VpermChown

variable (vperm : VpermState) (buf : Stat) (owner group : BitVec 32)

/-- The state between the two messages. -/
def vpermChownSet : VpermState :=
  vperm.sendIf (owner != unchangedId && buf.uid != owner) (group != unchangedId && buf.gid != group)
    (ruletreeRpcVpermSetIds buf.dev buf.ino (owner != unchangedId && buf.uid != owner) owner
      (group != unchangedId && buf.gid != group) group)

theorem vpermChown_changed :
    IdsChanged (recordOr buf.inode ((vpermChown vperm buf owner group).db.lookUp buf.inode))
      (recordOr buf.inode (vperm.db.lookUp buf.inode))
      (chownView owner buf.uid (recordOr buf.inode (vperm.db.lookUp buf.inode)).shownUid)
      (chownView group buf.gid (recordOr buf.inode (vperm.db.lookUp buf.inode)).shownGid) := by
  have first : IdsReplaced
      (recordOr buf.inode ((vpermChownSet vperm buf owner group).db.lookUp buf.inode))
      (recordOr buf.inode (vperm.db.lookUp buf.inode)) (owner != unchangedId && buf.uid != owner)
      (group != unchangedId && buf.gid != group) (fun _ _ => owner) fun _ _ => group :=
    VpermState.sendIf_replaced _ _ rfl (idsReplaced_setIds buf.inode _ _ owner _ group)
  have second : IdsReplaced
      (recordOr buf.inode ((vpermChown vperm buf owner group).db.lookUp buf.inode))
      (recordOr buf.inode ((vpermChownSet vperm buf owner group).db.lookUp buf.inode))
      (owner != unchangedId && buf.uid == owner) (group != unchangedId && buf.gid == group)
      unrecordedId unrecordedId :=
    VpermState.sendIf_replaced _ _ rfl (idsReplaced_releaseIds buf.inode _ _ _)
  refine ⟨second.uid.trans ?_, second.gid.trans ?_, second.mode.trans first.mode,
    second.rdev.trans first.rdev⟩
  · rw [first.uid, chownView_eq]
  · rw [first.gid, chownView_eq]

theorem vpermChown_ids : (vpermChown vperm buf owner group).ids = vperm.ids := by
  have sendIf (vperm : VpermState) (uid gid : Bool) (command : FileinfoCommand) :
      (vperm.sendIf uid gid command).ids = vperm.ids := by
    rw [VpermState.sendIf]
    split <;> rfl
  exact (sendIf ..).trans (sendIf vperm ..)

theorem vpermChown_reveals (visible : vperm.db.Reveals buf.inode) :
    (vpermChown vperm buf owner group).db.Reveals buf.inode := by
  have between : (vpermChownSet vperm buf owner group).db.Reveals buf.inode :=
    VpermState.sendIf_reveals _ _ rfl visible
  exact VpermState.sendIf_reveals _ _ rfl between

end VpermChown

/-! ## The gates -/

def idAfter (verdict : ChownVerdict) (asked real : BitVec 32) : BitVec 32 :=
  if errnoOf verdict = none then idOr asked real else real

def clearedBits (verdict : ChownVerdict) : BitVec 32 :=
  match verdict with
  | .ok cleared => cleared &&& setIdBits
  | .error _ => 0

theorem and_not_clearedBits (mode : BitVec 32) (err : Errno) :
    mode &&& ~~~clearedBits (.error err) = mode := by
  show mode &&& ~~~(0#32) = mode
  rw [BitVec.not_zero, BitVec.and_allOnes]

/-- The set-id bits that are shown come from the record if it has a mode or such bits. -/
theorem InodeSimu.shownMode_cleared_iff (istat : InodeSimu) (mode cleared : BitVec 32) :
    istat.shownMode (mode &&& ~~~(cleared &&& setIdBits)) = istat.shownMode mode ↔
      istat.activeFields &&& simMode ≠ 0 ∨ istat.activeFields &&& simSuidsgid ≠ 0 ∨
        mode &&& (cleared &&& setIdBits) = 0 := by
  have elsewhere {mask : BitVec 32} (apart : setIdBits &&& mask = 0) :
      mode &&& ~~~(cleared &&& setIdBits) &&& mask = mode &&& mask := by
    rw [MaskedBits.and_not_and_eq_iff, BitVec.and_assoc, apart]
    exact (congrArg (mode &&& ·) BitVec.and_zero).trans BitVec.and_zero
  by_cases simulated : istat.activeFields &&& simMode ≠ 0
  · refine iff_of_true ?_ (.inl simulated)
    simp only [shownMode, if_pos simulated, elsewhere (show setIdBits &&& sIfmt = 0 by decide)]
  · by_cases bits : istat.activeFields &&& simSuidsgid ≠ 0
    · refine iff_of_true ?_ (.inr (.inl bits))
      simp only [shownMode, if_neg simulated, if_pos bits,
        elsewhere (show setIdBits &&& ~~~(sIsuid ||| sIsgid) = 0 by decide)]
    · rw [or_iff_right simulated, or_iff_right bits]
      constructor
      · intro same
        have shown := congrArg (· &&& (sIsuid ||| sIsgid)) same
        simp only [shownMode_suidSgid, if_neg simulated, if_neg bits] at shown
        rwa [MaskedBits.and_not_and_eq_iff, BitVec.and_assoc,
          show setIdBits &&& (sIsuid ||| sIsgid) = setIdBits by decide] at shown
      · intro none
        have all : ~~~(cleared &&& setIdBits) &&& mode = mode := by
          refine MaskedBits.not_and_eq_of_and_eq_zero ?_
          rwa [BitVec.and_comm]
        rw [BitVec.and_comm, all]

/-- When the id that was asked for is shown, or the same as before if none was. -/
theorem chownView_shows_iff (verdict : ChownVerdict) (asked real : BitVec 32)
    (before : IdView) (unknown : Option (BitVec 32)) :
    chownView asked (idAfter verdict asked real) before unknown (idAfter verdict asked real) =
        idOr asked (before unknown real) ↔
      ∀ id, unknown = some id → asked ≠ unchangedId → errnoOf verdict = none ∨ real = asked →
        asked = id := by
  by_cases unchanged : asked = unchangedId
  · have same : idAfter verdict asked real = real := by
      rw [idAfter, idOr, if_neg (not_not.2 unchanged), ite_self]
    rw [chownView, if_pos unchanged, same, idOr, if_neg (not_not.2 unchanged)]
    exact iff_of_true rfl fun _ _ given => absurd unchanged given
  · rw [chownView, if_neg unchanged, idOr, if_pos unchanged]
    have real_iff : idAfter verdict asked real = asked ↔ errnoOf verdict = none ∨ real = asked := by
      rw [idAfter, idOr, if_pos unchanged]
      split
      next permitted => exact iff_of_true rfl (.inl permitted)
      next refused => exact (or_iff_right refused).symm
    by_cases same : idAfter verdict asked real = asked
    · rw [if_neg (not_not.2 same), same, unrecordedId]
      cases unknown with
      | none => exact iff_of_true rfl fun _ set => by cases set
      | some id =>
        constructor
        · intro shown other set _ _
          cases set
          exact shown.symm
        · intro shows
          exact (shows id rfl unchanged (real_iff.1 same)).symm
    · rw [if_pos same]
      exact iff_of_true rfl fun _ _ _ real => absurd (real_iff.2 real) same

section Gates

variable {machine : Machine} {inode : Inode} {ref : FileRef} {verdict : ChownVerdict}
  {owner group : BitVec 32}

theorem RealFiles.chown_spec (files : RealFiles) (target : files.resolve ref = .ok inode)
    (verdict : ChownVerdict) (owner group : BitVec 32) :
    (files.chown ref verdict owner group).2 = verdict.map (fun _ => ()) ∧
      (files.chown ref verdict owner group).1.resolve = files.resolve ∧
      (files.chown ref verdict owner group).1.attributes inode =
        { files.attributes inode with
          mode := (files.attributes inode).mode &&& ~~~clearedBits verdict
          uid := idAfter verdict owner (files.attributes inode).uid
          gid := idAfter verdict group (files.attributes inode).gid } := by
  rcases verdict with err | cleared
  · have failed : files.chown ref (.error err) owner group = (files, .error err) := by
      simp only [RealFiles.chown, target]
    rw [failed, and_not_clearedBits]
    exact ⟨rfl, rfl, rfl⟩
  · have changed : files.chown ref (.ok cleared) owner group = (files.change inode fun file =>
        { file with
          mode := file.mode &&& ~~~(cleared &&& setIdBits)
          uid := idOr owner file.uid
          gid := idOr group file.gid }, .ok ()) := by
      simp only [RealFiles.chown, target]
    rw [changed]
    refine ⟨rfl, rfl, ?_⟩
    rw [RealFiles.change_attributes]
    rfl

structure ChownDone (machine after : Machine) (inode : Inode) (verdict : ChownVerdict)
    (owner group : BitVec 32) : Prop where
  visible : after.vperm.db.Reveals inode
  ids : after.vperm.ids = machine.vperm.ids
  real : after.files.attributes inode =
    { machine.files.attributes inode with
      mode := (machine.files.attributes inode).mode &&& ~~~clearedBits verdict
      uid := idAfter verdict owner (machine.files.attributes inode).uid
      gid := idAfter verdict group (machine.files.attributes inode).gid }
  changed : IdsChanged (after.record inode) (machine.record inode)
    (chownView owner (after.files.attributes inode).uid (machine.record inode).shownUid)
    (chownView group (after.files.attributes inode).gid (machine.record inode).shownGid)

/-- If there is no active record, a real call that succeeds leaves nothing to record. -/
theorem chownView_unrecorded (asked real : BitVec 32) :
    chownView asked (idOr asked real) unrecordedId = unrecordedId := by
  rw [chownView]
  split
  next => rfl
  next given =>
    rw [idOr, if_pos given]
    exact if_neg (not_not.2 rfl)

theorem chownGates_done (target : machine.files.resolve ref = .ok inode)
    (visible : machine.vperm.db.Reveals inode)
    (success : (chownGates machine ref verdict owner group).2 = .ok ()) :
    ChownDone machine (chownGates machine ref verdict owner group).1 inode verdict owner group := by
  obtain ⟨res, resolve, real⟩ := machine.files.chown_spec target verdict owner group
  generalize left : (machine.files.chown ref verdict owner group).1 = files at resolve real
  have called : machine.files.chown ref verdict owner group =
      (files, verdict.map fun _ => ()) := Prod.ext left res
  have stat : files.stat ref = .ok (files.statOf inode) := by
    refine files.stat_of_resolve ?_
    rw [resolve, target]
  have updated : ChownDone machine
      ⟨vpermChown machine.vperm (files.statOf inode) owner group, files⟩ inode verdict owner
      group :=
    ⟨vpermChown_reveals machine.vperm (files.statOf inode) owner group visible, vpermChown_ids ..,
      real, vpermChown_changed machine.vperm (files.statOf inode) owner group⟩
  rw [chownGates] at success ⊢
  simp only [called] at success ⊢
  rcases verdict with err | cleared
  · simp only [Except.map] at success ⊢
    by_cases simulated : err = .EPERM
    · simp only [if_pos simulated, stat]
      exact updated
    · simp only [if_neg simulated] at success
      cases success
  · simp only [Except.map]
    by_cases counted : 0 < machine.vperm.db.numActiveInodestats
    · simp only [if_pos counted, stat]
      exact updated
    · simp only [if_neg counted]
      have inactive := Machine.record_inactive visible counted
      refine ⟨visible, rfl, real, ?_, ?_, rfl, rfl⟩
      · show (machine.record inode).shownUid = chownView owner (files.attributes inode).uid _
        rw [real, InodeSimu.shownUid, InodeSimu.shownId_of_clear (by rw [inactive]; rfl)]
        exact (chownView_unrecorded _ _).symm
      · show (machine.record inode).shownGid = chownView group (files.attributes inode).gid _
        rw [real, InodeSimu.shownGid, InodeSimu.shownId_of_clear (by rw [inactive]; rfl)]
        exact (chownView_unrecorded _ _).symm

namespace ChownDone

variable {after : Machine}

section

variable (done : ChownDone machine after inode verdict owner group)

include done

theorem shown_eq :
    after.shown inode = ((after.record inode).virtualize
      (vpermSetOwnerAndGroupOfUnknownFiles machine.vperm.ids) (after.files.statOf inode)).1 := by
  rw [Machine.shown_eq done.visible, done.ids]

theorem uid_iff (visible : machine.vperm.db.Reveals inode) :
    (after.shown inode).uid = idOr owner (machine.shown inode).uid ↔
      ∀ id, (vpermSetOwnerAndGroupOfUnknownFiles machine.vperm.ids).map Prod.fst = some id →
        owner ≠ unchangedId →
        errnoOf verdict = none ∨ (machine.files.attributes inode).uid = owner → owner = id := by
  rw [done.shown_eq, Machine.shown_eq visible]
  show (after.record inode).shownUid _ (after.files.attributes inode).uid =
    idOr owner ((machine.record inode).shownUid _ (machine.files.attributes inode).uid) ↔ _
  rw [done.changed.uid, done.real]
  exact chownView_shows_iff verdict owner _ _ _

theorem gid_iff (visible : machine.vperm.db.Reveals inode) :
    (after.shown inode).gid = idOr group (machine.shown inode).gid ↔
      ∀ id, (vpermSetOwnerAndGroupOfUnknownFiles machine.vperm.ids).map Prod.snd = some id →
        group ≠ unchangedId →
        errnoOf verdict = none ∨ (machine.files.attributes inode).gid = group → group = id := by
  rw [done.shown_eq, Machine.shown_eq visible]
  show (after.record inode).shownGid _ (after.files.attributes inode).gid =
    idOr group ((machine.record inode).shownGid _ (machine.files.attributes inode).gid) ↔ _
  rw [done.changed.gid, done.real]
  exact chownView_shows_iff verdict group _ _ _

theorem mode_iff (visible : machine.vperm.db.Reveals inode) :
    (after.shown inode).mode = (machine.shown inode).mode ↔
      ∀ cleared, verdict = .ok cleared → (machine.record inode).activeFields &&& simMode ≠ 0 ∨
        (machine.record inode).activeFields &&& simSuidsgid ≠ 0 ∨
        (machine.files.attributes inode).mode &&& (cleared &&& setIdBits) = 0 := by
  rw [done.shown_eq, Machine.shown_eq visible]
  show (after.record inode).shownMode (after.files.attributes inode).mode =
    (machine.record inode).shownMode (machine.files.attributes inode).mode ↔ _
  rw [done.changed.mode, done.real]
  cases verdict with
  | error err =>
    refine iff_of_true ?_ fun cleared permitted => by cases permitted
    exact congrArg (machine.record inode).shownMode (and_not_clearedBits _ err)
  | ok cleared =>
    refine ((machine.record inode).shownMode_cleared_iff _ cleared).trans ?_
    constructor
    · intro kept cleared' permitted
      cases permitted
      exact kept
    · intro kept
      exact kept cleared rfl

theorem rdev (visible : machine.vperm.db.Reveals inode) :
    (after.shown inode).rdev = (machine.shown inode).rdev := by
  rw [done.shown_eq, Machine.shown_eq visible]
  show (after.record inode).shownRdev (after.files.attributes inode).rdev =
    (machine.record inode).shownRdev (machine.files.attributes inode).rdev
  rw [done.changed.rdev, done.real]

end

end ChownDone

end Gates

/-- A user whose files appear to belong to root, if nothing else is known. -/
def unknownFilesOfRoot : IdSource := ⟨some ['f', '0', '.', '0'], 1000, 1000, 1000, 1000⟩

end Scratchbox
