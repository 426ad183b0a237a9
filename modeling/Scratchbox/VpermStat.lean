import Scratchbox.Lib.MaskedBits
import Scratchbox.ActiveCounter
import Scratchbox.Engine
import Scratchbox.SimulatedIds

/-!
# What `stat` shows

`vperm_statfuncts.c`: what the operating system says about a file is changed by the
record of its inode, and by the setting for files without a record, before the caller
sees it.

A process looks into the records only while the counter of active ones is not `0`. This
hides no active record (`VpermDb.reveals`), so that a file is always shown as its record
says (`Machine.shown_eq`).
-/

namespace Scratchbox

/-! ## The database and one of its clients -/

/-- The database, and the root that a process with the library remembers. The counter can
only be too small when there are more records than it can count. -/
structure VpermDb where
  server : RuletreeServer
  inodestatsBintreeRoot : Nat
  sound : ∃ t, server.Sound t
  remembered : server.tree.Remembered inodestatsBintreeRoot
  counted : server.tree.file.storedInodestats < 2 ^ 32 →
    server.tree.file.activeInodestats ≤ server.tree.numActiveInodestats

namespace VpermDb

variable (db : VpermDb) {command : FileinfoCommand}

/-- The records. -/
def lookUp : InodeMap := db.server.lookUp

/-- `get_vperm_num_active_inodestats`. -/
def numActiveInodestats : Nat := db.server.tree.numActiveInodestats

def stored : Nat := db.server.tree.file.storedInodestats

theorem find_root (inode : Inode) :
    (ruletreeFindInodestat db.server.tree db.inodestatsBintreeRoot
      (ruletreeInitInodestatHandle inode.1 inode.2)).root = db.server.tree.inodestats := by
  obtain ⟨t, sound⟩ := db.sound
  rw [sound.holds.find db.remembered]
  split <;> rfl

/-- `ruletree_find_inodestat`, with a new handle. -/
def find (inode : Inode) : VpermDb × Option InodeSimu :=
  let search := ruletreeFindInodestat db.server.tree db.inodestatsBintreeRoot
    (ruletreeInitInodestatHandle inode.1 inode.2)
  ({ db with
      inodestatsBintreeRoot := search.root
      remembered := .inr (db.find_root inode) },
    search.istat)

@[simp] theorem find_istat (inode : Inode) : (db.find inode).2 = db.lookUp inode := by
  obtain ⟨t, sound⟩ := db.sound
  show db.server.tree.lookUp db.inodestatsBintreeRoot inode =
    db.server.tree.lookUp db.server.inodestatsBintreeRoot inode
  rw [← sound.holds.lookUp_root db.remembered, sound.holds.lookUp_root sound.root]

theorem handled (command : FileinfoCommand) :
    db.server.Handled (db.server.handle command).1 command := by
  obtain ⟨t, sound⟩ := db.sound
  exact sound.handle command

def send (command : FileinfoCommand) : VpermDb where
  server := (db.server.handle command).1
  inodestatsBintreeRoot := db.inodestatsBintreeRoot
  sound := (db.handled command).sound
  remembered := by
    rcases db.remembered with zero | root
    · exact .inl zero
    · exact (db.handled command).root.imp root.trans root.trans
  counted fits := (db.handled command).active_le fits
    (db.counted ((db.handled command).stored_le.trans_lt fits))

theorem send_lookUp (command : FileinfoCommand) :
    (db.send command).lookUp = db.lookUp.step command := (db.handled command).lookUp

theorem send_lookUp_self (command : FileinfoCommand) :
    (db.send command).lookUp command.inode = command.apply (db.lookUp command.inode) := by
  rw [send_lookUp, InodeMap.step, Function.update_self]

theorem send_lookUp_of_ne {inode : Inode} (other : inode ≠ command.inode) :
    (db.send command).lookUp inode = db.lookUp inode := by
  rw [send_lookUp, InodeMap.step, Function.update_of_ne other]

theorem send_numActiveInodestats (command : FileinfoCommand) :
    (db.send command).numActiveInodestats =
      command.counted (db.lookUp command.inode) db.numActiveInodestats :=
  (db.handled command).counter

/-- The database of a session that begins: a file without records. -/
def empty (file : RuletreeFile) (noRecords : ∀ offs, file.inodestatAt offs = none) : VpermDb where
  server := .empty file
  inodestatsBintreeRoot := 0
  sound := ⟨.leaf, RuletreeServer.empty_sound file⟩
  remembered := .inl rfl
  counted _ := (activeInodestats_eq_zero_iff.2 fun offs => congrArg isActive (noRecords offs)).le

/-- If the record of the inode is active, the counter lets a process see it. -/
def Reveals (inode : Inode) : Prop :=
  isActive (db.lookUp inode) = true → 0 < db.numActiveInodestats

variable {db}

theorem reveals (fits : db.stored < 2 ^ 32) (inode : Inode) : db.Reveals inode := by
  obtain ⟨t, sound⟩ := db.sound
  intro active
  rw [Nat.pos_iff_ne_zero]
  intro zero
  have none : db.server.tree.file.activeInodestats = 0 :=
    Nat.le_zero.1 ((db.counted fits).trans_eq zero)
  exact absurd active (Bool.eq_false_iff.1 (sound.isActive_lookUp none inode))

theorem Reveals.send (h : db.Reveals command.inode) : (db.send command).Reveals command.inode := by
  have inc (n : Nat) : 0 < incCount n := by
    rw [incCount]
    split <;> omega
  intro active
  rw [send_lookUp_self] at active
  rw [send_numActiveInodestats]
  rcases command.counted_cases (db.lookUp command.inode) db.numActiveInodestats with
    ⟨-, -, -, inactive⟩ | ⟨-, ⟨same, stays⟩ | ⟨more, -, -⟩ | ⟨-, -, inactive⟩⟩
  · rw [inactive] at active
    cases active
  · rw [same]
    exact h (stays ▸ active)
  · rw [more]
    exact inc _
  · rw [inactive] at active
    cases active

end VpermDb

/-! ## Files -/

/-- What the operating system keeps for a file. -/
structure FileAttributes where
  mode : BitVec 32
  nlink : Nat
  uid : BitVec 32
  gid : BitVec 32
  rdev : BitVec 64
  deriving DecidableEq

structure Stat extends FileAttributes where
  dev : BitVec 64
  ino : BitVec 64
  deriving DecidableEq

def Stat.inode (buf : Stat) : Inode := (buf.dev, buf.ino)

/-- `errno` after a real call: `0` if it succeeded. -/
def errnoOf {α : Type} : Except Errno α → Option Errno
  | .ok _ => none
  | .error err => some err

def atSymlinkNofollow : Nat := 0x100

/-- How a call names a file: by a path, relative to a directory, or by a descriptor. -/
inductive FileRef
  | path (dirfd : Int) (path : CStr) (flags : Nat)
  | descriptor (fd : Int)
  deriving DecidableEq

structure RealFiles where
  resolve : FileRef → Except Errno Inode
  attributes : Inode → FileAttributes

namespace RealFiles

variable (files : RealFiles)

def statOf (inode : Inode) : Stat :=
  { files.attributes inode with dev := inode.1, ino := inode.2 }

@[simp] theorem statOf_inode (inode : Inode) : (files.statOf inode).inode = inode := rfl

def stat (ref : FileRef) : Except Errno Stat := (files.resolve ref).map files.statOf

theorem stat_of_resolve {ref : FileRef} {inode : Inode} (target : files.resolve ref = .ok inode) :
    files.stat ref = .ok (files.statOf inode) := by
  rw [stat, target]
  rfl

def change (inode : Inode) (f : FileAttributes → FileAttributes) : RealFiles :=
  { files with attributes := Function.update files.attributes inode (f (files.attributes inode)) }

@[simp] theorem change_attributes (inode : Inode) (f : FileAttributes → FileAttributes) :
    (files.change inode f).attributes inode = f (files.attributes inode) :=
  Function.update_self ..

end RealFiles

/-! ## The virtualized stat -/

namespace InodeSimu

variable (istat : InodeSimu)

def shownId (field simulated : BitVec 32) (unknown : Option (BitVec 32)) (real : BitVec 32) :
    BitVec 32 :=
  if istat.activeFields &&& field ≠ 0 then simulated else unknown.getD real

/-- The mode that is shown: permissions, then the set-id bits, then the type. -/
def shownMode (mode : BitVec 32) : BitVec 32 :=
  let mode :=
    if istat.activeFields &&& simMode ≠ 0 then mode &&& sIfmt ||| istat.mode &&& ~~~sIfmt
    else mode
  let mode :=
    if istat.activeFields &&& simSuidsgid ≠ 0 then
      mode &&& ~~~(sIsuid ||| sIsgid) ||| istat.suidsgid &&& (sIsuid ||| sIsgid)
    else mode
  if istat.activeFields &&& simDevnode ≠ 0 then mode &&& ~~~sIfmt ||| istat.devmode &&& sIfmt
  else mode

def shownRdev (rdev : BitVec 64) : BitVec 64 :=
  if istat.activeFields &&& simDevnode ≠ 0 then istat.rdev else rdev

/-- The part of `i_virtualize_struct_stat_internal` for an inode with a record, with the
number of the changes. -/
def virtualize (unknown : Option (BitVec 32 × BitVec 32)) (buf : Stat) : Stat × Nat :=
  let simulated (field : BitVec 32) : Bool := istat.activeFields &&& field != 0
  ({ buf with
      uid := istat.shownId simUid istat.uid (unknown.map Prod.fst) buf.uid
      gid := istat.shownId simGid istat.gid (unknown.map Prod.snd) buf.gid
      mode := istat.shownMode buf.mode
      rdev := istat.shownRdev buf.rdev },
    [simulated simUid || unknown.isSome, simulated simGid || unknown.isSome, simulated simMode,
      simulated simSuidsgid, simulated simDevnode].count true)

end InodeSimu

/-- The part for an inode without a record. -/
def virtualizeUnknown (unknown : Option (BitVec 32 × BitVec 32)) (buf : Stat) : Stat × Nat :=
  match unknown with
  | some (owner, group) => ({ buf with uid := owner, gid := group }, 2)
  | none => (buf, 0)

structure VpermState where
  db : VpermDb
  source : IdSource
  ids : SimulatedIds

def VpermState.send (vperm : VpermState) (command : FileinfoCommand) : VpermState :=
  { vperm with db := vperm.db.send command }

def VpermState.initializeIds (vperm : VpermState) : VpermState :=
  { vperm with ids := initializeSimulatedIds vperm.source vperm.ids }

/-- `i_virtualize_struct_stat_internal`. -/
def iVirtualizeStructStat (vperm : VpermState) (buf : Stat) : VpermState × Stat × Nat :=
  let unknown := vpermSetOwnerAndGroupOfUnknownFiles vperm.ids
  if 0 < vperm.db.numActiveInodestats then
    let found := vperm.db.find buf.inode
    ({ vperm with db := found.1 },
      match found.2 with
      | some istat => istat.virtualize unknown buf
      | none => virtualizeUnknown unknown buf)
  else (vperm, virtualizeUnknown unknown buf)

/-- A process with the library, and the files. -/
structure Machine where
  vperm : VpermState
  files : RealFiles

def Machine.shown (machine : Machine) (inode : Inode) : Stat :=
  (iVirtualizeStructStat machine.vperm (machine.files.statOf inode)).2.1

/-! ## What is shown -/

def permBits : BitVec 32 := 0o1777#32

namespace InodeSimu

variable {istat : InodeSimu} {unknown : Option (BitVec 32 × BitVec 32)} {buf : Stat}

theorem shownMode_perm (mode : BitVec 32) :
    istat.shownMode mode &&& permBits =
      (if istat.activeFields &&& simMode ≠ 0 then istat.mode else mode) &&& permBits := by
  unfold shownMode permBits sIfmt sIsuid sIsgid
  split_ifs <;> simp [BitVec.and_or_distrib_right, BitVec.and_assoc]

theorem shownMode_suidSgid (mode : BitVec 32) :
    istat.shownMode mode &&& (sIsuid ||| sIsgid) =
      (if istat.activeFields &&& simSuidsgid ≠ 0 then istat.suidsgid
        else if istat.activeFields &&& simMode ≠ 0 then istat.mode else mode) &&&
        (sIsuid ||| sIsgid) := by
  unfold shownMode sIfmt sIsuid sIsgid
  split_ifs <;> simp [BitVec.and_or_distrib_right, BitVec.and_assoc]

theorem shownMode_type (mode : BitVec 32) :
    istat.shownMode mode &&& sIfmt =
      (if istat.activeFields &&& simDevnode ≠ 0 then istat.devmode else mode) &&& sIfmt := by
  unfold shownMode sIfmt sIsuid sIsgid
  split_ifs <;> simp [BitVec.and_or_distrib_right, BitVec.and_assoc]

theorem virtualize_of_inactive (inactive : istat.activeFields = 0) :
    istat.virtualize unknown buf = virtualizeUnknown unknown buf := by
  have clear (field : BitVec 32) : istat.activeFields &&& field = 0 := by
    rw [inactive]
    exact BitVec.zero_and
  cases unknown <;>
    simp [virtualize, virtualizeUnknown, shownId, shownMode, shownRdev, clear]

end InodeSimu

/-- What was found for an inode, or a record in which nothing is active. -/
def recordOr (inode : Inode) (found : Option InodeSimu) : InodeSimu :=
  found.getD { dev := inode.1, ino := inode.2 }

def Machine.record (machine : Machine) (inode : Inode) : InodeSimu :=
  recordOr inode (machine.vperm.db.lookUp inode)

/-- The record that a process finds, or one in which nothing is active. -/
def Machine.seen (machine : Machine) (inode : Inode) : InodeSimu :=
  recordOr inode
    (if 0 < machine.vperm.db.numActiveInodestats then machine.vperm.db.lookUp inode else none)

section Shown

variable {machine : Machine} {inode : Inode}

theorem Machine.shown_seen (machine : Machine) (inode : Inode) :
    machine.shown inode = ((machine.seen inode).virtualize
      (vpermSetOwnerAndGroupOfUnknownFiles machine.vperm.ids) (machine.files.statOf inode)).1 := by
  rw [Machine.shown, iVirtualizeStructStat, Machine.seen]
  dsimp only
  rw [VpermDb.find_istat, RealFiles.statOf_inode]
  split
  · cases machine.vperm.db.lookUp inode with
    | none => exact congrArg Prod.fst (InodeSimu.virtualize_of_inactive rfl).symm
    | some istat => rfl
  · exact congrArg Prod.fst (InodeSimu.virtualize_of_inactive rfl).symm

theorem Machine.record_inactive (visible : machine.vperm.db.Reveals inode)
    (zero : ¬ 0 < machine.vperm.db.numActiveInodestats) :
    (machine.record inode).activeFields = 0 := by
  have inactive : isActive (machine.vperm.db.lookUp inode) = false :=
    Bool.eq_false_iff.2 fun active => zero (visible active)
  rw [Machine.record]
  cases found : machine.vperm.db.lookUp inode with
  | none => rfl
  | some istat =>
    rw [found, ← Bool.not_eq_true, isActive_some_iff, not_not] at inactive
    exact inactive

/-- A file is shown as its record says. -/
theorem Machine.shown_eq (visible : machine.vperm.db.Reveals inode) :
    machine.shown inode = ((machine.record inode).virtualize
      (vpermSetOwnerAndGroupOfUnknownFiles machine.vperm.ids) (machine.files.statOf inode)).1 := by
  rw [Machine.shown_seen, Machine.seen]
  split
  · rfl
  · -- The process does not look, and would find nothing that is active.
    rename_i zero
    rw [InodeSimu.virtualize_of_inactive rfl,
      InodeSimu.virtualize_of_inactive (Machine.record_inactive visible zero)]

/-- Two states in which the same is found for every inode. -/
structure VpermState.Alike (vperm vperm' : VpermState) : Prop where
  lookUp : vperm'.db.lookUp = vperm.db.lookUp
  counter : vperm'.db.numActiveInodestats = vperm.db.numActiveInodestats

theorem VpermState.Alike.reveals {vperm vperm' : VpermState} (alike : vperm.Alike vperm')
    (visible : vperm.db.Reveals inode) : vperm'.db.Reveals inode := by
  rw [VpermDb.Reveals, alike.lookUp, alike.counter]
  exact visible

end Shown

/-- A session that begins: one file, with the given mode, for every name. -/
def oneFile (ids : IdSource) (mode : BitVec 32) : Machine where
  vperm := ⟨.empty .create create_inodestatAt, ids, .initial⟩
  files := ⟨fun _ => .ok (1, 1), fun _ => ⟨mode, 1, 1000, 1000, 0⟩⟩

def plainUser : IdSource := ⟨none, 1000, 1000, 1000, 1000⟩

end Scratchbox
