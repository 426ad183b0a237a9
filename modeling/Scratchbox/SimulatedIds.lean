import Mathlib.Algebra.Group.Int.Defs
import Mathlib.Data.Finset.Insert
import Scratchbox.Dotdots

/-!
# Simulated user and group ids

`vperm_uid_gid_gates.c`: the ids that a process sees are variables of the library. They
are filled when one of the gates first needs them, from `SBOX_VPERM_IDS` or from the
operating system, and the `set*id` calls change only them.

A process whose user ids are not `0` gains nothing by such calls: its real, effective
and saved ids always are among those it had (`ids_never_grow`).
-/

namespace Scratchbox

/-! ## The variables -/

/-- The real, effective, saved and file system id of a user or of a group. -/
structure IdGroup where
  real : BitVec 32
  eff : BitVec 32
  saved : BitVec 32
  fs : BitVec 32
  deriving DecidableEq

/-- `vperm_simulated_ids`, with `v_real_euid` and `v_real_egid`. -/
structure SimulatedIds where
  initialized : Bool
  uids : IdGroup
  gids : IdGroup
  setOwnerAndGroupOfUnknownFiles : Bool
  unknownFileOwner : BitVec 32
  unknownFileGroup : BitVec 32
  simulateRootFsPermissions : Bool
  realEuid : BitVec 32
  realEgid : BitVec 32
  deriving DecidableEq

/-- What the variables are filled from: `sbox_vperm_ids`, and the ids of the process in
the operating system. -/
structure IdSource where
  sboxVpermIds : Option CStr
  uid : BitVec 32
  euid : BitVec 32
  gid : BitVec 32
  egid : BitVec 32

/-- The variables when the library is loaded. -/
def SimulatedIds.initial : SimulatedIds where
  initialized := false
  uids := ⟨0, 0, 0, 0⟩
  gids := ⟨0, 0, 0, 0⟩
  setOwnerAndGroupOfUnknownFiles := false
  unknownFileOwner := 0
  unknownFileGroup := 0
  simulateRootFsPermissions := true
  realEuid := 0
  realEgid := 0

/-! ## `sscanf` -/

def strchr (text : CStr) (c : Char) : Option CStr :=
  match text.dropWhile (· ≠ c) with
  | [] => none
  | rest => some rest

def isSpace (c : Char) : Bool := c = ' ' || ('\t' ≤ c && c ≤ '\r')

/-- A character of a format that stands for itself. -/
def scanChar (c : Char) : CStr → Option CStr
  | [] => none
  | d :: text => if d = c then some text else none

/-- The conversion `%d`: the number is read as a `long`, and stored in an `int`. -/
def scanInt (text : CStr) : Option (BitVec 32 × CStr) :=
  let text := text.dropWhile isSpace
  let (negative, text) := match text with
    | '-' :: rest => (true, rest)
    | '+' :: rest => (false, rest)
    | _ => (false, text)
  let digits := text.takeWhile Char.isDigit
  if digits = [] then none
  else
    let magnitude : Int := digits.foldl (fun n d => 10 * n + (d.toNat - '0'.toNat)) 0
    let value : Int := if negative then -magnitude else magnitude
    some (BitVec.ofInt 32 (max (-2 ^ 63) (min (2 ^ 63 - 1) value)), text.dropWhile Char.isDigit)

/-- `sscanf(text, "u%d:%d:%d:%d", …) == 4`, for one of the letters `u` and `g`. -/
def scanIdGroup (letter : Char) (text : CStr) : Option IdGroup := do
  let text ← scanChar letter text
  let (real, text) ← scanInt text
  let text ← scanChar ':' text
  let (eff, text) ← scanInt text
  let text ← scanChar ':' text
  let (saved, text) ← scanInt text
  let text ← scanChar ':' text
  let (fs, _) ← scanInt text
  some ⟨real, eff, saved, fs⟩

/-- `sscanf(text, "f%d.%d", …) == 2`. -/
def scanUnknownFiles (text : CStr) : Option (BitVec 32 × BitVec 32) := do
  let text ← scanChar 'f' text
  let (owner, text) ← scanInt text
  let text ← scanChar '.' text
  let (group, _) ← scanInt text
  some (owner, group)

/-! ## Initialization and reading -/

def initializeSimulatedIds (source : IdSource) (ids : SimulatedIds) : SimulatedIds :=
  if ids.initialized then ids
  else
    let find (c : Char) : Option CStr := source.sboxVpermIds.bind (strchr · c)
    let uids := ((find 'u').bind (scanIdGroup 'u')).getD
      ⟨source.uid, source.euid, source.euid, source.uid⟩
    let gids := ((find 'g').bind (scanIdGroup 'g')).getD
      ⟨source.gid, source.egid, source.egid, source.gid⟩
    let unknown := (find 'f').bind scanUnknownFiles
    { initialized := true
      uids := uids
      gids := gids
      setOwnerAndGroupOfUnknownFiles := unknown.isSome || ids.setOwnerAndGroupOfUnknownFiles
      unknownFileOwner := (unknown.map Prod.fst).getD ids.unknownFileOwner
      unknownFileGroup := (unknown.map Prod.snd).getD ids.unknownFileGroup
      simulateRootFsPermissions :=
        if (find 'p').isSome then false else ids.simulateRootFsPermissions
      realEuid := source.euid
      realEgid := source.egid }

def vpermGeteuid (source : IdSource) (ids : SimulatedIds) : BitVec 32 :=
  (initializeSimulatedIds source ids).uids.eff

def vpermGetegid (source : IdSource) (ids : SimulatedIds) : BitVec 32 :=
  (initializeSimulatedIds source ids).gids.eff

def vpermUidOrGidVirtualizationIsActive (source : IdSource) (ids : SimulatedIds) : Bool :=
  let ids := initializeSimulatedIds source ids
  ids.realEuid != ids.uids.eff || ids.realEgid != ids.gids.eff

def vpermSimulateRootFsPermissions (source : IdSource) (ids : SimulatedIds) : Bool :=
  (initializeSimulatedIds source ids).simulateRootFsPermissions

/-- `vperm_set_owner_and_group_of_unknown_files`: this one does not initialize the
variables. -/
def vpermSetOwnerAndGroupOfUnknownFiles (ids : SimulatedIds) : Option (BitVec 32 × BitVec 32) :=
  if ids.setOwnerAndGroupOfUnknownFiles then some (ids.unknownFileOwner, ids.unknownFileGroup)
  else none

/-! ## The gates that set ids -/

/-- `(uid_t)-1`: an id that is not to be changed. -/
def unchangedId : BitVec 32 := -1

def IdGroup.test3Id (ids : IdGroup) (id : BitVec 32) : Bool :=
  id == ids.real || id == ids.eff || id == ids.saved

def idOr (id old : BitVec 32) : BitVec 32 := if id ≠ unchangedId then id else old

/-- `SET_RES_IDS_GATE`: the file system id is set even if the effective id is not. -/
def IdGroup.setResIds (ids : IdGroup) (privileged : Bool) (rId eId sId : BitVec 32) :
    Except Errno IdGroup :=
  let permitted (id : BitVec 32) : Bool := privileged || id == unchangedId || ids.test3Id id
  if permitted rId && permitted eId && permitted sId then
    .ok { real := idOr rId ids.real
          eff := idOr eId ids.eff
          saved := idOr sId ids.saved
          fs := eId }
  else .error .EPERM

/-- `setuid_gate` and `setgid_gate`; `root` tells if the effective user id is `0`. -/
def IdGroup.setId (ids : IdGroup) (privileged root : Bool) (id : BitVec 32) :
    Except Errno IdGroup :=
  if privileged || ids.test3Id id then
    .ok { real := if root then id else ids.real
          eff := id
          saved := if root then id else ids.saved
          fs := id }
  else .error .EPERM

/-- `SET_FS_ID_GATE`. -/
def IdGroup.setFsId (ids : IdGroup) (privileged : Bool) (id : BitVec 32) : IdGroup :=
  if privileged || ids.test3Id id || id == ids.fs then { ids with fs := id } else ids

inductive IdCall
  | setuid (uid : BitVec 32)
  | seteuid (euid : BitVec 32)
  | setreuid (ruid euid : BitVec 32)
  | setresuid (ruid euid suid : BitVec 32)
  | setfsuid (fsuid : BitVec 32)
  | setgid (gid : BitVec 32)
  | setegid (egid : BitVec 32)
  | setregid (rgid egid : BitVec 32)
  | setresgid (rgid egid sgid : BitVec 32)
  | setfsgid (fsgid : BitVec 32)
  deriving DecidableEq

namespace SimulatedIds

variable (ids : SimulatedIds)

/-- The test for root of all these gates, also of those for groups. -/
def privileged : Bool := ids.uids.real == 0 || ids.uids.eff == 0

def root : Bool := ids.uids.eff == 0

/-- New user ids, if they could be set: the variables, and what the gate returns. -/
def withUids : Except Errno IdGroup → SimulatedIds × Except Errno (BitVec 32)
  | .ok uids => ({ ids with uids := uids }, .ok 0)
  | .error err => (ids, .error err)

def withGids : Except Errno IdGroup → SimulatedIds × Except Errno (BitVec 32)
  | .ok gids => ({ ids with gids := gids }, .ok 0)
  | .error err => (ids, .error err)

/-- `setresuid_gate`, when the variables are filled. -/
def setresuidGate (ruid euid suid : BitVec 32) : SimulatedIds × Except Errno (BitVec 32) :=
  ids.withUids (ids.uids.setResIds ids.privileged ruid euid suid)

def setresgidGate (rgid egid sgid : BitVec 32) : SimulatedIds × Except Errno (BitVec 32) :=
  ids.withGids (ids.gids.setResIds ids.privileged rgid egid sgid)

/-- The gates, when the variables are filled. `setfsuid` and `setfsgid` give the id that
is in force afterwards. -/
def call : IdCall → SimulatedIds × Except Errno (BitVec 32)
  | .setuid uid => ids.withUids (ids.uids.setId ids.privileged ids.root uid)
  | .seteuid euid => ids.setresuidGate unchangedId euid unchangedId
  | .setreuid ruid euid => ids.setresuidGate ruid euid unchangedId
  | .setresuid ruid euid suid => ids.setresuidGate ruid euid suid
  | .setfsuid fsuid =>
    let uids := ids.uids.setFsId ids.privileged fsuid
    ({ ids with uids := uids }, .ok uids.fs)
  | .setgid gid => ids.withGids (ids.gids.setId ids.privileged ids.root gid)
  | .setegid egid => ids.setresgidGate unchangedId egid unchangedId
  | .setregid rgid egid => ids.setresgidGate rgid egid unchangedId
  | .setresgid rgid egid sgid => ids.setresgidGate rgid egid sgid
  | .setfsgid fsgid =>
    let gids := ids.gids.setFsId ids.privileged fsgid
    ({ ids with gids := gids }, .ok gids.fs)

end SimulatedIds

/-- A gate, with the initialization at its beginning. -/
def idGate (source : IdSource) (ids : SimulatedIds) (call : IdCall) :
    SimulatedIds × Except Errno (BitVec 32) :=
  (initializeSimulatedIds source ids).call call

def runIdCalls (source : IdSource) (ids : SimulatedIds) : List IdCall → SimulatedIds
  | [] => ids
  | call :: calls => runIdCalls source (idGate source ids call).1 calls

/-! ## What a call can do -/

def IdGroup.members (ids : IdGroup) : Finset (BitVec 32) := {ids.real, ids.eff, ids.saved}

theorem IdGroup.test3Id_iff {ids : IdGroup} {id : BitVec 32} :
    ids.test3Id id = true ↔ id ∈ ids.members := by
  simp [test3Id, members, or_assoc]

theorem IdGroup.members_subset_iff {ids : IdGroup} {s : Finset (BitVec 32)} :
    ids.members ⊆ s ↔ ids.real ∈ s ∧ ids.eff ∈ s ∧ ids.saved ∈ s := by
  simp [members, Finset.insert_subset_iff]

theorem IdGroup.real_mem (ids : IdGroup) : ids.real ∈ ids.members := by simp [members]

theorem IdGroup.eff_mem (ids : IdGroup) : ids.eff ∈ ids.members := by simp [members]

theorem IdGroup.saved_mem (ids : IdGroup) : ids.saved ∈ ids.members := by simp [members]

/-- An id that an unprivileged process may ask for is one of its own, or none. -/
theorem idOr_mem {ids : IdGroup} {id old : BitVec 32}
    (permitted : (false || id == unchangedId || ids.test3Id id) = true)
    (oldMember : old ∈ ids.members) : idOr id old ∈ ids.members := by
  rw [Bool.false_or, Bool.or_eq_true, beq_iff_eq, IdGroup.test3Id_iff] at permitted
  by_cases unchanged : id = unchangedId
  · rw [idOr, if_neg (not_not.mpr unchanged)]
    exact oldMember
  · rw [idOr, if_pos unchanged]
    exact permitted.resolve_left unchanged

theorem IdGroup.setResIds_members {ids new : IdGroup} {rId eId sId : BitVec 32}
    (set : ids.setResIds false rId eId sId = .ok new) : new.members ⊆ ids.members := by
  simp only [setResIds] at set
  split at set
  case isTrue permitted =>
    cases set
    simp only [Bool.and_eq_true] at permitted
    obtain ⟨⟨rPermitted, ePermitted⟩, sPermitted⟩ := permitted
    exact members_subset_iff.mpr ⟨idOr_mem rPermitted ids.real_mem,
      idOr_mem ePermitted ids.eff_mem, idOr_mem sPermitted ids.saved_mem⟩
  case isFalse => cases set

theorem IdGroup.setId_members {ids new : IdGroup} {id : BitVec 32}
    (set : ids.setId false false id = .ok new) : new.members ⊆ ids.members := by
  simp only [setId] at set
  split at set
  case isTrue permitted =>
    cases set
    rw [Bool.false_or, test3Id_iff] at permitted
    exact members_subset_iff.mpr ⟨ids.real_mem, permitted, ids.saved_mem⟩
  case isFalse => cases set

theorem IdGroup.setFsId_members (ids : IdGroup) (privileged : Bool) (id : BitVec 32) :
    (ids.setFsId privileged id).members = ids.members := by
  simp only [setFsId]
  split <;> rfl

namespace SimulatedIds

structure Within (new ids : SimulatedIds) : Prop where
  uids : new.uids.members ⊆ ids.uids.members
  gids : new.gids.members ⊆ ids.gids.members

theorem Within.refl (ids : SimulatedIds) : ids.Within ids := ⟨subset_rfl, subset_rfl⟩

theorem Within.trans {first second third : SimulatedIds} (new : third.Within second)
    (old : second.Within first) : third.Within first :=
  ⟨new.uids.trans old.uids, new.gids.trans old.gids⟩

variable {ids : SimulatedIds} {set : Except Errno IdGroup} {err : Errno}

theorem privileged_eq_false (nonzero : 0 ∉ ids.uids.members) : ids.privileged = false := by
  have real : ids.uids.real ≠ 0 := fun zero => nonzero (zero ▸ ids.uids.real_mem)
  have eff : ids.uids.eff ≠ 0 := fun zero => nonzero (zero ▸ ids.uids.eff_mem)
  exact Bool.or_eq_false_iff.mpr ⟨beq_false_of_ne real, beq_false_of_ne eff⟩

theorem root_eq_false (nonzero : 0 ∉ ids.uids.members) : ids.root = false := by
  exact beq_false_of_ne fun zero => nonzero (zero ▸ ids.uids.eff_mem)

theorem withUids_within (members : ∀ new, set = .ok new → new.members ⊆ ids.uids.members) :
    (ids.withUids set).1.Within ids := by
  cases set with
  | ok new => exact ⟨members new rfl, subset_rfl⟩
  | error err => exact Within.refl ids

theorem withGids_within (members : ∀ new, set = .ok new → new.members ⊆ ids.gids.members) :
    (ids.withGids set).1.Within ids := by
  cases set with
  | ok new => exact ⟨subset_rfl, members new rfl⟩
  | error err => exact Within.refl ids

theorem setresuidGate_within (nonzero : 0 ∉ ids.uids.members) (ruid euid suid : BitVec 32) :
    (ids.setresuidGate ruid euid suid).1.Within ids := by
  rw [setresuidGate, privileged_eq_false nonzero]
  exact withUids_within fun _ set => IdGroup.setResIds_members set

theorem setresgidGate_within (nonzero : 0 ∉ ids.uids.members) (rgid egid sgid : BitVec 32) :
    (ids.setresgidGate rgid egid sgid).1.Within ids := by
  rw [setresgidGate, privileged_eq_false nonzero]
  exact withGids_within fun _ set => IdGroup.setResIds_members set

theorem call_within (nonzero : 0 ∉ ids.uids.members) (call : IdCall) :
    (ids.call call).1.Within ids := by
  cases call with
  | setuid uid =>
    rw [SimulatedIds.call, privileged_eq_false nonzero, root_eq_false nonzero]
    exact withUids_within fun _ set => IdGroup.setId_members set
  | seteuid euid => exact setresuidGate_within nonzero _ _ _
  | setreuid ruid euid => exact setresuidGate_within nonzero _ _ _
  | setresuid ruid euid suid => exact setresuidGate_within nonzero _ _ _
  | setfsuid fsuid => exact ⟨(IdGroup.setFsId_members _ _ _).subset, subset_rfl⟩
  | setgid gid =>
    rw [SimulatedIds.call, privileged_eq_false nonzero, root_eq_false nonzero]
    exact withGids_within fun _ set => IdGroup.setId_members set
  | setegid egid => exact setresgidGate_within nonzero _ _ _
  | setregid rgid egid => exact setresgidGate_within nonzero _ _ _
  | setresgid rgid egid sgid => exact setresgidGate_within nonzero _ _ _
  | setfsgid fsgid => exact ⟨subset_rfl, (IdGroup.setFsId_members _ _ _).subset⟩

theorem withUids_of_error
    (failed : (ids.withUids set).2 = .error err) : (ids.withUids set).1 = ids := by
  cases set with
  | ok new => cases failed
  | error err => rfl

theorem withGids_of_error
    (failed : (ids.withGids set).2 = .error err) : (ids.withGids set).1 = ids := by
  cases set with
  | ok new => cases failed
  | error err => rfl

theorem call_of_error {call : IdCall}
    (failed : (ids.call call).2 = .error err) : (ids.call call).1 = ids := by
  cases call with
  | setuid | seteuid | setreuid | setresuid => exact withUids_of_error failed
  | setgid | setegid | setregid | setresgid => exact withGids_of_error failed
  | setfsuid | setfsgid => cases failed

theorem call_initialized (call : IdCall) : (ids.call call).1.initialized = ids.initialized := by
  have uids (set : Except Errno IdGroup) :
      (ids.withUids set).1.initialized = ids.initialized := by cases set <;> rfl
  have gids (set : Except Errno IdGroup) :
      (ids.withGids set).1.initialized = ids.initialized := by cases set <;> rfl
  cases call with
  | setuid | seteuid | setreuid | setresuid => exact uids _
  | setgid | setegid | setregid | setresgid => exact gids _
  | setfsuid | setfsgid => rfl

end SimulatedIds

/-! ## Runs -/

section Runs

variable {source : IdSource} {ids : SimulatedIds}

theorem initializeSimulatedIds_of_initialized (filled : ids.initialized = true) :
    initializeSimulatedIds source ids = ids := by
  rw [initializeSimulatedIds, if_pos filled]

theorem initializeSimulatedIds_initialized :
    (initializeSimulatedIds source ids).initialized = true := by
  cases filled : ids.initialized with
  | true => rw [initializeSimulatedIds_of_initialized filled, filled]
  | false => simp [initializeSimulatedIds, filled]

theorem initialize_idGate (call : IdCall) :
    initializeSimulatedIds source (idGate source ids call).1 = (idGate source ids call).1 := by
  apply initializeSimulatedIds_of_initialized
  rw [idGate, SimulatedIds.call_initialized, initializeSimulatedIds_initialized]

theorem runIdCalls_within (calls : List IdCall)
    (nonzero : 0 ∉ (initializeSimulatedIds source ids).uids.members) :
    (initializeSimulatedIds source (runIdCalls source ids calls)).Within
      (initializeSimulatedIds source ids) := by
  induction calls generalizing ids with
  | nil => exact SimulatedIds.Within.refl _
  | cons call calls ih =>
    have step : (idGate source ids call).1.Within (initializeSimulatedIds source ids) :=
      SimulatedIds.call_within nonzero call
    have still : 0 ∉ (initializeSimulatedIds source (idGate source ids call).1).uids.members := by
      rw [initialize_idGate]
      exact fun zero => nonzero (step.uids zero)
    have rest := ih still
    rw [initialize_idGate] at rest
    exact rest.trans step

/-- A process whose real, effective and saved user ids are not `0` only ever has ids that
it had before, and a call that fails changes nothing. -/
theorem ids_never_grow (source : IdSource) (ids : SimulatedIds)
    (real : (initializeSimulatedIds source ids).uids.real ≠ 0)
    (eff : (initializeSimulatedIds source ids).uids.eff ≠ 0)
    (saved : (initializeSimulatedIds source ids).uids.saved ≠ 0) (calls : List IdCall) :
    let before := initializeSimulatedIds source ids
    let after := initializeSimulatedIds source (runIdCalls source ids calls)
    after.uids.members ⊆ before.uids.members ∧ 0 ∉ after.uids.members ∧
      after.gids.members ⊆ before.gids.members ∧
      ∀ call err, (idGate source (runIdCalls source ids calls) call).2 = .error err →
        (idGate source (runIdCalls source ids calls) call).1 = after := by
  have nonzero : 0 ∉ (initializeSimulatedIds source ids).uids.members := by
    simp only [IdGroup.members, Finset.mem_insert, Finset.mem_singleton]
    rintro (zero | zero | zero)
    exacts [real zero.symm, eff zero.symm, saved zero.symm]
  have within := runIdCalls_within calls nonzero
  exact ⟨within.uids, fun zero => nonzero (within.uids zero), within.gids,
    fun _ _ failed => SimulatedIds.call_of_error failed⟩

/-- A user's process that the calls first fill the variables of, and that then tries to
become root. -/
theorem ids_never_grow_user :
    let source : IdSource := ⟨none, 1000, 1000, 100, 100⟩
    let calls := [IdCall.setresuid 0 0 0, .setuid 1000, .setgid 0]
    let after := initializeSimulatedIds source (runIdCalls source .initial calls)
    after.uids.members ⊆ {1000} ∧ 0 ∉ after.uids.members ∧ after.gids.members ⊆ {100} ∧
      ∀ call err, (idGate source (runIdCalls source .initial calls) call).2 = .error err →
        (idGate source (runIdCalls source .initial calls) call).1 = after :=
  ids_never_grow ⟨none, 1000, 1000, 100, 100⟩ .initial (by decide) (by decide) (by decide)
    [.setresuid 0 0 0, .setuid 1000, .setgid 0]

end Runs

end Scratchbox
