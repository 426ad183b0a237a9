import Scratchbox.Lib.Histories
import Scratchbox.SimulatedIds

/-!
# Dropped root rights, and file system ids

Two laws of Linux about runs of the `set*id` calls, which the simulated ids do not always obey.

* After `setreuid(u, u)` root is gone for good, because the saved id follows. The simulated saved id
  does not (`setreuid_permanent_iff`).
* The file system id is the effective id, unless `setfsuid` or `setfsgid` are used. The simulated
  one becomes `-1` when a call leaves the effective id unchanged (`fs_follows_iff`).
-/

namespace Scratchbox

open SimulatedIds

variable {source : IdSource} {ids : SimulatedIds} {privileged : Bool} {id : BitVec 32}

def IdGroup.mayBecome (ids : IdGroup) (privileged : Bool) (id : BitVec 32) : Bool :=
  privileged || id == unchangedId || ids.test3Id id

theorem IdGroup.setResIds_eq (ids : IdGroup) (privileged : Bool) (rId eId sId : BitVec 32) :
    ids.setResIds privileged rId eId sId =
      if ids.mayBecome privileged rId && ids.mayBecome privileged eId &&
          ids.mayBecome privileged sId then
        .ok ⟨idOr rId ids.real, idOr eId ids.eff, idOr sId ids.saved, eId⟩
      else .error .EPERM := rfl

@[simp] theorem IdGroup.mayBecome_unchanged (ids : IdGroup) (privileged : Bool) :
    ids.mayBecome privileged unchangedId = true := by
  simp [mayBecome]

@[simp] theorem idOr_unchanged (old : BitVec 32) : idOr unchangedId old = old := rfl

theorem idOr_of_ne (given : id ≠ unchangedId) (old : BitVec 32) : idOr id old = id := if_pos given

theorem runIdCalls_initialized (filled : ids.initialized = true) (calls : List IdCall) :
    (runIdCalls source ids calls).initialized = true := by
  induction calls generalizing ids with
  | nil => exact filled
  | cons call calls ih =>
    refine ih ?_
    rw [idGate, call_initialized, initializeSimulatedIds_initialized]

theorem runIdCalls_concat (calls : List IdCall) (call : IdCall) :
    runIdCalls source ids (calls ++ [call]) =
      (idGate source (runIdCalls source ids calls) call).1 := by
  induction calls generalizing ids with
  | nil => rfl
  | cons first calls ih => exact ih

/-! ## Dropping root -/

theorem SimulatedIds.setresuidGate_root (root : ids.uids.eff = 0) (ruid euid suid : BitVec 32) :
    (ids.setresuidGate ruid euid suid).1.uids =
      ⟨idOr ruid ids.uids.real, idOr euid ids.uids.eff, idOr suid ids.uids.saved, euid⟩ := by
  have privileged : ids.privileged = true := by
    rw [privileged, root]
    exact Bool.or_true _
  rw [setresuidGate, privileged]
  rfl

theorem setreuid_saved (ruid euid : BitVec 32) :
    (idGate source ids (.setreuid ruid euid)).1.uids.saved =
      (initializeSimulatedIds source ids).uids.saved := by
  rw [idGate, call, setresuidGate, IdGroup.setResIds_eq]
  split <;> rfl

theorem seteuid_saved_root (filled : ids.initialized = true) (saved : ids.uids.saved = 0) :
    (idGate source ids (.seteuid 0)).1.uids.eff = 0 := by
  have allowed : ids.uids.mayBecome ids.privileged 0 = true := by
    rw [IdGroup.mayBecome, IdGroup.test3Id, saved]
    simp
  rw [idGate, initializeSimulatedIds_of_initialized filled, call,
    setresuidGate, IdGroup.setResIds_eq, allowed, IdGroup.mayBecome_unchanged]
  rfl

/-- `setreuid(u, u)` by root drops root for good exactly if the saved id is not root's. The call
leaves the saved id as it is. -/
theorem setreuid_permanent_iff (source : IdSource) (ids : SimulatedIds) (u : BitVec 32)
    (nonzero : u ≠ 0) (root : (initializeSimulatedIds source ids).uids.eff = 0) :
    ((∀ calls,
        let after := runIdCalls source (idGate source ids (.setreuid u u)).1 calls
        after.uids.real ≠ 0 ∧ after.uids.eff ≠ 0) ↔
      u ≠ unchangedId ∧ (initializeSimulatedIds source ids).uids.saved ≠ 0) ∧
    ∀ ruid euid, (idGate source ids (.setreuid ruid euid)).1.uids.saved =
      (initializeSimulatedIds source ids).uids.saved := by
  refine ⟨?_, setreuid_saved⟩
  have dropped : (idGate source ids (.setreuid u u)).1.uids = _ :=
    setresuidGate_root root u u unchangedId
  have filled : (idGate source ids (.setreuid u u)).1.initialized = true := by
    rw [idGate, call_initialized, initializeSimulatedIds_initialized]
  generalize (idGate source ids (.setreuid u u)).1 = after at dropped filled
  constructor
  · intro permanent
    constructor
    · rintro rfl
      refine (permanent []).2 ?_
      show after.uids.eff = 0
      rw [dropped]
      exact root
    · intro saved
      -- The saved id is asked for.
      refine (permanent [.seteuid 0]).2 (seteuid_saved_root filled ?_)
      rw [dropped]
      exact saved
  · rintro ⟨given, saved⟩ calls
    rw [idOr_of_ne given, idOr_of_ne given] at dropped
    have none : 0 ∉ after.uids.members := by
      rw [dropped]
      simp only [IdGroup.members, Finset.mem_insert, Finset.mem_singleton]
      rintro (zero | zero | zero)
      exacts [nonzero zero.symm, nonzero zero.symm, saved zero.symm]
    have within : (initializeSimulatedIds source (runIdCalls source after calls)).Within
        (initializeSimulatedIds source after) :=
      runIdCalls_within calls ((initializeSimulatedIds_of_initialized filled).symm ▸ none)
    rw [initializeSimulatedIds_of_initialized filled,
      initializeSimulatedIds_of_initialized (runIdCalls_initialized filled calls)] at within
    constructor
    · exact fun zero => none (within.uids (zero ▸ IdGroup.real_mem _))
    · exact fun zero => none (within.uids (zero ▸ IdGroup.eff_mem _))

def withUserIds (uids : IdGroup) : SimulatedIds :=
  { SimulatedIds.initial with initialized := true, uids := uids }

/-- Where the ids of a process come from that has them already. -/
def noIdSource : IdSource := ⟨none, 1000, 1000, 1000, 1000⟩

/-- Root with the saved id of a user cannot become root again. -/
theorem setreuid_permanent_saved_user :
    let dropped := (idGate noIdSource (withUserIds ⟨0, 0, 1000, 0⟩) (.setreuid 500 500)).1
    let after := runIdCalls noIdSource dropped [.seteuid 1000, .setresuid 0 0 0]
    after.uids.real ≠ 0 ∧ after.uids.eff ≠ 0 :=
  (setreuid_permanent_iff noIdSource (withUserIds ⟨0, 0, 1000, 0⟩) 500 (by decide) (by decide)).1.2
    ⟨by decide, by decide⟩ [.seteuid 1000, .setresuid 0 0 0]

/-- Root drops its rights with `setreuid(1000, 1000)`, and gets them back. -/
theorem root_after_setreuid :
    let dropped := idGate noIdSource (withUserIds ⟨0, 0, 0, 0⟩) (.setreuid 1000 1000)
    let again := idGate noIdSource dropped.1 (.seteuid 0)
    dropped.2 = .ok 0 ∧ dropped.1.uids.eff = 1000 ∧ again.2 = .ok 0 ∧ again.1.uids.eff = 0 := by
  decide

/-! ## File system ids -/

structure SimulatedIds.FsFollows (ids : SimulatedIds) : Prop where
  uids : ids.uids.fs = ids.uids.eff
  gids : ids.gids.fs = ids.gids.eff

def IdCall.setsFsId : IdCall → Bool
  | setfsuid _ | setfsgid _ => true
  | _ => false

/-- The condition for `SET_RES_IDS_GATE`: if the effective id is not to be changed, it is `-1`, or
one of the other ids is refused. -/
def IdGroup.KeepsFs (ids : IdGroup) (privileged : Bool) (rId eId sId : BitVec 32) : Prop :=
  eId = unchangedId → ids.eff = unchangedId ∨ ids.mayBecome privileged rId = false ∨
    ids.mayBecome privileged sId = false

def IdCall.KeepsFs (ids : SimulatedIds) : IdCall → Prop
  | seteuid euid => ids.uids.KeepsFs ids.privileged unchangedId euid unchangedId
  | setreuid ruid euid => ids.uids.KeepsFs ids.privileged ruid euid unchangedId
  | setresuid ruid euid suid => ids.uids.KeepsFs ids.privileged ruid euid suid
  | setegid egid => ids.gids.KeepsFs ids.privileged unchangedId egid unchangedId
  | setregid rgid egid => ids.gids.KeepsFs ids.privileged rgid egid unchangedId
  | setresgid rgid egid sgid => ids.gids.KeepsFs ids.privileged rgid egid sgid
  | setuid _ | setgid _ | setfsuid _ | setfsgid _ => True

/-- The ids after a call, which leaves them alone if it fails. -/
def IdGroup.updated (ids : IdGroup) : Except Errno IdGroup → IdGroup
  | .ok new => new
  | .error _ => ids

theorem SimulatedIds.withUids_uids (set : Except Errno IdGroup) :
    (ids.withUids set).1.uids = ids.uids.updated set := by cases set <;> rfl

theorem SimulatedIds.withUids_gids (set : Except Errno IdGroup) :
    (ids.withUids set).1.gids = ids.gids := by cases set <;> rfl

theorem SimulatedIds.withGids_gids (set : Except Errno IdGroup) :
    (ids.withGids set).1.gids = ids.gids.updated set := by cases set <;> rfl

theorem SimulatedIds.withGids_uids (set : Except Errno IdGroup) :
    (ids.withGids set).1.uids = ids.uids := by cases set <;> rfl

theorem IdGroup.setResIds_fs_iff {ids : IdGroup} {rId eId sId : BitVec 32}
    (together : ids.fs = ids.eff) :
    (ids.updated (ids.setResIds privileged rId eId sId)).fs =
        (ids.updated (ids.setResIds privileged rId eId sId)).eff ↔
      ids.KeepsFs privileged rId eId sId := by
  rw [setResIds_eq, KeepsFs]
  split
  next allowed =>
    rw [Bool.and_eq_true, Bool.and_eq_true] at allowed
    obtain ⟨⟨real, -⟩, saved⟩ := allowed
    show eId = idOr eId ids.eff ↔ _
    rw [real, saved]
    rcases eq_or_ne eId unchangedId with rfl | given
    · rw [idOr_unchanged]
      simp [eq_comm]
    · rw [idOr_of_ne given]
      exact iff_of_true rfl fun unchanged => absurd unchanged given
  next refused =>
    refine iff_of_true together ?_
    rintro rfl
    rw [mayBecome_unchanged, Bool.and_true, Bool.and_eq_true, not_and_or, Bool.not_eq_true,
      Bool.not_eq_true] at refused
    exact .inr refused

theorem IdGroup.setId_fs {ids : IdGroup} {root : Bool} (together : ids.fs = ids.eff) :
    (ids.updated (ids.setId privileged root id)).fs =
      (ids.updated (ids.setId privileged root id)).eff := by
  unfold setId
  split
  · rfl
  · exact together

namespace SimulatedIds

theorem call_fsFollows_iff {call : IdCall} (together : ids.FsFollows)
    (noFsId : call.setsFsId = false) :
    (ids.call call).1.FsFollows ↔ call.KeepsFs ids := by
  have uidsOnly {set : Except Errno IdGroup} :
      (ids.withUids set).1.FsFollows ↔
        (ids.uids.updated set).fs = (ids.uids.updated set).eff := by
    rw [← withUids_uids]
    refine ⟨FsFollows.uids, fun uids => ⟨uids, ?_⟩⟩
    rw [withUids_gids]
    exact together.gids
  have gidsOnly {set : Except Errno IdGroup} :
      (ids.withGids set).1.FsFollows ↔
        (ids.gids.updated set).fs = (ids.gids.updated set).eff := by
    rw [← withGids_gids]
    refine ⟨FsFollows.gids, fun gids => ⟨?_, gids⟩⟩
    rw [withGids_uids]
    exact together.uids
  cases call with
  | setuid uid => exact uidsOnly.trans (iff_of_true (IdGroup.setId_fs together.uids) trivial)
  | setgid gid => exact gidsOnly.trans (iff_of_true (IdGroup.setId_fs together.gids) trivial)
  | seteuid | setreuid | setresuid =>
    exact uidsOnly.trans (IdGroup.setResIds_fs_iff together.uids)
  | setegid | setregid | setresgid =>
    exact gidsOnly.trans (IdGroup.setResIds_fs_iff together.gids)
  | setfsuid | setfsgid => cases noFsId

end SimulatedIds

/-- The file system ids follow the effective ids through a run exactly if all its calls meet the
condition. -/
theorem fs_follows_iff (source : IdSource) (ids : SimulatedIds)
    (together : (initializeSimulatedIds source ids).FsFollows) (calls : List IdCall)
    (noFsId : ∀ call ∈ calls, call.setsFsId = false) :
    (∀ done, done <+: calls →
        (initializeSimulatedIds source (runIdCalls source ids done)).FsFollows) ↔
      ∀ done call, done ++ [call] <+: calls →
        call.KeepsFs (initializeSimulatedIds source (runIdCalls source ids done)) := by
  refine Histories.forall_isPrefix_iff together fun done call more before => ?_
  rw [runIdCalls_concat, initialize_idGate]
  refine call_fsFollows_iff before (noFsId call ?_)
  exact more.subset (List.mem_append_right done (List.mem_singleton.2 rfl))

/-- Root becomes a user, in two ways. -/
theorem fs_follows_setresuid :
    let calls := [IdCall.seteuid 1000, .setresuid unchangedId 0 unchangedId, .setuid 1000]
    ∀ done, done <+: calls →
      (initializeSimulatedIds noIdSource
        (runIdCalls noIdSource (withUserIds ⟨0, 0, 0, 0⟩) done)).FsFollows := by
  refine (fs_follows_iff noIdSource (withUserIds ⟨0, 0, 0, 0⟩) ⟨rfl, rfl⟩ _ (by decide)).2 ?_
  intro done call more
  have member := more.subset (List.mem_append_right done (List.mem_singleton.2 rfl))
  simp only [List.mem_cons, List.not_mem_nil, or_false] at member
  rcases member with rfl | rfl | rfl
  · exact fun unchanged => absurd unchanged (by decide)
  · exact fun unchanged => absurd unchanged (by decide)
  · trivial

/-- The real id is changed, and the file system id is lost. -/
theorem fs_left_behind :
    let before := withUserIds ⟨0, 0, 0, 0⟩
    let after := idGate noIdSource before (.setreuid 1000 unchangedId)
    before.uids.fs = before.uids.eff ∧ after.2 = .ok 0 ∧ after.1.uids.eff = 0 ∧
      after.1.uids.fs = 0xFFFFFFFF := by
  decide

end Scratchbox
