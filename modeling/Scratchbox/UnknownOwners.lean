import Scratchbox.ChownGates
import Scratchbox.ResolutionFacts

/-!
# Owners of unknown files and the first call

`SBOX_VPERM_IDS` can name the owner and the group to show for files without a record. The
functions that ask for ids load the setting when they are first called, and so does the
mapping of a path under a rule with the protection `readonly_fs_if_not_root`, which asks for
the effective user. `stat` itself uses the setting without loading it
(`vperm_set_owner_and_group_of_unknown_files`). So what `stat` shows depends on the calls
before it, unless its own mapping loads the setting, or the record of the file or its real
owner and group hide the difference (`owner_independent_of_calls_iff`).
-/

namespace Scratchbox

/-! ## Calls that change no file and no id -/

/-- The branch of `sbox_map_path_internal__c_engine` that calls `vperm_geteuid`. -/
def mappingAsksEuid (session : Session) (answer : Answer) : Bool :=
  match answer.res.mresErrormsg, answer.res.mresErrno, answer.res.mresResultPath with
  | none, none, some resolvedVirtualPath =>
    match ruletreeTranslatePath session.host answer.rule resolvedVirtualPath with
    | .ok t => t.errormsg.isNone && t.flags.readonlyFsIfNotRoot
    | .error _ => false
  | _, _, _ => false

/-- There the user decides whether the path is mapped as read-only. -/
theorem mapResolvedPath_readonly {session : Session} {res res' : MappingResults} {answer : Answer}
    (asks : mappingAsksEuid session answer = true)
    (mapped : mapResolvedPath session res answer = .ok res') :
    res'.mresReadonly = !session.host.euidIsRoot := by
  unfold mappingAsksEuid at asks
  unfold mapResolvedPath at mapped
  split at asks
  · rename_i message errno path
    rw [message, errno, path] at mapped
    obtain ⟨t, translated, mapped⟩ := Except.bind_eq_ok_iff.1 mapped
    rw [translated] at asks
    obtain ⟨none, flag⟩ := Bool.and_eq_true_iff.1 asks
    rw [Option.isNone_iff_eq_none.1 none] at mapped
    cases mapped
    exact if_pos flag
  · cases asks

/-- A `stat`, a function that asks for an id, or another one. The answer is what the name
of the file is resolved to, if there is a name and it is mapped. -/
inductive QuietCall
  | stat (answer : Option Answer) (inode : Inode)
  | idQuery
  | other (answer : Option Answer)

variable (session : Session)

def VpermState.afterMapping (vperm : VpermState) (answer : Option Answer) : VpermState :=
  if answer.any (mappingAsksEuid session) then vperm.initializeIds else vperm

/-- What a `stat` shows: the name is mapped first. -/
def Machine.statShows (machine : Machine) (answer : Option Answer) (inode : Inode) : Stat :=
  { machine with vperm := machine.vperm.afterMapping session answer }.shown inode

def Machine.quiet (machine : Machine) : QuietCall → Machine
  | .stat answer inode =>
    let vperm := machine.vperm.afterMapping session answer
    { machine with vperm := (iVirtualizeStructStat vperm (machine.files.statOf inode)).1 }
  | .idQuery => { machine with vperm := machine.vperm.initializeIds }
  | .other answer => { machine with vperm := machine.vperm.afterMapping session answer }

/-- What the calls keep: the files and the records; the ids are loaded or as they were. -/
structure Machine.Kept (machine after : Machine) : Prop where
  files : after.files = machine.files
  source : after.vperm.source = machine.vperm.source
  seen : after.seen = machine.seen
  ids : after.vperm.ids = machine.vperm.ids ∨
    after.vperm.ids = initializeSimulatedIds machine.vperm.source machine.vperm.ids

theorem Machine.Kept.initializeIds {machine after : Machine} (kept : machine.Kept after) :
    machine.Kept { after with vperm := after.vperm.initializeIds } := by
  refine ⟨kept.files, kept.source, kept.seen, .inr ?_⟩
  show initializeSimulatedIds after.vperm.source after.vperm.ids = _
  rw [kept.source]
  rcases kept.ids with ids | ids
  · rw [ids]
  · rw [ids, initializeSimulatedIds_of_initialized initializeSimulatedIds_initialized]

theorem Machine.Kept.afterMapping {machine after : Machine} (kept : machine.Kept after)
    (answer : Option Answer) :
    machine.Kept { after with vperm := after.vperm.afterMapping session answer } := by
  rw [VpermState.afterMapping]
  split
  · exact kept.initializeIds
  · exact kept

theorem Machine.Kept.quiet {machine after : Machine} (kept : machine.Kept after)
    (call : QuietCall) : machine.Kept (after.quiet session call) := by
  cases call with
  | stat answer inode =>
    have mapped := kept.afterMapping session answer
    rw [Machine.quiet]
    generalize after.vperm.afterMapping session answer = vperm at mapped ⊢
    have same : (iVirtualizeStructStat vperm (after.files.statOf inode)).1 = vperm ∨
        (iVirtualizeStructStat vperm (after.files.statOf inode)).1 =
          { vperm with db := (vperm.db.find inode).1 } := by
      rw [iVirtualizeStructStat]
      split
      · exact .inr rfl
      · exact .inl rfl
    obtain same | same := same <;> simp only [same] <;>
      exact ⟨mapped.files, mapped.source, mapped.seen, mapped.ids⟩
  | idQuery => exact kept.initializeIds
  | other answer => exact kept.afterMapping session answer

theorem Machine.kept_run (machine : Machine) (calls : List QuietCall) :
    machine.Kept (calls.foldl (Machine.quiet session) machine) := by
  suffices run : ∀ after, machine.Kept after →
      machine.Kept (calls.foldl (Machine.quiet session) after) from
    run machine ⟨rfl, rfl, rfl, .inl rfl⟩
  induction calls with
  | nil => exact fun after kept => kept
  | cons call calls ih => exact fun after kept => ih _ (kept.quiet session call)

/-! ## Owner and group -/

theorem InodeSimu.shownId_eq_iff {istat : InodeSimu} {field simulated unknown real : BitVec 32} :
    istat.shownId field simulated (some unknown) real = istat.shownId field simulated none real ↔
      istat.activeFields &&& field ≠ 0 ∨ real = unknown := by
  unfold shownId
  split
  · rename_i active
    exact iff_of_true rfl (.inl active)
  · rename_i inactive
    exact eq_comm.trans (or_iff_right inactive).symm

/-- The owner and the group that are shown, if the setting is the given one. -/
def Machine.shownOwner (machine : Machine) (inode : Inode)
    (unknown : Option (BitVec 32 × BitVec 32)) : BitVec 32 × BitVec 32 :=
  let istat := machine.seen inode
  let real := machine.files.attributes inode
  (istat.shownId simUid istat.uid (unknown.map Prod.fst) real.uid,
    istat.shownId simGid istat.gid (unknown.map Prod.snd) real.gid)

theorem Machine.shown_owner (machine : Machine) (inode : Inode) :
    ((machine.shown inode).uid, (machine.shown inode).gid) =
      machine.shownOwner inode (vpermSetOwnerAndGroupOfUnknownFiles machine.vperm.ids) := by
  rw [Machine.shown_seen]
  rfl

theorem Machine.Kept.shownOwner {machine after : Machine} (kept : machine.Kept after)
    (inode : Inode) : after.shownOwner inode = machine.shownOwner inode := by
  unfold Machine.shownOwner
  rw [kept.seen, kept.files]

theorem Machine.Kept.statShows {machine after : Machine} (kept : machine.Kept after)
    (answer : Option Answer) (inode : Inode) :
    ((after.statShows session answer inode).uid, (after.statShows session answer inode).gid) =
      machine.shownOwner inode (vpermSetOwnerAndGroupOfUnknownFiles
        (after.vperm.afterMapping session answer).ids) := by
  rw [Machine.statShows, Machine.shown_owner, (kept.afterMapping session answer).shownOwner]

/-- The ids behind the mapping: loaded if it loads them, else loaded or not as before. -/
theorem Machine.Kept.mapped_ids {machine after : Machine} (kept : machine.Kept after)
    (answer : Option Answer) :
    (after.vperm.afterMapping session answer).ids =
        initializeSimulatedIds machine.vperm.source machine.vperm.ids ∨
      answer.any (mappingAsksEuid session) = false ∧
        (after.vperm.afterMapping session answer).ids = machine.vperm.ids := by
  rw [VpermState.afterMapping]
  split
  · refine .inl ?_
    rcases kept.initializeIds.ids with ids | ids
    · rw [ids, initializeSimulatedIds_of_initialized (ids ▸ initializeSimulatedIds_initialized)]
    · exact ids
  · rename_i silent
    rcases kept.ids with ids | ids
    · exact .inr ⟨Bool.eq_false_iff.2 silent, ids⟩
    · exact .inl ids

/-- In a new process with a setting for unknown files, the owner and the group that `stat`
shows for a file are the same after any such calls, exactly if its own mapping loads the
setting or each of them is simulated by the record of the file or is in reality what the
setting says. -/
theorem owner_independent_of_calls_iff (session : Session) (machine : Machine)
    (answer : Option Answer) (inode : Inode)
    (owner group : BitVec 32) (started : machine.vperm.ids = .initial)
    (setting : (machine.vperm.source.sboxVpermIds.bind (strchr · 'f')).bind scanUnknownFiles =
      some (owner, group)) :
    (∀ calls : List QuietCall,
        let shown := (calls.foldl (Machine.quiet session) machine).statShows session answer inode
        let first := machine.statShows session answer inode
        (shown.uid, shown.gid) = (first.uid, first.gid)) ↔
      answer.any (mappingAsksEuid session) = true ∨
        ((machine.seen inode).activeFields &&& simUid ≠ 0 ∨
            (machine.files.attributes inode).uid = owner) ∧
          ((machine.seen inode).activeFields &&& simGid ≠ 0 ∨
            (machine.files.attributes inode).gid = group) := by
  have unloaded : vpermSetOwnerAndGroupOfUnknownFiles machine.vperm.ids = none := by
    rw [started]
    rfl
  have loaded : vpermSetOwnerAndGroupOfUnknownFiles
      (initializeSimulatedIds machine.vperm.source machine.vperm.ids) = some (owner, group) := by
    simp [started, initializeSimulatedIds, setting, vpermSetOwnerAndGroupOfUnknownFiles,
      SimulatedIds.initial]
  have agree : machine.shownOwner inode (some (owner, group)) = machine.shownOwner inode none ↔ _ :=
    Prod.mk_inj.trans (and_congr InodeSimu.shownId_eq_iff InodeSimu.shownId_eq_iff)
  rw [← agree]
  have start : machine.Kept machine := ⟨rfl, rfl, rfl, .inl rfl⟩
  constructor
  · intro same
    by_cases asks : answer.any (mappingAsksEuid session) = true
    · exact .inl asks
    · have silent (vperm : VpermState) : vperm.afterMapping session answer = vperm := if_neg asks
      have query := same [.idQuery]
      simp only [(machine.kept_run session _).statShows, start.statShows, silent] at query
      rw [unloaded] at query
      refine .inr (Eq.trans ?_ query)
      rw [← loaded]
      rfl
  · rintro (asks | same) calls
    · have ids {after : Machine} (kept : machine.Kept after) := (kept.mapped_ids session
        answer).resolve_right fun silent => absurd asks (Bool.eq_false_iff.1 silent.1)
      simp only [(machine.kept_run session calls).statShows, start.statShows, ids start,
        ids (machine.kept_run session calls)]
    · -- whatever has been loaded, the owner and the group are those without the setting
      have shown {after : Machine} (kept : machine.Kept after) :
          machine.shownOwner inode (vpermSetOwnerAndGroupOfUnknownFiles
            (after.vperm.afterMapping session answer).ids) = machine.shownOwner inode none := by
        rcases kept.mapped_ids session answer with ids | ⟨-, ids⟩
        · rw [ids, loaded, same]
        · rw [ids, unloaded]
      simp only [(machine.kept_run session calls).statShows, start.statShows, shown start,
        shown (machine.kept_run session calls)]

/-- The first `stat` shows the real owner, one after `geteuid` the owner of the setting. -/
theorem first_stat_shows_real_owner :
    let session := linkSession [] none
    let machine := oneFile unknownFilesOfRoot 0o100644
    let answer := some (pathAnswer rootRule ['/', 'f'])
    (machine.statShows session answer (1, 1)).uid = 1000 ∧
      ((machine.quiet session .idQuery).statShows session answer (1, 1)).uid = 0 := by
  decide +kernel

/-- A file of the user under a rule that is read-only if not used by root. -/
theorem owner_independent_if_protected :
    let session := linkSession [] none
    let machine := oneFile unknownFilesOfRoot 0o100644
    let rule : FsRule := { rootRule with flags := { readonlyFsIfNotRoot := true } }
    let answer := some (pathAnswer rule ['/', 'f'])
    ∀ calls : List QuietCall,
      let shown := (calls.foldl (Machine.quiet session) machine).statShows session answer (1, 1)
      let first := machine.statShows session answer (1, 1)
      (shown.uid, shown.gid) = (first.uid, first.gid) :=
  (owner_independent_of_calls_iff _ _ _ (1, 1) 0 0 rfl (by decide +kernel)).2
    (.inl (by decide +kernel))

end Scratchbox
