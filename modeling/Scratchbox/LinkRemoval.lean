import Scratchbox.Lib.LinkTable
import Scratchbox.ChmodGates

/-!
# Removed names and the records of inodes

The gates of `unlink`, `remove`, `rmdir`, `unlinkat` and of the `rename` calls in
`vperm_filestatgates.c`. The record of an inode that loses its last name must be cleared; that of an
inode that still has a name must stay.

Each gate looks at one file before the real call, and clears its record if the link count says that
the last name will be gone. This goes wrong (`records_follow_names_iff`) for symbolic links, which
the gates follow; for directories, which have more than one link, except in `rmdir` and `rename`;
and when `rename` removes nothing.
-/

namespace Scratchbox

open LinkTable Option

/-! ## Names -/

abbrev Name := Inode × CStr

def sIslnk (mode : BitVec 32) : Bool := mode &&& sIfmt == 0o120000#32

/-- The files with their names. A directory has one name, and without entries it has the link
count 2, or 1 in a file system that does not count. A symbolic link leads to a file with a name
or to a root, if it leads anywhere. `spare` is the inode of the next new file. -/
structure FileTree where
  names : Table Name Inode
  attributes : Inode → FileAttributes
  isRoot : Inode → Bool
  leadsTo : Name → Option Inode
  spare : Inode
  root_unnamed : ∀ {inode}, isRoot inode = true → ¬ names.Refers inode
  directory_once : ∀ {inode name other}, sIsdir (attributes inode).mode = true →
    names.get name = some inode → names.get other = some inode → other = name
  empty_links : ∀ {inode}, sIsdir (attributes inode).mode = true →
    (∀ name ∈ names.keys, name.1 ≠ inode) →
      (attributes inode).nlink = 1 ∨ (attributes inode).nlink = 2
  leadsTo_named : ∀ {name inode}, leadsTo name = some inode →
    isRoot inode = true ∨ names.Refers inode
  leadsTo_file : ∀ {name inode}, leadsTo name = some inode →
    sIslnk (attributes inode).mode = false
  spare_unnamed : isRoot spare = false ∧ ¬ names.Refers spare

structure RenameFlags where
  noreplace : Bool := false
  exchange : Bool := false
  whiteout : Bool := false

namespace FileTree

variable (tree : FileTree)

/-- An inode has a name, or needs none, given the names that there are. -/
def Named (names : Table Name Inode) (inode : Inode) : Prop :=
  tree.isRoot inode = true ∨ names.Refers inode

def isdir (inode : Inode) : Bool := sIsdir (tree.attributes inode).mode

def islnk (inode : Inode) : Bool := sIslnk (tree.attributes inode).mode

/-- `st_nlink`. Other files than directories have a link for each name. -/
def nlink (inode : Inode) : Nat :=
  if tree.isdir inode then (tree.attributes inode).nlink else tree.names.refs inode

def statOf (inode : Inode) : Stat :=
  { tree.attributes inode with nlink := tree.nlink inode, dev := inode.1, ino := inode.2 }

def lstat (name : Name) : Option Stat := (tree.names.get name).map tree.statOf

def followed (name : Name) : Option Inode :=
  (tree.names.get name).bind fun inode =>
    if tree.islnk inode then tree.leadsTo name else some inode

def stat (name : Name) : Option Stat := (tree.followed name).map tree.statOf

/-! ## The real calls

Each gives the names that are left. They can be refused for many more reasons. -/

def unlink (name : Name) : Except Errno (Table Name Inode) :=
  match tree.names.get name with
  | none => .error .ENOENT
  | some inode => if tree.isdir inode then .error .EISDIR else .ok (tree.names.put name none)

/-- A directory has no entries. -/
def isEmpty (inode : Inode) : Bool := ∀ name ∈ tree.names.keys, name.1 ≠ inode

def rmdir (name : Name) : Except Errno (Table Name Inode) :=
  match tree.names.get name with
  | none => .error .ENOENT
  | some inode =>
    if tree.isdir inode then
      if tree.isEmpty inode then .ok (tree.names.put name none) else .error .ENOTEMPTY
    else .error .ENOTDIR

def remove (name : Name) : Except Errno (Table Name Inode) :=
  match tree.unlink name with
  | .ok names => .ok names
  | .error err => if err = .EISDIR then tree.rmdir name else .error err

/-- The name of a file is moved. With a whiteout, a new file takes its old name. -/
def moved (old new : Name) (inode : Inode) (whiteout : Bool) : Table Name Inode :=
  (tree.names.put new (some inode)).put old (if whiteout then some tree.spare else none)

def rename (old new : Name) (flags : RenameFlags) : Except Errno (Table Name Inode) :=
  if flags.exchange && (flags.noreplace || flags.whiteout) then .error .EINVAL
  else
    match tree.names.get old, tree.names.get new with
    | none, _ => .error .ENOENT
    | some inode, none =>
      if flags.exchange then .error .ENOENT else .ok (tree.moved old new inode flags.whiteout)
    | some inode, some replaced =>
      if flags.noreplace then .error .EEXIST
      else if inode = replaced then .ok tree.names
      else if flags.exchange then
        .ok ((tree.names.put new (some inode)).put old (some replaced))
      else if tree.isdir replaced then
        if tree.isdir inode then
          if tree.isEmpty replaced then .ok (tree.moved old new inode flags.whiteout)
          else .error .ENOTEMPTY
        else .error .EISDIR
      else if tree.isdir inode then .error .ENOTDIR
      else .ok (tree.moved old new inode flags.whiteout)

end FileTree

open FileTree

/-! ## The gates -/

def vpermClearAllIfVirtualized (vperm : VpermState) (buf : Stat) : VpermState :=
  let found := vperm.db.find buf.inode
  let vperm := { vperm with db := found.1 }
  match found.2 with
  | some istat =>
    if istat.activeFields ≠ 0 then vperm.send (ruletreeRpcVpermClear buf.dev buf.ino) else vperm
  | none => vperm

/-- The body of all these gates: the file that is looked at before the real call, the test of
what was seen, and the real call. -/
def removalGates (vperm : VpermState) (stat : Option Stat) (lastLink : Stat → Bool)
    (real : Except Errno (Table Name Inode)) : VpermState × Except Errno (Table Name Inode) :=
  let hasStat := if 0 < vperm.db.numActiveInodestats then stat else none
  match real with
  | .ok names =>
    match hasStat with
    | some buf =>
      (if lastLink buf then vpermClearAllIfVirtualized vperm buf else vperm, .ok names)
    | none => (vperm, .ok names)
  | .error err => (vperm, .error err)

/-- The test in `unlink_gate`, `remove_gate` and `unlinkat_gate`. -/
def oneLink (buf : Stat) : Bool := buf.nlink == 1

/-- The test in the gates of the `rename` calls. -/
def oneLinkOrDirectory (buf : Stat) : Bool := buf.nlink == 1 || (sIsdir buf.mode && buf.nlink == 2)

section Gates

variable (vperm : VpermState) (tree : FileTree) (verdict : Except Errno Unit)

/-- What a real call does if nothing else is against it. -/
def permitted (real : Except Errno (Table Name Inode)) : Except Errno (Table Name Inode) :=
  match verdict with
  | .ok () => real
  | .error err => .error err

def unlinkGate (name : Name) : VpermState × Except Errno (Table Name Inode) :=
  removalGates vperm (tree.stat name) oneLink (permitted verdict (tree.unlink name))

def removeGate (name : Name) : VpermState × Except Errno (Table Name Inode) :=
  removalGates vperm (tree.stat name) oneLink (permitted verdict (tree.remove name))

/-- `rmdir_gate`: there is no test. -/
def rmdirGate (name : Name) : VpermState × Except Errno (Table Name Inode) :=
  removalGates vperm (tree.stat name) (fun _ => true) (permitted verdict (tree.rmdir name))

/-- `unlinkat_gate`: `removedir` is the flag `AT_REMOVEDIR`. -/
def unlinkatGate (name : Name) (removedir : Bool) : VpermState × Except Errno (Table Name Inode) :=
  removalGates vperm (tree.stat name) oneLink
    (permitted verdict (if removedir then tree.rmdir name else tree.unlink name))

def renameGate (old new : Name) : VpermState × Except Errno (Table Name Inode) :=
  removalGates vperm (tree.lstat new) oneLinkOrDirectory
    (permitted verdict (tree.rename old new {}))

def renameatGate (old new : Name) : VpermState × Except Errno (Table Name Inode) :=
  removalGates vperm (tree.lstat new) oneLinkOrDirectory
    (permitted verdict (tree.rename old new {}))

def renameat2Gate (old new : Name) (flags : RenameFlags) :
    VpermState × Except Errno (Table Name Inode) :=
  removalGates vperm (tree.lstat new) oneLinkOrDirectory
    (permitted verdict (tree.rename old new flags))

inductive LinkCall
  | unlink (name : Name)
  | remove (name : Name)
  | rmdir (name : Name)
  | unlinkat (name : Name) (removedir : Bool)
  | rename (old new : Name)
  | renameat (old new : Name)
  | renameat2 (old new : Name) (flags : RenameFlags)

def LinkCall.run : LinkCall → VpermState × Except Errno (Table Name Inode)
  | unlink name => unlinkGate vperm tree verdict name
  | remove name => removeGate vperm tree verdict name
  | rmdir name => rmdirGate vperm tree verdict name
  | unlinkat name removedir => unlinkatGate vperm tree verdict name removedir
  | rename old new => renameGate vperm tree verdict old new
  | renameat old new => renameatGate vperm tree verdict old new
  | renameat2 old new flags => renameat2Gate vperm tree verdict old new flags

end Gates

namespace LinkCall

def looked (tree : FileTree) : LinkCall → Option Inode
  | unlink name | remove name | rmdir name | unlinkat name _ => tree.followed name
  | rename _ new | renameat _ new | renameat2 _ new _ => tree.names.get new

/-- The test of a gate. -/
def lastLink : LinkCall → Stat → Bool
  | unlink _ | remove _ | unlinkat _ _ => oneLink
  | rmdir _ => fun _ => true
  | rename _ _ | renameat _ _ | renameat2 _ _ _ => oneLinkOrDirectory

def real (tree : FileTree) : LinkCall → Except Errno (Table Name Inode)
  | unlink name => tree.unlink name
  | remove name => tree.remove name
  | rmdir name => tree.rmdir name
  | unlinkat name removedir => if removedir then tree.rmdir name else tree.unlink name
  | rename old new | renameat old new => tree.rename old new {}
  | renameat2 old new flags => tree.rename old new flags

theorem run_eq (call : LinkCall) (vperm : VpermState) (tree : FileTree)
    (verdict : Except Errno Unit) :
    call.run vperm tree verdict = removalGates vperm ((call.looked tree).map tree.statOf)
      call.lastLink (permitted verdict (call.real tree)) := by
  cases call <;> rfl

def victim (tree : FileTree) (call : LinkCall) : Option Inode :=
  (call.looked tree).filter fun inode => call.lastLink (tree.statOf inode)

end LinkCall

open LinkCall

/-! ## The records after a call -/

theorem vpermClearAllIfVirtualized_lookUp (vperm : VpermState) (buf : Stat) (inode : Inode) :
    (vpermClearAllIfVirtualized vperm buf).db.lookUp inode =
      if buf.inode = inode ∧ isActive (vperm.db.lookUp inode) = true then
        (vperm.db.lookUp inode).map fun istat => { istat with activeFields := 0 }
      else vperm.db.lookUp inode := by
  rw [vpermClearAllIfVirtualized, VpermDb.find_istat]
  cases found : vperm.db.lookUp buf.inode with
  | none =>
    rw [if_neg]
    · rfl
    · rintro ⟨rfl, active⟩
      rw [found] at active
      cases active
  | some istat =>
    dsimp only
    split
    next active =>
      have command : (ruletreeRpcVpermClear buf.dev buf.ino).inode = buf.inode := rfl
      rcases eq_or_ne buf.inode inode with rfl | other
      · rw [if_pos ⟨rfl, by rw [found]; exact isActive_some_iff.2 active⟩]
        exact VpermDb.send_lookUp_self _ (ruletreeRpcVpermClear buf.dev buf.ino)
      · rw [if_neg fun same => other same.1]
        exact VpermDb.send_lookUp_of_ne _ (command.symm ▸ other.symm)
    next inactive =>
      rw [if_neg]
      · rfl
      · rintro ⟨rfl, active⟩
        rw [found, isActive_some_iff] at active
        exact inactive active

section Records

variable {vperm : VpermState} {tree : FileTree} {call : LinkCall} {verdict : Except Errno Unit}
variable {names : Table Name Inode} {real : Except Errno (Table Name Inode)}

theorem removalGates_result {stat : Option Stat} {lastLink : Stat → Bool} :
    (removalGates vperm stat lastLink real).2 = real := by
  unfold removalGates
  cases real with
  | error err => rfl
  | ok names =>
    dsimp only
    generalize (if 0 < vperm.db.numActiveInodestats then stat else none) = hasStat
    cases hasStat <;> rfl

theorem permitted_ok (success : permitted verdict real = .ok names) : real = .ok names := by
  cases verdict with
  | error err => cases success
  | ok _ => exact success

theorem LinkCall.run_lookUp (fits : vperm.db.stored < 2 ^ 32)
    (success : (call.run vperm tree verdict).2 = .ok names) (inode : Inode) :
    (call.run vperm tree verdict).1.db.lookUp inode =
      if call.victim tree = some inode ∧ isActive (vperm.db.lookUp inode) = true then
        (vperm.db.lookUp inode).map fun istat => { istat with activeFields := 0 }
      else vperm.db.lookUp inode := by
  rw [run_eq, removalGates_result] at success
  rw [run_eq, victim, success]
  unfold removalGates
  dsimp only
  split
  next buf seen =>
    rw [ite_none_right_eq_some, map_eq_some_iff] at seen
    obtain ⟨-, target, looked, rfl⟩ := seen
    rw [looked, filter_some]
    split
    next last =>
      rw [vpermClearAllIfVirtualized_lookUp]
      simp only [Option.some.injEq]
      rfl
    next => simp
  next unseen =>
    rw [if_neg]
    rintro ⟨victim, active⟩
    rw [if_pos (VpermDb.reveals fits inode active), map_eq_none_iff] at unseen
    rw [unseen] at victim
    cases victim

end Records

/-! ## The inode that loses its last name -/

namespace FileTree

variable (tree : FileTree)

def lastName (name : Name) : Option Inode :=
  (tree.names.get name).filter fun inode => tree.names.refs inode = 1

def replaced (old new : Name) (flags : RenameFlags) : Option Inode :=
  if flags.exchange = true ∨ tree.names.get old = tree.names.get new then none
  else tree.lastName new

/-- All inodes that have a name still have one in `names`, but for one inode. -/
def Loses (names : Table Name Inode) (gone : Option Inode) : Prop :=
  ∀ inode, tree.Named tree.names inode → (tree.Named names inode ↔ gone ≠ some inode)

variable {tree} {name old new : Name} {inode other : Inode} {names : Table Name Inode}
variable {flags : RenameFlags} {entry : Option Inode}

theorem lastName_eq_some_iff :
    tree.lastName name = some inode ↔
      tree.names.get name = some inode ∧ tree.names.refs inode = 1 := by
  rw [lastName, filter_eq_some_iff, decide_eq_true_iff]

theorem replaced_eq_some_iff :
    tree.replaced old new flags = some inode ↔
      flags.exchange = false ∧ tree.names.get old ≠ some inode ∧
        tree.lastName new = some inode := by
  rw [replaced, ite_none_left_eq_some, not_or, Bool.not_eq_true, and_assoc]
  refine and_congr_right fun _ => and_congr_left fun last => not_congr ?_
  rw [(lastName_eq_some_iff.1 last).1]

theorem followed_named (leads : tree.followed name = some inode) :
    tree.Named tree.names inode := by
  obtain ⟨link, found, leads⟩ := bind_eq_some_iff.1 leads
  split at leads
  next => exact tree.leadsTo_named leads
  next =>
    cases leads
    exact .inr ⟨name, found⟩

theorem loses_of_refers {gone : Option Inode} (named : ∀ inode, gone = some inode →
      tree.names.Refers inode)
    (refers : ∀ inode, tree.names.Refers inode → (names.Refers inode ↔ gone ≠ some inode)) :
    tree.Loses names gone := by
  rintro inode (root | name)
  · exact iff_of_true (.inl root) fun lost => tree.root_unnamed root (named inode lost)
  · rw [Named, or_iff_right fun root => tree.root_unnamed root name]
    exact refers inode name

theorem loses_nothing : tree.Loses tree.names none :=
  fun _ named => iff_of_true named (some_ne_none _).symm

theorem lastName_refers (last : tree.lastName name = some inode) : tree.names.Refers inode :=
  ⟨name, (lastName_eq_some_iff.1 last).1⟩

/-- Another entry for a name, or none, takes away the last name of at most one inode. -/
theorem refers_put_lastName (refers : tree.names.Refers inode) (new : entry ≠ some inode) :
    (tree.names.put name entry).Refers inode ↔ tree.lastName name ≠ some inode := by
  rw [Ne, lastName_eq_some_iff]
  rcases eq_or_ne (tree.names.get name) (some inode) with found | different
  · rw [Table.refers_replace_iff found new, and_iff_right found]
  · rw [Table.refers_put_iff_of_ne different new]
    exact iff_of_true refers fun last => different last.1

theorem loses_removed : tree.Loses (tree.names.put name none) (tree.lastName name) :=
  loses_of_refers (fun _ => lastName_refers) fun inode refers =>
    refers_put_lastName refers (some_ne_none inode).symm

theorem refers_put_put (found : tree.names.get old = some inode) (different : new ≠ old)
    (refers : tree.names.Refers other) (ne : other ≠ inode) (fresh : entry ≠ some other) :
    ((tree.names.put new (some inode)).put old entry).Refers other ↔
      tree.lastName new ≠ some other := by
  have placed : some inode ≠ some other := fun same => ne (Option.some.inj same).symm
  have kept : (tree.names.put new (some inode)).get old ≠ some other := by
    rw [Table.put_get, Function.update_of_ne different.symm, found]
    exact placed
  rw [Table.refers_put_iff_of_ne kept fresh, refers_put_lastName refers placed]

theorem refers_moved_self (different : new ≠ old) :
    ((tree.names.put new (some inode)).put old entry).Refers inode :=
  ⟨new, by rw [Table.put_get, Function.update_of_ne different, Table.put_get,
    Function.update_self]⟩

theorem loses_moved {whiteout : Bool} (found : tree.names.get old = some inode)
    (free : tree.names.get new ≠ some inode) :
    tree.Loses (tree.moved old new inode whiteout) (tree.lastName new) := by
  have different : new ≠ old := by
    rintro rfl
    exact free found
  refine loses_of_refers (fun _ => lastName_refers) fun other refers => ?_
  rcases eq_or_ne other inode with rfl | ne
  · exact iff_of_true (refers_moved_self different) fun last =>
      free (lastName_eq_some_iff.1 last).1
  · refine refers_put_put found different refers ne ?_
    -- The new file of a whiteout had no name before.
    intro spare
    obtain ⟨-, spare⟩ := ite_none_right_eq_some.1 spare
    exact tree.spare_unnamed.2 (Option.some.inj spare ▸ refers)

theorem loses_exchanged (found : tree.names.get old = some inode)
    (target : tree.names.get new = some other) (ne : inode ≠ other) :
    tree.Loses ((tree.names.put new (some inode)).put old (some other)) none := by
  have different : new ≠ old := by
    rintro rfl
    exact ne (Option.some.inj (found.symm.trans target))
  refine loses_of_refers (fun _ lost => by cases lost) fun third refers => ?_
  refine iff_of_true ?_ (some_ne_none third).symm
  rcases eq_or_ne third other with rfl | second
  · exact ⟨old, by rw [Table.put_get, Function.update_self]⟩
  · rcases eq_or_ne third inode with rfl | first
    · exact refers_moved_self different
    · refine (refers_put_put found different refers first ?_).2 fun last => second ?_
      · exact fun same => second (Option.some.inj same).symm
      · exact Option.some.inj ((lastName_eq_some_iff.1 last).1.symm.trans target)

/-! ### What the real calls can do -/

theorem unlink_ok (done : tree.unlink name = .ok names) :
    ∃ inode, tree.names.get name = some inode ∧ tree.isdir inode = false ∧
      names = tree.names.put name none := by
  unfold unlink at done
  split at done
  · cases done
  next inode found =>
    split at done
    · cases done
    next file =>
      cases done
      exact ⟨inode, found, Bool.eq_false_iff.2 file, rfl⟩

theorem rmdir_ok (done : tree.rmdir name = .ok names) :
    ∃ inode, tree.names.get name = some inode ∧ tree.isdir inode = true ∧
      names = tree.names.put name none := by
  unfold rmdir at done
  split at done
  · cases done
  next inode found =>
    split_ifs at done with directory
    cases done
    exact ⟨inode, found, directory, rfl⟩

theorem remove_ok (done : tree.remove name = .ok names) :
    tree.unlink name = .ok names ∨ tree.rmdir name = .ok names := by
  unfold remove at done
  split at done
  next names' removed =>
    cases done
    exact .inl removed
  next err refused =>
    split_ifs at done
    exact .inr done

theorem removed_loses (done : tree.unlink name = .ok names ∨ tree.rmdir name = .ok names) :
    tree.Loses names (tree.lastName name) := by
  rcases done with file | directory
  · obtain ⟨-, -, -, rfl⟩ := unlink_ok file
    exact loses_removed
  · obtain ⟨-, -, -, rfl⟩ := rmdir_ok directory
    exact loses_removed

/-- The file at the new name is not there, the same file, exchanged, or replaced. -/
theorem rename_ok (done : tree.rename old new flags = .ok names) :
    ∃ inode, tree.names.get old = some inode ∧
      ((tree.names.get new = none ∧ flags.exchange = false ∧
          names = tree.moved old new inode flags.whiteout) ∨
        (tree.names.get new = some inode ∧ names = tree.names) ∨
        ∃ other, other ≠ inode ∧ tree.names.get new = some other ∧
          ((flags.exchange = true ∧
              names = (tree.names.put new (some inode)).put old (some other)) ∨
            flags.exchange = false ∧ (tree.isdir other = true → tree.isEmpty other = true) ∧
              names = tree.moved old new inode flags.whiteout)) := by
  unfold rename at done
  split at done
  · cases done
  · split at done
    · cases done
    next inode found free =>
      split_ifs at done with exchange
      cases done
      exact ⟨inode, found, .inl ⟨free, Bool.eq_false_iff.2 exchange, rfl⟩⟩
    next inode other found target =>
      refine ⟨inode, found, .inr ?_⟩
      split_ifs at done with noreplace same exchange directory both empty both
      · cases done
        exact .inl ⟨same ▸ target, rfl⟩
      · cases done
        exact .inr ⟨other, Ne.symm same, target, .inl ⟨exchange, rfl⟩⟩
      · cases done
        exact .inr ⟨other, Ne.symm same, target,
          .inr ⟨Bool.eq_false_iff.2 exchange, fun _ => empty, rfl⟩⟩
      · cases done
        exact .inr ⟨other, Ne.symm same, target,
          .inr ⟨Bool.eq_false_iff.2 exchange, fun directory' => absurd directory' directory, rfl⟩⟩

theorem rename_loses (done : tree.rename old new flags = .ok names) :
    tree.Loses names (tree.replaced old new flags) := by
  obtain ⟨inode, found, ⟨free, exchange, rfl⟩ | ⟨same, rfl⟩ | ⟨other, ne, target, cases⟩⟩ :=
    rename_ok done
  · rw [replaced, if_neg (by simp [exchange, found, free])]
    exact loses_moved found (by simp [free])
  · rw [replaced, if_pos (.inr (found.trans same.symm))]
    exact loses_nothing
  · have different : tree.names.get new ≠ some inode := fun same =>
      ne (Option.some.inj (target.symm.trans same))
    rcases cases with ⟨exchange, rfl⟩ | ⟨exchange, -, rfl⟩
    · rw [replaced, if_pos (.inl exchange)]
      exact loses_exchanged found target ne.symm
    · rw [replaced, if_neg (by simp [exchange, found, different.symm])]
      exact loses_moved found different

end FileTree

namespace LinkCall

def gone (tree : FileTree) : LinkCall → Option Inode
  | unlink name | remove name | rmdir name | unlinkat name _ => tree.lastName name
  | rename old new | renameat old new => tree.replaced old new {}
  | renameat2 old new flags => tree.replaced old new flags

variable {tree : FileTree} {names : Table Name Inode} {inode : Inode}

theorem real_loses : {call : LinkCall} → call.real tree = .ok names →
    tree.Loses names (call.gone tree)
  | unlink _, done => removed_loses (.inl done)
  | remove _, done => removed_loses (remove_ok done)
  | rmdir _, done => removed_loses (.inr done)
  | unlinkat _ true, done => removed_loses (.inr done)
  | unlinkat _ false, done => removed_loses (.inl done)
  | rename _ _, done => rename_loses done
  | renameat _ _, done => rename_loses done
  | renameat2 _ _ _, done => rename_loses done

theorem gone_named : {call : LinkCall} → call.gone tree = some inode →
    tree.Named tree.names inode
  | unlink _, gone | remove _, gone | rmdir _, gone | unlinkat _ _, gone =>
    .inr (lastName_refers gone)
  | rename _ _, gone | renameat _ _, gone | renameat2 _ _ _, gone =>
    .inr (lastName_refers (replaced_eq_some_iff.1 gone).2.2)

theorem looked_named : {call : LinkCall} → call.looked tree = some inode →
    tree.Named tree.names inode
  | unlink _, looked | remove _, looked | rmdir _, looked | unlinkat _ _, looked =>
    followed_named looked
  | rename _ new, looked | renameat _ new, looked | renameat2 _ new _, looked =>
    .inr ⟨new, looked⟩

theorem victim_named {call : LinkCall} (victim : call.victim tree = some inode) :
    tree.Named tree.names inode :=
  looked_named (filter_eq_some_iff.1 victim).1

end LinkCall

/-! ## The records follow the names -/

/-- Inodes that have a name keep their records, and those that lost their last name have nothing
active in theirs. -/
structure RecordsFollow (tree : FileTree) (names : Table Name Inode) (before after : InodeMap) :
    Prop where
  kept : ∀ inode, tree.Named names inode → after inode = before inode
  cleared : ∀ inode, tree.Named tree.names inode → ¬ tree.Named names inode →
    isActive (after inode) = false

/-- Two choices of an inode are the same as far as active records go. -/
def AgreeOn (active : Inode → Prop) (chosen chosen' : Option Inode) : Prop :=
  ∀ inode, active inode → (chosen = some inode ↔ chosen' = some inode)

section Follow

variable {vperm : VpermState} {tree : FileTree} {call : LinkCall} {verdict : Except Errno Unit}
variable {names : Table Name Inode}

theorem isActive_cleared (record : Option InodeSimu) :
    isActive (record.map fun istat => { istat with activeFields := 0 }) = false := by
  cases record with
  | none => rfl
  | some istat => exact isActive_of_eq_zero rfl

theorem recordsFollow_iff (fits : vperm.db.stored < 2 ^ 32)
    (success : (call.run vperm tree verdict).2 = .ok names) :
    RecordsFollow tree names vperm.db.lookUp (call.run vperm tree verdict).1.db.lookUp ↔
      AgreeOn (fun inode => isActive (vperm.db.lookUp inode) = true) (call.victim tree)
        (call.gone tree) := by
  have after := run_lookUp fits success
  have loses : tree.Loses names (call.gone tree) := by
    rw [run_eq, removalGates_result] at success
    exact real_loses (permitted_ok success)
  constructor
  · intro follow inode active
    constructor
    · intro victim
      by_contra stays
      -- The record is cleared, but must be as before.
      have same := follow.kept inode ((loses inode (victim_named victim)).2 stays)
      rw [after, if_pos ⟨victim, active⟩] at same
      rw [← same, isActive_cleared] at active
      cases active
    · intro gone
      have named := gone_named gone
      have inactive := follow.cleared inode named fun stays => (loses inode named).1 stays gone
      by_contra other
      rw [after, if_neg fun victim => other victim.1, active] at inactive
      cases inactive
  · intro agree
    constructor
    · intro inode stays
      rw [after, if_neg]
      rintro ⟨victim, active⟩
      exact (loses inode (victim_named victim)).1 stays ((agree inode active).1 victim)
    · intro inode named lost
      have gone : call.gone tree = some inode := by
        by_contra other
        exact lost ((loses inode named).2 other)
      rw [after]
      split
      next => exact isActive_cleared _
      next spared =>
        rw [← Bool.not_eq_true]
        exact fun active => spared ⟨(agree inode active).2 gone, active⟩

end Follow

/-! ## When they do -/

namespace FileTree

variable (tree : FileTree) (active : Inode → Prop)

/-- A symbolic link must not have a record that is active if this is its last name, and the file
to which it leads must not have one if it has one link. -/
def SafeUnlink (name : Name) : Prop :=
  ∀ link, tree.names.get name = some link → tree.islnk link = true →
    (active link → tree.names.refs link ≠ 1) ∧
      ∀ target, tree.leadsTo name = some target → active target → tree.nlink target ≠ 1

/-- A directory that has an active record must have one link, as in file systems that do not
count. -/
def SafeRemovedir (name : Name) : Prop :=
  ∀ directory, tree.names.get name = some directory → tree.isdir directory = true →
    active directory → tree.nlink directory = 1

/-- A file that is renamed to its own name, or takes the place of the other one in an exchange,
must not have an active record, unless it has more links. -/
def SafeRename (old new : Name) (flags : RenameFlags) : Prop :=
  ∀ inode, tree.names.get new = some inode →
    flags.exchange = true ∨ tree.names.get old = some inode → active inode →
      ¬ (tree.nlink inode = 1 ∨ tree.isdir inode = true ∧ tree.nlink inode = 2)

variable {tree active} {name old new : Name} {inode : Inode} {names : Table Name Inode}
variable {flags : RenameFlags}

theorem oneLink_eq_some_iff :
    (tree.followed name).filter (fun inode => oneLink (tree.statOf inode)) = some inode ↔
      tree.followed name = some inode ∧ tree.nlink inode = 1 := by
  rw [filter_eq_some_iff, oneLink, beq_iff_eq]
  rfl

theorem oneLinkOrDirectory_iff :
    oneLinkOrDirectory (tree.statOf inode) = true ↔
      tree.nlink inode = 1 ∨ tree.isdir inode = true ∧ tree.nlink inode = 2 := by
  rw [oneLinkOrDirectory, Bool.or_eq_true, Bool.and_eq_true, beq_iff_eq, beq_iff_eq]
  rfl

theorem isdir_of_islnk (link : tree.islnk inode = true) : tree.isdir inode = false := by
  rw [islnk, sIslnk, beq_iff_eq] at link
  rw [isdir, sIsdir, link]
  decide

theorem nlink_of_file (file : tree.isdir inode = false) :
    tree.nlink inode = tree.names.refs inode := by
  rw [nlink, file]
  rfl

section

variable (found : tree.names.get name = some inode)

include found

theorem refs_directory (directory : tree.isdir inode = true) : tree.names.refs inode = 1 :=
  (Table.refs_eq_one_iff found).2 fun _ => tree.directory_once directory found

theorem followed_of_not_link
    (noLink : tree.islnk inode = false) : tree.followed name = some inode := by
  rw [followed, found, bind_some, noLink]
  rfl

theorem followed_directory
    (directory : tree.isdir inode = true) : tree.followed name = some inode := by
  refine followed_of_not_link found (Bool.eq_false_iff.2 fun link => ?_)
  rw [isdir_of_islnk link] at directory
  cases directory

theorem agreeOn_link_iff (link : tree.islnk inode = true) :
    AgreeOn active ((tree.followed name).filter fun inode => oneLink (tree.statOf inode))
      (tree.lastName name) ↔ tree.SafeUnlink active name := by
  have leads : tree.followed name = tree.leadsTo name := by
    rw [followed, found, bind_some, link]
    rfl
  have other {target : Inode} (leads : tree.leadsTo name = some target) :
      tree.names.get name ≠ some target := by
    intro same
    rw [← Option.some.inj (found.symm.trans same)] at leads
    exact absurd link (Bool.eq_false_iff.1 (tree.leadsTo_file leads))
  simp only [AgreeOn, oneLink_eq_some_iff, lastName_eq_some_iff]
  rw [leads]
  constructor
  · intro agree link found' _
    constructor
    · intro active last
      exact other ((agree link active).2 ⟨found', last⟩).1 found'
    · intro target leads active one
      exact other leads ((agree target active).1 ⟨leads, one⟩).1
  · intro safe target active
    refine iff_of_false ?_ ?_
    · rintro ⟨leads, one⟩
      exact (safe inode found link).2 target leads active one
    · rintro ⟨found', last⟩
      rw [Option.some.inj (found.symm.trans found')] at link
      exact (safe target found' link).1 active last

end

theorem agreeOn_unlink_iff (done : tree.unlink name = .ok names) :
    AgreeOn active ((tree.followed name).filter fun inode => oneLink (tree.statOf inode))
      (tree.lastName name) ↔ tree.SafeUnlink active name := by
  obtain ⟨inode, found, file, -⟩ := unlink_ok done
  cases link : tree.islnk inode with
  | true => exact agreeOn_link_iff found link
  | false =>
    refine iff_of_true (fun target _ => ?_) fun other found' link' => ?_
    · -- The link count of a file is the number of its names.
      rw [oneLink_eq_some_iff, lastName_eq_some_iff, followed_of_not_link found link, found]
      refine and_congr_right fun same => ?_
      rw [← Option.some.inj same, nlink_of_file file]
    · rw [← Option.some.inj (found.symm.trans found'), link] at link'
      cases link'

theorem agreeOn_removedir_iff (done : tree.rmdir name = .ok names) :
    AgreeOn active ((tree.followed name).filter fun inode => oneLink (tree.statOf inode))
      (tree.lastName name) ↔ tree.SafeRemovedir active name := by
  obtain ⟨inode, found, directory, -⟩ := rmdir_ok done
  have last := refs_directory found directory
  simp only [AgreeOn, oneLink_eq_some_iff, lastName_eq_some_iff]
  simp only [followed_directory found directory, SafeRemovedir, found, Option.some.injEq]
  constructor
  · rintro agree _ rfl _ active
    exact ((agree inode active).2 ⟨rfl, last⟩).2
  · rintro safe target active
    refine and_congr_right ?_
    rintro rfl
    exact iff_of_true (safe inode rfl directory active) last

theorem safeRemovedir_of_unlink (done : tree.unlink name = .ok names) :
    tree.SafeRemovedir active name := by
  obtain ⟨inode, found, file, -⟩ := unlink_ok done
  intro other found' directory
  rw [← Option.some.inj (found.symm.trans found'), file] at directory
  cases directory

theorem safeUnlink_of_rmdir (done : tree.rmdir name = .ok names) :
    tree.SafeUnlink active name := by
  obtain ⟨inode, found, directory, -⟩ := rmdir_ok done
  intro other found' link
  rw [← Option.some.inj (found.symm.trans found')] at link
  rw [isdir_of_islnk link] at directory
  cases directory

theorem agreeOn_rmdir (done : tree.rmdir name = .ok names) :
    AgreeOn active ((tree.followed name).filter fun _ => true) (tree.lastName name) := by
  obtain ⟨inode, found, directory, -⟩ := rmdir_ok done
  intro other _
  rw [followed_directory found directory, filter_some, if_pos rfl, lastName_eq_some_iff,
    found, Option.some.injEq, iff_self_and]
  rintro rfl
  exact refs_directory found directory

/-- A file that is replaced has no other name exactly if the gate sees its last link. -/
theorem oneLinkOrDirectory_replaced (found : tree.names.get name = some inode)
    (empty : tree.isdir inode = true → tree.isEmpty inode = true) :
    oneLinkOrDirectory (tree.statOf inode) = true ↔ tree.names.refs inode = 1 := by
  rw [oneLinkOrDirectory_iff]
  cases directory : tree.isdir inode with
  | true =>
    refine iff_of_true ?_ (refs_directory found directory)
    have links := tree.empty_links directory (of_decide_eq_true (empty directory))
    rw [nlink, if_pos directory]
    exact links.imp_right fun two => ⟨rfl, two⟩
  | false => simp [nlink_of_file directory]

theorem rename_empty (done : tree.rename old new flags = .ok names)
    (target : tree.names.get new = some inode) (exchange : flags.exchange = false)
    (other : tree.names.get old ≠ some inode) (directory : tree.isdir inode = true) :
    tree.isEmpty inode = true := by
  obtain ⟨moved, found, ⟨free, -⟩ | ⟨same, -⟩ | ⟨replaced, -, target', cases⟩⟩ := rename_ok done
  · rw [free] at target
    cases target
  · rw [found, ← same] at other
    exact absurd target other
  · cases target.symm.trans target'
    rcases cases with ⟨exchange', -⟩ | ⟨-, empty, -⟩
    · rw [exchange] at exchange'
      cases exchange'
    · exact empty directory

theorem agreeOn_rename_iff (done : tree.rename old new flags = .ok names) :
    AgreeOn active
      ((tree.names.get new).filter fun inode => oneLinkOrDirectory (tree.statOf inode))
      (tree.replaced old new flags) ↔ tree.SafeRename active old new flags := by
  simp only [AgreeOn, filter_eq_some_iff, replaced_eq_some_iff, lastName_eq_some_iff]
  constructor
  · intro agree inode target stays active last
    obtain ⟨exchange, other, -⟩ := (agree inode active).1 ⟨target, oneLinkOrDirectory_iff.2 last⟩
    exact stays.elim (Bool.eq_false_iff.1 exchange) other
  · intro safe inode active
    constructor
    · rintro ⟨target, last⟩
      have leaves : ¬ (flags.exchange = true ∨ tree.names.get old = some inode) := fun stays =>
        safe inode target stays active (oneLinkOrDirectory_iff.1 last)
      rw [not_or, Bool.not_eq_true] at leaves
      obtain ⟨exchange, other⟩ := leaves
      exact ⟨exchange, other, target,
        (oneLinkOrDirectory_replaced target (rename_empty done target exchange other)).1 last⟩
    · rintro ⟨exchange, other, target, one⟩
      exact ⟨target,
        (oneLinkOrDirectory_replaced target (rename_empty done target exchange other)).2 one⟩

end FileTree

/-- The condition under which a call keeps the records right. -/
def LinkCall.Safe (tree : FileTree) (active : Inode → Prop) : LinkCall → Prop
  | unlink name => tree.SafeUnlink active name
  | remove name => tree.SafeUnlink active name ∧ tree.SafeRemovedir active name
  | rmdir _ => True
  | unlinkat name true => tree.SafeRemovedir active name
  | unlinkat name false => tree.SafeUnlink active name
  | rename old new | renameat old new => tree.SafeRename active old new {}
  | renameat2 old new flags => tree.SafeRename active old new flags

variable {names : Table Name Inode} {tree : FileTree}

theorem LinkCall.agreeOn_iff
    {active : Inode → Prop} : {call : LinkCall} → call.real tree = .ok names →
    (AgreeOn active (call.victim tree) (call.gone tree) ↔ call.Safe tree active)
  | unlink _, done => agreeOn_unlink_iff done
  | remove name, done => by
    rcases remove_ok done with file | directory
    · exact (agreeOn_unlink_iff file).trans
        (and_iff_left (safeRemovedir_of_unlink file)).symm
    · exact (agreeOn_removedir_iff directory).trans
        (and_iff_right (safeUnlink_of_rmdir directory)).symm
  | rmdir _, done => iff_of_true (agreeOn_rmdir done) trivial
  | unlinkat _ true, done => agreeOn_removedir_iff done
  | unlinkat _ false, done => agreeOn_unlink_iff done
  | rename _ _, done => agreeOn_rename_iff done
  | renameat _ _, done => agreeOn_rename_iff done
  | renameat2 _ _ _, done => agreeOn_rename_iff done

/-- After a call that succeeds, the records are right exactly if the call was safe for the records
that were active. -/
theorem records_follow_names_iff (vperm : VpermState) (tree : FileTree) (call : LinkCall)
    (verdict : Except Errno Unit) (names : Table Name Inode) (fits : vperm.db.stored < 2 ^ 32)
    (success : (call.run vperm tree verdict).2 = .ok names) :
    RecordsFollow tree names vperm.db.lookUp (call.run vperm tree verdict).1.db.lookUp ↔
      call.Safe tree fun inode => isActive (vperm.db.lookUp inode) = true := by
  rw [recordsFollow_iff fits success]
  rw [run_eq, removalGates_result] at success
  exact agreeOn_iff (permitted_ok success)

/-! ## A small file system -/

def ownedByRoot (inode : Inode) : VpermState :=
  (oneFile plainUser 0).vperm.send (ruletreeRpcVpermSetIds inode.1 inode.2 true 0 true 0)

/-- The root directory (1, 1) has a file `f`, a symbolic link `l` to it, and a directory `d`. -/
def smallNames : Table Name Inode :=
  ((Table.empty.put ((1, 1), ['f']) (some (1, 2))).put ((1, 1), ['l']) (some (1, 3))).put
    ((1, 1), ['d']) (some (1, 4))

theorem smallNames_get {name : Name} {inode : Inode} (found : smallNames.get name = some inode) :
    (name = ((1, 1), ['f']) ∧ inode = (1, 2)) ∨ (name = ((1, 1), ['l']) ∧ inode = (1, 3)) ∨
      (name = ((1, 1), ['d']) ∧ inode = (1, 4)) := by
  simp only [smallNames, Table.put_get, Function.update_apply] at found
  split_ifs at found with directory link file
  · exact .inr (.inr ⟨directory, (Option.some.inj found).symm⟩)
  · exact .inr (.inl ⟨link, (Option.some.inj found).symm⟩)
  · exact .inl ⟨file, (Option.some.inj found).symm⟩
  · cases found

def smallTree : FileTree where
  names := smallNames
  attributes inode :=
    ⟨if inode = (1, 2) then 0o100644 else if inode = (1, 3) then 0o120777 else 0o040755, 2, 1000,
      1000, 0⟩
  isRoot inode := inode == (1, 1)
  leadsTo name := if name = ((1, 1), ['l']) then some (1, 2) else none
  spare := (1, 5)
  root_unnamed root := by
    rintro ⟨name, found⟩
    rw [beq_iff_eq] at root
    rcases smallNames_get found with ⟨-, rfl⟩ | ⟨-, rfl⟩ | ⟨-, rfl⟩ <;> cases root
  directory_once _ found found' := by
    rcases smallNames_get found with ⟨rfl, rfl⟩ | ⟨rfl, rfl⟩ | ⟨rfl, rfl⟩ <;>
      rcases smallNames_get found' with ⟨rfl, same⟩ | ⟨rfl, same⟩ | ⟨rfl, same⟩ <;>
        first | rfl | cases same
  empty_links _ _ := .inr rfl
  leadsTo_named leads := by
    obtain ⟨-, leads⟩ := Option.ite_none_right_eq_some.1 leads
    cases leads
    exact .inr ⟨((1, 1), ['f']), rfl⟩
  leadsTo_file leads := by
    obtain ⟨-, leads⟩ := Option.ite_none_right_eq_some.1 leads
    cases leads
    rfl
  spare_unnamed := by
    refine ⟨rfl, ?_⟩
    rintro ⟨name, found⟩
    rcases smallNames_get found with ⟨-, same⟩ | ⟨-, same⟩ | ⟨-, same⟩ <;> cases same

/-- The record of a file is cleared when its only name is removed. -/
theorem record_of_removed_file :
    let call := unlink ((1, 1), ['f'])
    let vperm := ownedByRoot (1, 2)
    RecordsFollow smallTree (smallNames.put ((1, 1), ['f']) none) vperm.db.lookUp
      (call.run vperm smallTree (.ok ())).1.db.lookUp := by
  refine (records_follow_names_iff (ownedByRoot (1, 2)) smallTree (.unlink ((1, 1), ['f'])) (.ok ())
    (smallNames.put ((1, 1), ['f']) none) (by decide +kernel) ?_).2 ?_
  · rw [run_eq, removalGates_result]
    rfl
  · intro link found islnk
    cases Option.some.inj ((show smallNames.get ((1, 1), ['f']) = some (1, 2) from rfl).symm.trans
      found)
    cases islnk

def LinkCall.Breaks (vperm : VpermState) (tree : FileTree) (call : LinkCall) : Prop :=
  vperm.db.stored < 2 ^ 32 ∧ ∃ names, (call.run vperm tree (.ok ())).2 = .ok names ∧
    ¬ RecordsFollow tree names vperm.db.lookUp (call.run vperm tree (.ok ())).1.db.lookUp

theorem LinkCall.breaks {vperm : VpermState} {call : LinkCall} (done : call.real tree = .ok names)
    (inode : Inode) (fits : vperm.db.stored < 2 ^ 32)
    (active : isActive (vperm.db.lookUp inode) = true)
    (differ : ¬ (call.victim tree = some inode ↔ call.gone tree = some inode)) :
    call.Breaks vperm tree := by
  have success : (call.run vperm tree (.ok ())).2 = .ok names := by
    rw [run_eq, removalGates_result]
    exact done
  refine ⟨fits, names, success, fun follow => ?_⟩
  exact differ ((recordsFollow_iff fits success).1 follow inode active)

/-- Removing the link `l` clears the record of `f`, and leaves that of the link; `unlinkat` leaves
that of the directory; `f` loses its record in a `rename` to its own name or in an exchange. -/
theorem records_not_following :
    (LinkCall.unlink ((1, 1), ['l'])).Breaks (ownedByRoot (1, 2)) smallTree ∧
    (LinkCall.unlink ((1, 1), ['l'])).Breaks (ownedByRoot (1, 3)) smallTree ∧
    (LinkCall.unlinkat ((1, 1), ['d']) true).Breaks (ownedByRoot (1, 4)) smallTree ∧
    (LinkCall.rename ((1, 1), ['f']) ((1, 1), ['f'])).Breaks (ownedByRoot (1, 2)) smallTree ∧
    (LinkCall.renameat2 ((1, 1), ['d']) ((1, 1), ['f']) { exchange := true }).Breaks
      (ownedByRoot (1, 2)) smallTree := by
  refine ⟨breaks rfl (1, 2) ?_ ?_ ?_, breaks rfl (1, 3) ?_ ?_ ?_,
    breaks rfl (1, 4) ?_ ?_ ?_, breaks rfl (1, 2) ?_ ?_ ?_,
    breaks rfl (1, 2) ?_ ?_ ?_⟩ <;> decide +kernel

end Scratchbox
