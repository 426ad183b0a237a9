import Mathlib.Data.List.Dedup
import Scratchbox.InodeStoreFacts

/-!
# The inode store is a finite map

Every command changes what is found for its own inode, by a function of what was found
for it before (`RuletreeServer.Sound.handle`). So the server behaves like a map from
inodes to records, whatever commands it gets, and the tree has one node for each inode
that was set (`inode_store_refines_map`). A handle of a search can be used for several calls
exactly if the inode had a record, or if they ask for the same (`handle_stays_usable_iff`).
-/

namespace Scratchbox

open SearchTree List

/-! ## The map -/

namespace FileinfoCommand

def fileinfo : FileinfoCommand → InodeSimu
  | setfileinfo fileinfo => fileinfo
  | releasefileinfo fileinfo => fileinfo
  | clearfileinfo fileinfo => fileinfo

def inode (command : FileinfoCommand) : Inode := (command.fileinfo.dev, command.fileinfo.ino)

def apply : FileinfoCommand → Option InodeSimu → Option InodeSimu
  | setfileinfo fileinfo, none => some fileinfo
  | setfileinfo fileinfo, some istat => some (istat.set fileinfo)
  | releasefileinfo fileinfo, old => old.map (·.release fileinfo)
  | clearfileinfo _, old => old.map fun istat => { istat with activeFields := 0 }

def sets : FileinfoCommand → Option Inode
  | setfileinfo fileinfo => some (fileinfo.dev, fileinfo.ino)
  | _ => none

end FileinfoCommand

abbrev InodeMap := Inode → Option InodeSimu

def InodeMap.step (map : InodeMap) (command : FileinfoCommand) : InodeMap :=
  Function.update map command.inode (command.apply (map command.inode))

def InodeMap.run (map : InodeMap) (commands : List FileinfoCommand) : InodeMap :=
  commands.foldl InodeMap.step map

def inodesSet (commands : List FileinfoCommand) : List Inode :=
  commands.filterMap FileinfoCommand.sets

variable {map : InodeMap} {inode : Inode}

theorem InodeMap.step_isSome_iff {command : FileinfoCommand} :
    (map.step command inode).isSome ↔ (map inode).isSome ∨ command.sets = some inode := by
  rw [InodeMap.step, Function.update_apply]
  split
  next heq =>
    subst heq
    cases command with
    | setfileinfo fileinfo => cases map _ <;> simp [FileinfoCommand.apply, FileinfoCommand.sets,
        FileinfoCommand.inode, FileinfoCommand.fileinfo]
    | releasefileinfo fileinfo => simp [FileinfoCommand.apply, FileinfoCommand.sets]
    | clearfileinfo fileinfo => simp [FileinfoCommand.apply, FileinfoCommand.sets]
  next hne =>
    have hsets : command.sets ≠ some inode := by
      intro h
      cases command with
      | setfileinfo fileinfo => exact hne (Option.some.inj h).symm
      | releasefileinfo fileinfo => cases h
      | clearfileinfo fileinfo => cases h
    rw [or_iff_left hsets]

theorem InodeMap.run_isSome_iff {commands : List FileinfoCommand} :
    (map.run commands inode).isSome ↔ (map inode).isSome ∨ inode ∈ inodesSet commands := by
  induction commands generalizing map with
  | nil => simp [InodeMap.run, inodesSet]
  | cons command commands ih =>
    rw [InodeMap.run, foldl_cons, ← InodeMap.run, ih, InodeMap.step_isSome_iff, inodesSet,
      mem_filterMap, inodesSet, mem_filterMap, or_assoc]
    simp

/-! ## The server -/

def incCount (n : Nat) : Nat := if n < 2 ^ 32 - 1 then n + 1 else n

def FileinfoCommand.counted (command : FileinfoCommand) (old : Option InodeSimu) (n : Nat) : Nat :=
  match old, command.apply old with
  | none, none => n
  | some _, none => n
  | none, some _ => incCount n
  | some istat, some new =>
    if istat.activeFields = 0 ∧ new.activeFields ≠ 0 then incCount n
    else if istat.activeFields ≠ 0 ∧ new.activeFields = 0 then n - 1
    else n

variable {fileinfo istat : InodeSimu}

theorem InodeSimu.activeFields_set_ne_zero
    (h : istat.activeFields ≠ 0) : (istat.set fileinfo).activeFields ≠ 0 := by
  have hmode : simMode ≠ 0#32 := by decide
  unfold InodeSimu.set
  dsimp only
  split_ifs <;> simp_all [BitVec.or_eq_zero_iff]

theorem InodeSimu.activeFields_releaseField {field : BitVec 32} (h : istat.activeFields = 0) :
    (istat.releaseField fileinfo field).activeFields = 0 := by
  unfold InodeSimu.releaseField
  split
  · show istat.activeFields &&& ~~~field = 0
    rw [h]
    exact BitVec.zero_and
  · exact h

theorem InodeSimu.activeFields_release
    (h : istat.activeFields = 0) : (istat.release fileinfo).activeFields = 0 := by
  unfold InodeSimu.release
  split
  · repeat apply InodeSimu.activeFields_releaseField
    exact h
  · exact h

namespace FileinfoCommand

variable {n : Nat}

theorem counted_set : (setfileinfo fileinfo).counted (some istat) n =
    if istat.activeFields = 0 ∧ (istat.set fileinfo).activeFields ≠ 0 then incCount n else n := by
  show (if _ then _ else if istat.activeFields ≠ 0 ∧ (istat.set fileinfo).activeFields = 0 then _
    else _) = _
  have hnever : ¬ (istat.activeFields ≠ 0 ∧ (istat.set fileinfo).activeFields = 0) :=
    fun h => InodeSimu.activeFields_set_ne_zero h.1 h.2
  rw [if_neg hnever]

theorem counted_release : (releasefileinfo fileinfo).counted (some istat) n =
    if istat.activeFields ≠ 0 ∧ (istat.release fileinfo).activeFields = 0 then n - 1 else n := by
  show (if istat.activeFields = 0 ∧ (istat.release fileinfo).activeFields ≠ 0 then _ else _) = _
  rw [if_neg fun h => h.2 (InodeSimu.activeFields_release h.1)]

theorem counted_clear : (clearfileinfo fileinfo).counted (some istat) n =
    if istat.activeFields ≠ 0 then n - 1 else n := by
  show (if istat.activeFields = 0 ∧ (0 : BitVec 32) ≠ 0 then _
    else if istat.activeFields ≠ 0 ∧ (0 : BitVec 32) = 0 then _ else _) = _
  rw [if_neg fun h => h.2 rfl]
  simp only [and_true]

end FileinfoCommand

theorem Ruletree.incActive_eq (tree : Ruletree) :
    tree.incActive = { tree with numActiveInodestats := incCount tree.numActiveInodestats } := by
  rw [Ruletree.incActive, incCount]
  split <;> rfl

theorem Ruletree.decActive_eq (tree : Ruletree) :
    tree.decActive = { tree with numActiveInodestats := tree.numActiveInodestats - 1 } := by
  rw [Ruletree.decActive]
  split
  · rfl
  next h => rw [Nat.sub_eq_zero_of_le (by omega), ← Nat.eq_zero_of_not_pos h]

namespace RuletreeServer

def lookUp (server : RuletreeServer) : InodeMap :=
  server.tree.lookUp server.inodestatsBintreeRoot

structure Sound (server : RuletreeServer) (t : Tree (ℕ ×ₗ ℕ) Nat) : Prop where
  holds : server.tree.Holds t
  root : server.tree.Remembered server.inodestatsBintreeRoot

/-- What a command does to the server: the record of its inode is written, and the
counter follows it. -/
structure Handled (server after : RuletreeServer) (command : FileinfoCommand) : Prop where
  sound : ∃ t, after.Sound t
  lookUp : after.lookUp = InodeMap.step server.lookUp command
  record : ∃ value, server.tree.file.inodestatAt value = server.lookUp command.inode ∧
    after.tree.file.inodestatAt = Function.update server.tree.file.inodestatAt value
      (command.apply (server.lookUp command.inode))
  counter : after.tree.numActiveInodestats =
    command.counted (server.lookUp command.inode) server.tree.numActiveInodestats
  root : server.tree.inodestats = 0 ∨ server.tree.inodestats = after.tree.inodestats
  fileSize : server.tree.file.fileSize ≤ after.tree.file.fileSize

variable {server : RuletreeServer} {t : Tree (ℕ ×ₗ ℕ) Nat} {command : FileinfoCommand}
  {n : Node (ℕ ×ₗ ℕ) Nat}

theorem Sound.handled_set (h : server.Sound t) {set : Ruletree} {u : Tree (ℕ ×ₗ ℕ) Nat}
    {istat : InodeSimu} (hset : server.tree.Sets set u n.value istat)
    (hkey : n.key = command.inode.key) (hnodes : ∀ m, m ∈ u.nodes ↔ m = n ∨ m ∈ t.nodes)
    (hold : server.tree.file.inodestatAt n.value = server.lookUp command.inode)
    (happly : command.apply (server.lookUp command.inode) = some istat) {count : Nat}
    (hcount : count =
      command.counted (server.lookUp command.inode) server.tree.numActiveInodestats) :
    server.Handled ⟨{ set with numActiveInodestats := count }, server.tree.inodestats⟩ command := by
  have hroot : set.Remembered server.tree.inodestats := hset.root
  refine ⟨⟨u, ?_, hroot⟩, ?_, ⟨n.value, hold, ?_⟩, hcount, hset.root, hset.fileSize⟩
  · exact ⟨hset.holds.represents, hset.holds.ordered, hset.holds.values, hset.holds.records,
      hset.holds.inodes⟩
  · show set.lookUp server.tree.inodestats = InodeMap.step server.lookUp command
    rw [InodeMap.step, happly]
    exact hset.lookUp h.holds hkey hnodes h.root hroot
  · rw [happly]
    exact hset.inodestatAt

theorem Sound.handled_keep (h : server.Sound t)
    (happly : command.apply (server.lookUp command.inode) = server.lookUp command.inode)
    (hcount : server.tree.numActiveInodestats =
      command.counted (server.lookUp command.inode) server.tree.numActiveInodestats) :
    server.Handled ⟨server.tree, server.tree.inodestats⟩ command := by
  obtain ⟨value, hvalue⟩ := h.holds.exists_inodestatAt h.root command.inode
  refine ⟨⟨t, h.holds, .inr rfl⟩, ?_, ⟨value, hvalue, ?_⟩, hcount, .inr rfl, le_rfl⟩
  · rw [InodeMap.step, happly, Function.update_eq_self]
    exact h.holds.lookUp_root h.root
  · rw [happly]
    exact (Function.update_eq_self_iff.2 hvalue.symm).symm

theorem Sound.handle_missing (h : server.Sound t) {last : Option (Nat × Side)}
    (hsearch : t.search command.inode.key none = .missing last) :
    server.Handled (server.handle command).1 command := by
  let handle := handleAt command.inode 0 (leftAt last)
  have hfind : server.find command.fileinfo = ⟨server.tree.inodestats, handle, none⟩ := by
    have hfind := h.holds.find h.root command.inode
    rw [hsearch] at hfind
    exact hfind
  have hnone : server.lookUp command.inode = none := congrArg InodestatSearch.istat hfind
  cases command with
  | setfileinfo fileinfo =>
    obtain ⟨place, hset⟩ := h.holds.set_missing hsearch fileinfo
    have hafter : (server.handle (.setfileinfo fileinfo)).1 =
        ⟨{ (ruletreeSetInodestat server.tree handle fileinfo).1 with
            numActiveInodestats := incCount server.tree.numActiveInodestats },
          server.tree.inodestats⟩ := by
      simp only [RuletreeServer.handle, cmdSetfileinfo, show server.find fileinfo = _ from hfind,
        setInodestat, Ruletree.incActive_eq]
      rw [hset.counter]
    rw [hafter]
    let new : Node (ℕ ×ₗ ℕ) Nat :=
      ⟨place, (FileinfoCommand.setfileinfo fileinfo).inode.key, server.tree.file.fileSize⟩
    have hset : server.tree.Sets _ (t.insert new) new.value fileinfo := hset
    refine h.handled_set hset rfl (fun m => mem_nodes_insert) ?_ ?_ ?_
    · rw [hnone]
      exact inodestatAt_fileSize
    · rw [hnone]
      rfl
    · rw [hnone]
      rfl
  | releasefileinfo fileinfo =>
    have hafter : (server.handle (.releasefileinfo fileinfo)).1 =
        ⟨server.tree, server.tree.inodestats⟩ := by
      simp only [RuletreeServer.handle, cmdReleasefileinfo,
        show server.find fileinfo = _ from hfind]
    rw [hafter]
    exact h.handled_keep (by rw [hnone]; rfl) (by rw [hnone]; rfl)
  | clearfileinfo fileinfo =>
    have hafter : (server.handle (.clearfileinfo fileinfo)).1 =
        ⟨server.tree, server.tree.inodestats⟩ := by
      simp only [RuletreeServer.handle, cmdClearfileinfo, show server.find fileinfo = _ from hfind]
    rw [hafter]
    exact h.handled_keep (by rw [hnone]; rfl) (by rw [hnone]; rfl)

theorem Sound.handle_found (h : server.Sound t) (hn : n ∈ t.nodes)
    (hkey : n.key = command.inode.key) : server.Handled (server.handle command).1 command := by
  obtain ⟨old, hold⟩ := Option.isSome_iff_exists.1 (h.holds.records n hn)
  let handle := handleAt command.inode n.place (0, none)
  have hfind : server.find command.fileinfo = ⟨server.tree.inodestats, handle, some old⟩ := by
    have hfind := h.holds.find h.root command.inode
    rw [← hkey, search_of_mem h.holds.ordered hn] at hfind
    rw [← hold]
    exact hfind
  have hsome : server.lookUp command.inode = some old := congrArg InodestatSearch.istat hfind
  have hnodes : ∀ m, m ∈ t.nodes ↔ m = n ∨ m ∈ t.nodes :=
    fun m => ⟨.inr, fun hm => hm.elim (fun heq => heq ▸ hn) id⟩
  have hvalue := hold.trans hsome.symm
  have hset (istat : InodeSimu) : server.tree.Sets
      (ruletreeSetInodestat server.tree handle istat).1 t n.value istat :=
    h.holds.set_found hn command.inode (0, none) istat
  cases command with
  | setfileinfo fileinfo =>
    have hafter : (server.handle (.setfileinfo fileinfo)).1 =
        ⟨{ (ruletreeSetInodestat server.tree handle (old.set fileinfo)).1 with
            numActiveInodestats :=
              if old.activeFields = 0 ∧ (old.set fileinfo).activeFields ≠ 0 then
                incCount server.tree.numActiveInodestats
              else server.tree.numActiveInodestats },
          server.tree.inodestats⟩ := by
      simp only [RuletreeServer.handle, cmdSetfileinfo, show server.find fileinfo = _ from hfind,
        setInodestat, Ruletree.incActive_eq, ← (hset (old.set fileinfo)).counter]
      split <;> rfl
    rw [hafter]
    exact h.handled_set (hset _) hkey hnodes hvalue (by rw [hsome]; rfl)
      (by rw [hsome, FileinfoCommand.counted_set])
  | releasefileinfo fileinfo =>
    have hafter : (server.handle (.releasefileinfo fileinfo)).1 =
        ⟨{ (ruletreeSetInodestat server.tree handle (old.release fileinfo)).1 with
            numActiveInodestats :=
              if old.activeFields ≠ 0 ∧ (old.release fileinfo).activeFields = 0 then
                server.tree.numActiveInodestats - 1
              else server.tree.numActiveInodestats },
          server.tree.inodestats⟩ := by
      simp only [RuletreeServer.handle, cmdReleasefileinfo,
        show server.find fileinfo = _ from hfind, setInodestat, Ruletree.decActive_eq,
        ← (hset (old.release fileinfo)).counter]
      split <;> rfl
    rw [hafter]
    exact h.handled_set (hset _) hkey hnodes hvalue (by rw [hsome]; rfl)
      (by rw [hsome, FileinfoCommand.counted_release])
  | clearfileinfo fileinfo =>
    by_cases hactive : old.activeFields ≠ 0
    · have hafter : (server.handle (.clearfileinfo fileinfo)).1 =
          ⟨{ (ruletreeSetInodestat server.tree handle { old with activeFields := 0 }).1 with
              numActiveInodestats := server.tree.numActiveInodestats - 1 },
            server.tree.inodestats⟩ := by
        simp only [RuletreeServer.handle, cmdClearfileinfo,
          show server.find fileinfo = _ from hfind, setInodestat, Ruletree.decActive_eq,
          ← (hset { old with activeFields := 0 }).counter, if_pos hactive]
      rw [hafter]
      exact h.handled_set (hset _) hkey hnodes hvalue (by rw [hsome]; rfl)
        (by rw [hsome, FileinfoCommand.counted_clear, if_pos hactive])
    · have hafter : (server.handle (.clearfileinfo fileinfo)).1 =
          ⟨server.tree, server.tree.inodestats⟩ := by
        simp only [RuletreeServer.handle, cmdClearfileinfo,
          show server.find fileinfo = _ from hfind, if_neg hactive]
      rw [hafter]
      have hsame : { old with activeFields := 0 } = old := by
        rw [← not_not.1 hactive]
      refine h.handled_keep ?_ ?_
      · rw [hsome]
        exact congrArg some hsame
      · rw [hsome, FileinfoCommand.counted_clear, if_neg hactive]

/-- One command. -/
theorem Sound.handle (h : server.Sound t) (command : FileinfoCommand) :
    server.Handled (server.handle command).1 command := by
  cases hsearch : t.search command.inode.key none with
  | missing last => exact h.handle_missing hsearch
  | found n =>
    obtain ⟨hn, hkey⟩ := mem_of_search_found hsearch
    exact h.handle_found hn hkey

/-! ## Runs -/

theorem empty_sound (file : RuletreeFile) : (empty file).Sound .leaf where
  holds := ⟨.leaf, trivial, nodup_nil, fun _ hn => absurd hn not_mem_nil,
    fun _ hn => absurd hn not_mem_nil⟩
  root := .inl rfl

theorem Sound.run (h : server.Sound t) (commands : List FileinfoCommand) :
    (∃ u, (server.run commands).Sound u) ∧
      (server.run commands).lookUp = InodeMap.run server.lookUp commands := by
  induction commands generalizing server t with
  | nil => exact ⟨⟨t, h⟩, rfl⟩
  | cons command commands ih =>
    have hhandled := h.handle command
    obtain ⟨u, hu⟩ := hhandled.sound
    obtain ⟨hsound, hlookUp⟩ := ih hu
    refine ⟨hsound, hlookUp.trans ?_⟩
    rw [hhandled.lookUp]
    rfl

end RuletreeServer

/-- The store is a map, with a node for each inode that was set; a process finds in it what
the map has, and a command changes only what is found for its own inode. -/
theorem inode_store_refines_map (file : RuletreeFile) (commands : List FileinfoCommand) :
    let server := (RuletreeServer.empty file).run commands
    (∃ t, Represents server.tree.file.cells server.tree.inodestats t ∧ t.Ordered ∧
      (t.nodes.map Node.key).Perm ((inodesSet commands).dedup.map Inode.key)) ∧
    (∀ root, server.tree.Remembered root →
      server.tree.lookUp root = InodeMap.run (fun _ => none) commands) ∧
    (∀ root inode, server.tree.Remembered root →
      ((server.tree.lookUp root inode).isSome ↔ inode ∈ inodesSet commands)) ∧
    ∀ command inode, inode ≠ command.inode →
      (server.handle command).1.lookUp inode = server.lookUp inode := by
  intro server
  obtain ⟨⟨t, hsound⟩, hlookUp⟩ := (RuletreeServer.empty_sound file).run commands
  have hmap : ∀ root, server.tree.Remembered root →
      server.tree.lookUp root = InodeMap.run (fun _ => none) commands := by
    intro root hroot
    rw [← hsound.holds.lookUp_root hroot, hsound.holds.lookUp_root hsound.root]
    exact hlookUp
  have hset : ∀ root inode, server.tree.Remembered root →
      ((server.tree.lookUp root inode).isSome ↔ inode ∈ inodesSet commands) := by
    intro root inode hroot
    rw [hmap root hroot, InodeMap.run_isSome_iff]
    exact or_iff_right (by simp)
  refine ⟨⟨t, hsound.holds.represents, hsound.holds.ordered, ?_⟩, hmap, hset, ?_⟩
  · have hkeys : ((inodesSet commands).dedup.map Inode.key).Nodup :=
      (nodup_dedup _).map Inode.key_injective
    refine (perm_ext_iff_of_nodup hsound.holds.ordered.nodup_keys hkeys).2 fun key => ?_
    rw [mem_map, mem_map]
    constructor
    · rintro ⟨n, hn, rfl⟩
      obtain ⟨inode, hinode⟩ := hsound.holds.inodes n hn
      have hfound := (hsound.holds.lookUp_isSome_iff hsound.root).2 ⟨n, hn, hinode⟩
      exact ⟨inode, mem_dedup.2 ((hset _ inode hsound.root).1 hfound), hinode.symm⟩
    · rintro ⟨inode, hinode, rfl⟩
      exact (hsound.holds.lookUp_isSome_iff hsound.root).1
        ((hset _ inode hsound.root).2 (mem_dedup.1 hinode))
  · intro command inode hne
    rw [(hsound.handle command).lookUp, InodeMap.step, Function.update_of_ne hne]

/-! ## Handles that are used again

A search leaves the node of the inode in its handle, and `ruletree_set_inodestat` writes the record
of this node, as often as it is called. If there was no node, it appends a record and a node for it,
and leaves the offset of the record in the handle. The next call takes this for the offset of a
node, finds an object of another type there, and returns. -/

/-- `ruletree_set_inodestat` is called with one handle for each of the records. After each call,
every process finds the record of this call. -/
def StaysUsable (inode : Inode) : Ruletree → InodestatHandle → List InodeSimu → Prop
  | _, _, [] => True
  | tree, handle, istat :: records =>
    let set := ruletreeSetInodestat tree handle istat
    (∀ root, set.1.Remembered root → set.1.lookUp root inode = some istat) ∧
      StaysUsable inode set.1 set.2 records

section Handles

variable {tree : Ruletree} {t : Tree (ℕ ×ₗ ℕ) Nat} {inode : Inode} {n : Node (ℕ ×ₗ ℕ) Nat}
  {handle : InodestatHandle}

theorem setInodestat_handle (hoffs : handle.offs ≠ 0) (istat : InodeSimu) :
    (ruletreeSetInodestat tree handle istat).2 = handle := by
  rw [ruletreeSetInodestat, if_pos hoffs]
  split
  · rfl
  · split <;> rfl

/-- The node of the inode is in the handle: each call overwrites its record. -/
theorem Ruletree.Holds.staysUsable (h : tree.Holds t) (hn : n ∈ t.nodes) (hkey : n.key = inode.key)
    (left : Nat × Option Side) (records : List InodeSimu) :
    StaysUsable inode tree (handleAt inode n.place left) records := by
  induction records generalizing tree with
  | nil => trivial
  | cons istat records ih =>
    have hset := h.set_found hn inode left istat
    refine ⟨fun root hroot => ?_, ?_⟩
    · rw [hset.holds.lookUp_of_mem hroot hn hkey, hset.inodestatAt, Function.update_self]
    · rw [setInodestat_handle (h.bintreeAt hn).1]
      exact ih hset.holds

/-- The offset of a record is in the handle: the call changes nothing. -/
theorem setInodestat_record {old : InodeSimu} (hold : tree.file.inodestatAt handle.offs = some old)
    (istat : InodeSimu) : ruletreeSetInodestat tree handle istat = (tree, handle) := by
  have hobject := RuletreeFile.inodestatAt_eq_some.1 hold
  have hnode : tree.file.bintreeAt handle.offs = none := by
    rw [RuletreeFile.bintreeAt, hobject]
    rfl
  rw [ruletreeSetInodestat, if_pos (ne_zero_of_object hobject (by simp)), hnode]

theorem staysUsable_record {old first : InodeSimu}
    (hold : tree.file.inodestatAt handle.offs = some old)
    (hfound : ∀ root, tree.Remembered root → tree.lookUp root inode = some first)
    (records : List InodeSimu) :
    StaysUsable inode tree handle records ↔ ∀ istat ∈ records, istat = first := by
  induction records with
  | nil => exact iff_of_true trivial fun istat hmem => absurd hmem not_mem_nil
  | cons istat records ih =>
    rw [StaysUsable, setInodestat_record hold, ih, forall_mem_cons]
    refine and_congr_left fun _ => ⟨fun hcall => ?_, ?_⟩
    · exact Option.some.inj ((hcall 0 (.inl rfl)).symm.trans (hfound 0 (.inl rfl)))
    · rintro rfl
      exact hfound

/-- A handle with which an inode was searched can be used for any calls exactly if the inode had a
record, or if no call asks for another record than the first. -/
theorem handle_stays_usable_iff (h : tree.Holds t) {root : Nat} (hroot : tree.Remembered root)
    (inode : Inode) (records : List InodeSimu) :
    StaysUsable inode tree
        (ruletreeFindInodestat tree root (ruletreeInitInodestatHandle inode.1 inode.2)).handle
        records ↔
      (tree.lookUp root inode).isSome ∨ ∀ istat ∈ records, some istat = records.head? := by
  cases hend : t.search inode.key none with
  | found n =>
    obtain ⟨hn, hkey⟩ := mem_of_search_found hend
    rw [h.find hroot, hend]
    exact iff_of_true (h.staysUsable hn hkey _ records)
      (.inl ((h.lookUp_isSome_iff hroot).2 ⟨n, hn, hkey⟩))
  | missing last =>
    have hnone := h.lookUp_eq_none hroot ((search_missing_iff h.ordered).1 ⟨last, hend⟩)
    rw [h.find hroot, hend, hnone, Option.isSome_none, or_iff_right Bool.false_ne_true]
    cases records with
    | nil => exact iff_of_true trivial fun istat hmem => absurd hmem not_mem_nil
    | cons first records =>
      obtain ⟨place, hset⟩ := h.set_missing hend first
      have hnode : ⟨place, inode.key, tree.file.fileSize⟩ ∈
          (t.insert ⟨place, inode.key, tree.file.fileSize⟩).nodes := mem_nodes_insert.2 (.inl rfl)
      have hrecord := congrFun hset.inodestatAt tree.file.fileSize
      rw [Function.update_self] at hrecord
      have hfound : ∀ root, _ → Ruletree.lookUp _ root inode = some first := fun root hroot =>
        (hset.holds.lookUp_of_mem hroot hnode rfl).trans hrecord
      -- the first call takes effect, and leaves the offset of its record in the handle
      rw [StaysUsable, and_iff_right hfound]
      refine (staysUsable_record hrecord hfound records).trans ?_
      simp

end Handles

/-- The owner of a new record is set twice: the second call is lost. -/
theorem second_call_is_lost :
    let tree := (RuletreeServer.empty .create).tree
    let search := ruletreeFindInodestat tree 0 (ruletreeInitInodestatHandle 1 1)
    let first := ruletreeSetInodestat tree search.handle { dev := 1, ino := 1, uid := 5 }
    let second := ruletreeSetInodestat first.1 first.2 { dev := 1, ino := 1, uid := 6 }
    second.1.lookUp 0 (1, 1) = some { dev := 1, ino := 1, uid := 5 } := by
  decide +kernel

/-- It is not if the record was there before. -/
theorem handle_stays_usable_for_record :
    let server := (RuletreeServer.empty .create).run [ruletreeRpcVpermSetIds 1 1 true 4 false 0]
    StaysUsable (1, 1) server.tree
      (ruletreeFindInodestat server.tree server.inodestatsBintreeRoot
        (ruletreeInitInodestatHandle 1 1)).handle
      [{ dev := 1, ino := 1, uid := 5 }, { dev := 1, ino := 1, uid := 6 }] := by
  intro server
  obtain ⟨⟨t, hsound⟩, -⟩ := (RuletreeServer.empty_sound .create).run
    [ruletreeRpcVpermSetIds 1 1 true 4 false 0]
  exact (handle_stays_usable_iff hsound.holds hsound.root (1, 1) _).2 (.inl (by decide +kernel))

end Scratchbox
