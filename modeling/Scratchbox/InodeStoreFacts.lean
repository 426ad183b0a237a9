import Mathlib.Data.List.Nodup
import Scratchbox.InodeStore

/-!
# What the inode store holds

`Ruletree.Holds` says which search tree the nodes of the file make up. A search for an
inode ends where the search in that tree ends (`Ruletree.Holds.find`); a record that is
set afterwards is overwritten in place or gets a new node there
(`Ruletree.Holds.set_found`, `Ruletree.Holds.set_missing`).
-/

namespace Scratchbox

open SearchTree Function RuletreeFile

/-! ## Keys -/

/-- The two multiplications leave the byte in bits 32 to 39, with its bits reversed. -/
theorem reversed_byte : ∀ byte : BitVec 8,
    ((((byte.setWidth 64 * 0x80200802#64) &&& 0x0884422110#64) * 0x0101010101#64) <<<
      24).extractLsb' 56 8 = byte.reverse := by
  decide +kernel

theorem and_byte (ino : BitVec 64) : ino &&& 0xFF#64 = (ino.setWidth 8).setWidth 64 := by
  refine BitVec.eq_of_toNat_eq ?_
  have hmod : ino.toNat &&& 255 = ino.toNat % 256 := Nat.and_two_pow_sub_one_eq_mod ino.toNat 8
  simp only [BitVec.toNat_and, BitVec.toNat_setWidth, BitVec.toNat_ofNat, Nat.reducePow,
    Nat.reduceMod, hmod]
  omega

theorem setWidth_inoToKey (ino : BitVec 64) : (inoToKey ino).setWidth 24 = ino.setWidth 24 := by
  refine BitVec.eq_of_getLsbD_eq fun i hi => ?_
  simp [inoToKey, hi]

theorem inoToKey_injective : Function.Injective inoToKey := by
  intro a b h
  -- What is added to the number depends only on its lowest byte, which the key shows.
  have hlow : a.setWidth 8 = b.setWidth 8 := by
    have hbyte (ino : BitVec 64) : ino.setWidth 8 = ((inoToKey ino).setWidth 24).setWidth 8 := by
      rw [setWidth_inoToKey, BitVec.setWidth_setWidth_of_le _ (by decide)]
    rw [hbyte, h, ← hbyte]
  rw [inoToKey, inoToKey, and_byte, and_byte, hlow] at h
  exact (BitVec.xor_right_inj _).1 h

theorem highByte_inoToKey (ino : BitVec 64) :
    (inoToKey ino).extractLsb' 56 8 = ino.extractLsb' 56 8 ^^^ (ino.setWidth 8).reverse := by
  rw [inoToKey, and_byte, BitVec.extractLsb'_xor, reversed_byte, BitVec.xor_comm]

/-- The key of an inode number determines it and shows its low bits; the highest byte is mixed
with the reversed lowest one, so that each block of 256 numbers is spread over all values of the
highest byte. -/
theorem inoToKey_spreads :
    Function.Injective inoToKey ∧
      (∀ ino, (inoToKey ino).setWidth 24 = ino.setWidth 24) ∧
      (∀ ino, (inoToKey ino).extractLsb' 56 8 =
        ino.extractLsb' 56 8 ^^^ (ino.setWidth 8).reverse) ∧
      ∀ block : BitVec 56, Function.Bijective fun low : BitVec 8 =>
        (inoToKey (block ++ low)).extractLsb' 56 8 := by
  refine ⟨inoToKey_injective, setWidth_inoToKey, highByte_inoToKey, fun block => ?_⟩
  have hbyte (low : BitVec 8) : (inoToKey (block ++ low)).extractLsb' 56 8 =
      block.extractLsb' 48 8 ^^^ low.reverse := by
    rw [highByte_inoToKey, BitVec.setWidth_append_eq_right,
      BitVec.extractLsb'_append_eq_of_le (by decide)]
  simp only [hbyte]
  constructor
  · intro low low' h
    rw [BitVec.xor_right_inj] at h
    rw [← BitVec.reverse_reverse_eq (x := low), h, BitVec.reverse_reverse_eq]
  · intro byte
    refine ⟨(block.extractLsb' 48 8 ^^^ byte).reverse, ?_⟩
    dsimp only
    rw [BitVec.reverse_reverse_eq, ← BitVec.xor_assoc, BitVec.xor_self, BitVec.zero_xor]

def treeKey (key1 key2 : BitVec 64) : ℕ ×ₗ ℕ := toLex (key1.toNat, key2.toNat)

theorem treeKey_inj {a b c d : BitVec 64} : treeKey a b = treeKey c d ↔ a = c ∧ b = d := by
  rw [treeKey, treeKey, toLex_inj, Prod.mk.injEq, BitVec.toNat_inj, BitVec.toNat_inj]

abbrev Inode := BitVec 64 × BitVec 64

/-- The key of an inode: its scrambled number, and then the device. -/
def Inode.key (inode : Inode) : ℕ ×ₗ ℕ := treeKey (inoToKey inode.2) inode.1

theorem Inode.key_injective : Function.Injective Inode.key := by
  rintro ⟨dev, ino⟩ ⟨dev', ino'⟩ h
  obtain ⟨hino, hdev⟩ := treeKey_inj.1 h
  exact Prod.ext hdev (inoToKey_injective hino)

/-! ## The nodes of the file -/

def Bintree.cell (node : Bintree) : Cell (ℕ ×ₗ ℕ) Nat :=
  ⟨treeKey node.key1 node.key2, node.value, node.linkLess, node.linkMore⟩

def RuletreeFile.cells (file : RuletreeFile) (offs : Nat) : Option (Cell (ℕ ×ₗ ℕ) Nat) :=
  (file.bintreeAt offs).map Bintree.cell

theorem bintreeLess_iff {key1 key2 : BitVec 64} {node : Bintree} :
    bintreeLess key1 key2 node = true ↔ treeKey key1 key2 < node.cell.key := by
  show _ ↔ treeKey key1 key2 < treeKey node.key1 node.key2
  rw [treeKey, treeKey, Prod.Lex.toLex_lt_toLex, bintreeLess]
  simp [BitVec.lt_def, BitVec.toNat_inj]

theorem RuletreeFile.cells_forward (file : RuletreeFile) (offs : Nat) (cell : Cell (ℕ ×ₗ ℕ) Nat)
    (h : file.cells offs = some cell) :
    offs < file.fileSize ∧ (cell.less ≠ 0 → offs < cell.less) ∧
      (cell.more ≠ 0 → offs < cell.more) := by
  obtain ⟨node, hnode, rfl⟩ := Option.map_eq_some_iff.1 h
  have hobject := bintreeAt_eq_some.1 hnode
  exact ⟨lt_fileSize hobject, file.forward offs _ hobject⟩

/-- The variables that a search leaves for the last node and the direction. -/
def leftAt : Option (Nat × Side) → Nat × Option Side
  | none => (0, none)
  | some (place, side) => (place, some side)

/-- What `ruletree_find_bintree_entry` gives for the end of a search in the tree. -/
def Descent.result (out : Nat × Option Side) : Descent (ℕ ×ₗ ℕ) Nat → Nat × Nat × Option Side
  | .found node => (node.place, out)
  | .missing last => (0, leftAt last)

variable {file : RuletreeFile} {t : Tree (ℕ ×ₗ ℕ) Nat} {key1 key2 : BitVec 64} {offs : Nat}

theorem findBintreeLoop_eq (h : Represents file.cells offs t) (out : Nat × Option Side)
    (rounds : Nat) (hrounds : t.height < rounds) (last : Option (Nat × Side)) :
    file.findBintreeLoop key1 key2 out rounds offs (leftAt last) =
      Descent.result out (t.search (treeKey key1 key2) last) := by
  induction h generalizing rounds last with
  | leaf =>
    cases rounds with
    | zero => cases hrounds
    | succ rounds => rfl
  | @node place cell tless tmore hplace hcell hless hmore ihless ihmore =>
    cases rounds with
    | zero => cases hrounds
    | succ rounds =>
      obtain ⟨node, hnode, rfl⟩ := Option.map_eq_some_iff.1 hcell
      have hheight : max tless.height tmore.height < rounds := Nat.lt_of_succ_lt_succ hrounds
      have hkey : (node.key1 = key1 ∧ node.key2 = key2) ↔ treeKey key1 key2 = node.cell.key :=
        treeKey_inj.symm.trans eq_comm
      rw [findBintreeLoop, if_neg hplace, hnode, Tree.search]
      simp only [hkey, bintreeLess_iff]
      split_ifs
      · rfl
      · exact ihless rounds (lt_of_le_of_lt (le_max_left _ _) hheight) (some (place, .less))
      · exact ihmore rounds (lt_of_le_of_lt (le_max_right _ _) hheight) (some (place, .more))

theorem findBintreeEntry_eq (h : Represents file.cells offs t) :
    file.findBintreeEntry key1 key2 offs (0, none) =
      Descent.result (0, none) (t.search (treeKey key1 key2) none) := by
  have hheight := h.height_le file.cells_forward
  cases h with
  | leaf => rfl
  | node hplace hcell hless hmore =>
    rw [findBintreeEntry, if_neg hplace]
    have hpos := file.fileSize_pos
    exact findBintreeLoop_eq (.node hplace hcell hless hmore) (0, none) _ (by omega) none

/-! ## Reading a changed file -/

section Changed

variable {file' : RuletreeFile} {object : RuletreeObject} {parent : Bintree} {side : Side}
  {istat old : InodeSimu} {new : Nat} {hnew : offs < new}

/-- What is read of the objects of a file, when one of them was written. -/
theorem bind_objects_update {α : Type} (get : RuletreeObject → Option α)
    (h : file'.objects = Function.update file.objects offs (some object)) :
    (fun other => (file'.objects other).bind get) =
      Function.update (fun other => (file.objects other).bind get) offs (get object) := by
  funext other
  rw [h]
  rcases eq_or_ne other offs with rfl | hne
  · rw [update_self, update_self, Option.bind_some]
  · rw [update_of_ne hne, update_of_ne hne]

theorem bintreeAt_update (h : file'.objects = Function.update file.objects offs (some object)) :
    file'.bintreeAt = Function.update file.bintreeAt offs object.bintree? :=
  bind_objects_update _ h

theorem inodestatAt_update (h : file'.objects = Function.update file.objects offs (some object)) :
    file'.inodestatAt = Function.update file.inodestatAt offs object.inodestat? :=
  bind_objects_update _ h

theorem cells_update (h : file'.objects = Function.update file.objects offs (some object)) :
    file'.cells = Function.update file.cells offs (object.bintree?.map Bintree.cell) := by
  funext other
  rw [cells, bintreeAt_update h]
  rcases eq_or_ne other offs with rfl | hne
  · rw [update_self, update_self]
  · rw [update_of_ne hne, update_of_ne hne, cells]

theorem bintreeAt_fileSize : file.bintreeAt file.fileSize = none := by
  rw [bintreeAt, file.objects_fileSize, Option.bind_none]

theorem inodestatAt_fileSize : file.inodestatAt file.fileSize = none := by
  rw [inodestatAt, file.objects_fileSize, Option.bind_none]

theorem bintreeAt_createInodestat (istat : InodeSimu) :
    (file.createInodestat istat).2.bintreeAt = file.bintreeAt := by
  rw [bintreeAt_update rfl]
  exact update_eq_self_iff.2 bintreeAt_fileSize.symm

theorem inodestatAt_createBintreeEntry (value : Nat) :
    (file.createBintreeEntry key1 key2 value).2.inodestatAt = file.inodestatAt := by
  rw [inodestatAt_update rfl]
  exact update_eq_self_iff.2 inodestatAt_fileSize.symm

theorem bintreeAt_writeInodestat (hold : file.inodestatAt offs = some old) :
    (file.writeInodestat offs istat old hold).bintreeAt = file.bintreeAt := by
  rw [bintreeAt_update rfl]
  refine update_eq_self_iff.2 ?_
  rw [bintreeAt, inodestatAt_eq_some.1 hold]
  rfl

theorem cells_createBintreeEntry (value : Nat) :
    (file.createBintreeEntry key1 key2 value).2.cells =
      Function.update file.cells file.fileSize (some ⟨treeKey key1 key2, value, 0, 0⟩) := by
  rw [cells_update rfl]
  rfl

theorem cells_linkBintree (hparent : file.objects offs = some (.bintree parent)) :
    (file.linkBintree offs new side hnew parent hparent).cells =
      Function.update file.cells offs (some (parent.cell.link new side)) := by
  rw [cells_update rfl]
  cases side <;> rfl

theorem inodestatAt_linkBintree (hparent : file.objects offs = some (.bintree parent)) :
    (file.linkBintree offs new side hnew parent hparent).inodestatAt = file.inodestatAt := by
  rw [inodestatAt_update rfl]
  refine update_eq_self_iff.2 ?_
  rw [inodestatAt, hparent]
  cases side <;> rfl

theorem addToBintreeEntry_link (value : Nat) (hoffs : offs ≠ 0)
    (hparent : file.bintreeAt offs = some parent)
    (hends : parent.cell.EndsAt (treeKey key1 key2) side) :
    let added := file.addToBintreeEntry value key1 key2 offs (some side)
    added.1 = 0 ∧ file.fileSize ≤ added.2.fileSize ∧ added.2.inodestatAt = file.inodestatAt ∧
      added.2.cells = Function.update
        (Function.update file.cells file.fileSize (some ⟨treeKey key1 key2, value, 0, 0⟩))
        offs (some (parent.cell.link file.fileSize side)) := by
  intro added
  have hadded : ∃ hnew hobject, added =
      (0, (file.createBintreeEntry key1 key2 value).2.linkBintree offs file.fileSize side hnew
        parent hobject) := by
    have hobject := bintreeAt_eq_some.1 hparent
    refine ⟨lt_fileSize hobject, objects_append_of_some hobject, ?_⟩
    show file.addToBintreeEntry value key1 key2 offs (some side) = _
    rw [addToBintreeEntry, if_neg hoffs]
    split
    next hnone =>
      rw [hparent] at hnone
      cases hnone
    next parent' hparent' =>
      obtain rfl : parent = parent' := Option.some.inj (hparent.symm.trans hparent')
      cases side with
      | less =>
        have hlink : ¬ parent.linkLess ≠ 0 := not_not.2 hends.2
        simp only [bintreeLess_iff.2 hends.1, if_true, if_neg hlink]
        rfl
      | more =>
        have hlink : ¬ parent.linkMore ≠ 0 := not_not.2 hends.2
        simp only [bintreeLess_iff, if_neg hends.1, if_neg hlink]
        rfl
  obtain ⟨hnew, hobject, hadded⟩ := hadded
  rw [hadded]
  refine ⟨rfl, Nat.le_add_right _ _, ?_, ?_⟩
  · rw [inodestatAt_linkBintree hobject, inodestatAt_createBintreeEntry]
  · rw [cells_linkBintree hobject, cells_createBintreeEntry]

end Changed

/-! ## The tree of inodes -/

/-- The tree of inodes has the nodes of `t`, each with a record of its own. -/
structure Ruletree.Holds (tree : Ruletree) (t : Tree (ℕ ×ₗ ℕ) Nat) : Prop where
  represents : Represents tree.file.cells tree.inodestats t
  ordered : t.Ordered
  values : (t.nodes.map Node.value).Nodup
  records : ∀ n ∈ t.nodes, (tree.file.inodestatAt n.value).isSome
  inodes : ∀ n ∈ t.nodes, ∃ inode : Inode, n.key = inode.key

variable {tree : Ruletree} {inode : Inode} {istat : InodeSimu} {n : Node (ℕ ×ₗ ℕ) Nat}

theorem Ruletree.Holds.bintreeAt (h : tree.Holds t) (hn : n ∈ t.nodes) :
    n.place ≠ 0 ∧ ∃ node, tree.file.bintreeAt n.place = some node ∧ node.value = n.value := by
  obtain ⟨hplace, cell, hcell, -, hvalue⟩ := h.represents.cell_of_mem hn
  obtain ⟨node, hnode, rfl⟩ := Option.map_eq_some_iff.1 hcell
  exact ⟨hplace, node, hnode, hvalue⟩

def handleAt (inode : Inode) (offs : Nat) (left : Nat × Option Side) : InodestatHandle :=
  { dev := inode.1, ino := inode.2, offs := offs, lastVisitedNode := left.1, lastResult := left.2 }

/-- A process finds what the tree has, whether it remembers the root or not. -/
theorem Ruletree.Holds.find (h : tree.Holds t) {root : Nat}
    (hroot : root = 0 ∨ root = tree.inodestats) (inode : Inode) :
    ruletreeFindInodestat tree root (ruletreeInitInodestatHandle inode.1 inode.2) =
      match t.search inode.key none with
      | .found n =>
        ⟨tree.inodestats, handleAt inode n.place (0, none), tree.file.inodestatAt n.value⟩
      | .missing last => ⟨tree.inodestats, handleAt inode 0 (leftAt last), none⟩ := by
  have hremembered : (if root = 0 then tree.inodestats else root) = tree.inodestats := by
    rcases hroot with rfl | rfl
    · rfl
    · split <;> rfl
  have hsearch : tree.file.findBintreeEntry (inoToKey inode.2) inode.1 tree.inodestats (0, none) =
      Descent.result (0, none) (t.search inode.key none) := findBintreeEntry_eq h.represents
  rw [ruletreeFindInodestat]
  simp only [ruletreeInitInodestatHandle, hremembered, hsearch]
  by_cases hzero : tree.inodestats = 0
  · have hleaf : t = .leaf := by
      have hrepresents := h.represents
      rw [hzero] at hrepresents
      cases hrepresents with
      | leaf => rfl
      | node hplace => exact absurd rfl hplace
    subst hleaf
    rw [if_pos hzero]
    rfl
  · rw [if_neg hzero]
    cases hend : t.search inode.key none with
    | missing last => rfl
    | found n =>
      obtain ⟨hplace, node, hnode, hvalue⟩ := h.bintreeAt (mem_of_search_found hend).1
      simp only [Descent.result, if_neg hplace, hnode, hvalue]
      rfl

/-! ## Looking up and setting records -/

/-- What a process finds for an inode that remembers the given root. -/
def Ruletree.lookUp (tree : Ruletree) (root : Nat) (inode : Inode) : Option InodeSimu :=
  (ruletreeFindInodestat tree root (ruletreeInitInodestatHandle inode.1 inode.2)).istat

/-- The root that a process may remember: none yet, or that of the tree. -/
def Ruletree.Remembered (tree : Ruletree) (root : Nat) : Prop := root = 0 ∨ root = tree.inodestats

variable {root : Nat} {set : Ruletree}

theorem Ruletree.Holds.lookUp_of_mem (h : tree.Holds t) (hroot : tree.Remembered root)
    (hn : n ∈ t.nodes) (hkey : n.key = inode.key) :
    tree.lookUp root inode = tree.file.inodestatAt n.value := by
  rw [Ruletree.lookUp, h.find hroot, ← hkey, search_of_mem h.ordered hn]

theorem Ruletree.Holds.lookUp_eq_none (h : tree.Holds t) (hroot : tree.Remembered root)
    (hmissing : ∀ n ∈ t.nodes, n.key ≠ inode.key) : tree.lookUp root inode = none := by
  obtain ⟨last, hsearch⟩ := (search_missing_iff h.ordered).2 hmissing
  rw [Ruletree.lookUp, h.find hroot, hsearch]

theorem Ruletree.Holds.lookUp_isSome_iff (h : tree.Holds t) (hroot : tree.Remembered root) :
    (tree.lookUp root inode).isSome ↔ ∃ n ∈ t.nodes, n.key = inode.key := by
  constructor
  · intro hsome
    by_contra hmissing
    rw [h.lookUp_eq_none hroot fun n hn hkey => hmissing ⟨n, hn, hkey⟩] at hsome
    cases hsome
  · rintro ⟨n, hn, hkey⟩
    rw [h.lookUp_of_mem hroot hn hkey]
    exact h.records n hn

theorem Ruletree.Holds.lookUp_root (h : tree.Holds t) (hroot : tree.Remembered root) :
    tree.lookUp tree.inodestats = tree.lookUp root := by
  funext inode
  rw [Ruletree.lookUp, h.find (.inr rfl), Ruletree.lookUp, h.find hroot]

/-- What is found for an inode is at some offset of the file; there is nothing at its end. -/
theorem Ruletree.Holds.exists_inodestatAt (h : tree.Holds t) (hroot : tree.Remembered root)
    (inode : Inode) : ∃ value, tree.file.inodestatAt value = tree.lookUp root inode := by
  by_cases hfound : ∃ n ∈ t.nodes, n.key = inode.key
  · obtain ⟨n, hn, hkey⟩ := hfound
    exact ⟨n.value, (h.lookUp_of_mem hroot hn hkey).symm⟩
  · rw [h.lookUp_eq_none hroot fun n hn hkey => hfound ⟨n, hn, hkey⟩]
    exact ⟨tree.file.fileSize, inodestatAt_fileSize⟩

/-- What setting a record does: the tree `t` has the record with the offset `value`. -/
structure Ruletree.Sets (tree set : Ruletree) (t : Tree (ℕ ×ₗ ℕ) Nat) (value : Nat)
    (istat : InodeSimu) : Prop where
  holds : set.Holds t
  inodestatAt : set.file.inodestatAt = Function.update tree.file.inodestatAt value (some istat)
  root : tree.inodestats = 0 ∨ tree.inodestats = set.inodestats
  counter : set.numActiveInodestats = tree.numActiveInodestats
  fileSize : tree.file.fileSize ≤ set.file.fileSize

/-- A record that was found is overwritten. -/
theorem Ruletree.Holds.set_found (h : tree.Holds t) (hn : n ∈ t.nodes) (inode : Inode)
    (left : Nat × Option Side) (istat : InodeSimu) :
    tree.Sets (ruletreeSetInodestat tree (handleAt inode n.place left) istat).1 t n.value
      istat := by
  obtain ⟨hplace, node, hnode, hvalue⟩ := h.bintreeAt hn
  obtain ⟨old, hold⟩ := Option.isSome_iff_exists.1 (h.records n hn)
  rw [← hvalue] at hold ⊢
  have hset : ruletreeSetInodestat tree (handleAt inode n.place left) istat =
      ({ tree with file := tree.file.writeInodestat node.value istat old hold },
        handleAt inode n.place left) := by
    simp only [ruletreeSetInodestat, handleAt, if_pos hplace, hnode]
    split
    next hnone =>
      rw [hold] at hnone
      cases hnone
    next old' hold' =>
      obtain rfl : old = old' := Option.some.inj (hold.symm.trans hold')
      rfl
  rw [hset]
  have hrecords : (tree.file.writeInodestat node.value istat old hold).inodestatAt =
      Function.update tree.file.inodestatAt node.value (some istat) := by
    rw [inodestatAt_update rfl]
    rfl
  refine ⟨⟨?_, h.ordered, h.values, ?_, h.inodes⟩, hrecords, .inr rfl, rfl, le_rfl⟩
  · refine h.represents.congr fun m hm => ?_
    show Option.map _ _ = Option.map _ _
    rw [bintreeAt_writeInodestat hold]
  · intro m hm
    show (inodestatAt _ m.value).isSome
    rw [hrecords, update_apply]
    split
    · rfl
    · exact h.records m hm

theorem Ruletree.Holds.sets_insert (h : tree.Holds t) (hmissing : ∀ n ∈ t.nodes, n.key ≠ inode.key)
    {place : Nat} (hrepresents : Represents set.file.cells set.inodestats
      (t.insert ⟨place, inode.key, tree.file.fileSize⟩)) (hrecords : set.file.inodestatAt =
      Function.update tree.file.inodestatAt tree.file.fileSize (some istat))
    (hroot : tree.inodestats = 0 ∨ tree.inodestats = set.inodestats)
    (hcounter : set.numActiveInodestats = tree.numActiveInodestats)
    (hfileSize : tree.file.fileSize ≤ set.file.fileSize) :
    tree.Sets set (t.insert ⟨place, inode.key, tree.file.fileSize⟩) tree.file.fileSize istat := by
  refine ⟨⟨hrepresents, h.ordered.insert hmissing, ?_, ?_, ?_⟩, hrecords, hroot, hcounter,
    hfileSize⟩
  · -- The new record is at the end of the file, where there was none before.
    have hfresh : tree.file.fileSize ∉ t.nodes.map Node.value := by
      intro hmem
      obtain ⟨n, hn, hvalue⟩ := List.mem_map.1 hmem
      have hsome := h.records n hn
      rw [hvalue, inodestatAt_fileSize] at hsome
      cases hsome
    have hperm : (t.insert ⟨place, inode.key, tree.file.fileSize⟩).nodes.Perm _ :=
      nodes_insert_perm
    exact (hperm.map Node.value).nodup_iff.2 (List.nodup_cons.2 ⟨hfresh, h.values⟩)
  · intro n hn
    rw [hrecords, update_apply]
    split
    · rfl
    next hne =>
      rcases mem_nodes_insert.1 hn with rfl | hn
      · exact absurd rfl hne
      · exact h.records n hn
  · intro n hn
    rcases mem_nodes_insert.1 hn with rfl | hn
    · exact ⟨inode, rfl⟩
    · exact h.inodes n hn

/-- An inode that was not found gets a record, and a node where the search ended. -/
theorem Ruletree.Holds.set_missing (h : tree.Holds t) {last : Option (Nat × Side)}
    (hsearch : t.search inode.key none = .missing last) (istat : InodeSimu) :
    ∃ place, tree.Sets (ruletreeSetInodestat tree (handleAt inode 0 (leftAt last)) istat).1
      (t.insert ⟨place, inode.key, tree.file.fileSize⟩) tree.file.fileSize istat := by
  have hmissing := (search_missing_iff h.ordered).1 ⟨last, hsearch⟩
  let created := (tree.file.createInodestat istat).2
  have hcells : created.cells = tree.file.cells := by
    funext offs
    rw [cells, bintreeAt_createInodestat, cells]
  have hrecords : created.inodestatAt =
      Function.update tree.file.inodestatAt tree.file.fileSize (some istat) := by
    rw [inodestatAt_update rfl]
    rfl
  have hset : (ruletreeSetInodestat tree (handleAt inode 0 (leftAt last)) istat).1 =
      let added := created.addToBintreeEntry tree.file.fileSize (inoToKey inode.2) inode.1
        (leftAt last).1 (leftAt last).2
      { tree with
        file := added.2
        inodestats := if added.1 ≠ 0 then added.1 else tree.inodestats } := rfl
  rw [hset]
  refine ⟨created.fileSize, ?_⟩
  rcases search_missing_place hsearch with ⟨hleaf, rfl⟩ | ⟨n, hn, side, rfl⟩
  · -- The first node is the root.
    subst hleaf
    let added := created.createBintreeEntry (inoToKey inode.2) inode.1 tree.file.fileSize
    have hroot : added.1 ≠ 0 := created.fileSize_pos.ne'
    have hadded : created.addToBintreeEntry tree.file.fileSize (inoToKey inode.2) inode.1 0 none =
        added := by
      rw [addToBintreeEntry, if_pos rfl]
    simp only [leftAt, hadded, if_pos hroot]
    have hzero : tree.inodestats = 0 := by
      generalize hroot' : tree.inodestats = root
      have hrepresents := h.represents
      rw [hroot'] at hrepresents
      cases hrepresents
      rfl
    refine h.sets_insert hmissing ?_ ?_ (.inl hzero) rfl ?_
    · have hcell : added.2.cells added.1 = some ⟨inode.key, tree.file.fileSize, 0, 0⟩ := by
        rw [cells_createBintreeEntry]
        exact update_self _ _ _
      exact Represents.node hroot hcell .leaf .leaf
    · rw [inodestatAt_createBintreeEntry, hrecords]
    · exact (Nat.le_add_right _ _).trans (Nat.le_add_right _ _)
  · have hnonempty : t ≠ .leaf := by
      rintro rfl
      cases hn
    obtain ⟨cell, hcell, hends⟩ := h.represents.endsAt hnonempty hsearch
    obtain ⟨parent, hparent, rfl⟩ := Option.map_eq_some_iff.1 hcell
    have hplace := (h.bintreeAt hn).1
    have hparent' : created.bintreeAt n.place = some parent := by
      rw [bintreeAt_createInodestat, hparent]
    obtain ⟨hzero, hsize, hsame, hlinked⟩ :=
      addToBintreeEntry_link tree.file.fileSize hplace hparent' hends
    simp only [leftAt, hzero, ne_eq, not_true_eq_false, if_false]
    refine h.sets_insert hmissing ?_ (hsame.trans hrecords) (.inr rfl) rfl
      ((Nat.le_add_right _ _).trans hsize)
    have hfresh : tree.file.cells created.fileSize = none := by
      rw [← hcells, cells, bintreeAt_fileSize, Option.map_none]
    have hne : created.fileSize ≠ n.place := by
      intro heq
      rw [heq, hcell] at hfresh
      cases hfresh
    refine h.represents.insert h.ordered hnonempty hsearch created.fileSize_pos.ne' hfresh ?_ ?_ ?_
    · rw [hlinked, update_of_ne hne]
      exact update_self _ _ _
    · rw [hlinked, update_self, hcell]
      rfl
    · intro p hnew hlast
      rw [hlinked, update_of_ne hlast, update_of_ne hnew, hcells]

/-- Setting the record of an inode changes what is found for it, and for no other. -/
theorem Ruletree.Sets.lookUp {u : Tree (ℕ ×ₗ ℕ) Nat} (hset : tree.Sets set u n.value istat)
    (h : tree.Holds t) (hkey : n.key = inode.key) (hnodes : ∀ m, m ∈ u.nodes ↔ m = n ∨ m ∈ t.nodes)
    {root' : Nat} (hroot : tree.Remembered root) (hroot' : set.Remembered root') :
    set.lookUp root' = Function.update (tree.lookUp root) inode (some istat) := by
  have hn : n ∈ u.nodes := (hnodes n).2 (.inl rfl)
  funext other
  rcases eq_or_ne other inode with rfl | hne
  · rw [hset.holds.lookUp_of_mem hroot' hn hkey, hset.inodestatAt, update_self,
      update_self]
  · rw [update_of_ne hne]
    have hnkey : n.key ≠ other.key := by
      rw [hkey]
      exact fun heq => hne (Inode.key_injective heq.symm)
    by_cases hfound : ∃ m ∈ t.nodes, m.key = other.key
    · obtain ⟨m, hm, hmkey⟩ := hfound
      have hmu : m ∈ u.nodes := (hnodes m).2 (.inr hm)
      have hvalue : m.value ≠ n.value := by
        intro heq
        obtain rfl := List.inj_on_of_nodup_map hset.holds.values hmu hn heq
        exact hnkey hmkey
      rw [hset.holds.lookUp_of_mem hroot' hmu hmkey, h.lookUp_of_mem hroot hm hmkey,
        hset.inodestatAt, update_of_ne hvalue]
    · have hmissing : ∀ m ∈ t.nodes, m.key ≠ other.key := fun m hm heq => hfound ⟨m, hm, heq⟩
      rw [h.lookUp_eq_none hroot hmissing, hset.holds.lookUp_eq_none hroot']
      intro m hm
      rcases (hnodes m).1 hm with rfl | hm
      · exact hnkey
      · exact hmissing m hm

end Scratchbox
