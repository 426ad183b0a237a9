import Mathlib.Data.Prod.Lex
import Scratchbox.Lib.SearchTree
import Scratchbox.PathList

/-!
# The file of the rule tree

`rule_tree.c`. Objects are appended to a file that all processes have mapped to their
memory; they refer to each other by offsets, and only the server changes them. Offset
`0` is the header of the file, so it also stands for "no object". Writes are taken to
complete, and the file to stay below its size limit, so that an offset is the position
where the object was written.
-/

namespace Scratchbox

open SearchTree

/-! ## Objects -/

/-- `inodesimu_t`. -/
structure InodeSimu where
  dev : BitVec 64
  ino : BitVec 64
  rdev : BitVec 64 := 0
  devmode : BitVec 32 := 0
  uid : BitVec 32 := 0
  gid : BitVec 32 := 0
  mode : BitVec 32 := 0
  suidsgid : BitVec 32 := 0
  activeFields : BitVec 32 := 0
  deriving DecidableEq

/-- `ruletree_bintree_t`. -/
structure Bintree where
  key1 : BitVec 64
  key2 : BitVec 64
  value : Nat
  linkLess : Nat := 0
  linkMore : Nat := 0
  deriving DecidableEq

/-- The objects, by the type in their header. The rules have only their size here. -/
inductive RuletreeObject
  | filehdr
  | catalog (nameOffs valueOffs nextEntryOffs : Nat)
  | string (text : CStr)
  | objectlist (items : List Nat)
  | bintree (node : Bintree)
  | inodestat (simu : InodeSimu)
  | uint32 (value : BitVec 32)
  | boolean (value : BitVec 32)
  | rule (size : Nat)
  deriving DecidableEq

def RuletreeObject.size : RuletreeObject → Nat
  | filehdr => 40
  | catalog _ _ _ => 20
  | string text => 12 + text.length + 1
  | objectlist items => 12 + 4 * items.length
  | bintree _ => 40
  | inodestat _ => 56
  | uint32 _ => 12
  | boolean _ => 12
  | rule size => 8 + size

theorem RuletreeObject.size_pos (object : RuletreeObject) : 0 < object.size := by
  cases object <;> simp only [size] <;> omega

def RuletreeObject.bintree? : RuletreeObject → Option Bintree
  | bintree node => some node
  | _ => none

def RuletreeObject.inodestat? : RuletreeObject → Option InodeSimu
  | inodestat simu => some simu
  | _ => none

def Bintree.Forward (node : Bintree) (offs : Nat) : Prop :=
  (node.linkLess ≠ 0 → offs < node.linkLess) ∧ (node.linkMore ≠ 0 → offs < node.linkMore)

def RuletreeObject.Forward : RuletreeObject → Nat → Prop
  | bintree node, offs => node.Forward offs
  | _, _ => True

/-! ## The file -/

structure RuletreeFile where
  objects : Nat → Option RuletreeObject
  fileSize : Nat
  header : objects 0 = some .filehdr
  /-- There is nothing behind the end. -/
  objects_none : ∀ offs, fileSize ≤ offs → objects offs = none
  /-- A node is linked to nodes that were appended later. -/
  forward : ∀ offs object, objects offs = some object → object.Forward offs

namespace RuletreeFile

variable (file : RuletreeFile)

theorem lt_fileSize {file : RuletreeFile} {offs : Nat} {object : RuletreeObject}
    (h : file.objects offs = some object) : offs < file.fileSize := by
  by_contra hle
  rw [file.objects_none offs (not_lt.1 hle)] at h
  cases h

theorem fileSize_pos : 0 < file.fileSize := lt_fileSize file.header

theorem objects_fileSize : file.objects file.fileSize = none := file.objects_none _ le_rfl

/-- `offset_to_ruletree_object_ptr`, for a node of a binary tree. -/
def bintreeAt (offs : Nat) : Option Bintree := (file.objects offs).bind RuletreeObject.bintree?

/-- `offset_to_ruletree_object_ptr`, for simulated file status. -/
def inodestatAt (offs : Nat) : Option InodeSimu :=
  (file.objects offs).bind RuletreeObject.inodestat?

theorem bintreeAt_eq_some {file : RuletreeFile} {offs : Nat} {node : Bintree} :
    file.bintreeAt offs = some node ↔ file.objects offs = some (.bintree node) := by
  rw [bintreeAt, Option.bind_eq_some_iff]
  constructor
  · rintro ⟨object, hobject, htype⟩
    cases object <;> cases htype
    exact hobject
  · intro h
    exact ⟨_, h, rfl⟩

theorem inodestatAt_eq_some {file : RuletreeFile} {offs : Nat} {simu : InodeSimu} :
    file.inodestatAt offs = some simu ↔ file.objects offs = some (.inodestat simu) := by
  rw [inodestatAt, Option.bind_eq_some_iff]
  constructor
  · rintro ⟨object, hobject, htype⟩
    cases object <;> cases htype
    exact hobject
  · intro h
    exact ⟨_, h, rfl⟩

/-- `create_ruletree_file`: a file with only its header. -/
def create : RuletreeFile where
  objects := fun offs => if offs = 0 then some .filehdr else none
  fileSize := 40
  header := rfl
  objects_none := fun _ hoffs => if_neg (Nat.ne_of_gt (lt_of_lt_of_le (by decide) hoffs))
  forward := by
    intro offs object h
    split at h
    · cases h
      trivial
    · cases h

/-- `append_struct_to_ruletree_file`. -/
def append (object : RuletreeObject) (hforward : object.Forward file.fileSize) :
    Nat × RuletreeFile :=
  (file.fileSize,
    { objects := Function.update file.objects file.fileSize (some object)
      fileSize := file.fileSize + object.size
      header := by
        rw [Function.update_of_ne file.fileSize_pos.ne]
        exact file.header
      objects_none := by
        intro offs hoffs
        have hpos := object.size_pos
        rw [Function.update_of_ne (by omega)]
        exact file.objects_none offs (by omega)
      forward := by
        intro offs other h
        rcases eq_or_ne offs file.fileSize with rfl | hne
        · rw [Function.update_self] at h
          cases h
          exact hforward
        · rw [Function.update_of_ne hne] at h
          exact file.forward offs other h })

def write (offs : Nat) (object : RuletreeObject) (hoffs : offs < file.fileSize)
    (hnonzero : offs ≠ 0) (hforward : object.Forward offs) : RuletreeFile where
  objects := Function.update file.objects offs (some object)
  fileSize := file.fileSize
  header := by
    rw [Function.update_of_ne hnonzero.symm]
    exact file.header
  objects_none := by
    intro other hother
    rw [Function.update_of_ne (by omega)]
    exact file.objects_none other hother
  forward := by
    intro other object' h
    rcases eq_or_ne other offs with rfl | hne
    · rw [Function.update_self] at h
      cases h
      exact hforward
    · rw [Function.update_of_ne hne] at h
      exact file.forward other object' h

end RuletreeFile

theorem ne_zero_of_object {file : RuletreeFile} {offs : Nat} {object : RuletreeObject}
    (h : file.objects offs = some object) (hne : object ≠ .filehdr) : offs ≠ 0 := by
  rintro rfl
  rw [file.header] at h
  cases h
  exact hne rfl

end Scratchbox
