import Mathlib.Algebra.Group.Nat.Defs
import Scratchbox.RuletreeFile

/-!
# The store of simulated inodes

The binary tree of `rule_tree.c` that holds the simulated status of inodes, the server
(`sb2d/ruletree_server.c`) that changes it on command, and the messages of its clients
(`rule_tree_rpc_client.c`). A search leaves in its handle where it ended, and the
record is later added there.
-/

namespace Scratchbox

open SearchTree

/-! ## Binary trees -/

namespace RuletreeFile

variable (file : RuletreeFile)

/-- `ruletree_create_bintree_entry`. -/
def createBintreeEntry (key1 key2 : BitVec 64) (valueOffs : Nat) : Nat × RuletreeFile :=
  file.append (.bintree { key1 := key1, key2 := key2, value := valueOffs })
    ⟨fun h => absurd rfl h, fun h => absurd rfl h⟩

/-- `ruletree_create_inodestat`. -/
def createInodestat (istat : InodeSimu) : Nat × RuletreeFile :=
  file.append (.inodestat istat) trivial

/-- The comparison with the keys of a node. -/
def bintreeLess (key1 key2 : BitVec 64) (node : Bintree) : Bool :=
  key1 < node.key1 || (key1 == node.key1 && key2 < node.key2)

/-- The loop of `ruletree_find_bintree_entry`. Each round moves to a node behind the last
one, so there are fewer rounds than bytes. -/
def findBintreeLoop (key1 key2 : BitVec 64) (out : Nat × Option Side) :
    Nat → Nat → Nat × Option Side → Nat × Nat × Option Side
  | 0, _, last => (0, last)
  | rounds + 1, nodeOffs, last =>
    if nodeOffs = 0 then (0, last)
    else
      match file.bintreeAt nodeOffs with
      | none => (0, last)
      | some node =>
        if node.key1 = key1 ∧ node.key2 = key2 then (nodeOffs, out)
        else if bintreeLess key1 key2 node then
          findBintreeLoop key1 key2 out rounds node.linkLess (nodeOffs, some .less)
        else findBintreeLoop key1 key2 out rounds node.linkMore (nodeOffs, some .more)

/-- `ruletree_find_bintree_entry`: the offset of the node, and what is left in the
variables for the last visited node and the direction; they are `out` before. -/
def findBintreeEntry (key1 key2 : BitVec 64) (rootOffs : Nat) (out : Nat × Option Side) :
    Nat × Nat × Option Side :=
  if rootOffs = 0 then (0, out)
  else file.findBintreeLoop key1 key2 out file.fileSize rootOffs (0, none)

/-- The new node is linked to its parent: it has been appended behind it. -/
def linkBintree (parentOffs newOffs : Nat) (side : Side) (hnew : parentOffs < newOffs)
    (parent : Bintree) (hparent : file.objects parentOffs = some (.bintree parent)) :
    RuletreeFile :=
  file.write parentOffs
    (.bintree (match side with
      | .less => { parent with linkLess := newOffs }
      | .more => { parent with linkMore := newOffs }))
    (lt_fileSize hparent) (ne_zero_of_object hparent (by simp))
    (match side with
      | .less => ⟨fun _ => hnew, (file.forward parentOffs _ hparent).2⟩
      | .more => ⟨(file.forward parentOffs _ hparent).1, fun _ => hnew⟩)

theorem objects_append_of_some {file : RuletreeFile} {offs : Nat} {object new : RuletreeObject}
    {hforward : new.Forward file.fileSize} (h : file.objects offs = some object) :
    (file.append new hforward).2.objects offs = some object := by
  show Function.update file.objects file.fileSize (some new) offs = some object
  rw [Function.update_of_ne (lt_fileSize h).ne, h]

/-- `ruletree_add_to_bintree_entry`: `0` or the offset of the new root. -/
def addToBintreeEntry (valueNodeOffs : Nat) (key1 key2 : BitVec 64) (lastComparedNode : Nat)
    (lastDirection : Option Side) : Nat × RuletreeFile :=
  if lastComparedNode = 0 then file.createBintreeEntry key1 key2 valueNodeOffs
  else
    match hparent : file.bintreeAt lastComparedNode with
    | none => (0, file)
    | some parent =>
      have hobject := bintreeAt_eq_some.1 hparent
      let new := file.createBintreeEntry key1 key2 valueNodeOffs
      let linked (side : Side) : RuletreeFile :=
        new.2.linkBintree lastComparedNode new.1 side (lt_fileSize hobject) parent
          (objects_append_of_some hobject)
      match lastDirection with
      | some .less =>
        if bintreeLess key1 key2 parent then
          -- "less already exits!"
          if parent.linkLess ≠ 0 then (0, new.2) else (0, linked .less)
        else (0, new.2)
      | some .more =>
        if bintreeLess key1 key2 parent then (0, new.2)
        else if parent.linkMore ≠ 0 then (0, new.2) else (0, linked .more)
      | none => (0, new.2)

end RuletreeFile

/-! ## Inode records -/

def inoToKey (ino : BitVec 64) : BitVec 64 :=
  ((((ino &&& 0xFF#64) * 0x80200802#64) &&& 0x0884422110#64) * 0x0101010101#64) <<< 24 ^^^ ino

/-- The rule tree as all processes see it: the file, and the values of the entries
`inodestats` (the root of the tree of inodes) and `num_active_inodestats` in the catalog
`vperm`. -/
structure Ruletree where
  file : RuletreeFile
  inodestats : Nat
  numActiveInodestats : Nat

/-- `ruletree_inodestat_handle_t`. -/
structure InodestatHandle where
  dev : BitVec 64
  ino : BitVec 64
  offs : Nat := 0
  lastVisitedNode : Nat := 0
  lastResult : Option Side := none

def ruletreeInitInodestatHandle (dev ino : BitVec 64) : InodestatHandle :=
  { dev := dev, ino := ino }

/-- What `ruletree_find_inodestat` leaves: the root that the process remembers from now
on, the handle, and the record if there is one. -/
structure InodestatSearch where
  root : Nat
  handle : InodestatHandle
  istat : Option InodeSimu

/-- `ruletree_find_inodestat`, in a process that remembers `root` as the root of the
tree (`0` if it has not seen one yet). -/
def ruletreeFindInodestat (tree : Ruletree) (root : Nat) (handle : InodestatHandle) :
    InodestatSearch :=
  let handle := { handle with lastVisitedNode := 0, lastResult := none }
  let root := if root = 0 then tree.inodestats else root
  if root = 0 then ⟨root, handle, none⟩
  else
    let search := tree.file.findBintreeEntry (inoToKey handle.ino) handle.dev root
      (handle.lastVisitedNode, handle.lastResult)
    let handle := { handle with
      offs := search.1, lastVisitedNode := search.2.1, lastResult := search.2.2 }
    if search.1 = 0 then ⟨root, handle, none⟩
    else
      match tree.file.bintreeAt search.1 with
      | none => ⟨root, handle, none⟩
      | some node => ⟨root, handle, tree.file.inodestatAt node.value⟩

namespace RuletreeFile

/-- A record is overwritten. -/
def writeInodestat (file : RuletreeFile) (offs : Nat) (istat old : InodeSimu)
    (hold : file.inodestatAt offs = some old) : RuletreeFile :=
  have hobject := inodestatAt_eq_some.1 hold
  file.write offs (.inodestat istat) (lt_fileSize hobject)
    (ne_zero_of_object hobject (by simp)) trivial

end RuletreeFile

/-- `ruletree_set_inodestat`. A new record leaves its own offset in the handle. -/
def ruletreeSetInodestat (tree : Ruletree) (handle : InodestatHandle) (istat : InodeSimu) :
    Ruletree × InodestatHandle :=
  if handle.offs ≠ 0 then
    match tree.file.bintreeAt handle.offs with
    | none => (tree, handle)
    | some node =>
      match hold : tree.file.inodestatAt node.value with
      | none => (tree, handle)
      | some old =>
        ({ tree with file := tree.file.writeInodestat node.value istat old hold }, handle)
  else
    let created := tree.file.createInodestat istat
    let added := created.2.addToBintreeEntry created.1 (inoToKey handle.ino) handle.dev
      handle.lastVisitedNode handle.lastResult
    ({ tree with
        file := added.2
        inodestats := if added.1 ≠ 0 then added.1 else tree.inodestats },
      { handle with offs := created.1 })

/-! ## The counter -/

/-- `inc_vperm_num_active_inodestats`. -/
def Ruletree.incActive (tree : Ruletree) : Ruletree :=
  if tree.numActiveInodestats < 2 ^ 32 - 1 then
    { tree with numActiveInodestats := tree.numActiveInodestats + 1 }
  else tree

/-- `dec_vperm_num_active_inodestats`. -/
def Ruletree.decActive (tree : Ruletree) : Ruletree :=
  if 0 < tree.numActiveInodestats then
    { tree with numActiveInodestats := tree.numActiveInodestats - 1 }
  else tree

/-! ## The server -/

/-- `RULETREE_INODESTAT_SIM_UID`. -/
def simUid : BitVec 32 := 0x1#32
/-- `RULETREE_INODESTAT_SIM_GID`. -/
def simGid : BitVec 32 := 0x2#32
/-- `RULETREE_INODESTAT_SIM_MODE`. -/
def simMode : BitVec 32 := 0x4#32
/-- `RULETREE_INODESTAT_SIM_DEVNODE`. -/
def simDevnode : BitVec 32 := 0x8#32
/-- `RULETREE_INODESTAT_SIM_SUIDSGID`. -/
def simSuidsgid : BitVec 32 := 0x10#32

/-- The commands about simulated inodes, with `rimm_fileinfo`. -/
inductive FileinfoCommand
  | setfileinfo (fileinfo : InodeSimu)
  | releasefileinfo (fileinfo : InodeSimu)
  | clearfileinfo (fileinfo : InodeSimu)
  deriving DecidableEq

inductive ReplyType
  | ok
  | failed
  | unknowncmd
  | protovrserr
  | message
  deriving DecidableEq

/-- The server: the rule tree, and the root that its process remembers. -/
structure RuletreeServer where
  tree : Ruletree
  inodestatsBintreeRoot : Nat

/-- The record after a `SETFILEINFO` for an inode that has one. -/
def InodeSimu.set (istat fileinfo : InodeSimu) : InodeSimu :=
  let istat :=
    if fileinfo.activeFields &&& simUid ≠ 0 then
      { istat with uid := fileinfo.uid, activeFields := istat.activeFields ||| simUid }
    else istat
  let istat :=
    if fileinfo.activeFields &&& simGid ≠ 0 then
      { istat with gid := fileinfo.gid, activeFields := istat.activeFields ||| simGid }
    else istat
  let istat :=
    if fileinfo.activeFields &&& (simMode ||| simSuidsgid) ≠ 0 then
      { istat with
        mode := fileinfo.mode
        suidsgid := fileinfo.suidsgid
        activeFields := istat.activeFields &&& ~~~(simMode ||| simSuidsgid) |||
          fileinfo.activeFields &&& (simMode ||| simSuidsgid) ||| simMode }
    else istat
  if fileinfo.activeFields &&& simDevnode ≠ 0 then
    { istat with
      devmode := fileinfo.devmode
      rdev := fileinfo.rdev
      activeFields := istat.activeFields ||| simDevnode }
  else istat

def InodeSimu.releaseField (istat fileinfo : InodeSimu) (field : BitVec 32) : InodeSimu :=
  if fileinfo.activeFields &&& field ≠ 0 then
    { istat with activeFields := istat.activeFields &&& ~~~field }
  else istat

/-- The record after a `RELEASEFILEINFO`: there is no case for `simSuidsgid`. -/
def InodeSimu.release (istat fileinfo : InodeSimu) : InodeSimu :=
  if fileinfo.activeFields ≠ 0 then
    (((istat.releaseField fileinfo simUid).releaseField fileinfo simGid).releaseField fileinfo
      simMode).releaseField fileinfo simDevnode
  else istat

namespace RuletreeServer

variable (server : RuletreeServer)

def find (fileinfo : InodeSimu) : InodestatSearch :=
  ruletreeFindInodestat server.tree server.inodestatsBintreeRoot
    (ruletreeInitInodestatHandle fileinfo.dev fileinfo.ino)

def setInodestat (search : InodestatSearch) (istat : InodeSimu) : RuletreeServer :=
  { tree := (ruletreeSetInodestat server.tree search.handle istat).1
    inodestatsBintreeRoot := search.root }

/-- `ruletree_cmd_clearfileinfo`. The type of the reply is not set if there is no record. -/
def cmdClearfileinfo (fileinfo : InodeSimu) : RuletreeServer × Option ReplyType :=
  let search := server.find fileinfo
  match search.istat with
  | none => ({ server with inodestatsBintreeRoot := search.root }, none)
  | some istat =>
    if istat.activeFields ≠ 0 then
      let set := server.setInodestat search { istat with activeFields := 0 }
      ({ set with tree := set.tree.decActive }, some .ok)
    else ({ server with inodestatsBintreeRoot := search.root }, some .ok)

/-- `ruletree_cmd_setfileinfo`. -/
def cmdSetfileinfo (fileinfo : InodeSimu) : RuletreeServer × Option ReplyType :=
  let search := server.find fileinfo
  match search.istat with
  | none =>
    let set := server.setInodestat search fileinfo
    ({ set with tree := set.tree.incActive }, some .ok)
  | some istat =>
    let set := server.setInodestat search (istat.set fileinfo)
    if istat.activeFields = 0 ∧ (istat.set fileinfo).activeFields ≠ 0 then
      ({ set with tree := set.tree.incActive }, some .ok)
    else (set, some .ok)

/-- `ruletree_cmd_releasefileinfo`. -/
def cmdReleasefileinfo (fileinfo : InodeSimu) : RuletreeServer × Option ReplyType :=
  let search := server.find fileinfo
  match search.istat with
  | none => ({ server with inodestatsBintreeRoot := search.root }, some .ok)
  | some istat =>
    let set := server.setInodestat search (istat.release fileinfo)
    if istat.activeFields ≠ 0 ∧ (istat.release fileinfo).activeFields = 0 then
      ({ set with tree := set.tree.decActive }, some .ok)
    else (set, some .ok)

/-- The part of `ruletree_server` that handles a command about an inode. -/
def handle : FileinfoCommand → RuletreeServer × Option ReplyType
  | .setfileinfo fileinfo => server.cmdSetfileinfo fileinfo
  | .releasefileinfo fileinfo => server.cmdReleasefileinfo fileinfo
  | .clearfileinfo fileinfo => server.cmdClearfileinfo fileinfo

def run (server : RuletreeServer) : List FileinfoCommand → RuletreeServer
  | [] => server
  | command :: commands => run (server.handle command).1 commands

/-- A server without inode records: the catalog has the root `0` and the counter `0`
from `init.lua`. -/
def empty (file : RuletreeFile) : RuletreeServer :=
  { tree := { file := file, inodestats := 0, numActiveInodestats := 0 }
    inodestatsBintreeRoot := 0 }

end RuletreeServer

/-! ## The clients

The functions of `rule_tree_rpc_client.c`, each with the command that it sends. -/

def sIfmt : BitVec 32 := 0o170000#32
def sIsuid : BitVec 32 := 0o4000#32
def sIsgid : BitVec 32 := 0o2000#32

def ruletreeRpcVpermClear (dev ino : BitVec 64) : FileinfoCommand :=
  .clearfileinfo { dev := dev, ino := ino }

def ruletreeRpcVpermSetIds (dev ino : BitVec 64) (setUid : Bool) (uid : BitVec 32) (setGid : Bool)
    (gid : BitVec 32) : FileinfoCommand :=
  .setfileinfo
    { dev := dev, ino := ino
      activeFields := (if setUid then simUid else 0) ||| (if setGid then simGid else 0)
      uid := uid, gid := gid }

def ruletreeRpcVpermReleaseIds (dev ino : BitVec 64) (releaseUid releaseGid : Bool) :
    FileinfoCommand :=
  .releasefileinfo
    { dev := dev, ino := ino
      activeFields := (if releaseUid then simUid else 0) ||| (if releaseGid then simGid else 0) }

def ruletreeRpcVpermSetMode (dev ino : BitVec 64) (realMode virtMode suidSgidBits : BitVec 32) :
    FileinfoCommand :=
  .setfileinfo
    { dev := dev, ino := ino
      mode := virtMode, suidsgid := suidSgidBits
      activeFields :=
        (if realMode &&& ~~~(sIsuid ||| sIsgid) ≠ virtMode &&& ~~~(sIsuid ||| sIsgid) then simMode
          else 0) |||
        (if suidSgidBits ≠ realMode &&& (sIsuid ||| sIsgid) then simSuidsgid else 0) }

def ruletreeRpcVpermReleaseMode (dev ino : BitVec 64) : FileinfoCommand :=
  .releasefileinfo { dev := dev, ino := ino, activeFields := simMode ||| simSuidsgid }

def ruletreeRpcVpermSetDevNode (dev ino : BitVec 64) (mode : BitVec 32) (rdev : BitVec 64) :
    FileinfoCommand :=
  .setfileinfo
    { dev := dev, ino := ino
      activeFields := simMode ||| simDevnode
      mode := mode &&& ~~~sIfmt, devmode := mode &&& sIfmt, rdev := rdev }

end Scratchbox
