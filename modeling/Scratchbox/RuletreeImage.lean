import Scratchbox.InodeStore
import Scratchbox.Lib.Bytes
import Scratchbox.Lib.Programs

/-!
# The rule tree as bytes

`rule_tree.c` on the bytes of the file, as the server has them mapped to its memory. The
functions are programs that look for the header of an object at an offset, read and overwrite
its fields through the pointer, and append new objects. Writes are taken to complete.

Words have the width of the source, so that an offset is the position of an object only as
long as the file is shorter than `2 ^ 32` bytes. What is read behind the end of the file is
zero.
-/

namespace Scratchbox

open Bytes SearchTree

/-! ## Objects -/

/-- `ruletree_object_offset_t`. -/
abbrev Offset := BitVec 32

/-- `SB2_RULETREE_MAGIC`. -/
def ruletreeMagic : BitVec 32 := 0xE7A801FF#32

/-- `SB2_RULETREE_OBJECT_TYPE_*`. -/
inductive ObjectType
  | filehdr
  | catalog
  | fsrule
  | string
  | objectlist
  | bintree
  | inodestat
  | uint32
  | boolean
  | execPpRule
  | execSelRule
  | netRule
  deriving DecidableEq

def ObjectType.code : ObjectType → BitVec 32
  | filehdr => 1
  | catalog => 2
  | fsrule => 3
  | string => 4
  | objectlist => 5
  | bintree => 6
  | inodestat => 7
  | uint32 => 8
  | boolean => 9
  | execPpRule => 14
  | execSelRule => 15
  | netRule => 21

/-- A C string, without the zero at its end. -/
structure CText where
  bytes : List Byte
  zero_notMem : 0 ∉ bytes
  deriving DecidableEq

def wordBytes (v : BitVec 32) : List Byte := leBytes 4 v.toNat

def longBytes (v : BitVec 64) : List Byte := leBytes 8 v.toNat

/-- The bytes of `inodesimu_t`. -/
def InodeSimu.bytes (simu : InodeSimu) : List Byte :=
  longBytes simu.dev ++ longBytes simu.ino ++ longBytes simu.rdev ++ wordBytes simu.devmode ++
    wordBytes simu.uid ++ wordBytes simu.gid ++ wordBytes simu.mode ++ wordBytes simu.suidsgid ++
    wordBytes simu.activeFields

/-- The objects that are appended. The fields of a rule are words. -/
inductive NewObject
  | catalog (nameOffs valueOffs nextEntryOffs : Offset)
  | string (str : CText)
  | objectlist (size : BitVec 32)
  | bintree (key1 key2 : BitVec 64) (value : Offset)
  | inodestat (simu : InodeSimu)
  | uint32 (value : BitVec 32)
  | boolean (value : BitVec 32)
  | fsrule (fields : Vector (BitVec 32) 12)
  | execPpRule (fields : Vector (BitVec 32) 8)
  | execSelRule (fields : Vector (BitVec 32) 4)
  | netRule (fields : Vector (BitVec 32) 11)

namespace NewObject

def type : NewObject → ObjectType
  | catalog _ _ _ => .catalog
  | string _ => .string
  | objectlist _ => .objectlist
  | bintree _ _ _ => .bintree
  | inodestat _ => .inodestat
  | uint32 _ => .uint32
  | boolean _ => .boolean
  | fsrule _ => .fsrule
  | execPpRule _ => .execPpRule
  | execSelRule _ => .execSelRule
  | netRule _ => .netRule

/-- The fields of the struct behind `ruletree_object_hdr_t`, with its padding. -/
def fields : NewObject → List Byte
  | catalog nameOffs valueOffs nextEntryOffs =>
    wordBytes nameOffs ++ wordBytes valueOffs ++ wordBytes nextEntryOffs
  | string str => leBytes 4 str.bytes.length
  | objectlist size => wordBytes size
  | bintree key1 key2 value =>
    longBytes key1 ++ longBytes key2 ++ wordBytes value ++ wordBytes 0 ++ wordBytes 0 ++
      wordBytes 0
  | inodestat simu => simu.bytes
  | uint32 value => wordBytes value
  | boolean value => wordBytes value
  | fsrule fields => fields.toList.flatMap wordBytes
  | execPpRule fields => fields.toList.flatMap wordBytes
  | execSelRule fields => fields.toList.flatMap wordBytes
  | netRule fields => fields.toList.flatMap wordBytes

/-- What is written behind the struct. -/
def contents : NewObject → List Byte
  | string str => str.bytes ++ [0]
  | objectlist size => List.replicate (4 * size.toNat) 0
  | _ => []

end NewObject

/-- The fields that are overwritten through a pointer to an object. -/
inductive FieldStore
  | rootCatalog (offs : Offset)
  | catValue (offs : Offset)
  | catNext (offs : Offset)
  | linkLess (offs : Offset)
  | linkMore (offs : Offset)
  | inodeSimu (simu : InodeSimu)
  | item (n : BitVec 32) (value : Offset)
  | uint32 (value : BitVec 32)
  | boolean (value : BitVec 32)

namespace FieldStore

def type : FieldStore → ObjectType
  | rootCatalog _ => .filehdr
  | catValue _ => .catalog
  | catNext _ => .catalog
  | linkLess _ => .bintree
  | linkMore _ => .bintree
  | inodeSimu _ => .inodestat
  | item _ _ => .objectlist
  | uint32 _ => .uint32
  | boolean _ => .boolean

def place : FieldStore → Nat
  | rootCatalog _ => 12
  | catValue _ => 12
  | catNext _ => 16
  | linkLess _ => 28
  | linkMore _ => 32
  | inodeSimu _ => 8
  | item n _ => 12 + 4 * n.toNat
  | uint32 _ => 8
  | boolean _ => 8

def data : FieldStore → List Byte
  | rootCatalog offs => wordBytes offs
  | catValue offs => wordBytes offs
  | catNext offs => wordBytes offs
  | linkLess offs => wordBytes offs
  | linkMore offs => wordBytes offs
  | inodeSimu simu => simu.bytes
  | item _ value => wordBytes value
  | uint32 value => wordBytes value
  | boolean value => wordBytes value

end FieldStore

/-! ## The file -/

abbrev Image := List Byte

namespace Image

variable (img : Image)

def word (addr : Nat) : BitVec 32 := BitVec.ofNat 32 (leValue (slice img addr 4))

def long (addr : Nat) : BitVec 64 := BitVec.ofNat 64 (leValue (slice img addr 8))

def text (addr : Nat) : List Byte := (img.drop addr).takeWhile (· ≠ 0)

/-- `rtree_hdr_root_catalog`. -/
def rootCatalog : Offset := word img 12

/-- `rtree_file_size`. -/
def fileSize : BitVec 32 := word img 24

/-- `rtree_max_size`. -/
def maxSize : BitVec 32 := word img 28

/-- `offset_to_raw_ruletree_ptr` is not `NULL`. -/
def hasRawPtr (offs : Offset) : Bool := offs < fileSize img

/-- `offset_to_ruletree_object_ptr` is not `NULL`. -/
def hasObjectPtr (type : ObjectType) (offs : Offset) : Bool :=
  hasRawPtr img offs && word img offs.toNat == ruletreeMagic &&
    word img (offs.toNat + 4) == type.code

def noteFileSize : Image := patch img 24 (wordBytes (BitVec.ofNat 32 img.length))

/-- `append_struct_to_ruletree_file`, without the location. -/
def appendStruct (fields : List Byte) (type : ObjectType) : Image :=
  noteFileSize (img ++ (wordBytes ruletreeMagic ++ wordBytes type.code ++ fields))

/-- An object is appended: the struct, and then what belongs behind it. -/
def append (new : NewObject) : Image :=
  noteFileSize (appendStruct img new.fields new.type ++ new.contents)

end Image

/-- `create_ruletree_file`: the header. -/
def createRuletreeFile (maxSize : BitVec 32) (minMmapAddr : BitVec 64)
    (minClientSocketFd : BitVec 32) : Image :=
  wordBytes ruletreeMagic ++ wordBytes ObjectType.filehdr.code ++ wordBytes 6 ++ wordBytes 0 ++
    longBytes minMmapAddr ++ wordBytes 40 ++ wordBytes maxSize ++ wordBytes minClientSocketFd ++
    wordBytes 0

/-! ## Commands -/

/-- What the functions do with the file. -/
inductive Access
  | look (type : ObjectType) (offs : Offset)
  | load (offs : Offset) (place : Nat)
  | loadLong (offs : Offset) (place : Nat)
  | text (offs : Offset) (place : Nat)
  | store (field : FieldStore) (offs : Offset)
  | append (new : NewObject)

def Access.Answer : Access → Type
  | look _ _ => Bool
  | load _ _ => BitVec 32
  | loadLong _ _ => BitVec 64
  | text _ _ => List Byte
  | store _ _ => Unit
  | append _ => Offset

def Access.handle : (access : Access) → Image → access.Answer × Image
  | .look type offs, img => (Image.hasObjectPtr img type offs, img)
  | .load offs place, img => (Image.word img (offs.toNat + place), img)
  | .loadLong offs place, img => (Image.long img (offs.toNat + place), img)
  | .text offs place, img => (Image.text img (offs.toNat + place), img)
  | .store field offs, img => ((), patch img (offs.toNat + field.place) field.data)
  | .append new, img => (BitVec.ofNat 32 img.length, Image.append img new)

/-- A `NULL` pointer is used, or a loop comes to no end. -/
inductive RuletreeFault
  | nullPointer
  | endless
  deriving DecidableEq

abbrev RuletreeProgram := Program Access Access.Answer RuletreeFault

def look (type : ObjectType) (offs : Offset) : RuletreeProgram Bool :=
  Program.command (Access.look type offs)

def load (offs : Offset) (place : Nat) : RuletreeProgram (BitVec 32) :=
  Program.command (Access.load offs place)

def loadLong (offs : Offset) (place : Nat) : RuletreeProgram (BitVec 64) :=
  Program.command (Access.loadLong offs place)

def loadText (offs : Offset) (place : Nat) : RuletreeProgram (List Byte) :=
  Program.command (Access.text offs place)

def store (field : FieldStore) (offs : Offset) : RuletreeProgram Unit :=
  Program.command (Access.store field offs)

def append (new : NewObject) : RuletreeProgram Offset := Program.command (Access.append new)

/-! ## Strings, lists and numbers -/

/-- `offset_to_ruletree_string_ptr`: the length and the text. -/
def offsetToRuletreeStringPtr (offs : Offset) :
    RuletreeProgram (Option (BitVec 32 × List Byte)) := do
  if ← look .string offs then
    let size ← load offs 8
    let str ← loadText offs 12
    return some (size, str)
  else return none

/-- `ruletree_objectlist_create_list`. -/
def objectlistCreateList (size : BitVec 32) : RuletreeProgram Offset := append (.objectlist size)

/-- `ruletree_objectlist_set_item`. -/
def objectlistSetItem (listOffs : Offset) (n : BitVec 32) (value : Offset) :
    RuletreeProgram Int := do
  if ← look .objectlist listOffs then
    let size ← load listOffs 8
    if size ≤ n then return -1
    else
      store (.item n value) listOffs
      return 1
  else return -1

/-- `ruletree_objectlist_get_item`. -/
def objectlistGetItem (listOffs : Offset) (n : BitVec 32) : RuletreeProgram Offset := do
  if ← look .objectlist listOffs then
    let size ← load listOffs 8
    if size ≤ n then return 0
    else load listOffs (12 + 4 * n.toNat)
  else return 0

/-- `ruletree_objectlist_get_list_size`. -/
def objectlistGetListSize (listOffs : Offset) : RuletreeProgram (BitVec 32) := do
  if ← look .objectlist listOffs then load listOffs 8 else return 0

/-- A number is overwritten through `ruletree_get_pointer_to_uint32`. -/
def overwriteUint32 (offs : Offset) (value : BitVec 32) : RuletreeProgram Unit := do
  if ← look .uint32 offs then store (.uint32 value) offs

/-- A boolean is overwritten through `ruletree_get_pointer_to_boolean`. -/
def overwriteBoolean (offs : Offset) (value : BitVec 32) : RuletreeProgram Unit := do
  if ← look .boolean offs then store (.boolean value) offs

/-! ## Catalogs -/

/-- `ruletree_create_catalog_entry`. -/
def createCatalogEntry (name : Option CText) (valueOffs : Offset) : RuletreeProgram Offset := do
  match name with
  | some str =>
    let nameOffs ← append (.string str)
    append (.catalog nameOffs valueOffs 0)
  | none => append (.catalog 0 valueOffs 0)

/-- The loop of `find_last_catalog_entry`. The next entry has been appended later, so there
are fewer rounds than bytes. -/
def findLastLoop : Nat → Offset → RuletreeProgram Offset
  | 0, _ => .fault .endless
  | rounds + 1, catp => do
    let next ← load catp 16
    if next = 0 then return catp
    else if ← look .catalog next then findLastLoop rounds next
    else .fault .nullPointer

def findLastCatalogEntry (catalogOffs : Offset) : RuletreeProgram (Option Offset) := do
  let root ← load 0 12
  let catalogOffs := if catalogOffs = 0 then root else catalogOffs
  if catalogOffs = 0 then return none
  else if ← look .catalog catalogOffs then
    let fileSize ← load 0 24
    let last ← findLastLoop fileSize.toNat catalogOffs
    return some last
  else return none

def linkEntryToRuletreeCatalog (catalogOffs newEntryOffs : Offset) : RuletreeProgram Unit := do
  match ← findLastCatalogEntry catalogOffs with
  | some prevEntry => store (.catNext newEntryOffs) prevEntry
  | none => if catalogOffs = 0 then store (.rootCatalog newEntryOffs) 0

/-- The pointer to an entry, if it has its header. -/
def entryPtr (offs : Offset) : RuletreeProgram (Option Offset) := do
  if ← look .catalog offs then return some offs else return none

/-- `add_entry_to_ruletree_catalog`: the pointer to the entry. -/
def addEntryToRuletreeCatalog (catalogOffs : Offset) (name : Option CText) (valueOffs : Offset) :
    RuletreeProgram (Option Offset) := do
  let entryLocation ← createCatalogEntry name valueOffs
  if entryLocation = 0 then return none
  else
    linkEntryToRuletreeCatalog catalogOffs entryLocation
    entryPtr entryLocation

def entryHasName (name : CText) (nameOffs : Offset) : RuletreeProgram Bool := do
  match ← offsetToRuletreeStringPtr nameOffs with
  | some (size, str) => return size.toNat = name.bytes.length ∧ str = name.bytes
  | none => return false

/-- The loop of `ruletree_find_catalog_entry`. -/
def findCatalogLoop (name : CText) : Nat → Offset → RuletreeProgram (Option Offset)
  | 0, _ => .fault .endless
  | rounds + 1, entryLocation => do
    if ← look .catalog entryLocation then
      let nameOffs ← load entryLocation 8
      if ← entryHasName name nameOffs then return some entryLocation
      else
        let next ← load entryLocation 16
        if next = 0 then return none else findCatalogLoop name rounds next
    else return none

/-- `ruletree_find_catalog_entry`: the pointer to the entry. -/
def findCatalogEntry (catalogOffs : Offset) (name : Option CText) :
    RuletreeProgram (Option Offset) := do
  match name with
  | none => return none
  | some str =>
    let root ← load 0 12
    let catalogOffs := if catalogOffs = 0 then root else catalogOffs
    if catalogOffs = 0 then return none
    else
      let fileSize ← load 0 24
      findCatalogLoop str fileSize.toNat catalogOffs

/-- `ruletree_catalog_find_value_from_catalog`. -/
def catalogFindValueFromCatalog (firstCatalogEntryOffs : Offset) (name : Option CText) :
    RuletreeProgram Offset := do
  match ← findCatalogEntry firstCatalogEntryOffs name with
  | some entry => load entry 12
  | none => return 0

/-- `ruletree_catalog_add_or_find_object`. -/
def catalogAddOrFindObject (firstCatalogEntryOffs : Offset) (objectName : Option CText)
    (parentCatEntry : Option Offset) : RuletreeProgram (Option Offset) := do
  if firstCatalogEntryOffs ≠ 0 then
    match ← findCatalogEntry firstCatalogEntryOffs objectName with
    | some entry => return some entry
    | none => addEntryToRuletreeCatalog firstCatalogEntryOffs objectName 0
  else
    match parentCatEntry with
    | some parent =>
      let objectOffs ← createCatalogEntry objectName 0
      store (.catValue objectOffs) parent
      entryPtr objectOffs
    | none => addEntryToRuletreeCatalog 0 objectName 0

/-- The loop of `ruletree_catalog_vget`. -/
def catalogVgetLoop : Offset → List CText → RuletreeProgram Offset
  | catalogStartOffs, [] => return catalogStartOffs
  | catalogStartOffs, name :: namev => do
    let value ← catalogFindValueFromCatalog catalogStartOffs (some name)
    if value = 0 then return 0 else catalogVgetLoop value namev

/-- `ruletree_catalog_vget`. -/
def catalogVget (namev : List CText) : RuletreeProgram Offset := catalogVgetLoop 0 namev

/-- The loop of `ruletree_catalog_vset`. -/
def catalogVsetLoop (valueOffset : Offset) :
    Offset → Option Offset → List CText → RuletreeProgram Bool
  | _, none, [] => return false
  | _, some catptr, [] => do
    store (.catValue valueOffset) catptr
    return true
  | catalogStartOffs, catptr, name :: namev => do
    match ← catalogAddOrFindObject catalogStartOffs (some name) catptr with
    | none => return false
    | some catptr =>
      let catalogStartOffs ← load catptr 12
      catalogVsetLoop valueOffset catalogStartOffs (some catptr) namev

/-- `ruletree_catalog_vset`; success is reported by `true`. -/
def catalogVset (namev : List CText) (valueOffset : Offset) : RuletreeProgram Bool := do
  let root ← load 0 12
  catalogVsetLoop valueOffset root none namev

/-- `ruletree_catalog_set`. -/
def catalogSet (catalogName objectName : Option CText) (valueOffset : Offset) :
    RuletreeProgram Bool := do
  let root ← load 0 12
  match ← catalogAddOrFindObject root catalogName none with
  | none => return false
  | some catalogEntry =>
    let subcatalogStartOffs ← load catalogEntry 12
    match ← catalogAddOrFindObject subcatalogStartOffs objectName (some catalogEntry) with
    | none => return false
    | some objectCatEntry =>
      store (.catValue valueOffset) objectCatEntry
      return true

/-! ## Trees of inodes -/

/-- `ruletree_create_bintree_entry`. -/
def createBintreeEntry (key1 key2 : BitVec 64) (valueOffs : Offset) : RuletreeProgram Offset :=
  append (.bintree key1 key2 valueOffs)

/-- `ruletree_add_to_bintree_entry`. The keys of the parent are compared in both directions,
and a link that is there stays. -/
def addToBintreeEntry (valueNodeOffs : Offset) (key1 key2 : BitVec 64)
    (lastComparedNode : Offset) (lastDirection : Option Side) : RuletreeProgram Offset := do
  if lastComparedNode = 0 then createBintreeEntry key1 key2 valueNodeOffs
  else if ← look .bintree lastComparedNode then
    let newOffs ← createBintreeEntry key1 key2 valueNodeOffs
    let parentKey1 ← loadLong lastComparedNode 8
    let parentKey2 ← loadLong lastComparedNode 16
    let less : Bool := key1 < parentKey1 || (key1 == parentKey1 && key2 < parentKey2)
    match lastDirection with
    | some .less =>
      if less then
        if (← load lastComparedNode 28) = 0 then store (.linkLess newOffs) lastComparedNode
    | some .more =>
      if !less then
        if (← load lastComparedNode 32) = 0 then store (.linkMore newOffs) lastComparedNode
    | none => pure ()
    return 0
  else return 0

def vpermName : CText := ⟨[0x76, 0x70, 0x65, 0x72, 0x6d], by decide⟩

def inodestatsName : CText :=
  ⟨[0x69, 0x6e, 0x6f, 0x64, 0x65, 0x73, 0x74, 0x61, 0x74, 0x73], by decide⟩

/-- `ruletree_set_inodestat`, with `rfh_offs`, `rfh_last_visited_node` and `rfh_last_result`
of the handle: `rfh_offs` after the call, and the new root. -/
def setInodestat (dev ino : BitVec 64) (offs lastVisitedNode : Offset)
    (lastResult : Option Side) (istat : InodeSimu) : RuletreeProgram (Offset × Offset) := do
  if offs ≠ 0 then
    if ← look .bintree offs then
      let value ← load offs 24
      if ← look .inodestat value then store (.inodeSimu istat) value
    return (offs, 0)
  else
    let created ← append (.inodestat istat)
    let btRoot ← addToBintreeEntry created (inoToKey ino) dev lastVisitedNode lastResult
    if btRoot ≠ 0 then
      let _ ← catalogSet (some vpermName) (some inodestatsName) btRoot
      return (created, btRoot)
    else return (created, btRoot)

/-! ## Operations -/

/-- The operations that change the file. -/
inductive RuletreeOp
  | append (new : NewObject)
  | objectlistSetItem (listOffs : Offset) (n : BitVec 32) (value : Offset)
  | overwriteUint32 (offs : Offset) (value : BitVec 32)
  | overwriteBoolean (offs : Offset) (value : BitVec 32)
  | catalogSet (catalogName objectName : Option CText) (valueOffset : Offset)
  | catalogVset (namev : List CText) (valueOffset : Offset)
  | setInodestat (dev ino : BitVec 64) (offs lastVisitedNode : Offset)
      (lastResult : Option Side) (istat : InodeSimu)

/-- The program of an operation. What it returns is left out. -/
def RuletreeOp.program : RuletreeOp → RuletreeProgram Unit
  | append new => do
    let _ ← Scratchbox.append new
  | objectlistSetItem listOffs n value => do
    let _ ← Scratchbox.objectlistSetItem listOffs n value
  | overwriteUint32 offs value => Scratchbox.overwriteUint32 offs value
  | overwriteBoolean offs value => Scratchbox.overwriteBoolean offs value
  | catalogSet catalogName objectName valueOffset => do
    let _ ← Scratchbox.catalogSet catalogName objectName valueOffset
  | catalogVset namev valueOffset => do
    let _ ← Scratchbox.catalogVset namev valueOffset
  | setInodestat dev ino offs lastVisitedNode lastResult istat => do
    let _ ← Scratchbox.setInodestat dev ino offs lastVisitedNode lastResult istat

/-- The file after a sequence of operations. -/
def runOps (img : Image) : List RuletreeOp → Image
  | [] => img
  | op :: ops => runOps (op.program.run Access.handle img).2 ops

/-- The commands of a sequence of operations, each with the file before it. -/
def visitsOf (img : Image) : List RuletreeOp → List (Access × Image)
  | [] => []
  | op :: ops =>
    op.program.visits Access.handle img ++ visitsOf (op.program.run Access.handle img).2 ops

end Scratchbox
