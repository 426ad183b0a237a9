import Scratchbox.PrepareExec
import Scratchbox.Lib.Reads

/-!
# Inspecting a binary

`sb_exec.c`: the type of a file is found out from its first bytes, which are mapped to memory.
`inspect_elf_binary` looks for a script or a host binary, and goes through the program headers of
the latter; otherwise `inspect_binary` compares the header with the target CPU.

Offsets are taken from the file as they are, and pointers that are computed from them wrap around.
The functions are programs that read bytes. Stores to `struct binary_info` are part of them, since
the pointer to it may be NULL.
-/

namespace Scratchbox

open Bytes Reads

/-! ## Hosts -/

inductive HostArch
  | x86
  | ia64
  | powerpc
  deriving DecidableEq

inductive PointerSize
  | bits32
  | bits64
  deriving DecidableEq

structure HostMachine where
  arch : HostArch
  bigEndian : Bool
  pointers : PointerSize
  pageSize : Nat
  le_pageSize : 4096 ≤ pageSize

open HostMachine

/-- `HOST_ELF_MACHINE_32`. -/
def HostArch.elfMachine32 : HostArch → Option Nat
  | .x86 => some 3
  | .ia64 => none
  | .powerpc => some 20

/-- `HOST_ELF_MACHINE_64`. -/
def HostArch.elfMachine64 : HostArch → Option Nat
  | .x86 => some 62
  | .ia64 => some 50
  | .powerpc => none

namespace HostMachine

variable (host : HostMachine)

/-- `ELFDATA2LSB` or `ELFDATA2MSB`, for a byte order. -/
def elfDataOf (bigEndian : Bool) : Byte := if bigEndian then 2 else 1

/-- `HOST_ELF_DATA`. -/
def elfData : Byte := elfDataOf host.bigEndian

def addressSpace : Nat :=
  match host.pointers with
  | .bits32 => 4294967296
  | .bits64 => 18446744073709551616

/-- An offset from the start of a mapping, as pointer arithmetic gives it. -/
def wrap (offset : Nat) : Nat := offset % host.addressSpace

def number (bytes : List Byte) : Nat :=
  leValue (if host.bigEndian then bytes.reverse else bytes)

def readField (offset size : Nat) : Reader Fault Nat := do
  let bytes ← readBytes .outOfBounds (fun i => host.wrap (offset + i)) size
  return host.number bytes

def strdup (offset : Nat) : Reader Fault CStr := do
  let bytes ← readString .outOfBounds (fun i => host.wrap (offset + i)) host.addressSpace
  return bytes.map fun b => Char.ofNat b.toNat

end HostMachine

/-! ## ELF headers -/

def byteSwap (a : Nat) : Nat := a % 256 * 256 + a / 256

/-- Where the fields are in `Elf32_Ehdr` and `Elf32_Phdr`, or in `Elf64_Ehdr` and `Elf64_Phdr`. The
fields that are used in other places are the same in both. -/
structure ElfLayout where
  ePhoff : Nat
  ePhoffSize : Nat
  ePhentsize : Nat
  ePhnum : Nat
  pOffset : Nat
  pOffsetSize : Nat
  phoff_lt : 0 < ePhoffSize
  phoff_le : ePhoff + ePhoffSize ≤ ePhnum
  le_phentsize : 20 ≤ ePhentsize
  phentsize_le : ePhentsize + 2 ≤ ePhnum
  phnum_le : ePhnum + 2 ≤ 4096

def elf32 : ElfLayout :=
  ⟨28, 4, 42, 44, 4, 4, by decide, by decide, by decide, by decide, by decide⟩

def elf64 : ElfLayout :=
  ⟨32, 8, 54, 56, 8, 8, by decide, by decide, by decide, by decide, by decide⟩

def ptInterpType : Nat := 3

namespace HostMachine

variable (host : HostMachine)

def elfHdrMatch (machine : Nat) (eiData : Byte) : Reader Fault Bool := do
  let data ← readByte .outOfBounds 5
  if data ≠ eiData then return false
  else
    let swap := eiData = elfDataOf !host.bigEndian
    let eMachine ← host.readField 18 2
    return eMachine = if swap then byteSwap machine else machine

def readInterp (layout : ElfLayout) (ph : Nat) : Reader Fault CStr := do
  let pOffset ← host.readField (ph + layout.pOffset) layout.pOffsetSize
  host.strdup pOffset

/-- The loop over the program headers, from the one with index `i` on; `n` of them are left. The
mapping does not change, so that `e_phnum` is the same in each round. -/
def findInterp (layout : ElfLayout) (phEntsize i : Nat) : Nat → Reader Fault (Option CStr)
  | 0 => return none
  | n + 1 => do
    let ePhoff ← host.readField layout.ePhoff layout.ePhoffSize
    let ph := host.wrap (ePhoff + i * phEntsize)
    let pType ← host.readField ph 4
    if pType = ptInterpType then
      let interp ← host.readInterp layout ph
      return some interp
    else findInterp layout phEntsize (i + 1) n

/-- `if (info) ...`: the machine and the data encoding of a host binary. -/
def noteHeader : Option BinaryInfo → Reader Fault (Option BinaryInfo)
  | none => return none
  | some info => do
    let machine ← host.readField 18 2
    let data ← readByte .outOfBounds 5
    return some { info with machine := .ofNat 16 machine, data := data }

def readProgramHeaders (layout : ElfLayout) (info : Option BinaryInfo) :
    Reader Fault (Option BinaryInfo × Option CStr) := do
  let phEntsize ← host.readField layout.ePhentsize 2
  let info ← host.noteHeader info
  let ePhnum ← host.readField layout.ePhnum 2
  let interp ← host.findInterp layout phEntsize 0 ePhnum
  return (info, interp)

end HostMachine

/-- An access through the pointer to the structure, which may be NULL. -/
def accessInfo (change : BinaryInfo → BinaryInfo) :
    Option BinaryInfo → Reader Fault (Option BinaryInfo)
  | some info => return some (change info)
  | none => .fault .nullPointer

def accessInfoIf (condition : Bool) (change : BinaryInfo → BinaryInfo) (info : Option BinaryInfo) :
    Reader Fault (Option BinaryInfo) :=
  if condition then accessInfo change info else return info

def hostBinaryType : Option BinaryInfo × Option CStr →
    Reader Fault (BinaryType × Option BinaryInfo)
  | (info, some interp) => do
    let info ← accessInfo (fun info => { info with ptInterp := some interp }) info
    return (.hostDynamic, info)
  | (info, none) => return (.hostStatic, info)

/-- The start of a script. -/
def readHashbangMark : Reader Fault Bool := do
  let first ← readByte .outOfBounds 0
  if first = 35 then
    let second ← readByte .outOfBounds 1
    return second = 33
  else return false

namespace HostMachine

variable (host : HostMachine)

/-- The part of `inspect_elf_binary` for one kind of host binaries: `none` if it is another file. -/
def inspectHostBinary (layout : ElfLayout) (info : Option BinaryInfo) :
    Option Nat → Reader Fault (Option (BinaryType × Option BinaryInfo))
  | none => return none
  | some machine => do
    let isHost ← host.elfHdrMatch machine host.elfData
    if isHost then
      let headers ← host.readProgramHeaders layout info
      let found ← hostBinaryType headers
      return some found
    else return none

def inspectElfBinary (info : Option BinaryInfo) :
    Reader Fault (BinaryType × Option BinaryInfo) := do
  let script ← readHashbangMark
  if script then return (.hashbang, info)
  else
    let found ← host.inspectHostBinary elf32 info host.arch.elfMachine32
    match found with
    | some result => return result
    | none => do
      let found ← host.inspectHostBinary elf64 info host.arch.elfMachine64
      match found with
      | some result => return result
      | none => return (.unknown, info)

end HostMachine

/-! ## Target CPUs -/

/-- `struct target_info`. -/
structure TargetInfo where
  name : CStr
  machine : Nat
  defaultByteorder : Byte
  multiByteorder : Bool

def targetTable : List TargetInfo :=
  [⟨"arm".toList, 40, 1, true⟩, ⟨"mips".toList, 8, 2, true⟩, ⟨"ppc".toList, 20, 2, false⟩,
    ⟨"sh".toList, 42, 1, true⟩, ⟨"x86_64".toList, 62, 1, false⟩, ⟨"aarch64".toList, 183, 1, true⟩]

/-- The byte order of a target, which may be given at the end of the name. -/
def TargetInfo.byteorder (info : TargetInfo) (targetCpu : CStr) : Byte :=
  if info.multiByteorder ∧ info.name.length + 2 ≤ targetCpu.length then
    let tail := targetCpu.drop (targetCpu.length - 2)
    if tail = "eb".toList then 2 else if tail = "el".toList then 1 else info.defaultByteorder
  else info.defaultByteorder

/-- The machine and the data encoding of a target CPU that is in the table. -/
def findTarget (targetCpu : CStr) : Option (Nat × Byte) :=
  (targetTable.find? fun info => info.name.isPrefixOf targetCpu).map fun info =>
    (info.machine, info.byteorder targetCpu)

/-- The configured `sbox_cpu`, or `arm`. -/
def targetCpuOf (sboxCpu : Option CStr) : CStr := sboxCpu.getD "arm".toList

/-- The last part of `inspect_binary`: a CPU that is not in the table leaves `EM_NONE` and
`ELFDATANONE`, and the structure as it is. -/
def HostMachine.inspectTarget (host : HostMachine) (targetCpu : CStr) (info : Option BinaryInfo) :
    Reader Fault (BinaryType × Option BinaryInfo) := do
  let (eMachine, eiData) := (findTarget targetCpu).getD (0, 0)
  let info ← accessInfoIf (findTarget targetCpu).isSome
    (fun info => { info with machine := .ofNat 16 eMachine, data := eiData }) info
  let isTarget ← host.elfHdrMatch eMachine eiData
  return (if isTarget then .target else .unknown, info)

/-- What `inspect_binary` depends on, apart from the file. -/
structure InspectSettings where
  host : HostMachine
  sboxCpu : Option CStr
  /-- There is an `x` in `sbox_emulate_sb1_bugs`. -/
  emulateX : Bool
  /-- Messages for debugging are logged. -/
  debug : Bool

/-- The part of `inspect_binary` for a file that has been mapped. The log message for a host binary
reads from the structure. -/
def InspectSettings.inspectRegion (settings : InspectSettings) (capabilities : Bool)
    (info : Option BinaryInfo) : Reader Fault (BinaryType × Option BinaryInfo) := do
  let (type, info) ← settings.host.inspectElfBinary info
  match type with
  | .hashbang => return (type, info)
  | .hostStatic | .hostDynamic => do
    let info ← accessInfoIf capabilities (fun info => { info with hasCapabilities := true }) info
    let info ← accessInfoIf settings.debug id info
    return (type, info)
  | _ => settings.host.inspectTarget (targetCpuOf settings.sboxCpu) info

/-! ## Files -/

/-- A file that has been mapped: its bytes, and what the process has behind its last page. -/
structure MappedFile (host : HostMachine) where
  content : List Byte
  behind : Nat → Option Byte
  fits : content.length < host.addressSpace

namespace MappedFile

variable {host : HostMachine} (file : MappedFile host)

def mappedSize : Nat := (file.content.length + host.pageSize - 1) / host.pageSize * host.pageSize

/-- The bytes of the last page that are not in the file are zero. -/
def byte (offset : Nat) : Byte := file.content.getD offset 0

def memory (offset : Nat) : Option Byte :=
  if offset < file.mappedSize then some (file.byte offset) else file.behind offset

end MappedFile

structure FileStatus where
  mode : BitVec 32
  uid : BitVec 32
  gid : BitVec 32

/-- What the calls of `inspect_binary` find out about a file: the errno of an access that is not
permitted, and so on. -/
structure InspectedFile (host : HostMachine) where
  accessX : Option Errno
  accessF : Option Errno
  accessR : Option Errno
  canOpen : Bool
  /-- The result of `sb2_fstat64`, unless it fails. -/
  status : Option FileStatus
  mmapFails : Bool
  mapped : MappedFile host
  /-- There is an attribute `security.capability`. -/
  capabilities : Bool

/-- The result of `inspect_binary`, with the errno if it sets one. -/
structure InspectResult where
  type : BinaryType
  info : Option BinaryInfo
  errno : Option Errno

/-- `S_ISREG` or `S_ISLNK`. -/
def isRegOrLnk (mode : BitVec 32) : Bool :=
  mode &&& sIfmt == 0o100000#32 || mode &&& sIfmt == 0o120000#32

namespace InspectSettings

variable (settings : InspectSettings)

/-- The checks of the permissions: the type and the errno, if the file can not be executed. -/
def checkAccess (file : InspectedFile settings.host) (checkXPermission : Bool) :
    Option (BinaryType × Errno) :=
  if checkXPermission then
    match file.accessX, file.accessF with
    | none, _ => none
    | some _, some errno => some (.none, errno)
    | some errno, none =>
      if settings.emulateX then file.accessR.map fun errno => (.invalid, errno)
      else some (.invalid, errno)
  else file.accessF.map fun errno => (.none, errno)

/-- `inspect_binary`. The result of `mmap` is compared with NULL, and not with `MAP_FAILED`. -/
def inspectBinary (file : InspectedFile settings.host) (checkXPermission : Bool)
    (info : Option BinaryInfo) : Except Fault InspectResult :=
  match settings.checkAccess file checkXPermission with
  | some (type, errno) => .ok ⟨type, info, some errno⟩
  | none =>
    if !file.canOpen then .ok ⟨.hostDynamic, info, none⟩
    else
      match file.status with
      | none => .ok ⟨.unknown, info, none⟩
      | some status =>
        let info := info.map fun info =>
          { info with mode := status.mode, uid := status.uid, gid := status.gid }
        if !isRegOrLnk status.mode then .ok ⟨.unknown, info, none⟩
        else if file.mapped.content.length < 4 then .ok ⟨.none, info, some .ENOEXEC⟩
        else if file.mmapFails then .error .outOfBounds
        else
          (outcome file.mapped.memory (settings.inspectRegion file.capabilities info)).map
            fun (type, info) => ⟨type, info, none⟩

end InspectSettings

/-! ## Fields of a file -/

/-- The bytes of the header that `elf_hdr_match` reads belong to the file. -/
def HdrInside (content : List Byte) (eiData : Byte) : Prop :=
  6 ≤ content.length ∧ (content.getD 5 0 = eiData → 20 ≤ content.length)

/-- The file starts with `#!`. -/
def isScript (content : List Byte) : Bool := content.getD 0 0 = 35 && content.getD 1 0 = 33

namespace HostMachine

variable (host : HostMachine) (content : List Byte)

def FieldInside (offset size : Nat) : Prop := ∀ i < size, host.wrap (offset + i) < content.length

def fieldAt (offset size : Nat) : Nat :=
  host.number ((List.range size).map fun i => content.getD (host.wrap (offset + i)) 0)

def hdrMatches (machine : Nat) (eiData : Byte) : Bool :=
  content.getD 5 0 = eiData &&
    host.fieldAt content 18 2 =
      if eiData = elfDataOf !host.bigEndian then byteSwap machine else machine

def isHostBinary : Bool :=
  (host.arch.elfMachine32.any fun machine => host.hdrMatches content machine host.elfData) ||
    host.arch.elfMachine64.any fun machine => host.hdrMatches content machine host.elfData

def hostLayout : Option ElfLayout :=
  if host.arch.elfMachine32.any fun m => host.hdrMatches content m host.elfData then some elf32
  else if host.arch.elfMachine64.any fun m => host.hdrMatches content m host.elfData then some elf64
  else none

def StringInside (offset : Nat) : Prop :=
  ∃ n, (∀ i ≤ n, host.wrap (offset + i) < content.length) ∧
    content.getD (host.wrap (offset + n)) 0 = 0

variable (layout : ElfLayout)

/-- The offset of a program header. -/
def phdrAt (i : Nat) : Nat :=
  host.wrap (host.fieldAt content layout.ePhoff layout.ePhoffSize +
    i * host.fieldAt content layout.ePhentsize 2)

def pTypeAt (i : Nat) : Nat := host.fieldAt content (host.phdrAt content layout i) 4

/-- The offset of the interpreter, and its name, belong to the file. -/
def InterpInside (i : Nat) : Prop :=
  host.FieldInside content (host.phdrAt content layout i + layout.pOffset) layout.pOffsetSize ∧
    host.StringInside content
      (host.fieldAt content (host.phdrAt content layout i + layout.pOffset) layout.pOffsetSize)

/-- The header belongs to the file, and the program headers up to the one of the interpreter. -/
def ProgramHeadersInside : Prop :=
  layout.ePhnum + 2 ≤ content.length ∧
    ∀ i < host.fieldAt content layout.ePhnum 2,
      (∀ j < i, host.pTypeAt content layout j ≠ ptInterpType) →
        host.FieldInside content (host.phdrAt content layout i) 4 ∧
          (host.pTypeAt content layout i = ptInterpType → host.InterpInside content layout i)

variable {host content} {offset : Nat}

theorem isSome_hostLayout : (host.hostLayout content).isSome = host.isHostBinary content := by
  unfold hostLayout isHostBinary
  generalize host.arch.elfMachine32.any _ = is32
  generalize host.arch.elfMachine64.any _ = is64
  cases is32 <;> cases is64 <;> rfl

theorem addressSpace_pos : 4096 < host.addressSpace := by
  unfold addressSpace
  split <;> decide

theorem wrap_of_lt (small : offset < 4096) : host.wrap offset = offset :=
  Nat.mod_eq_of_lt (Nat.lt_trans small addressSpace_pos)

theorem fieldInside_header {size : Nat} (nonempty : 0 < size) (small : offset + size ≤ 4096) :
    host.FieldInside content offset size ↔ offset + size ≤ content.length := by
  constructor
  · intro inside
    have last := inside (size - 1) (by omega)
    rw [wrap_of_lt (by omega)] at last
    omega
  · intro inside i below
    rw [wrap_of_lt (by omega)]
    omega

end HostMachine

namespace MappedFile

variable {host : HostMachine} (file : MappedFile host) {offset : Nat}

theorem length_le_mappedSize : file.content.length ≤ file.mappedSize := by
  have size := host.le_pageSize
  have parts := Nat.div_add_mod' (file.content.length + host.pageSize - 1) host.pageSize
  have rest := Nat.mod_lt (file.content.length + host.pageSize - 1)
    (Nat.lt_of_lt_of_le (by decide) size : 0 < host.pageSize)
  unfold mappedSize
  omega

theorem memory_inside (inside : offset < file.content.length) :
    file.memory offset = some (file.content.getD offset 0) :=
  if_pos (Nat.lt_of_lt_of_le inside file.length_le_mappedSize)

theorem memory_header (nonempty : 0 < file.content.length) (small : offset < 4096) :
    file.memory offset = some (file.content.getD offset 0) := by
  have size := host.le_pageSize
  have pages : 1 ≤ (file.content.length + host.pageSize - 1) / host.pageSize := by
    rw [Nat.one_le_div_iff (Nat.lt_of_lt_of_le (by decide) size)]
    omega
  have mapped : host.pageSize ≤ file.mappedSize := Nat.le_mul_of_pos_left _ pages
  exact if_pos (by omega)

/-- What `inspect_elf_binary` notes about a host binary. -/
def note (info : BinaryInfo) : BinaryInfo :=
  { info with machine := .ofNat 16 (host.fieldAt file.content 18 2), data := file.content.getD 5 0 }

def interp (layout : ElfLayout) : Except Fault (Option CStr) :=
  (outcome file.memory (host.readProgramHeaders layout none)).map Prod.snd

def hostBinary (layout : ElfLayout) (info : Option BinaryInfo) :
    Except Fault (BinaryType × Option BinaryInfo) :=
  (file.interp layout).bind fun interp =>
    outcome file.memory (hostBinaryType (info.map file.note, interp))

variable {file}

theorem outcome_readField {size : Nat} (known : ∀ i < size, file.memory (host.wrap (offset + i)) =
      some (file.content.getD (host.wrap (offset + i)) 0)) :
    outcome file.memory (host.readField offset size) =
      .ok (host.fieldAt file.content offset size) := by
  have bytes := outcome_readBytes Fault.outOfBounds known
  rw [readField, outcome_bind_of_ok bytes]
  rfl

theorem outcome_accessInfoIf (condition : Bool) (change : BinaryInfo → BinaryInfo)
    (info : Option BinaryInfo) :
    outcome file.memory (accessInfoIf condition change info) =
      if condition && info.isNone then .error .nullPointer
      else .ok (if condition then info.map change else info) := by
  cases condition <;> cases info <;> rfl

theorem data_of_isHostBinary {content : List Byte} (isHost : host.isHostBinary content = true) :
    content.getD 5 0 = host.elfData := by
  have data {machine : Option Nat}
      (isMatch : (machine.any fun m => host.hdrMatches content m host.elfData) = true) :
      content.getD 5 0 = host.elfData := by
    cases machine with
    | none => cases isMatch
    | some m => exact of_decide_eq_true (Bool.and_eq_true_iff.1 isMatch).1
  exact (Bool.or_eq_true_iff.1 isHost).elim data data

section

variable (nonempty : 0 < file.content.length)

include nonempty

/-- The first page of a file can be read, whether or not the file is as long. -/
theorem outcome_readField_header {offset size : Nat}
    (small : offset + size ≤ 4096) :
    outcome file.memory (host.readField offset size) =
      .ok (host.fieldAt file.content offset size) := by
  refine outcome_readField fun i below => file.memory_header nonempty ?_
  rw [wrap_of_lt (by omega)]
  omega

theorem outcome_elfHdrMatch (machine : Nat) (eiData : Byte) :
    outcome file.memory (host.elfHdrMatch machine eiData) =
      .ok (host.hdrMatches file.content machine eiData) := by
  unfold elfHdrMatch hdrMatches
  rw [outcome_bind_of_ok (outcome_readByte _ (file.memory_header nonempty (by decide)))]
  split
  next other => rw [decide_eq_false other, Bool.false_and]; rfl
  next same =>
    rw [outcome_bind_of_ok (outcome_readField_header nonempty (by decide)),
      decide_eq_true (not_not.1 same), Bool.true_and]
    rfl

theorem outcome_noteHeader (info : Option BinaryInfo) :
    outcome file.memory (host.noteHeader info) = .ok (info.map file.note) := by
  cases info with
  | none => rfl
  | some info =>
    rw [noteHeader, outcome_bind_of_ok (outcome_readField_header nonempty (by decide)),
      outcome_bind_of_ok (outcome_readByte _ (file.memory_header nonempty (by decide)))]
    rfl

theorem outcome_readHashbangMark :
    outcome file.memory readHashbangMark = .ok (isScript file.content) := by
  unfold readHashbangMark isScript
  rw [outcome_bind_of_ok (outcome_readByte _ (file.memory_header nonempty (by decide)))]
  split
  next hash =>
    rw [outcome_bind_of_ok (outcome_readByte _ (file.memory_header nonempty (by decide))),
      decide_eq_true hash, Bool.true_and]
    rfl
  next other => rw [decide_eq_false other, Bool.false_and]; rfl

theorem outcome_readProgramHeaders (layout : ElfLayout)
    (info : Option BinaryInfo) :
    outcome file.memory (host.readProgramHeaders layout info) =
      (file.interp layout).map fun interp => (info.map file.note, interp) := by
  have step (info : Option BinaryInfo) :
      outcome file.memory (host.readProgramHeaders layout info) =
        (outcome file.memory (do
          let ePhnum ← host.readField layout.ePhnum 2
          host.findInterp layout (host.fieldAt file.content layout.ePhentsize 2) 0 ePhnum)).map
            fun interp => (info.map file.note, interp) := by
    have entsize := layout.phentsize_le
    have phnum := layout.phnum_le
    rw [readProgramHeaders,
      outcome_bind_of_ok (outcome_readField_header nonempty (by omega)),
      outcome_bind_of_ok (outcome_noteHeader nonempty info),
      outcome_bind_of_ok (outcome_readField_header nonempty phnum),
      outcome_bind_of_ok (outcome_readField_header nonempty phnum), outcome_bind]
    cases outcome file.memory (host.findInterp layout _ 0 _) <;> rfl
  rw [interp, step info, step none]
  cases outcome file.memory _ <;> rfl

theorem outcome_inspectHostBinary (layout : ElfLayout)
    (info : Option BinaryInfo) (machine : Option Nat) :
    outcome file.memory (host.inspectHostBinary layout info machine) =
      if machine.any fun m => host.hdrMatches file.content m host.elfData then
        (file.hostBinary layout info).map some
      else .ok none := by
  cases machine with
  | none => rfl
  | some m =>
    rw [inspectHostBinary,
      outcome_bind_of_ok (outcome_elfHdrMatch nonempty m host.elfData), Option.any_some]
    split
    · rw [outcome_bind, outcome_readProgramHeaders nonempty, hostBinary]
      cases file.interp layout with
      | error fault => rfl
      | ok interp =>
        show outcome _ (hostBinaryType _ >>= _) = _
        rw [outcome_bind]
        rfl
    · rfl

theorem outcome_inspectElfBinary (info : Option BinaryInfo) :
    outcome file.memory (host.inspectElfBinary info) =
      if isScript file.content then .ok (.hashbang, info)
      else (host.hostLayout file.content).elim (.ok (.unknown, info)) fun layout =>
        file.hostBinary layout info := by
  rw [inspectElfBinary, outcome_bind_of_ok (outcome_readHashbangMark nonempty)]
  split
  · rfl
  rw [outcome_bind, outcome_inspectHostBinary nonempty, hostLayout]
  generalize host.arch.elfMachine32.any _ = is32
  cases is32 with
  | true =>
    show ((file.hostBinary elf32 info).map some >>= _) = file.hostBinary elf32 info
    cases file.hostBinary elf32 info <;> rfl
  | false =>
    show outcome _ (host.inspectHostBinary elf64 info host.arch.elfMachine64 >>= _) = _
    rw [outcome_bind, outcome_inspectHostBinary nonempty]
    generalize host.arch.elfMachine64.any _ = is64
    cases is64 with
    | true =>
      show ((file.hostBinary elf64 info).map some >>= _) = file.hostBinary elf64 info
      cases file.hostBinary elf64 info <;> rfl
    | false => rfl

end

theorem hostBinary_type {layout : ElfLayout} {info info' : Option BinaryInfo} {type : BinaryType}
    (result : file.hostBinary layout info = .ok (type, info')) :
    type = .hostStatic ∨ type = .hostDynamic := by
  obtain ⟨interp, -, result⟩ := Except.bind_eq_ok_iff.1 result
  cases interp with
  | none =>
    cases result
    exact .inl rfl
  | some interp =>
    cases info with
    | none => cases result
    | some info =>
      cases result
      exact .inr rfl

end MappedFile

end Scratchbox
