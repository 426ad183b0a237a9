import Scratchbox.BinaryInspection

/-!
# The bytes that are read by an inspection

`inspection_inside_iff`: while a file is classified, all bytes that are read belong to the file,
exactly if the header, the program headers up to the one of the interpreter, and the name of the
interpreter do. Nothing of this is checked: a text of four characters is read beyond its end
(`inspection_reads_beyond_end`).
-/

namespace Scratchbox

open Bytes Reads HostMachine MappedFile

/-! ## Headers -/

section Header

variable {host : HostMachine} (file : MappedFile host)

def MappedFile.Inside (offset : Nat) : Prop := offset < file.content.length

theorem MappedFile.known (offset : Nat) (inside : file.Inside offset) :
    file.memory offset = some (file.content.getD offset 0) :=
  file.memory_inside inside

variable {file} {α : Type} {layout : ElfLayout} {info : Option BinaryInfo}
  {offset machine size : Nat} {eiData : Byte}

theorem stays_readField :
    Stays file.memory file.Inside (host.readField offset size) ↔
      host.FieldInside file.content offset size := by
  rw [readField, stays_readBytes_bind file.known]
  exact and_iff_left (stays_pure _)

theorem stays_readField_bind {next : Nat → Reader Fault α} :
    Stays file.memory file.Inside (host.readField offset size >>= next) ↔
      host.FieldInside file.content offset size ∧
        Stays file.memory file.Inside (next (host.fieldAt file.content offset size)) :=
  stays_bind_of_ok stays_readField fun inside =>
    outcome_readField fun i below => file.known _ (inside i below)

theorem stays_elfHdrMatch :
    Stays file.memory file.Inside (host.elfHdrMatch machine eiData) ↔
      HdrInside file.content eiData := by
  rw [elfHdrMatch, stays_readByte_bind file.known]
  refine and_congr_right fun _ => ?_
  split
  next other => exact iff_of_true (stays_pure _) fun same => absurd same other
  next same =>
    rw [stays_readField_bind, fieldInside_header (by decide) (by decide)]
    exact ⟨fun inside _ => inside.1, fun inside => ⟨inside (not_not.1 same), stays_pure _⟩⟩

theorem stays_elfHdrMatch_bind {next : Bool → Reader Fault α} :
    Stays file.memory file.Inside (host.elfHdrMatch machine eiData >>= next) ↔
      HdrInside file.content eiData ∧
        Stays file.memory file.Inside (next (host.hdrMatches file.content machine eiData)) :=
  stays_bind_of_ok stays_elfHdrMatch fun inside =>
    outcome_elfHdrMatch (Nat.lt_of_lt_of_le (by decide) inside.1) machine eiData

/-- The name of the interpreter. The address space is larger than the file, so that a string without
an end leaves it. -/
theorem stays_strdup :
    Stays file.memory file.Inside (host.strdup offset) ↔ host.StringInside file.content offset := by
  have leaves : ∃ i < host.addressSpace, ¬ host.wrap (offset + i) < file.content.length := by
    have space : 0 < host.addressSpace := Nat.lt_of_le_of_lt (Nat.zero_le _) file.fits
    refine ⟨host.wrap (file.content.length + (host.addressSpace - host.wrap offset)),
      Nat.mod_lt _ space, ?_⟩
    have below : host.wrap offset < host.addressSpace := Nat.mod_lt _ space
    have sum : host.wrap offset + (file.content.length + (host.addressSpace - host.wrap offset)) =
        file.content.length + host.addressSpace := by
      omega
    have back : host.wrap (offset +
        host.wrap (file.content.length + (host.addressSpace - host.wrap offset))) =
        file.content.length := by
      calc host.wrap (offset + host.wrap (file.content.length +
            (host.addressSpace - host.wrap offset)))
          = host.wrap (host.wrap offset +
              (file.content.length + (host.addressSpace - host.wrap offset))) := by
            unfold wrap
            rw [Nat.add_mod_mod, Nat.mod_add_mod]
        _ = (file.content.length + host.addressSpace) % host.addressSpace := by rw [sum]; rfl
        _ = file.content.length := by rw [Nat.add_mod_right, Nat.mod_eq_of_lt file.fits]
    rw [back]
    exact Nat.lt_irrefl _
  obtain ⟨last, lastBelow, outside⟩ := leaves
  rw [strdup, stays_bind, stays_readString file.known]
  constructor
  · rintro ⟨⟨n, -, inside, ends⟩ | inside, -⟩
    · exact ⟨n, inside, ends⟩
    · exact absurd (inside last lastBelow) outside
  · rintro ⟨n, inside, ends⟩
    refine ⟨.inl ⟨n, ?_, inside, ends⟩, fun _ _ => stays_pure _⟩
    by_contra large
    exact outside (inside last (by omega))

/-! ## Program headers -/

theorem stays_readInterp {i : Nat} :
    Stays file.memory file.Inside
        (host.readInterp layout (host.phdrAt file.content layout i)) ↔
      host.InterpInside file.content layout i := by
  rw [readInterp, stays_readField_bind, stays_strdup]
  rfl

theorem stays_findInterp (phoff : host.FieldInside file.content layout.ePhoff layout.ePhoffSize)
    (i n : Nat) :
    Stays file.memory file.Inside
        (host.findInterp layout (host.fieldAt file.content layout.ePhentsize 2) i n) ↔
      ∀ j, i ≤ j → j < i + n →
        (∀ k, i ≤ k → k < j → host.pTypeAt file.content layout k ≠ ptInterpType) →
          host.FieldInside file.content (host.phdrAt file.content layout j) 4 ∧
            (host.pTypeAt file.content layout j = ptInterpType →
              host.InterpInside file.content layout j) := by
  induction n generalizing i with
  | zero => exact iff_of_true (stays_pure _) fun j above below => absurd above (by omega)
  | succ n ih =>
    rw [findInterp, stays_readField_bind, and_iff_right phoff, stays_readField_bind]
    show host.FieldInside _ (host.phdrAt file.content layout i) 4 ∧
      Stays _ _ (if host.pTypeAt file.content layout i = ptInterpType then _ else _) ↔ _
    by_cases isInterp : host.pTypeAt file.content layout i = ptInterpType
    · -- The loop ends here, and nothing is required of the headers behind.
      rw [if_pos isInterp, stays_bind]
      show _ ∧ Stays _ _ (host.readInterp layout (host.phdrAt file.content layout i)) ∧ _ ↔ _
      rw [stays_readInterp, and_iff_left fun _ _ => stays_pure _]
      constructor
      · rintro ⟨type, inside⟩ j above below before
        obtain rfl : j = i := by
          by_contra other
          exact before i (Nat.le_refl i) (by omega) isInterp
        exact ⟨type, fun _ => inside⟩
      · intro all
        obtain ⟨type, inside⟩ := all i (Nat.le_refl i) (by omega) fun k above below =>
          absurd below (Nat.not_lt.2 above)
        exact ⟨type, inside isInterp⟩
    · rw [if_neg isInterp, ih]
      constructor
      · rintro ⟨type, rest⟩ j above below before
        rcases Nat.eq_or_lt_of_le above with rfl | later
        · exact ⟨type, fun same => absurd same isInterp⟩
        · exact rest j later (by omega) fun k above' below' => before k (by omega) below'
      · intro all
        refine ⟨(all i (Nat.le_refl i) (by omega) fun k above below =>
          absurd below (Nat.not_lt.2 above)).1, fun j above below before => ?_⟩
        refine all j (by omega) (by omega) fun k above' below' => ?_
        rcases Nat.eq_or_lt_of_le above' with rfl | later
        · exact isInterp
        · exact before k later below'

/-! ## Host binaries -/

theorem stays_accessInfo (change : BinaryInfo → BinaryInfo) (info : Option BinaryInfo) :
    Stays file.memory file.Inside (accessInfo change info) := by
  cases info with
  | none => exact stays_fault _
  | some info => exact stays_pure _

theorem stays_accessInfoIf (condition : Bool) (change : BinaryInfo → BinaryInfo)
    (info : Option BinaryInfo) :
    Stays file.memory file.Inside (accessInfoIf condition change info) := by
  unfold accessInfoIf
  split
  · exact stays_accessInfo change info
  · exact stays_pure _

theorem stays_noteHeader (header : 20 ≤ file.content.length) (info : Option BinaryInfo) :
    Stays file.memory file.Inside (host.noteHeader info) := by
  cases info with
  | none => exact stays_pure _
  | some info =>
    rw [noteHeader, stays_readField_bind, stays_readByte_bind file.known,
      fieldInside_header (by decide) (by decide)]
    exact ⟨header, Nat.lt_of_lt_of_le (by decide) header, stays_pure _⟩

theorem stays_readProgramHeaders :
    Stays file.memory file.Inside (host.readProgramHeaders layout info) ↔
      host.ProgramHeadersInside file.content layout := by
  have phoff := layout.phoff_le
  have first := layout.le_phentsize
  have phentsize := layout.phentsize_le
  have last := layout.phnum_le
  -- With the last field of the header, all of them belong to the file.
  have header (inside : layout.ePhnum + 2 ≤ file.content.length) :
      host.FieldInside file.content layout.ePhoff layout.ePhoffSize ∧
        20 ≤ file.content.length ∧ layout.ePhentsize + 2 ≤ file.content.length := by
    rw [fieldInside_header layout.phoff_lt (by omega)]
    omega
  unfold readProgramHeaders HostMachine.ProgramHeadersInside
  rw [stays_readField_bind, fieldInside_header (by decide) (by omega)]
  constructor
  · rintro ⟨inside, rest⟩
    have noted : outcome file.memory (host.noteHeader info) = .ok (info.map file.note) :=
      outcome_noteHeader (by omega) info
    have rest := (stays_bind.1 rest).2 _ noted
    rw [stays_readField_bind, fieldInside_header (by decide) last, stays_bind] at rest
    obtain ⟨phnum, loop, -⟩ := rest
    rw [stays_findInterp (header phnum).1] at loop
    refine ⟨phnum, fun i below before => loop i (Nat.zero_le i) (by omega) fun k _ => before k⟩
  · rintro ⟨phnum, loop⟩
    obtain ⟨phoff, machine, phentsize⟩ := header phnum
    refine ⟨phentsize, stays_bind.2 ⟨stays_noteHeader machine info, fun noted _ => ?_⟩⟩
    rw [stays_readField_bind, fieldInside_header (by decide) last, stays_bind,
      stays_findInterp phoff]
    refine ⟨phnum, fun i _ below before => ?_, fun _ _ => stays_pure _⟩
    exact loop i (by omega) fun j below' => before j (Nat.zero_le j) below'

theorem stays_hostBinaryType (headers : Option BinaryInfo × Option CStr) :
    Stays file.memory file.Inside (hostBinaryType headers) := by
  obtain ⟨info, _ | interp⟩ := headers
  · exact stays_pure _
  · exact stays_bind.2 ⟨stays_accessInfo _ info, fun _ _ => stays_pure _⟩

theorem stays_inspectHostBinary {machine : Option Nat} :
    Stays file.memory file.Inside (host.inspectHostBinary layout info machine) ↔
      ∀ m ∈ machine, HdrInside file.content host.elfData ∧
        (host.hdrMatches file.content m host.elfData = true →
          host.ProgramHeadersInside file.content layout) := by
  cases machine with
  | none => exact iff_of_true (stays_pure _) fun m isNone => by cases isNone
  | some m =>
    have one {p : Nat → Prop} : (∀ m' ∈ some m, p m') ↔ p m := by simp
    rw [one, inspectHostBinary, stays_elfHdrMatch_bind]
    refine and_congr_right fun _ => ?_
    split
    next isHost =>
      rw [stays_bind, stays_readProgramHeaders, isHost]
      refine ⟨fun inside _ => inside.1, fun inside => ⟨inside rfl, fun headers _ => ?_⟩⟩
      exact stays_bind.2 ⟨stays_hostBinaryType headers, fun _ _ => stays_pure _⟩
    next other => exact iff_of_true (stays_pure _) fun isHost => absurd isHost other

/-! ## The whole inspection -/

/-- The program headers of a host binary belong to the file, up to the one of the interpreter. -/
def HostMachine.HostHeadersInside (host : HostMachine) (content : List Byte) : Prop :=
  (∀ machine ∈ host.arch.elfMachine32, host.hdrMatches content machine host.elfData = true →
      host.ProgramHeadersInside content elf32) ∧
    ∀ machine ∈ host.arch.elfMachine64, host.hdrMatches content machine host.elfData = true →
      host.ProgramHeadersInside content elf64

theorem HostMachine.elfMachine_unique {content : List Byte} {m32 m64 : Nat}
    (is32 : m32 ∈ host.arch.elfMachine32) (is64 : m64 ∈ host.arch.elfMachine64)
    (matches32 : host.hdrMatches content m32 host.elfData = true)
    (matches64 : host.hdrMatches content m64 host.elfData = true) : False := by
  have ownOrder : host.elfData ≠ elfDataOf !host.bigEndian := by
    unfold elfData
    cases host.bigEndian <;> decide
  have field {m : Nat} (isMatch : host.hdrMatches content m host.elfData = true) :
      host.fieldAt content 18 2 = m := by
    have machine := of_decide_eq_true (Bool.and_eq_true_iff.1 isMatch).2
    rwa [if_neg ownOrder] at machine
  have same : m32 = m64 := (field matches32).symm.trans (field matches64)
  generalize host.arch = arch at is32 is64
  cases arch with
  | x86 =>
    cases is32
    cases is64
    cases same
  | ia64 => cases is32
  | powerpc => cases is64

theorem HostMachine.exists_elfMachine (host : HostMachine) :
    (∃ m, m ∈ host.arch.elfMachine32) ∨ ∃ m, m ∈ host.arch.elfMachine64 := by
  cases host.arch with
  | x86 => exact .inl ⟨_, rfl⟩
  | ia64 => exact .inr ⟨_, rfl⟩
  | powerpc => exact .inl ⟨_, rfl⟩

theorem stays_readHashbangMark (large : 4 ≤ file.content.length) :
    Stays file.memory file.Inside readHashbangMark := by
  rw [readHashbangMark, stays_readByte_bind file.known]
  refine ⟨Nat.lt_of_lt_of_le (by decide) large, ?_⟩
  split
  · rw [stays_readByte_bind file.known]
    exact ⟨Nat.lt_of_lt_of_le (by decide) large, stays_pure _⟩
  · exact stays_pure _

theorem stays_inspectElfBinary (large : 4 ≤ file.content.length) :
    Stays file.memory file.Inside (host.inspectElfBinary info) ↔
      isScript file.content = true ∨
        HdrInside file.content host.elfData ∧ host.HostHeadersInside file.content := by
  have nonempty : 0 < file.content.length := Nat.lt_of_lt_of_le (by decide) large
  have mark : Stays file.memory file.Inside readHashbangMark ↔ True :=
    iff_true_intro (stays_readHashbangMark large)
  rw [inspectElfBinary, stays_bind_of_ok mark fun _ =>
    outcome_readHashbangMark nonempty, true_and]
  cases script : isScript file.content with
  | true => exact iff_of_true (stays_pure _) (.inl rfl)
  | false =>
    rw [if_neg Bool.false_ne_true, stays_bind, stays_inspectHostBinary,
      or_iff_right Bool.false_ne_true]
    constructor
    · rintro ⟨inside32, rest⟩
      cases is32 : host.arch.elfMachine32.any fun m =>
          host.hdrMatches file.content m host.elfData with
      | true =>
        obtain ⟨there, isMatch⟩ := (Option.any_eq_true_iff_get _ _).1 is32
        have isMachine := Option.get_mem there
        exact ⟨(inside32 _ isMachine).1, fun m isMachine => (inside32 m isMachine).2,
          fun m is64 isMatch' =>
            (elfMachine_unique isMachine is64 isMatch isMatch').elim⟩
      | false =>
        have rest := rest none (by rw [outcome_inspectHostBinary nonempty, is32]; rfl)
        have inside64 := stays_inspectHostBinary.1 (stays_bind.1 rest).1
        refine ⟨?_, fun m isMachine => (inside32 m isMachine).2, fun m isMachine =>
          (inside64 m isMachine).2⟩
        rcases host.exists_elfMachine with ⟨m, isMachine⟩ | ⟨m, isMachine⟩
        · exact (inside32 m isMachine).1
        · exact (inside64 m isMachine).1
    · rintro ⟨hdr, headers32, headers64⟩
      refine ⟨fun m isMachine => ⟨hdr, headers32 m isMachine⟩, fun found _ => ?_⟩
      cases found with
      | some result => exact stays_pure _
      | none =>
        refine stays_bind.2 ⟨stays_inspectHostBinary.2 fun m isMachine =>
          ⟨hdr, headers64 m isMachine⟩, fun found _ => ?_⟩
        cases found <;> exact stays_pure _

end Header

/-- The machine and the data encoding that are compared at the end. -/
def InspectSettings.wanted (settings : InspectSettings) : Nat × Byte :=
  (findTarget (targetCpuOf settings.sboxCpu)).getD (0, 0)

/-- The file is compared with the target CPU: without the structure, this is so only for a CPU that
is not in the table. -/
def InspectSettings.Compares (settings : InspectSettings) (info : Option BinaryInfo) : Prop :=
  info.isSome ∨ findTarget (targetCpuOf settings.sboxCpu) = none

/-- What belongs to the file, if all bytes that are read do. -/
structure InspectionInside (settings : InspectSettings) (info : Option BinaryInfo)
    (content : List Byte) : Prop where
  ident : 6 ≤ content.length
  machine : content.getD 5 0 = settings.host.elfData ∨
    settings.Compares info ∧ content.getD 5 0 = settings.wanted.2 → 20 ≤ content.length
  headers : settings.host.HostHeadersInside content

section Region

variable {settings : InspectSettings} {file : MappedFile settings.host} {info : Option BinaryInfo}

theorem stays_inspectTarget :
    Stays file.memory file.Inside
        (settings.host.inspectTarget (targetCpuOf settings.sboxCpu) info) ↔
      (settings.Compares info → HdrInside file.content settings.wanted.2) := by
  unfold inspectTarget InspectSettings.Compares InspectSettings.wanted
  generalize findTarget (targetCpuOf settings.sboxCpu) = target
  dsimp only
  rw [stays_bind, and_iff_right (stays_accessInfoIf _ _ info), outcome_accessInfoIf]
  split
  next missing =>
    rw [Bool.and_eq_true, Option.isSome_iff_ne_none, Option.isNone_iff_eq_none] at missing
    refine iff_of_true (fun _ isOk => by cases isOk) fun compares => ?_
    rcases compares with isSome | isNone
    · rw [missing.2] at isSome
      cases isSome
    · exact absurd isNone missing.1
  next there =>
    have compares : info.isSome ∨ target = none := by
      cases target <;> cases info <;> simp at there ⊢
    constructor
    · intro all _
      exact (stays_elfHdrMatch_bind.1 (all _ rfl)).1
    · intro inside info' _
      exact stays_elfHdrMatch_bind.2 ⟨inside compares, stays_pure _⟩

/-- All bytes that are read while a file is classified belong to the file, exactly if the header
does as far as it is looked at, the program headers of a host binary up to the one of the
interpreter, and the name of the interpreter. -/
theorem inspection_inside_iff (large : 4 ≤ file.content.length) (capabilities : Bool) :
    (∀ offset ∈ addresses file.memory (settings.inspectRegion capabilities info),
        offset < file.content.length) ↔
      isScript file.content = true ∨ InspectionInside settings info file.content := by
  have nonempty : 0 < file.content.length := Nat.lt_of_lt_of_le (by decide) large
  show Stays file.memory file.Inside _ ↔ _
  rw [InspectSettings.inspectRegion, stays_bind, stays_inspectElfBinary large,
    outcome_inspectElfBinary nonempty]
  cases script : isScript file.content with
  | true =>
    refine iff_of_true ⟨.inl rfl, fun found result => ?_⟩ (.inl rfl)
    cases result
    exact stays_pure _
  | false =>
    rw [or_iff_right Bool.false_ne_true, or_iff_right Bool.false_ne_true]
    constructor
    · rintro ⟨⟨hdr, headers⟩, rest⟩
      refine ⟨hdr.1, ?_, headers⟩
      rintro (own | ⟨compares, wanted⟩)
      · exact hdr.2 own
      cases layout : settings.host.hostLayout file.content with
      | some layout' =>
        have isHost : settings.host.isHostBinary file.content = true := by
          rw [← isSome_hostLayout, layout, Option.isSome_some]
        exact hdr.2 (data_of_isHostBinary isHost)
      | none =>
        rw [layout] at rest
        exact (stays_inspectTarget.1 (rest _ rfl) compares).2 wanted
    · intro inside
      refine ⟨⟨⟨inside.ident, fun own => inside.machine (.inl own)⟩, inside.headers⟩, ?_⟩
      rintro ⟨type, info'⟩ result
      cases layout : settings.host.hostLayout file.content with
      | some layout' =>
        rw [layout] at result
        have noMore : Stays file.memory file.Inside _ := stays_bind.2 ⟨stays_accessInfoIf
          capabilities (fun info => { info with hasCapabilities := true }) info', fun info'' _ =>
          stays_bind.2 ⟨stays_accessInfoIf settings.debug id info'', fun last _ =>
            stays_pure (type, last)⟩⟩
        rcases hostBinary_type result with rfl | rfl
        · exact noMore
        · exact noMore
      | none =>
        rw [layout] at result
        cases result
        exact stays_inspectTarget.2 fun compares =>
          ⟨inside.ident, fun wanted => inside.machine (.inr ⟨compares, wanted⟩)⟩

end Region

/-- A usual host, and a session for `arm`. -/
def pcSettings : InspectSettings :=
  ⟨⟨.x86, false, .bits64, 4096, Nat.le_refl _⟩, none, false, false⟩

def textFile : MappedFile pcSettings.host := ⟨[97, 98, 99, 10], fun _ => none, by decide⟩

/-- The beginning of a little-endian binary for `arm`, up to its machine. -/
def armFile : MappedFile pcSettings.host :=
  ⟨[0x7f, 69, 76, 70, 1, 1, 1, 0, 0, 0, 0, 0, 0, 0, 0, 0, 2, 0, 40, 0], fun _ => none, by decide⟩

theorem inspection_inside_arm :
    4 ≤ armFile.content.length ∧
      ∀ offset ∈ addresses armFile.memory (pcSettings.inspectRegion false (some {})),
        offset < armFile.content.length := by
  refine ⟨by decide, (inspection_inside_iff (by decide) false).2
    (.inr ⟨by decide, fun _ => by decide, ?_, ?_⟩)⟩
  · intro machine isMachine isMatch
    cases isMachine
    exact absurd isMatch (by decide)
  · intro machine isMachine isMatch
    cases isMachine
    exact absurd isMatch (by decide)

/-- The data encoding is looked for behind the end of the text. -/
theorem inspection_reads_beyond_end :
    4 ≤ textFile.content.length ∧
      addresses textFile.memory (pcSettings.inspectRegion false (some {})) = [0, 5, 5, 5] ∧
      ¬ 5 < textFile.content.length := by
  decide

end Scratchbox
