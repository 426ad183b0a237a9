import Scratchbox.InspectionReads

/-!
# Types of binaries

What `inspect_binary` says about a file that has been mapped depends on a few bytes only
(`type_inspectRegion`). Two things follow from this.

* The magic number of an ELF file is not among these bytes, and for a CPU that is not in the table
  they are compared with zero. So a text can be taken for a binary: `only_elf_iff`.
* Where the result is noted, the pointer to the structure is not always checked. Without a structure
  the same classification is returned only if nothing had to be noted: `types_agree_iff`.
-/

namespace Scratchbox

open Bytes Reads Option InspectSettings

namespace InspectSettings

variable (settings : InspectSettings)

/-- The header has the data encoding and the machine of the target CPU, as they are compared. -/
def isTargetBinary (content : List Byte) : Bool :=
  settings.host.hdrMatches content settings.wanted.1 settings.wanted.2

def regionType (file : MappedFile settings.host) (capabilities withInfo : Bool) :
    Except Fault BinaryType :=
  if isScript file.content then .ok .hashbang
  else (settings.host.hostLayout file.content).elim
    (if (findTarget (targetCpuOf settings.sboxCpu)).isSome && !withInfo then .error .nullPointer
      else .ok (if settings.isTargetBinary file.content then .target else .unknown))
    fun layout => (file.interp layout).bind fun interp =>
      if (interp.isSome || capabilities || settings.debug) && !withInfo then .error .nullPointer
      else .ok (if interp.isSome then .hostDynamic else .hostStatic)

def fileType (file : InspectedFile settings.host) (checkXPermission withInfo : Bool) :
    Except Fault BinaryType :=
  (settings.checkAccess file checkXPermission).elim
    (if !file.canOpen then .ok .hostDynamic
      else file.status.elim (.ok .unknown) fun status =>
        if !isRegOrLnk status.mode then .ok .unknown
        else if file.mapped.content.length < 4 then .ok .none
        else if file.mmapFails then .error .outOfBounds
        else settings.regionType file.mapped file.capabilities withInfo)
    fun denied => .ok denied.1

variable {settings} {file : MappedFile settings.host}

theorem type_inspectTarget (nonempty : 0 < file.content.length) (info : Option BinaryInfo) :
    (outcome file.memory
        (settings.host.inspectTarget (targetCpuOf settings.sboxCpu) info)).map Prod.fst =
      if (findTarget (targetCpuOf settings.sboxCpu)).isSome && info.isNone then .error .nullPointer
      else .ok (if settings.isTargetBinary file.content then .target else .unknown) := by
  unfold HostMachine.inspectTarget
  dsimp only
  rw [outcome_bind, MappedFile.outcome_accessInfoIf]
  split
  · rfl
  · show (outcome _ (_ >>= _)).map _ = _
    rw [outcome_bind_of_ok (MappedFile.outcome_elfHdrMatch nonempty _ _)]
    rfl

theorem type_hostBinary (layout : ElfLayout) (capabilities : Bool) (info : Option BinaryInfo) :
    ((file.hostBinary layout info).bind fun found =>
        (outcome file.memory (accessInfoIf capabilities
          (fun info => { info with hasCapabilities := true }) found.2)).bind fun info =>
        (outcome file.memory (accessInfoIf settings.debug id info)).map fun _ => found.1) =
      (file.interp layout).bind fun interp =>
        if (interp.isSome || capabilities || settings.debug) && !info.isSome then
          .error .nullPointer
        else .ok (if interp.isSome then .hostDynamic else .hostStatic) := by
  unfold MappedFile.hostBinary
  cases file.interp layout with
  | error fault => rfl
  | ok interp =>
    generalize settings.debug = debug
    cases interp <;> cases info <;> cases capabilities <;> cases debug <;> rfl

theorem type_inspectRegion (nonempty : 0 < file.content.length) (capabilities : Bool)
    (info : Option BinaryInfo) :
    (outcome file.memory (settings.inspectRegion capabilities info)).map Prod.fst =
      settings.regionType file capabilities info.isSome := by
  rw [inspectRegion, outcome_bind, MappedFile.outcome_inspectElfBinary nonempty, regionType]
  split
  · rfl
  cases settings.host.hostLayout file.content with
  | none =>
    rw [not_isSome]
    exact type_inspectTarget nonempty info
  | some layout =>
    rw [elim_some, elim_some, ← type_hostBinary]
    cases result : file.hostBinary layout info with
    | error fault => rfl
    | ok found =>
      obtain ⟨type, info'⟩ := found
      have isHost := MappedFile.hostBinary_type result
      generalize settings.debug = debug
      rcases isHost with rfl | rfl <;>
        cases info' <;> cases capabilities <;> cases debug <;> rfl

theorem type_inspectBinary (file : InspectedFile settings.host) (checkXPermission : Bool)
    (info : Option BinaryInfo) :
    (settings.inspectBinary file checkXPermission info).map InspectResult.type =
      settings.fileType file checkXPermission info.isSome := by
  unfold inspectBinary fileType
  cases settings.checkAccess file checkXPermission with
  | some denied => rfl
  | none =>
    cases file.canOpen with
    | false => rfl
    | true =>
      cases file.status with
      | none => rfl
      | some status =>
        dsimp only [Option.elim]
        cases isRegOrLnk status.mode with
        | false => rfl
        | true =>
          rw [Bool.not_true, if_neg Bool.false_ne_true, if_neg Bool.false_ne_true,
            if_neg Bool.false_ne_true, if_neg Bool.false_ne_true]
          by_cases small : file.mapped.content.length < 4
          · rw [if_pos small, if_pos small]
            rfl
          rw [if_neg small, if_neg small]
          cases file.mmapFails with
          | true => rfl
          | false =>
            rw [if_neg Bool.false_ne_true, if_neg Bool.false_ne_true, ← isSome_map,
              ← type_inspectRegion (Nat.lt_of_lt_of_le (by decide) (Nat.not_lt.1 small))]
            cases outcome file.mapped.memory _ <;> rfl

end InspectSettings

/-! ## ELF files -/

structure InspectSettings.IsElf (settings : InspectSettings) (content : List Byte) : Prop where
  magic : [0x7f, 69, 76, 70] <+: content
  header : 20 ≤ content.length
  machine : settings.host.isHostBinary content = true ∨
    ∃ wanted, findTarget (targetCpuOf settings.sboxCpu) = some wanted ∧
      settings.host.hdrMatches content wanted.1 wanted.2 = true

/-- `prepare_exec` fails with `ENOEXEC` for a file that is inspected with this result. -/
def ReportsEnoexec (found : InspectResult) : Prop :=
  ∀ (world : ExecWorld) (call : ExecCall) (target : ExecTarget),
    world.mapFile call = .ok target →
    (world.inspectBinary target.mappedFile).type = found.type →
    (∀ errno ∈ found.errno, (world.inspectBinary target.mappedFile).errno = errno) →
    ∀ next, world.prepareExecLevel next call = some (.error (.failed .ENOEXEC))

structure OnlyElf (settings : InspectSettings) (file : InspectedFile settings.host)
    (info : BinaryInfo) : Prop where
  binary : ∀ found, settings.inspectBinary file true (some info) = .ok found →
    found.type = .hostDynamic ∨ found.type = .hostStatic ∨ found.type = .target →
      settings.IsElf file.mapped.content
  other : ¬ settings.IsElf file.mapped.content → isScript file.mapped.content = false →
    file.canOpen = true → ∃ found, settings.inspectBinary file true (some info) = .ok found ∧
      (found.type = .unknown ∨ found.type = .invalid) ∧ ReportsEnoexec found

theorem reportsEnoexec_of_unknown {found : InspectResult} (unknown : found.type = .unknown) :
    ReportsEnoexec found := by
  intro world call target located same _ next
  rw [unknown] at same
  unfold ExecWorld.prepareExecLevel
  rw [located]
  dsimp only
  rw [same, if_neg (by decide)]
  cases world.policyFor target.execPolicyName target.mappedFile <;> rfl

section OnlyElf

variable {settings : InspectSettings} {file : InspectedFile settings.host} {info : BinaryInfo}
  {capabilities : Bool}

theorem onlyElf_of_unknown (unknown : settings.fileType file true true = .ok .unknown) :
    OnlyElf settings file info := by
  have type := (settings.type_inspectBinary file true (some info)).trans unknown
  cases result : settings.inspectBinary file true (some info) with
  | error fault =>
    rw [result] at type
    cases type
  | ok found =>
    rw [result] at type
    have isUnknown : found.type = .unknown := Except.ok.inj type
    refine ⟨fun found' same binary => ?_, fun _ _ _ =>
      ⟨found, result, .inl isUnknown, reportsEnoexec_of_unknown isUnknown⟩⟩
    cases result.symm.trans same
    rw [isUnknown] at binary
    simp at binary

variable (settings capabilities) in
theorem regionType_cases {file : MappedFile settings.host}
    (noScript : isScript file.content = false) :
    (settings.regionType file capabilities true = .ok .unknown ↔
      settings.host.isHostBinary file.content = false ∧
        settings.isTargetBinary file.content = false) ∧
      settings.regionType file capabilities true ≠ .ok .invalid := by
  rw [regionType, noScript, if_neg Bool.false_ne_true,
    ← HostMachine.isSome_hostLayout]
  cases settings.host.hostLayout file.content with
  | none => cases settings.isTargetBinary file.content <;> simp
  | some layout =>
    rw [elim_some]
    cases file.interp layout with
    | error fault => simp [Except.bind]
    | ok interp => cases interp <;> simp [Except.bind]

theorem not_onlyElf (notElf : ¬ settings.IsElf file.mapped.content)
    (noScript : isScript file.mapped.content = false) (opened : file.canOpen = true)
    (notUnknown : settings.fileType file true true ≠ .ok .unknown)
    (notInvalid : settings.fileType file true true ≠ .ok .invalid) :
    ¬ OnlyElf settings file info := by
  intro law
  obtain ⟨found, result, isType, -⟩ := law.other notElf noScript opened
  have type := settings.type_inspectBinary file true (some info)
  rw [result] at type
  rcases isType with unknown | invalid
  · exact notUnknown (type.symm.trans (congrArg _ unknown))
  · exact notInvalid (type.symm.trans (congrArg _ invalid))

end OnlyElf

/-- Only ELF files are run as binaries, exactly if the file is one; or else it can be opened, and it
is a script or there is no other header in it that looks like the one of a binary. -/
theorem only_elf_iff {settings : InspectSettings} {file : InspectedFile settings.host}
    (executable : file.accessX = none)
    (regular : ∀ status ∈ file.status, status.mode &&& sIfmt = 0o100000#32) (info : BinaryInfo) :
    OnlyElf settings file info ↔ settings.IsElf file.mapped.content ∨
      file.canOpen = true ∧ (file.status = none ∨ isScript file.mapped.content = true ∨
        4 ≤ file.mapped.content.length ∧ file.mmapFails = false ∧
          settings.host.isHostBinary file.mapped.content = false ∧
          settings.isTargetBinary file.mapped.content = false) := by
  have access : settings.checkAccess file true = none := by
    unfold checkAccess
    rw [executable]
    rfl
  by_cases elf : settings.IsElf file.mapped.content
  · exact iff_of_true ⟨fun _ _ _ => elf, fun notElf => absurd elf notElf⟩ (.inl elf)
  rw [or_iff_right elf]
  cases opened : file.canOpen with
  | false =>
    refine iff_of_false (fun law => elf ?_) fun h => (by cases h.1)
    refine law.binary ⟨.hostDynamic, some info, none⟩ ?_ (.inl rfl)
    unfold inspectBinary
    rw [access, opened]
    rfl
  | true =>
    rw [and_iff_right rfl]
    cases isStatus : file.status with
    | none =>
      refine iff_of_true (onlyElf_of_unknown ?_) (.inl rfl)
      rw [fileType, access, opened, isStatus]
      rfl
    | some status =>
      have isRegular : isRegOrLnk status.mode = true := by
        rw [isRegOrLnk, regular status isStatus]
        rfl
      have type : settings.fileType file true true =
          if file.mapped.content.length < 4 then .ok .none
          else if file.mmapFails then .error .outOfBounds
          else settings.regionType file.mapped file.capabilities true := by
        rw [fileType, access, opened, isStatus, elim_none, elim_some,
          isRegular]
        rfl
      cases script : isScript file.mapped.content with
      | true =>
        refine iff_of_true ⟨fun found result binary => ?_, fun _ noScript => ?_⟩ (.inr (.inl rfl))
        · have isType := settings.type_inspectBinary file true (some info)
          rw [result, isSome_some, type, regionType, script] at isType
          split at isType
          · rw [Except.ok.inj isType] at binary
            simp at binary
          · split at isType
            · cases isType
            · rw [Except.ok.inj isType] at binary
              simp at binary
        · rw [script] at noScript
          cases noScript
      | false =>
        rw [or_iff_right (some_ne_none status), or_iff_right Bool.false_ne_true]
        have notElf : _ → _ → ¬ OnlyElf settings file info := not_onlyElf elf script opened
        rw [type] at notElf
        by_cases small : file.mapped.content.length < 4
        · rw [if_pos small] at notElf
          exact iff_of_false (notElf (by simp) (by simp)) fun h => Nat.not_lt.2 h.1 small
        rw [if_neg small] at type notElf
        cases mapped : file.mmapFails with
        | true =>
          rw [mapped, if_pos rfl] at notElf
          exact iff_of_false (notElf (by simp) (by simp)) fun h => (by cases h.2.1)
        | false =>
          rw [mapped, if_neg Bool.false_ne_true] at type notElf
          obtain ⟨unknownIff, notInvalid⟩ := regionType_cases settings file.capabilities script
          constructor
          · intro law
            refine ⟨Nat.not_lt.1 small, rfl, ?_⟩
            by_contra other
            exact notElf (fun unknown => other (unknownIff.1 unknown)) notInvalid law
          · rintro ⟨-, -, noBinary⟩
            exact onlyElf_of_unknown (type.trans (unknownIff.2 noBinary))

def executableFile {host : HostMachine} (file : MappedFile host) : InspectedFile host :=
  ⟨none, none, none, true, some ⟨0o100755, 0, 0⟩, false, file, false⟩

/-- With `arm`, the text is not run. -/
theorem only_elf_text : OnlyElf pcSettings (executableFile textFile) {} :=
  (only_elf_iff rfl (fun _ same => by cases same; decide) {}).2
    (.inr ⟨rfl, .inr (.inr ⟨by decide, rfl, by decide, by decide⟩)⟩)

/-- With a CPU that is not in the table, it is a binary for the target. -/
theorem text_is_target_binary :
    (({ pcSettings with sboxCpu := some "i386".toList }).inspectBinary (executableFile textFile)
        true (some {})).map InspectResult.type = .ok .target ∧
      ¬ [0x7f, 69, 76, 70] <+: textFile.content :=
  ⟨rfl, by decide⟩

/-! ## Without a structure -/

namespace InspectSettings

variable (settings : InspectSettings)

structure Maps (file : InspectedFile settings.host) (checkXPermission : Bool) : Prop where
  access : settings.checkAccess file checkXPermission = none
  opened : file.canOpen = true
  regular : ∃ status, file.status = some status ∧ isRegOrLnk status.mode = true
  large : 4 ≤ file.mapped.content.length
  mapped : file.mmapFails = false

/-- Something is noted about the file, without a check of the pointer. -/
def NotesUnchecked (file : MappedFile settings.host) (capabilities : Bool) : Prop :=
  isScript file.content = false ∧
    (settings.host.hostLayout file.content = none ∧
        (findTarget (targetCpuOf settings.sboxCpu)).isSome ∨
      ∃ layout interp, settings.host.hostLayout file.content = some layout ∧
        file.interp layout = .ok interp ∧ (interp.isSome || capabilities || settings.debug) = true)

/-- The classification is the same without a structure, and the structure is not accessed. -/
def TypesAgree (file : InspectedFile settings.host) (checkXPermission : Bool) (info : BinaryInfo) :
    Prop :=
  (settings.inspectBinary file checkXPermission none).map InspectResult.type =
      (settings.inspectBinary file checkXPermission (some info)).map InspectResult.type ∧
    settings.inspectBinary file checkXPermission none ≠ .error .nullPointer

end InspectSettings

namespace HostMachine

variable (host : HostMachine)

theorem onlyFault_readField (offset size : Nat) :
    OnlyFault .outOfBounds (host.readField offset size) :=
  (onlyFault_readBytes _ _ _).bind fun _ => onlyFault_pure _

theorem onlyFault_findInterp (layout : ElfLayout) (phEntsize i n : Nat) :
    OnlyFault .outOfBounds (host.findInterp layout phEntsize i n) := by
  induction n generalizing i with
  | zero => exact onlyFault_pure none
  | succ n ih =>
    refine (host.onlyFault_readField _ _).bind fun ePhoff =>
      (host.onlyFault_readField _ _).bind fun pType => ?_
    split
    · have name (offset : Nat) : OnlyFault .outOfBounds (host.strdup offset) :=
        (onlyFault_readString _ _ _).bind fun _ => onlyFault_pure _
      exact ((host.onlyFault_readField _ _).bind name).bind fun _ => onlyFault_pure _
    · exact ih (i + 1)

theorem onlyFault_readProgramHeaders (layout : ElfLayout) :
    OnlyFault .outOfBounds (host.readProgramHeaders layout none) :=
  (host.onlyFault_readField _ _).bind fun _ => (onlyFault_pure _).bind fun _ =>
    (host.onlyFault_readField _ _).bind fun _ => (host.onlyFault_findInterp _ _ _ _).bind fun _ =>
      onlyFault_pure _

end HostMachine

theorem MappedFile.interp_error {host : HostMachine} {file : MappedFile host} {layout : ElfLayout}
    {fault : Fault} (failed : file.interp layout = .error fault) : fault = .outOfBounds := by
  unfold MappedFile.interp at failed
  cases result : outcome file.memory (host.readProgramHeaders layout none) with
  | error fault' =>
    rw [result] at failed
    cases failed
    exact host.onlyFault_readProgramHeaders layout _ _ result
  | ok headers =>
    rw [result] at failed
    cases failed

section TypesAgree

variable {settings : InspectSettings}

theorem regionType_agree_iff {file : MappedFile settings.host} {capabilities : Bool} :
    (settings.regionType file capabilities false = settings.regionType file capabilities true ∧
        settings.regionType file capabilities false ≠ .error .nullPointer) ↔
      ¬ settings.NotesUnchecked file capabilities := by
  unfold regionType InspectSettings.NotesUnchecked
  cases isScript file.content with
  | true => simp
  | false =>
    cases settings.host.hostLayout file.content with
    | none => cases findTarget (targetCpuOf settings.sboxCpu) <;> simp
    | some layout =>
      rw [elim_some, elim_some]
      cases result : file.interp layout with
      | error fault =>
        cases MappedFile.interp_error result
        simp [Except.bind, result]
      | ok interp =>
        simp only [Except.bind, result, Option.some.injEq, Except.ok.injEq, true_and,
          exists_eq_left', exists_and_left, reduceCtorEq, false_and, false_or]
        generalize (interp.isSome || capabilities || settings.debug) = noted
        cases noted <;> simp

variable {file : InspectedFile settings.host} {checkXPermission : Bool}

theorem fileType_of_maps (maps : settings.Maps file checkXPermission) (withInfo : Bool) :
    settings.fileType file checkXPermission withInfo =
      settings.regionType file.mapped file.capabilities withInfo := by
  obtain ⟨status, isStatus, regular⟩ := maps.regular
  rw [fileType, maps.access, maps.opened, isStatus, maps.mapped,
    elim_none, elim_some, regular, if_neg (Nat.not_lt.2 maps.large)]
  rfl

theorem fileType_of_not_maps (unmapped : ¬ settings.Maps file checkXPermission) :
    settings.fileType file checkXPermission false = settings.fileType file checkXPermission true ∧
      settings.fileType file checkXPermission false ≠ .error .nullPointer := by
  unfold fileType
  cases access : settings.checkAccess file checkXPermission with
  | some denied => simp
  | none =>
    cases opened : file.canOpen with
    | false => simp
    | true =>
      cases isStatus : file.status with
      | none => simp
      | some status =>
        rw [elim_none, elim_none, elim_some, elim_some]
        cases regular : isRegOrLnk status.mode with
        | false => simp
        | true =>
          by_cases small : file.mapped.content.length < 4
          · simp [small]
          · cases mapped : file.mmapFails with
            | true => simp [small]
            | false =>
              exact (unmapped ⟨access, opened, ⟨status, isStatus, regular⟩, Nat.not_lt.1 small,
                mapped⟩).elim

end TypesAgree

/-- Without a structure for the results, the same is returned as with one, unless something is noted
about the file. -/
theorem types_agree_iff (settings : InspectSettings) (file : InspectedFile settings.host)
    (checkXPermission : Bool) (info : BinaryInfo) :
    settings.TypesAgree file checkXPermission info ↔
      ¬ (settings.Maps file checkXPermission ∧
        settings.NotesUnchecked file.mapped file.capabilities) := by
  have type := settings.type_inspectBinary file checkXPermission none
  have safe : settings.inspectBinary file checkXPermission none ≠ .error .nullPointer ↔
      settings.fileType file checkXPermission false ≠ .error .nullPointer := by
    rw [isSome_none] at type
    rw [← type]
    cases settings.inspectBinary file checkXPermission none <;> simp [Except.map]
  rw [InspectSettings.TypesAgree, safe, type, settings.type_inspectBinary, isSome_none,
    isSome_some]
  by_cases maps : settings.Maps file checkXPermission
  · rw [fileType_of_maps maps, fileType_of_maps maps, and_iff_right maps]
    exact regionType_agree_iff
  · exact iff_of_true (fileType_of_not_maps maps) fun h => maps h.1

/-- A text file is looked at, and the target CPU is noted without a check. -/
theorem text_needs_structure :
    pcSettings.inspectBinary (executableFile textFile) false none = .error .nullPointer ∧
      (pcSettings.inspectBinary (executableFile textFile) false (some {})).map InspectResult.type =
        .ok .unknown :=
  ⟨rfl, rfl⟩

end Scratchbox
