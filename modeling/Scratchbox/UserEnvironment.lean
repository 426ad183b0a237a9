import Scratchbox.ExecPostprocess

/-!
# The user's environment across `exec`

The user's values of `LD_PRELOAD` and `LD_LIBRARY_PATH` are renamed before an exec
(`prepare_envp_for_do_exec`), joined with those of the exec policy for the start of the new program
(`exec_postprocess_native_executable`), and put back by the library in the new process
(`sb2_initialize_global_variables`). So a native program sees the variables of its caller, apart
from those that belong to the session (`user_environment_transparent`).
-/

namespace Scratchbox

open Environ List EnvpCopy

/-! ## Initialization of the library -/

def revertToUserVersionOfEnvVar (env : Envp) (realvarname wrappedname : CStr) : Envp :=
  match getenv env wrappedname with
  | some value => setenv env realvarname value
  | none => unsetenv env realvarname

def ldPreloadVar : CStr := "LD_PRELOAD".toList

def ldLibraryPathVar : CStr := "LD_LIBRARY_PATH".toList

def wrappedName (name : CStr) : CStr := "__SB2_".toList ++ name

/-- `sb2_initialize_global_variables`: what it changes in the environment. -/
def sb2InitializeGlobalVariables (env : Envp) : Envp :=
  if (getenv env "SBOX_SESSION_DIR".toList).isSome then
    revertToUserVersionOfEnvVar
      (revertToUserVersionOfEnvVar env ldPreloadVar (wrappedName ldPreloadVar))
      ldLibraryPathVar (wrappedName ldLibraryPathVar)
  else env

/-! ## Names -/

variable {name : CStr}

theorem startsWith_eq {text : String} (named : text.toList = name ++ ['='])
    (entry : CStr) : startsWith text entry = (value? name entry).isSome := by
  unfold startsWith value?
  rw [named]
  split
  next found => rw [found]; rfl
  next missing => rw [Bool.not_eq_true] at missing; rw [missing]; rfl

/-- The variables of the user: all but those of the session, and some that are set for the
libraries of the host. -/
structure IsUserVar (name : CStr) : Prop where
  noEq : '=' ∉ name
  noSbox : "SBOX_".toList.isPrefixOf name = false
  noSb2 : "__SB2_".toList.isPrefixOf name = false
  noLocpath : name ≠ "LOCPATH".toList
  noNlspath : name ≠ "NLSPATH".toList
  noGconvPath : name ≠ "GCONV_PATH".toList

theorem ldPreload_isUserVar : IsUserVar ldPreloadVar := by constructor <;> decide

theorem ldLibraryPath_isUserVar : IsUserVar ldLibraryPathVar := by constructor <;> decide

def NamesDistinct (envp : Envp) : Prop :=
  ∀ name, '=' ∉ name → (envp.filterMap (value? name)).length ≤ 1

theorem value?_eq_none_of_start {start : String} {entry : CStr} (noEq : '=' ∉ start.toList)
    (starts : startsWith start entry = true) (other : start.toList.isPrefixOf name = false) :
    value? name entry = none := by
  by_contra found
  obtain ⟨value, found⟩ := Option.ne_none_iff_exists'.1 found
  rw [value?_eq_some_iff.1 found, startsWith, isPrefixOf_entry noEq, other] at starts
  cases starts

/-! ## Reverting -/

section Revert

variable {env : Envp} {real wrapped : CStr}

theorem getenv_revert : getenv (revertToUserVersionOfEnvVar env real wrapped) real =
    getenv env wrapped := by
  unfold revertToUserVersionOfEnvVar
  split
  next value found => rw [getenv_setenv, found]
  next missing => rw [getenv_unsetenv, missing]

theorem getenv_revert_of_ne (noEq : '=' ∉ name) (noEq' : '=' ∉ real) (ne : real ≠ name) :
    getenv (revertToUserVersionOfEnvVar env real wrapped) name = getenv env name := by
  unfold revertToUserVersionOfEnvVar
  split
  · exact getenv_setenv_of_ne noEq noEq' ne
  · exact getenv_unsetenv_of_ne noEq noEq' ne

end Revert

/-- What the new program sees, if all user's versions are in its environment. -/
theorem getenv_initialized {env envp : Envp} (dir : (getenv env "SBOX_SESSION_DIR".toList).isSome)
    (preload : getenv env (wrappedName ldPreloadVar) = getenv envp ldPreloadVar)
    (libraryPath : getenv env (wrappedName ldLibraryPathVar) = getenv envp ldLibraryPathVar)
    (others : ∀ name, IsUserVar name → name ≠ ldPreloadVar → name ≠ ldLibraryPathVar →
      getenv env name = getenv envp name) (user : IsUserVar name) :
    getenv (sb2InitializeGlobalVariables env) name = getenv envp name := by
  have noPreload : '=' ∉ ldPreloadVar := ldPreload_isUserVar.noEq
  have noLibraryPath : '=' ∉ ldLibraryPathVar := ldLibraryPath_isUserVar.noEq
  unfold sb2InitializeGlobalVariables
  rw [if_pos dir]
  by_cases isLibraryPath : name = ldLibraryPathVar
  · rw [isLibraryPath, getenv_revert,
      getenv_revert_of_ne (by decide) noPreload (by decide), libraryPath]
  rw [getenv_revert_of_ne user.noEq noLibraryPath (Ne.symm isLibraryPath)]
  by_cases isPreload : name = ldPreloadVar
  · rw [isPreload, getenv_revert, preload]
  · rw [getenv_revert_of_ne user.noEq noPreload (Ne.symm isPreload),
      others name user isPreload isLibraryPath]

/-! ## The prepared environment -/

section Prepared

variable (process : ExecProcess) {value : Option CStr} {var : String} {envp : Envp}

theorem EnvpCopy.step_cases (copy : EnvpCopy) (entry : CStr) :
    (copy.step process entry).myEnvp = copy.myEnvp ∨
      (copy.step process entry).myEnvp = copy.myEnvp ++ [entry] ∧ isDropped entry = false := by
  unfold step
  split
  · exact .inl rfl
  next kept =>
    rw [Bool.not_eq_true] at kept
    split
    · unfold requestMode
      split
      · exact .inl rfl
      dsimp only
      split
      · exact .inr ⟨rfl, kept⟩
      · exact .inl rfl
    · split
      · exact .inl rfl
      split
      · exact .inl rfl
      split
      · exact .inl rfl
      · exact .inr ⟨rfl, kept⟩

theorem startsWith_of_shorter {text shorter : String} {entry : CStr}
    (first : startsWith shorter text.toList = true) (no : startsWith shorter entry = false) :
    startsWith text entry = false := by
  rw [Bool.eq_false_iff] at no ⊢
  exact fun starts => no (startsWith_trans first starts)

theorem EnvpCopy.step_user (copy : EnvpCopy) (user : IsUserVar name)
    (noPreload : name ≠ ldPreloadVar) (noLibraryPath : name ≠ ldLibraryPathVar) (value : CStr) :
    (copy.step process (name ++ '=' :: value)).myEnvp = copy.myEnvp ++ [name ++ '=' :: value] := by
  have other (var : CStr) {text : String} (named : text.toList = var ++ ['=']) (noEq : '=' ∉ var)
      (ne : name ≠ var) : startsWith text (name ++ '=' :: value) = false := by
    rw [startsWith_eq named, value?_of_ne noEq user.noEq ne, Option.isSome_none]
  have noSbox : startsWith "SBOX_" (name ++ '=' :: value) = false := by
    rw [startsWith, isPrefixOf_entry (by decide), user.noSbox]
  have noSb2 : startsWith "__SB2_" (name ++ '=' :: value) = false := by
    rw [startsWith, isPrefixOf_entry (by decide), user.noSb2]
  have kept : isDropped (name ++ '=' :: value) = false := by
    unfold isDropped
    rw [noSb2, other ldPreloadVar rfl (by decide) noPreload,
      other ldLibraryPathVar rfl (by decide) noLibraryPath,
      other "NLSPATH".toList rfl (by decide) user.noNlspath,
      other "LOCPATH".toList rfl (by decide) user.noLocpath]
    rfl
  have noMode : value? sboxSessionModeVar (name ++ '=' :: value) = none := by
    refine value?_of_ne (by decide) user.noEq ?_
    rintro rfl
    exact absurd user.noSbox (by decide)
  have noSession : isSessionVar process (name ++ '=' :: value) = false := by
    unfold isSessionVar
    rw [startsWith_of_shorter rfl noSbox, startsWith_of_shorter rfl noSbox, Bool.and_false,
      Bool.or_false]
  unfold step
  rw [kept, noMode]
  dsimp only
  rw [noSession, startsWith_of_shorter rfl noSbox, startsWith_of_shorter rfl noSbox]
  rfl

theorem EnvpCopy.getenv_foldl (user : IsUserVar name) (noPreload : name ≠ ldPreloadVar)
    (noLibraryPath : name ≠ ldLibraryPathVar) (envp : Envp) (copy : EnvpCopy) :
    getenv (envp.foldl (step process) copy).myEnvp name =
      (getenv copy.myEnvp name).or (getenv envp name) := by
  induction envp generalizing copy with
  | nil => exact (Option.or_none).symm
  | cons entry envp ih =>
    rw [foldl_cons, ih, getenv_cons, ← Option.or_assoc]
    congr 1
    cases named : value? name entry with
    | some value =>
      rw [value?_eq_some_iff.1 named, copy.step_user process user noPreload noLibraryPath,
        getenv_append, getenv_cons, value?_self, Option.some_or]
    | none =>
      rcases copy.step_cases process entry with same | ⟨added, -⟩
      · rw [same, Option.or_none]
      · rw [added, getenv_append, getenv_cons, named]
        rfl

theorem EnvpCopy.foldl_notDropped (envp : Envp) :
    ∀ entry ∈ (envp.foldl (step process) {}).myEnvp, isDropped entry = false := by
  have start : ∀ entry ∈ ({} : EnvpCopy).myEnvp, isDropped entry = false := by
    intro _ none
    cases none
  refine List.foldlRecOn envp (step process)
    (motive := fun copy => ∀ entry ∈ copy.myEnvp, isDropped entry = false) start ?_
  intro copy none entry _ kept member
  rcases copy.step_cases process entry with same | ⟨added, notDropped⟩
  · exact none kept (same ▸ member)
  · rw [added] at member
    rcases mem_append.1 member with old | new
    · exact none kept old
    · rw [mem_singleton.1 new, notDropped]

/-! ### The entries that are added -/

section Added

variable (origFile binaryname : CStr) (envp : Envp) (copy : EnvpCopy)

theorem ownEntries_sb2 :
    ∀ entry ∈ ownEntries process origFile binaryname envp, startsWith "__SB2_" entry = true := by
  have user (var : String) : ∀ entry ∈ (userVersion var envp).toList,
      startsWith "__SB2_" entry = true := by
    intro entry member
    obtain ⟨old, -, rfl⟩ := Option.map_eq_some_iff.1 (Option.mem_toList.1 member)
    exact startsWith_append _ _
  unfold ownEntries
  intro entry member
  simp only [mem_append] at member
  rcases member with ((fixed | preload) | libraryPath) | chroot
  · simp only [mem_cons, not_mem_nil, or_false] at fixed
    rcases fixed with rfl | rfl | rfl | rfl <;> rfl
  · exact user _ entry preload
  · exact user _ entry libraryPath
  · obtain ⟨path, -, rfl⟩ := Option.map_eq_some_iff.1 (Option.mem_toList.1 chroot)
    rfl

theorem mem_sessionEntries {process : ExecProcess} {envp : Envp} {copy : EnvpCopy} {entry : CStr}
    (member : entry ∈ sessionEntries process envp copy) :
    startsWith "SBOX_MAPPING_METHOD=" entry = true ∨
      startsWith "SBOX_SESSION_MODE=" entry = true ∨ startsWith "SBOX_VPERM_IDS=" entry = true ∨
      startsWith "SBOX_SIGTRAP=" entry = true ∧ strvecContains envp "SBOX_SIGTRAP=" = false := by
  obtain ⟨text, ids⟩ := vpermExport_eq_append process.idSource process.simulatedIds
    "SBOX_VPERM_IDS=".toList 0 0 0 copy.userVpermRequest
  unfold sessionEntries at member
  rw [ids] at member
  simp only [mem_append, mem_singleton] at member
  rcases member with ((method | mode) | vperm) | sigtrap
  · obtain ⟨value, -, rfl⟩ := Option.map_eq_some_iff.1 (Option.mem_toList.1 method)
    exact .inl rfl
  · split at mode
    · cases mode
    · obtain ⟨value, -, rfl⟩ := Option.map_eq_some_iff.1 (Option.mem_toList.1 mode)
      exact .inr (.inl rfl)
  · rw [vperm]
    exact .inr (.inr (.inl (startsWith_append _ _)))
  · split at sigtrap
    · cases sigtrap
    next missing =>
      obtain ⟨value, -, rfl⟩ := Option.map_eq_some_iff.1 (Option.mem_toList.1 sigtrap)
      exact .inr (.inr (.inr ⟨rfl, Bool.eq_false_iff.2 missing⟩))

theorem startsWith_sessionEntries {process : ExecProcess} {envp : Envp} {copy : EnvpCopy}
    {text : String}
    (apart : (["SBOX_MAPPING_METHOD=", "SBOX_SESSION_MODE=", "SBOX_VPERM_IDS=",
      "SBOX_SIGTRAP="].all fun own =>
        !(startsWith own text.toList || startsWith text own.toList)) = true) :
    ∀ entry ∈ sessionEntries process envp copy, startsWith text entry = false := by
  simp only [all_cons, all_nil, Bool.and_true, Bool.and_eq_true, Bool.not_eq_true']
    at apart
  obtain ⟨method, mode, vperm, sigtrap⟩ := apart
  intro entry member
  rcases mem_sessionEntries member with starts | starts | starts | ⟨starts, -⟩
  · exact startsWith_of_apart method starts
  · exact startsWith_of_apart mode starts
  · exact startsWith_of_apart vperm starts
  · exact startsWith_of_apart sigtrap starts

theorem addedEntries_session :
    ∀ entry ∈ addedEntries process origFile binaryname envp copy,
      startsWith "SBOX_" entry = true ∨ startsWith "__SB2_" entry = true := by
  intro entry member
  simp only [addedEntries, mem_cons, mem_append] at member
  rcases member with rfl | session | own
  · exact .inl rfl
  · rcases mem_sessionEntries session with starts | starts | starts | ⟨starts, -⟩ <;>
      exact .inl (startsWith_trans rfl starts)
  · exact .inr (ownEntries_sb2 process origFile binaryname envp entry own)

/-- The new vector: copies, the session directory, other variables of the session, and those for the
library. -/
theorem prepareEnvp_eq :
    ∃ copy : EnvpCopy, copy = envp.foldl (step process) {} ∧
      prepareEnvpForDoExec process origFile binaryname envp =
        copy.myEnvp ++ entryOf "SBOX_SESSION_DIR" process.sboxSessionDir ::
          (sessionEntries process envp copy ++ ownEntries process origFile binaryname envp) :=
  ⟨_, rfl, rfl⟩

theorem filter_eq_nil_of_false {select : CStr → Bool} {entries : Envp}
    (none : ∀ entry ∈ entries, select entry = false) : entries.filter select = [] :=
  filter_eq_nil_iff.2 fun entry member => Bool.eq_false_iff.1 (none entry member)

theorem filter_sb2_prepareEnvp :
    (prepareEnvpForDoExec process origFile binaryname envp).filter (startsWith "__SB2_") =
      ownEntries process origFile binaryname envp := by
  obtain ⟨copy, isCopy, prepared⟩ := prepareEnvp_eq process origFile binaryname envp
  have copied : copy.myEnvp.filter (startsWith "__SB2_") = [] := by
    refine filter_eq_nil_of_false fun entry member => ?_
    rw [isCopy] at member
    have kept := foldl_notDropped process envp entry member
    simp only [isDropped, Bool.or_eq_false_iff] at kept
    exact kept.1.1.1.1
  have session : (sessionEntries process envp copy).filter (startsWith "__SB2_") = [] :=
    filter_eq_nil_of_false (startsWith_sessionEntries (by decide))
  rw [prepared, filter_append, copied, filter_cons_of_neg Bool.false_ne_true,
    filter_append, session,
    filter_eq_self.2 (ownEntries_sb2 process origFile binaryname envp)]
  rfl

end Added

theorem getenv_prepareEnvp (user : IsUserVar name) (noPreload : name ≠ ldPreloadVar)
    (noLibraryPath : name ≠ ldLibraryPathVar) (origFile binaryname : CStr) (envp : Envp) :
    getenv (prepareEnvpForDoExec process origFile binaryname envp) name = getenv envp name := by
  have added (copy : EnvpCopy) :
      getenv (addedEntries process origFile binaryname envp copy) name = none := by
    rw [getenv_eq_none_iff]
    intro entry member
    rcases addedEntries_session process origFile binaryname envp copy entry member with sbox | sb2
    · exact value?_eq_none_of_start (by decide) sbox user.noSbox
    · exact value?_eq_none_of_start (by decide) sb2 user.noSb2
  unfold prepareEnvpForDoExec
  dsimp only
  rw [getenv_append, getenv_foldl process user noPreload noLibraryPath, added,
    Option.or_none]
  rfl

theorem filter_startsWith (named : var.toList = name ++ ['=']) (envp : Envp) :
    envp.filter (startsWith var) = (envp.filterMap (value? name)).map (name ++ '=' :: ·) := by
  induction envp with
  | nil => rfl
  | cons entry envp ih =>
    rw [filter_cons, filterMap_cons, startsWith_eq named, ih]
    cases found : value? name entry with
    | none => rfl
    | some value =>
      rw [value?_eq_some_iff.1 found]
      rfl

theorem userVersion_eq (named : var.toList = name ++ ['=']) (noEq : '=' ∉ name)
    (distinct : NamesDistinct envp) :
    userVersion var envp = (getenv envp name).map (wrappedName name ++ '=' :: ·) := by
  have single := distinct name noEq
  unfold userVersion getenv
  rw [filter_startsWith named, ← head?_filterMap]
  cases values : envp.filterMap (value? name) with
  | nil => rfl
  | cons value rest =>
    rw [values, length_cons] at single
    obtain rfl : rest = [] := length_eq_zero_iff.1 (by omega)
    show some ("__SB2_".toList ++ (name ++ '=' :: value)) =
      some ("__SB2_".toList ++ name ++ '=' :: value)
    rw [append_assoc]

theorem getenv_map : getenv (value.map (name ++ '=' :: ·)).toList name = value := by
  cases value with
  | none => rfl
  | some value =>
    rw [Option.map_some, Option.toList_some, getenv_cons, value?_self, Option.some_or]

theorem getenv_map_other {make : CStr → CStr} (other : ∀ value, value? name (make value) = none) :
    getenv (value.map make).toList name = none := by
  rw [getenv, ← head?_filterMap, filterMap_map_toList other, head?_nil]

theorem startsWith_wrappedName (name rest : CStr) :
    startsWith "__SB2_" (wrappedName name ++ rest) = true := by
  have assoc : wrappedName name ++ rest = "__SB2_".toList ++ (name ++ rest) :=
    append_assoc "__SB2_".toList name rest
  rw [assoc]
  exact startsWith_append "__SB2_" (name ++ rest)

/-- A variable that starts with `__SB2_` is one of those that are set here. -/
theorem getenv_prepareEnvp_sb2 (name origFile binaryname : CStr) (envp : Envp) :
    getenv (prepareEnvpForDoExec process origFile binaryname envp) (wrappedName name) =
      getenv (ownEntries process origFile binaryname envp) (wrappedName name) := by
  rw [← filter_sb2_prepareEnvp]
  refine (getenv_filter fun entry _ found => ?_).symm
  obtain ⟨value, found⟩ := Option.isSome_iff_exists.1 found
  rw [value?_eq_some_iff.1 found, startsWith_wrappedName]

theorem getenv_ownEntries {wrapped : CStr} (isWrapped : wrapped = wrappedName ldPreloadVar ∨
      wrapped = wrappedName ldLibraryPathVar) (origFile binaryname : CStr) (envp : Envp) :
    getenv (ownEntries process origFile binaryname envp) wrapped =
      (getenv (userVersion "LD_PRELOAD=" envp).toList wrapped).or
        (getenv (userVersion "LD_LIBRARY_PATH=" envp).toList wrapped) := by
  have fixed : getenv [entryOf "__SB2_BINARYNAME" binaryname,
      entryOf "__SB2_ORIG_BINARYNAME" origFile, entryOf "__SB2_EXEC_BINARYNAME" origFile,
      entryOf "__SB2_REAL_BINARYNAME" []] wrapped = none := by
    rcases isWrapped with rfl | rfl <;> rfl
  have chroot : getenv (process.sboxChrootPath.map (entryOf "__SB2_CHROOT_PATH")).toList wrapped =
      none :=
    getenv_map_other fun _ => by rcases isWrapped with rfl | rfl <;> rfl
  unfold ownEntries
  rw [getenv_append, getenv_append, getenv_append, fixed, chroot, Option.none_or, Option.or_none]

theorem getenv_prepareEnvp_wrapped (distinct : NamesDistinct envp) (origFile binaryname : CStr) :
    getenv (prepareEnvpForDoExec process origFile binaryname envp) (wrappedName ldPreloadVar) =
        getenv envp ldPreloadVar ∧
      getenv (prepareEnvpForDoExec process origFile binaryname envp)
          (wrappedName ldLibraryPathVar) = getenv envp ldLibraryPathVar := by
  have preload : userVersion "LD_PRELOAD=" envp =
      (getenv envp ldPreloadVar).map (wrappedName ldPreloadVar ++ '=' :: ·) :=
    userVersion_eq rfl (by decide) distinct
  have libraryPath : userVersion "LD_LIBRARY_PATH=" envp =
      (getenv envp ldLibraryPathVar).map (wrappedName ldLibraryPathVar ++ '=' :: ·) :=
    userVersion_eq rfl (by decide) distinct
  constructor
  · rw [getenv_prepareEnvp_sb2, getenv_ownEntries process (.inl rfl), preload, libraryPath,
      getenv_map, getenv_map_other fun _ => rfl, Option.or_none]
  · rw [getenv_prepareEnvp_sb2, getenv_ownEntries process (.inr rfl), preload, libraryPath,
      getenv_map, getenv_map_other fun _ => rfl, Option.none_or]

end Prepared

/-! ## The environment of a native program -/

section Native

variable {config : ExecConfig} {policy : ExecPolicy} {execPolicyName : CStr} {origEnv : Envp}
  {text : String} {entry : CStr}

/-- The environment that `exec_postprocess_native_executable` makes. -/
def nativeEnvp (config : ExecConfig) (policy : ExecPolicy) (execPolicyName : CStr)
    (origEnv : Envp) : Envp :=
  entryOf "__SB2_EXEC_POLICY_NAME" execPolicyName :: nativeEntries config policy origEnv

theorem startsWith_of_strvecContains (isLd : text = "LD_PRELOAD=" ∨ text = "LD_LIBRARY_PATH=")
    (found : strvecContains (nativeEnvp config policy execPolicyName origEnv) text = true) :
    startsWith text (nativeLdLibraryPath config policy origEnv) = true ∨
      startsWith text (nativeLdPreload config policy origEnv) = true := by
  obtain ⟨entry, member, starts⟩ := any_eq_true.1 found
  unfold nativeEnvp nativeEntries at member
  simp only [mem_cons, mem_append, not_mem_nil, or_false] at member
  rcases member with rfl | (((rfl | rfl) | locale) | gconv) | kept
  · rcases isLd with rfl | rfl <;> cases starts
  · exact .inl starts
  · exact .inr starts
  · unfold localeEntries at locale
    split at locale
    · simp only [mem_cons, not_mem_nil, or_false] at locale
      rcases locale with rfl | rfl <;> rcases isLd with rfl | rfl <;> cases starts
    · cases locale
  · obtain ⟨path, -, rfl⟩ := Option.map_eq_some_iff.1 (Option.mem_toList.1 gconv)
    rcases isLd with rfl | rfl <;> cases starts
  · have dropped := (mem_filter.1 kept).2
    rw [Bool.not_eq_true', Bool.or_eq_false_iff] at dropped
    rcases isLd with rfl | rfl
    · rw [dropped.2] at starts
      cases starts
    · rw [dropped.1] at starts
      cases starts

def IsLdEntry (entry : CStr) : Prop :=
  ∃ value, entry = ldPreloadVar ++ '=' :: value ∨ entry = ldLibraryPathVar ++ '=' :: value

theorem IsLdEntry.value? (isLd : IsLdEntry entry) (noEq : '=' ∉ name)
    (noPreload : name ≠ ldPreloadVar) (noLibraryPath : name ≠ ldLibraryPathVar) :
    Environ.value? name entry = none := by
  obtain ⟨value, rfl | rfl⟩ := isLd
  · exact value?_of_ne noEq (by decide) noPreload.symm
  · exact value?_of_ne noEq (by decide) noLibraryPath.symm

theorem startsWith_var {var : CStr} (named : text.toList = var ++ ['='])
    (starts : startsWith text entry = true) : ∃ value, entry = var ++ '=' :: value := by
  rw [startsWith_eq named] at starts
  obtain ⟨value, found⟩ := Option.isSome_iff_exists.1 starts
  exact ⟨value, value?_eq_some_iff.1 found⟩

theorem isLdEntry_of_check
    (checked : checkEnvpHasLdPreloadAndLdLibraryPath
      (nativeEnvp config policy execPolicyName origEnv) = true) :
    IsLdEntry (nativeLdLibraryPath config policy origEnv) ∧
      IsLdEntry (nativeLdPreload config policy origEnv) := by
  obtain ⟨preload, libraryPath⟩ := Bool.and_eq_true_iff.1 checked
  have isPreload {entry : CStr} (starts : startsWith "LD_PRELOAD=" entry = true) :
      ∃ value, entry = ldPreloadVar ++ '=' :: value := startsWith_var rfl starts
  have isLibraryPath {entry : CStr} (starts : startsWith "LD_LIBRARY_PATH=" entry = true) :
      ∃ value, entry = ldLibraryPathVar ++ '=' :: value := startsWith_var rfl starts
  -- One entry does not start with both names.
  have notBoth {entry : CStr} (first : startsWith "LD_PRELOAD=" entry = true)
      (second : startsWith "LD_LIBRARY_PATH=" entry = true) : False := by
    rw [startsWith_of_apart rfl first] at second
    cases second
  rcases startsWith_of_strvecContains (.inl rfl) preload with first | first <;>
    rcases startsWith_of_strvecContains (.inr rfl) libraryPath with second | second
  · exact (notBoth first second).elim
  · exact ⟨(isPreload first).imp fun _ => .inl, (isLibraryPath second).imp fun _ => .inr⟩
  · exact ⟨(isLibraryPath second).imp fun _ => .inr, (isPreload first).imp fun _ => .inl⟩
  · exact (notBoth first second).elim

theorem getenv_nativeEnvp (checked : checkEnvpHasLdPreloadAndLdLibraryPath
      (nativeEnvp config policy execPolicyName origEnv) = true) (noEq : '=' ∉ name)
    (noPreload : name ≠ ldPreloadVar) (noLibraryPath : name ≠ ldLibraryPathVar)
    (noPolicyName : name ≠ "__SB2_EXEC_POLICY_NAME".toList) (noLocpath : name ≠ "LOCPATH".toList)
    (noNlspath : name ≠ "NLSPATH".toList) (noGconvPath : name ≠ "GCONV_PATH".toList) :
    getenv (nativeEnvp config policy execPolicyName origEnv) name = getenv origEnv name := by
  obtain ⟨libraryPath, preload⟩ := isLdEntry_of_check checked
  have policyName : value? name (entryOf "__SB2_EXEC_POLICY_NAME" execPolicyName) = none :=
    value?_of_ne noEq (by decide) noPolicyName.symm
  have ld : getenv [nativeLdLibraryPath config policy origEnv,
      nativeLdPreload config policy origEnv] name = none := by
    rw [getenv_cons, getenv_cons, libraryPath.value? noEq noPreload noLibraryPath,
      preload.value? noEq noPreload noLibraryPath]
    rfl
  have locale : getenv (localeEntries policy) name = none := by
    unfold localeEntries
    split
    next path _ =>
      have locpath : value? name (entryOf "LOCPATH" path) = none :=
        value?_of_ne noEq (by decide) noLocpath.symm
      have nlspath : value? name (entryOf "NLSPATH" path) = none :=
        value?_of_ne noEq (by decide) noNlspath.symm
      rw [getenv_cons, getenv_cons, locpath, nlspath]
      rfl
    · rfl
  have gconv : getenv (policy.nativeAppGconvPath.map (entryOf "GCONV_PATH")).toList name = none :=
    getenv_map_other fun path => value?_of_ne noEq (by decide) noGconvPath.symm
  have kept : getenv (nativeKept origEnv) name = getenv origEnv name := by
    refine getenv_filter fun entry _ found => ?_
    obtain ⟨value, found⟩ := Option.isSome_iff_exists.1 found
    have noLd {text : String} {var : CStr} (named : text.toList = var ++ ['=']) (noEq' : '=' ∉ var)
        (ne : name ≠ var) : startsWith text entry = false := by
      rw [value?_eq_some_iff.1 found, startsWith_eq named, value?_of_ne noEq' noEq ne,
        Option.isSome_none]
    have noLib : startsWith "LD_LIBRARY_PATH=" entry = false := noLd rfl (by decide) noLibraryPath
    have noPre : startsWith "LD_PRELOAD=" entry = false := noLd rfl (by decide) noPreload
    rw [noLib, noPre]
    rfl
  unfold nativeEnvp nativeEntries
  rw [getenv_cons, policyName, Option.none_or, getenv_append, getenv_append, getenv_append, ld,
    locale, gconv, kept]
  rfl

end Native

/-- A native program that is started sees the user's variables as its caller has passed them. -/
theorem user_environment_transparent (process : ExecProcess) (config : ExecConfig)
    (origFile binaryname execPolicyName mappedFile : CStr) (info : BinaryInfo) (argv : List CStr)
    (envp : Envp) (distinct : NamesDistinct envp) (post : Postprocessed)
    (processed : execPostprocessNativeExecutable config execPolicyName mappedFile info argv
      (prepareEnvpForDoExec process origFile binaryname envp) = .ok post)
    (checked : checkEnvpHasLdPreloadAndLdLibraryPath post.envp = true)
    (name : CStr) (user : IsUserVar name) :
    getenv (sb2InitializeGlobalVariables post.envp) name = getenv envp name := by
  obtain ⟨policy, -, native⟩ := envp_of_native_ok processed
  replace native : post.envp = nativeEnvp config policy execPolicyName
    (prepareEnvpForDoExec process origFile binaryname envp) := native
  rw [native] at checked ⊢
  obtain ⟨preload, libraryPath⟩ := getenv_prepareEnvp_wrapped process distinct origFile binaryname
  refine getenv_initialized ?_ ?_ ?_ ?_ user
  · rw [getenv_nativeEnvp checked (by decide) (by decide) (by decide) (by decide) (by decide)
      (by decide) (by decide), Option.isSome_iff_ne_none, Ne, getenv_eq_none_iff]
    intro missing
    have found := missing _ (mem_prepareEnvp process origFile binaryname envp).1
    rw [entryOf, value?_self] at found
    cases found
  · rw [getenv_nativeEnvp checked (by decide) (by decide) (by decide) (by decide) (by decide)
      (by decide) (by decide), preload]
  · rw [getenv_nativeEnvp checked (by decide) (by decide) (by decide) (by decide) (by decide)
      (by decide) (by decide), libraryPath]
  · intro other user noPreload noLibraryPath
    have noPolicyName : other ≠ "__SB2_EXEC_POLICY_NAME".toList := by
      rintro rfl
      exact absurd user.noSb2 (by decide)
    rw [getenv_nativeEnvp checked user.noEq noPreload noLibraryPath noPolicyName user.noLocpath
      user.noNlspath user.noGconvPath,
      getenv_prepareEnvp process user noPreload noLibraryPath]

/-- The caller's `LD_PRELOAD` is seen by the new program. -/
theorem ld_preload_passed :
    let envp := [entryOf "LD_PRELOAD" "libx.so".toList]
    ∃ post, execPostprocessNativeExecutable oldQemuConfig "Host".toList "/bin/ls".toList {}
        ["ls".toList] (prepareEnvpForDoExec accelProcess "/bin/ls".toList "ls".toList envp) =
          .ok post ∧
      getenv (sb2InitializeGlobalVariables post.envp) ldPreloadVar = getenv envp ldPreloadVar := by
  intro envp
  have defined : oldQemuConfig.findExecPolicy "Host".toList = some {} := rfl
  have started : ∃ post, execPostprocessNativeExecutable oldQemuConfig "Host".toList
      "/bin/ls".toList {} ["ls".toList]
      (prepareEnvpForDoExec accelProcess "/bin/ls".toList "ls".toList envp) = .ok post ∧
      checkEnvpHasLdPreloadAndLdLibraryPath post.envp = true :=
    ⟨_, execPostprocessNativeExecutable_eq defined _ _ _ _ _, rfl⟩
  obtain ⟨post, processed, checked⟩ := started
  refine ⟨post, processed, ?_⟩
  exact user_environment_transparent accelProcess oldQemuConfig _ _ _ _ _ _ envp
    (fun _ _ => length_filterMap_le _ _) post processed checked ldPreloadVar
    ldPreload_isUserVar

end Scratchbox
