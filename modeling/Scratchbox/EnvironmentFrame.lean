import Scratchbox.ExecPreprocess
import Scratchbox.UserEnvironment

/-!
# What `prepare_envp_for_do_exec` leaves alone

The new vector is built in two rounds over the old one: the first counts the entries and looks for a
few variables (`EnvpCount.foldl_eq`), the second copies what may stay (`EnvpCopy.filter_foldl`). The
session's own variables follow. `environment_frame`: the new vector is large enough, has the
session's variables once, and all other variables as they were.
-/

namespace Scratchbox

open Environ List EnvpCopy

/-! ## The first round -/

structure EnvpCount where
  envc : Nat := 0
  userLdPreload : Option CStr := none
  userLdLibraryPath : Option CStr := none
  hasSboxSigtrap : Bool := false

namespace EnvpCount

variable (process : ExecProcess)

/-- The tests for the variables of interest. -/
def look (count : EnvpCount) (entry : CStr) : EnvpCount :=
  if startsWith "LD_PRELOAD=" entry then
    { count with userLdPreload := some ("__SB2_".toList ++ entry) }
  else if startsWith "LD_LIBRARY_PATH=" entry then
    { count with userLdLibraryPath := some ("__SB2_".toList ++ entry) }
  else if startsWith "SBOX_SESSION_DIR=" entry then count
  else if process.sboxMappingMethod.isSome && startsWith "SBOX_MAPPING_METHOD=" entry then count
  else if startsWith "SBOX_SIGTRAP=" entry then { count with hasSboxSigtrap := true }
  else count

/-- One round: `continue` counts the entry as well. -/
def step (count : EnvpCount) (entry : CStr) : EnvpCount :=
  { count.look process entry with envc := count.envc + 1 }

end EnvpCount

theorem userVersion_concat (var : String) (envp : Envp) (entry : CStr) :
    userVersion var (envp ++ [entry]) =
      if startsWith var entry then some ("__SB2_".toList ++ entry) else userVersion var envp := by
  unfold userVersion
  rw [filter_append, filter_cons, filter_nil]
  split
  · rw [getLast?_concat, Option.map_some]
  · rw [append_nil]

variable {entry : CStr} (process : ExecProcess) (origFile binaryname : CStr) (envp : Envp)
  (copy : EnvpCopy) {name : CStr}

theorem strvecContains_concat (entry : CStr) (text : String) :
    strvecContains (envp ++ [entry]) text =
      (strvecContains envp text || startsWith text entry) := by
  unfold strvecContains
  rw [any_append, any_cons, any_nil, Bool.or_false]

/-- The counter, the user's versions of the variables for the dynamic linker, and whether there is
an entry for `SBOX_SIGTRAP`. -/
theorem EnvpCount.foldl_eq :
    envp.foldl (EnvpCount.step process) {} =
      ⟨envp.length, userVersion "LD_PRELOAD=" envp, userVersion "LD_LIBRARY_PATH=" envp,
        strvecContains envp "SBOX_SIGTRAP="⟩ := by
  -- The last entry counts, so the induction is from the end.
  induction envp using List.reverseRecOn with
  | nil => rfl
  | append_singleton envp entry ih =>
    rw [foldl_concat, ih, userVersion_concat, userVersion_concat, strvecContains_concat,
      length_append, length_singleton]
    unfold step look
    dsimp only
    split
    next preload =>
      rw [startsWith_of_apart rfl preload, startsWith_of_apart rfl preload, Bool.or_false]
      rfl
    split
    next libraryPath =>
      rw [startsWith_of_apart rfl libraryPath, Bool.or_false]
    split
    next dir =>
      rw [startsWith_of_apart rfl dir, Bool.or_false]
    split
    next method =>
      rw [startsWith_of_apart rfl (Bool.and_eq_true_iff.1 method).2, Bool.or_false]
    split
    next sigtrap => rw [sigtrap, Bool.or_true]
    next other => rw [Bool.not_eq_true] at other; rw [other, Bool.or_false]

/-! ## The second round -/

/-- For a set of entries that the loop copies, or does not copy, whatever came before. -/
theorem EnvpCopy.filter_foldl (select keeps : CStr → Bool)
    (acts : ∀ (copy : EnvpCopy) entry, select entry = true →
      (copy.step process entry).myEnvp = copy.myEnvp ++ [entry].filter keeps)
    (envp : Envp) (copy : EnvpCopy) :
    (envp.foldl (step process) copy).myEnvp.filter select =
      copy.myEnvp.filter select ++ (envp.filter select).filter keeps := by
  induction envp generalizing copy with
  | nil => rw [filter_nil, filter_nil, append_nil]; rfl
  | cons entry envp ih =>
    rw [foldl_cons, ih]
    cases selected : select entry with
    | true =>
      rw [acts copy entry selected, filter_append, filter_cons_of_pos selected,
        filter_cons, filter_cons, append_assoc]
      split
      · rw [filter_nil, filter_cons_of_pos selected, filter_nil]
        rfl
      · rw [filter_nil, filter_nil, nil_append]
    | false =>
      rw [filter_cons_of_neg (by rw [selected]; exact Bool.false_ne_true)]
      rcases copy.step_cases process entry with same | ⟨added, -⟩
      · rw [same]
      · rw [added, filter_append, filter_cons_of_neg
          (by rw [selected]; exact Bool.false_ne_true), filter_nil, append_nil]

/-- The variables that have nothing to do with the session. -/
def isOther (entry : CStr) : Bool :=
  ["__SB2_", "SBOX_SESSION_", "SBOX_VPERM_", "SBOX_MAPPING_METHOD", "LD_PRELOAD=",
    "LD_LIBRARY_PATH=", "NLSPATH=", "LOCPATH="].all fun text => !startsWith text entry

theorem isOther_iff :
    isOther entry = true ↔ isDropped entry = false ∧ startsWith "SBOX_SESSION_" entry = false ∧
      startsWith "SBOX_VPERM_" entry = false ∧ startsWith "SBOX_MAPPING_METHOD" entry = false := by
  unfold isOther isDropped
  simp only [all_cons, all_nil, Bool.and_true, Bool.and_eq_true, Bool.not_eq_true',
    Bool.or_eq_false_iff]
  constructor
  · rintro ⟨sb2, session, vperm, method, preload, libraryPath, nlspath, locpath⟩
    exact ⟨⟨⟨⟨⟨sb2, preload⟩, libraryPath⟩, nlspath⟩, locpath⟩, session, vperm, method⟩
  · rintro ⟨⟨⟨⟨⟨sb2, preload⟩, libraryPath⟩, nlspath⟩, locpath⟩, session, vperm, method⟩
    exact ⟨sb2, session, vperm, method, preload, libraryPath, nlspath, locpath⟩

theorem isOther_eq_false (text : String)
    (excluded : text ∈ ["__SB2_", "SBOX_SESSION_", "SBOX_VPERM_", "SBOX_MAPPING_METHOD",
      "LD_PRELOAD=", "LD_LIBRARY_PATH=", "NLSPATH=", "LOCPATH="])
    (starts : startsWith text entry = true) : isOther entry = false := by
  refine all_eq_false.2 ⟨text, excluded, ?_⟩
  rw [starts]
  exact Bool.false_ne_true

theorem value?_sessionMode_eq_none (noMode : startsWith "SBOX_SESSION_MODE=" entry = false) :
    value? sboxSessionModeVar entry = none := by
  have named : startsWith "SBOX_SESSION_MODE=" entry = (value? sboxSessionModeVar entry).isSome :=
    startsWith_eq rfl entry
  rw [named] at noMode
  exact Option.isSome_eq_false_iff.1 noMode |> Option.isNone_iff_eq_none.1

theorem EnvpCopy.step_other (other : isOther entry = true) :
    (copy.step process entry).myEnvp = copy.myEnvp ++ [entry] := by
  obtain ⟨kept, noSession, noVperm, noMethod⟩ := isOther_iff.1 other
  have noMode : value? sboxSessionModeVar entry = none :=
    value?_sessionMode_eq_none (startsWith_of_shorter rfl noSession)
  unfold step isSessionVar
  rw [kept, noMode]
  dsimp only
  rw [noSession, startsWith_of_shorter rfl noMethod, startsWith_of_shorter rfl noVperm,
    startsWith_of_shorter rfl noVperm, Bool.and_false]
  rfl

theorem EnvpCopy.step_sessionDir (dir : startsWith "SBOX_SESSION_DIR=" entry = true) :
    (copy.step process entry).myEnvp = copy.myEnvp := by
  have noMode : value? sboxSessionModeVar entry = none :=
    value?_sessionMode_eq_none (startsWith_of_apart rfl dir)
  have session : isSessionVar process entry = true := by
    unfold isSessionVar
    rw [startsWith_trans rfl dir, Bool.true_or]
  unfold step
  rw [noMode]
  dsimp only
  rw [session, if_pos rfl]
  split <;> rfl

/-! ## The variables for the library -/

def nameOf (entry : CStr) : CStr := entry.takeWhile (· ≠ '=')

theorem nameOf_entry (noEq : '=' ∉ name) (value : CStr) : nameOf (name ++ '=' :: value) = name := by
  unfold nameOf
  rw [takeWhile_append_of_pos
      (by simpa using fun c member => ne_of_mem_of_not_mem member noEq),
    takeWhile_cons_of_neg (by simp), append_nil]

theorem map_nameOf_userVersion {var : String} (named : var.toList = name ++ ['='])
    (noEq : '=' ∉ wrappedName name) (envp : Envp) :
    ((userVersion var envp).toList.map nameOf).Sublist [wrappedName name] := by
  cases found : userVersion var envp with
  | none => exact nil_sublist _
  | some version =>
    obtain ⟨entry, last, rfl⟩ := Option.map_eq_some_iff.1 found
    have starts := (mem_filter.1 (mem_of_getLast? last)).2
    rw [startsWith_eq named] at starts
    obtain ⟨value, isEntry⟩ := Option.isSome_iff_exists.1 starts
    rw [value?_eq_some_iff.1 isEntry, Option.toList_some, map_singleton, ← append_assoc]
    show [nameOf (wrappedName name ++ '=' :: value)].Sublist _
    rw [nameOf_entry noEq]

theorem ownEntries_names :
    ((ownEntries process origFile binaryname envp).map nameOf).Sublist
      ["__SB2_BINARYNAME".toList, "__SB2_ORIG_BINARYNAME".toList, "__SB2_EXEC_BINARYNAME".toList,
        "__SB2_REAL_BINARYNAME".toList, wrappedName ldPreloadVar, wrappedName ldLibraryPathVar,
        "__SB2_CHROOT_PATH".toList] := by
  have chroot : ((process.sboxChrootPath.map (entryOf "__SB2_CHROOT_PATH")).toList.map
      nameOf).Sublist ["__SB2_CHROOT_PATH".toList] := by
    cases process.sboxChrootPath with
    | none => exact nil_sublist _
    | some path => exact List.Sublist.refl _
  unfold ownEntries
  rw [map_append, map_append, map_append]
  exact (((List.Sublist.refl _).append (map_nameOf_userVersion rfl (by decide) envp)).append
    (map_nameOf_userVersion rfl (by decide) envp)).append chroot

/-! ## The new vector -/

/-- `my_envp[i++] = entry`, for one entry after the other. -/
def storeEntries (slots : Slots) (i : Nat) : List (Option CStr) → Except Fault Slots
  | [] => .ok slots
  | entry :: entries =>
    if slots.length ≤ i then .error .outOfBounds
    else storeEntries (slots.set i entry) (i + 1) entries

/-- The vector that `prepare_envp_for_do_exec` allocates, when all entries and the terminator have
been stored. -/
def storedEnvp (process : ExecProcess) (origFile binaryname : CStr) (envp : Envp) :
    Except Fault Slots :=
  let count := envp.foldl (EnvpCount.step process) {}
  storeEntries (List.replicate (count.envc + 15) none) 0
    (duplicateArgv (prepareEnvpForDoExec process origFile binaryname envp))

theorem storeEntries_append (stored : Slots) (entries : List (Option CStr)) (free : Slots)
    (fits : entries.length ≤ free.length) :
    storeEntries (stored ++ free) stored.length entries =
      .ok (stored ++ entries ++ free.drop entries.length) := by
  induction entries generalizing stored free with
  | nil => rw [storeEntries, append_nil]; rfl
  | cons entry entries ih =>
    cases free with
    | nil => cases fits
    | cons slot free =>
      have room : ¬ (stored ++ slot :: free).length ≤ stored.length := by
        rw [length_append, length_cons]
        omega
      have stored' : (stored ++ slot :: free).set stored.length entry =
          (stored ++ [entry]) ++ free := by
        rw [set_append_right _ _ (Nat.le_refl _), Nat.sub_self, set_cons_zero,
          append_assoc]
        rfl
      rw [storeEntries, if_neg room, stored']
      have rest := ih (stored ++ [entry]) free (Nat.le_of_succ_le_succ fits)
      rw [length_append, length_singleton] at rest
      rw [rest, append_assoc stored]
      rfl

theorem EnvpCopy.length_foldl :
    (envp.foldl (step process) copy).myEnvp.length ≤ copy.myEnvp.length + envp.length := by
  induction envp generalizing copy with
  | nil => exact Nat.le_refl _
  | cons entry envp ih =>
    have rest := ih (copy.step process entry)
    have one : (copy.step process entry).myEnvp.length ≤ copy.myEnvp.length + 1 := by
      rcases copy.step_cases process entry with same | ⟨added, -⟩
      · rw [same]
        exact Nat.le_succ _
      · rw [added, length_append, length_singleton]
    rw [foldl_cons, length_cons]
    omega

theorem length_addedEntries : (addedEntries process origFile binaryname envp copy).length ≤ 12 := by
  have one (text : Option CStr) : text.toList.length ≤ 1 := by
    cases text with
    | none => exact Nat.zero_le _
    | some text => exact Nat.le_refl _
  have oneUnless (condition : Bool) (text : Option CStr) :
      (if condition then [] else text.toList).length ≤ 1 := by
    split
    · exact Nat.zero_le _
    · exact one text
  have method := one (process.sboxMappingMethod.map (entryOf "SBOX_MAPPING_METHOD"))
  have mode := oneUnless copy.hasSboxSessionMode
    (process.sboxSessionMode.map (sboxSessionModeVar ++ '=' :: ·))
  have sigtrap := oneUnless (strvecContains envp "SBOX_SIGTRAP=")
    ((getenv process.environ "SBOX_SIGTRAP".toList).map (entryOf "SBOX_SIGTRAP"))
  have preload := one (userVersion "LD_PRELOAD=" envp)
  have libraryPath := one (userVersion "LD_LIBRARY_PATH=" envp)
  have chroot := one (process.sboxChrootPath.map (entryOf "__SB2_CHROOT_PATH"))
  unfold addedEntries sessionEntries ownEntries
  simp only [length_append, length_cons, length_nil]
  omega

theorem storedEnvp_eq :
    ∃ slots, storedEnvp process origFile binaryname envp = .ok slots ∧
      slots.strings = some (prepareEnvpForDoExec process origFile binaryname envp) := by
  have copied := length_foldl process envp {}
  have added := length_addedEntries process origFile binaryname envp
    (envp.foldl (step process) {})
  have fits : (duplicateArgv (prepareEnvpForDoExec process origFile binaryname envp)).length ≤
      (List.replicate (envp.length + 15) (none : Option CStr)).length := by
    unfold duplicateArgv prepareEnvpForDoExec
    simp only [length_append, length_map, length_singleton, length_replicate]
    have empty : ({} : EnvpCopy).myEnvp.length = 0 := rfl
    omega
  unfold storedEnvp
  rw [EnvpCount.foldl_eq]
  refine ⟨_, storeEntries_append [] _ _ fits, ?_⟩
  rw [nil_append, duplicateArgv, append_assoc]
  exact Slots.strings_terminated _ _

/-! ## The frame -/

theorem filter_sessionDir_prepareEnvp :
    (prepareEnvpForDoExec process origFile binaryname envp).filter
        (startsWith "SBOX_SESSION_DIR=") =
      [entryOf "SBOX_SESSION_DIR" process.sboxSessionDir] := by
  obtain ⟨copy, isCopy, prepared⟩ := prepareEnvp_eq process origFile binaryname envp
  have copied : copy.myEnvp.filter (startsWith "SBOX_SESSION_DIR=") = [] := by
    rw [isCopy, filter_foldl process _ (fun _ => false) fun copy entry dir => by
      rw [copy.step_sessionDir process dir]
      exact (append_nil _).symm]
    exact filter_false _
  have session : (sessionEntries process envp copy).filter (startsWith "SBOX_SESSION_DIR=") = [] :=
    filter_eq_nil_of_false (startsWith_sessionEntries (by decide))
  have own : (ownEntries process origFile binaryname envp).filter
      (startsWith "SBOX_SESSION_DIR=") = [] :=
    filter_eq_nil_of_false fun entry member =>
      startsWith_of_apart rfl (ownEntries_sb2 process origFile binaryname envp entry member)
  rw [prepared, filter_append, copied, filter_cons_of_pos rfl, filter_append,
    session, own]
  rfl

theorem noLd_prepareEnvp (member : entry ∈ prepareEnvpForDoExec process origFile binaryname envp) :
    startsWith "LD_PRELOAD=" entry = false ∧ startsWith "LD_LIBRARY_PATH=" entry = false := by
  obtain ⟨copy, isCopy, prepared⟩ := prepareEnvp_eq process origFile binaryname envp
  rw [prepared] at member
  simp only [mem_append, mem_cons] at member
  rcases member with copied | rfl | session | own
  · rw [isCopy] at copied
    have kept := foldl_notDropped process envp entry copied
    simp only [isDropped, Bool.or_eq_false_iff] at kept
    exact ⟨kept.1.1.1.2, kept.1.1.2⟩
  · exact ⟨rfl, rfl⟩
  · exact ⟨startsWith_sessionEntries (by decide) entry session,
      startsWith_sessionEntries (by decide) entry session⟩
  · have sb2 := ownEntries_sb2 process origFile binaryname envp entry own
    exact ⟨startsWith_of_apart rfl sb2, startsWith_of_apart rfl sb2⟩

/-- Of the variables that are added, only `SBOX_SIGTRAP` may be one that has nothing to do with the
session, and it is then not in the old environment. -/
theorem sessionEntries_other {copy : EnvpCopy} (member : entry ∈ sessionEntries process envp copy) :
    (envp.contains entry && isOther entry) = false := by
  rcases mem_sessionEntries member with method | mode | vperm | ⟨sigtrap, missing⟩
  · rw [isOther_eq_false "SBOX_MAPPING_METHOD" (by decide) (startsWith_trans rfl method),
      Bool.and_false]
  · rw [isOther_eq_false "SBOX_SESSION_" (by decide) (startsWith_trans rfl mode), Bool.and_false]
  · rw [isOther_eq_false "SBOX_VPERM_" (by decide) (startsWith_trans rfl vperm), Bool.and_false]
  · have notThere : envp.contains entry = false := by
      rw [Bool.eq_false_iff, Ne, contains_iff_mem]
      intro there
      have contains : strvecContains envp "SBOX_SIGTRAP=" = true :=
        any_eq_true.2 ⟨entry, there, sigtrap⟩
      rw [missing] at contains
      cases contains
    rw [notThere, Bool.false_and]

theorem filter_other_prepareEnvp :
    (prepareEnvpForDoExec process origFile binaryname envp).filter
        (fun entry => envp.contains entry && isOther entry) =
      envp.filter isOther := by
  obtain ⟨copy, isCopy, prepared⟩ := prepareEnvp_eq process origFile binaryname envp
  have copied : copy.myEnvp.filter isOther = envp.filter isOther := by
    rw [isCopy, filter_foldl process _ (fun _ => true) fun copy entry other =>
      copy.step_other process other]
    exact filter_true _
  have old : copy.myEnvp.filter (fun entry => envp.contains entry && isOther entry) =
      envp.filter isOther := by
    rw [← filter_filter, copied, filter_eq_self]
    intro entry member
    exact contains_iff_mem.2 (mem_filter.1 member).1
  have session : (sessionEntries process envp copy).filter
      (fun entry => envp.contains entry && isOther entry) = [] :=
    filter_eq_nil_of_false fun entry member => sessionEntries_other process envp member
  have own : (ownEntries process origFile binaryname envp).filter
      (fun entry => envp.contains entry && isOther entry) = [] := by
    refine filter_eq_nil_of_false fun entry member => ?_
    have sb2 := ownEntries_sb2 process origFile binaryname envp entry member
    rw [isOther_eq_false _ (by decide) sb2, Bool.and_false]
  have dir : isOther (entryOf "SBOX_SESSION_DIR" process.sboxSessionDir) = false := rfl
  rw [prepared, filter_append, old, filter_cons, dir, Bool.and_false,
    if_neg Bool.false_ne_true, filter_append, session, own, append_nil, append_nil]

/-- The new vector fits into its allocation. It has one entry for the session directory, none for
`LD_PRELOAD` and `LD_LIBRARY_PATH`, and those variables with `__SB2_` that are set here, each once.
All entries that have nothing to do with the session are there, as often and in the order in which
they were. -/
theorem environment_frame (process : ExecProcess) (origFile binaryname : CStr) (envp : Envp) :
    let myEnvp := prepareEnvpForDoExec process origFile binaryname envp
    (∃ slots, storedEnvp process origFile binaryname envp = .ok slots ∧
        slots.strings = some myEnvp) ∧
      myEnvp.filter (startsWith "SBOX_SESSION_DIR=") =
        [entryOf "SBOX_SESSION_DIR" process.sboxSessionDir] ∧
      (∀ entry ∈ myEnvp, startsWith "LD_PRELOAD=" entry = false ∧
        startsWith "LD_LIBRARY_PATH=" entry = false) ∧
      (myEnvp.filter (startsWith "__SB2_") = ownEntries process origFile binaryname envp ∧
        ((ownEntries process origFile binaryname envp).map nameOf).Nodup) ∧
      myEnvp.filter (fun entry => envp.contains entry && isOther entry) = envp.filter isOther := by
  refine ⟨storedEnvp_eq process origFile binaryname envp,
    filter_sessionDir_prepareEnvp process origFile binaryname envp,
    fun entry member => noLd_prepareEnvp process origFile binaryname envp member,
    ⟨filter_sb2_prepareEnvp process origFile binaryname envp, ?_⟩,
    filter_other_prepareEnvp process origFile binaryname envp⟩
  exact (ownEntries_names process origFile binaryname envp).nodup (by decide)

/-- An environment with a forged session directory, a library path, and one variable twice. -/
example :
    let myEnvp := prepareEnvpForDoExec accelProcess "/bin/ls".toList "ls".toList
      ["A=1".toList, "SBOX_SESSION_DIR=/x".toList, "LD_LIBRARY_PATH=/l".toList, "A=1".toList]
    myEnvp.length = 9 ∧ myEnvp.take 3 =
      ["A=1".toList, "A=1".toList, "SBOX_SESSION_DIR=/s".toList] := by
  decide

end Scratchbox
