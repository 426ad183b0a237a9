import Scratchbox.ExecPostprocess

/-!
# `LD_LIBRARY_PATH` and `LD_PRELOAD` of a native program

The values are composed of what the exec policy puts in front, the value of the user, and what the
policy puts behind. The Lua code that came before the C functions used `join_paths`, which leaves
out the colon at an empty part. The C functions print a colon behind a prefix whenever the user's
variable is there. If nothing follows, the value ends with an empty element, which the dynamic
linker reads as the current directory: `library_path_composition_iff`.
-/

namespace Scratchbox

open Environ

/-! ## Elements -/

def pathElements (text : CStr) : List CStr := if text = [] then [] else text.splitOn ':'

def joinPaths (first second : CStr) : CStr :=
  if first = [] then second else if second = [] then first else first ++ ':' :: second

theorem pathElements_of_ne_nil {text : CStr} (nonempty : text ≠ []) :
    pathElements text = text.splitOn ':' :=
  if_neg nonempty

theorem pathElements_colon {first second : CStr} (nonempty : first ≠ []) :
    pathElements (first ++ ':' :: second) = pathElements first ++ second.splitOn ':' := by
  have joined : first ++ ':' :: second ≠ [] := by simp
  rw [pathElements_of_ne_nil joined, pathElements_of_ne_nil nonempty,
    List.splitOn_append_cons_self]

/-- The elements of the first path, and then those of the second one. -/
theorem pathElements_joinPaths (first second : CStr) :
    pathElements (joinPaths first second) = pathElements first ++ pathElements second := by
  unfold joinPaths
  split
  next empty => rw [empty]; rfl
  next nonempty =>
    split
    next empty => rw [empty]; exact (List.append_nil _).symm
    next nonempty' => rw [pathElements_colon nonempty, pathElements_of_ne_nil nonempty']

/-! ## Composition -/

def LeavesColon (valuePrefix valueSuffix libpath : Option CStr) : Prop :=
  valuePrefix.getD [] ≠ [] ∧ libpath = some [] ∧ valueSuffix.getD [] = []

/-- A policy that does not set the whole value, but something in front or behind: the elements of
the value are those of the three parts, and an empty element comes from one of them. -/
def ComposesPaths (var : String) (value valuePrefix valueSuffix libpath : Option CStr)
    (entry : CStr) : Prop :=
  value = none → valuePrefix.isSome ∨ valueSuffix.isSome →
    ∃ text, entry = entryOf var text ∧
      pathElements text = pathElements (valuePrefix.getD []) ++ pathElements (libpath.getD []) ++
        pathElements (valueSuffix.getD []) ∧
      ([] ∈ pathElements text → [] ∈ pathElements (valuePrefix.getD []) ∨
        [] ∈ pathElements (libpath.getD []) ∨ [] ∈ pathElements (valueSuffix.getD []))

section Composition

variable {var : String} {valuePrefix valueSuffix host libpath : Option CStr}

theorem setenvNativeAppLd_eq (extended : valuePrefix.isSome ∨ valueSuffix.isSome)
    (noColon : ¬ LeavesColon valuePrefix valueSuffix libpath) :
    setenvNativeAppLd var none valuePrefix valueSuffix host libpath =
      entryOf var (joinPaths (valuePrefix.getD [])
        (joinPaths (libpath.getD []) (valueSuffix.getD []))) := by
  unfold setenvNativeAppLd
  dsimp only
  rw [if_pos (Bool.or_eq_true_iff.2 extended)]
  congr 1
  unfold LeavesColon at noColon
  generalize valuePrefix.getD [] = before at noColon ⊢
  generalize valueSuffix.getD [] = after at noColon ⊢
  unfold joinPaths
  cases libpath with
  | none => cases before <;> cases after <;> simp
  | some libpath =>
    cases before <;> cases libpath <;> cases after <;> simp_all

theorem setenvNativeAppLd_colon (colon : LeavesColon valuePrefix valueSuffix libpath) :
    setenvNativeAppLd var none valuePrefix valueSuffix host libpath =
      entryOf var (valuePrefix.getD [] ++ [':']) := by
  obtain ⟨before, rfl, after⟩ := colon
  cases valuePrefix with
  | none => exact absurd rfl before
  | some text =>
    unfold setenvNativeAppLd
    dsimp only
    rw [after]
    simp_all

theorem entryOf_injective {text text' : CStr} (same : entryOf var text = entryOf var text') :
    text = text' :=
  (List.cons.inj (List.append_cancel_left same)).2

theorem composesPaths_iff (value : Option CStr) :
    ComposesPaths var value valuePrefix valueSuffix libpath
        (setenvNativeAppLd var value valuePrefix valueSuffix host libpath) ↔
      (value = none → ¬ LeavesColon valuePrefix valueSuffix libpath) := by
  constructor
  · rintro composes rfl colon
    have isSome : valuePrefix.isSome := by
      cases valuePrefix with
      | none => exact absurd rfl colon.1
      | some text => rfl
    obtain ⟨text, isText, elements, -⟩ := composes rfl (.inl isSome)
    rw [setenvNativeAppLd_colon colon] at isText
    obtain rfl := entryOf_injective isText
    obtain ⟨before, rfl, after⟩ := colon
    -- The element behind the colon is one too many.
    rw [pathElements_colon before, after] at elements
    have lengths := congrArg List.length elements
    simp [pathElements] at lengths
  · rintro noColon rfl extended
    refine ⟨_, setenvNativeAppLd_eq extended (noColon rfl), ?_, ?_⟩
    · rw [pathElements_joinPaths, pathElements_joinPaths, List.append_assoc]
    · intro empty
      rw [pathElements_joinPaths, pathElements_joinPaths] at empty
      simpa only [List.mem_append] using empty

end Composition

/-- Both variables are composed as they should be, exactly if neither of them has a prefix in front
of an empty value of the user and no suffix behind it. -/
theorem library_path_composition_iff (config : ExecConfig) (policy : ExecPolicy) (origEnv : Envp) :
    (ComposesPaths "LD_LIBRARY_PATH" policy.nativeAppLdLibraryPath
          policy.nativeAppLdLibraryPathPrefix policy.nativeAppLdLibraryPathSuffix
          (getenv origEnv "__SB2_LD_LIBRARY_PATH".toList)
          (nativeLdLibraryPath config policy origEnv) ∧
        ComposesPaths "LD_PRELOAD" policy.nativeAppLdPreload policy.nativeAppLdPreloadPrefix
          policy.nativeAppLdPreloadSuffix (getenv origEnv "__SB2_LD_PRELOAD".toList)
          (nativeLdPreload config policy origEnv)) ↔
      (policy.nativeAppLdLibraryPath = none →
          ¬ LeavesColon policy.nativeAppLdLibraryPathPrefix policy.nativeAppLdLibraryPathSuffix
            (getenv origEnv "__SB2_LD_LIBRARY_PATH".toList)) ∧
        (policy.nativeAppLdPreload = none →
          ¬ LeavesColon policy.nativeAppLdPreloadPrefix policy.nativeAppLdPreloadSuffix
            (getenv origEnv "__SB2_LD_PRELOAD".toList)) :=
  and_congr (composesPaths_iff _) (composesPaths_iff _)

theorem library_path_ends_with_colon :
    nativeLdLibraryPath ⟨fun _ => none, fun _ => {}, none, none⟩
        { nativeAppLdLibraryPathPrefix := some "/host/lib".toList }
        ["__SB2_LD_LIBRARY_PATH=".toList] = "LD_LIBRARY_PATH=/host/lib:".toList ∧
      pathElements "/host/lib:".toList = ["/host/lib".toList, []] :=
  ⟨rfl, by decide⟩

end Scratchbox
