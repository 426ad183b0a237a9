import Scratchbox.PrepareExec

/-!
# Searching `PATH`

`execgates.c`: `execvp` and `posix_spawnp` look for a file in the directories of `PATH`, start it,
and start a shell if the file can not be executed.

* The search finds the first candidate that is accessible (`searchPath_spec`). If there is none, the
  error of the caller is only set to `EACCES`, and never to `ENOENT`: `execvp_search_iff`.
* `posix_spawn` reports an error by its return value, but the decision about the shell is made with
  `errno`: `spawnp_once_iff`.
-/

namespace Scratchbox

open List

def Errno.EACCES : Errno := ⟨13, by decide⟩

/-! ## The search -/

/-- The file in a directory of `PATH`. An empty element is the current directory. -/
def candidate (file dir : CStr) : CStr := if dir = [] then file else dir ++ '/' :: file

/-- The loop of `search_path`: `dir` is the element up to the place that has been reached. The
result is the file, or the errno. -/
def searchPath (access : CStr → Option Errno) (file : CStr) :
    (dir : CStr) → (gotEacces : Bool) → (path : CStr) → Except Errno CStr
  | dir, gotEacces, [] =>
    match access (candidate file dir) with
    | none => .ok (candidate file dir)
    | some errno => .error (if gotEacces then .EACCES else errno)
  | dir, gotEacces, c :: path =>
    if c = ':' then
      match access (candidate file dir) with
      | none => .ok (candidate file dir)
      | some errno => searchPath access file [] (gotEacces || errno = .EACCES) path
    else searchPath access file (dir ++ [c]) gotEacces path

def candidates (file path : CStr) : List CStr := (path.splitOn ':').map (candidate file)

variable {dir : CStr}

theorem candidates_of_notMem (noColon : ':' ∉ dir) (file : CStr) :
    candidates file dir = [candidate file dir] := by
  rw [candidates, splitOn_eq_singleton noColon, map_singleton]

theorem candidates_colon (noColon : ':' ∉ dir) (file path : CStr) :
    candidates file (dir ++ ':' :: path) = candidate file dir :: candidates file path := by
  have first := candidates_of_notMem noColon file
  unfold candidates at first ⊢
  rw [splitOn_append_cons_self, map_append, first, singleton_append]

/-- The first accessible candidate is found; if there is none, the errno is `EACCES` if one of the
candidates is not permitted. -/
theorem searchPath_spec (access : CStr → Option Errno) (file path : CStr) (noColon : ':' ∉ dir)
    (gotEacces : Bool) :
    (∀ startp, (candidates file (dir ++ path)).find? (fun c => access c = none) = some startp →
      searchPath access file dir gotEacces path = .ok startp) ∧
    ((candidates file (dir ++ path)).find? (fun c => access c = none) = none →
      ∃ errno, searchPath access file dir gotEacces path = .error errno ∧
        (errno = .EACCES ↔ gotEacces = true ∨
          ∃ c ∈ candidates file (dir ++ path), access c = some .EACCES)) := by
  induction path generalizing dir gotEacces with
  | nil =>
    rw [append_nil, candidates_of_notMem noColon, searchPath]
    cases tried : access (candidate file dir) <;> cases gotEacces <;> simp [tried]
  | cons c path ih =>
    rw [searchPath]
    split
    next isColon =>
      rw [isColon, candidates_colon noColon]
      cases tried : access (candidate file dir) with
      | none => simp [tried]
      | some errno =>
        have rest := ih not_mem_nil (gotEacces || errno = .EACCES)
        simp only [nil_append, Bool.or_eq_true, decide_eq_true_eq, or_assoc] at rest
        simpa [tried] using rest
    next other =>
      have noColon' : ':' ∉ dir ++ [c] := by simp [noColon, Ne.symm other]
      rw [append_cons]
      exact ih noColon' gotEacces

/-! ## Attempts -/

/-- An attempt to start a program: the errno of its failure, unless the program is started, and the
errno for the caller. An errno may be `0`. -/
structure Attempt where
  file : CStr
  argv : List CStr
  failed : Option (Option Errno)
  resultErrno : Option Errno

structure SearchContext where
  pathenv : Option CStr
  /-- `confstr(_CS_PATH, ..)`. -/
  confstr : CStr
  access : CStr → Option Errno

def SearchContext.path (context : SearchContext) : CStr :=
  context.pathenv.getD (':' :: context.confstr)

def createArgvForScriptExec (file : CStr) (argv : List CStr) : List CStr :=
  "/bin/sh".toList :: file :: argv.drop 1

/-- An attempt, and a second one with the shell if the errno is `ENOEXEC`. -/
def tryFile (start : CStr → List CStr → Option Errno → Attempt) (file : CStr) (argv : List CStr)
    (resultErrno : Option Errno) : List Attempt :=
  let first := start file argv resultErrno
  if first.resultErrno = some .ENOEXEC then
    [first, start "/bin/sh".toList (createArgvForScriptExec file argv) first.resultErrno]
  else [first]

/-- The common body of `do_execvep` and `do_posix_spawnp`: the attempts, and the errno. -/
def startInPath (start : CStr → List CStr → Option Errno → Attempt) (context : SearchContext)
    (resultErrno : Option Errno) (file : CStr) (argv : List CStr) :
    List Attempt × Option Errno :=
  let run (file : CStr) :=
    let attempts := tryFile start file argv resultErrno
    (attempts, attempts.getLast?.bind Attempt.resultErrno)
  if file = [] then ([], some .ENOENT)
  else if '/' ∈ file then run file
  else
    match searchPath context.access file [] false context.path with
    | .ok startp => run startp
    | .error errno => ([], if errno = .EACCES then some .EACCES else resultErrno)

/-- `execve_gate`. It does not return if the program is started. -/
def execveGate (execve : CStr → List CStr → Option (Option Errno)) (file : CStr)
    (argv : List CStr) (_ : Option Errno) : Attempt :=
  ⟨file, argv, execve file argv, (execve file argv).join⟩

def doExecvep (execve : CStr → List CStr → Option (Option Errno)) :=
  startInPath (execveGate execve)

/-- How starting a child may go: what `prepare_exec` refuses, the return value of the real function,
and what it does to `errno`. -/
structure SpawnCalls where
  prepare : CStr → List CStr → Option (Option Errno)
  realSpawn : CStr → List CStr → Option Errno
  errnoAfter : CStr → List CStr → Option Errno → Option Errno

/-- `do_posix_spawn`, which restores the errno before the real call and returns it afterwards. -/
def SpawnCalls.spawn (calls : SpawnCalls) (file : CStr) (argv : List CStr)
    (resultErrno : Option Errno) : Attempt :=
  match calls.prepare file argv with
  | some errno => ⟨file, argv, some errno, errno⟩
  | none =>
    ⟨file, argv, (calls.realSpawn file argv).map some, calls.errnoAfter file argv resultErrno⟩

def doPosixSpawnp (calls : SpawnCalls) := startInPath calls.spawn

/-! ## `execvp` -/

/-- The first accessible candidate is tried. Without one nothing is tried, and the error is `EACCES`
or `ENOENT`. -/
structure SearchLaw (context : SearchContext) (file : CStr) (argv : List CStr)
    (result : List Attempt × Option Errno) : Prop where
  found : ∀ startp,
    (candidates file context.path).find? (fun c => context.access c = none) = some startp →
    ∃ attempt more, result.1 = attempt :: more ∧ attempt.file = startp ∧ attempt.argv = argv
  missing : (candidates file context.path).find? (fun c => context.access c = none) = none →
    result.1 = [] ∧ ((∃ c ∈ candidates file context.path, context.access c = some .EACCES) →
      result.2 = some .EACCES) ∧
    ((∀ c ∈ candidates file context.path, context.access c ≠ some .EACCES) →
      result.2 = some .ENOENT)

theorem tryFile_eq (start : CStr → List CStr → Option Errno → Attempt) (file : CStr)
    (argv : List CStr) (resultErrno : Option Errno) :
    ∃ more, tryFile start file argv resultErrno = start file argv resultErrno :: more := by
  unfold tryFile
  dsimp only
  split
  · exact ⟨_, rfl⟩
  · exact ⟨[], rfl⟩

/-- Some candidate is accessible, or not permitted. -/
def SearchContext.Decides (context : SearchContext) (file : CStr) : Prop :=
  ∃ c ∈ candidates file context.path, context.access c = none ∨ context.access c = some .EACCES

theorem SearchContext.searchLaw_of_nil {context : SearchContext} {file : CStr} {argv : List CStr}
    {errno : Option Errno} :
    SearchLaw context file argv ([], errno) ↔
      (∀ c ∈ candidates file context.path, context.access c ≠ none) ∧
        ((∃ c ∈ candidates file context.path, context.access c = some .EACCES) →
          errno = some .EACCES) ∧
        ((∀ c ∈ candidates file context.path, context.access c ≠ some .EACCES) →
          errno = some .ENOENT) := by
  cases search : (candidates file context.path).find? fun c => context.access c = none with
  | some startp =>
    refine iff_of_false (fun law => ?_) fun law => ?_
    · obtain ⟨_, _, nothing, -⟩ := law.found startp search
      cases nothing
    · have accessible := find?_some search
      exact law.1 startp (mem_of_find?_eq_some search) (of_decide_eq_true accessible)
  | none =>
    have inaccessible : ∀ c ∈ candidates file context.path, context.access c ≠ none :=
      fun c member => by simpa using find?_eq_none.1 search c member
    refine ⟨fun law => ⟨inaccessible, (law.missing search).2⟩, fun law => ⟨fun _ same => ?_,
      fun _ => ⟨rfl, law.2⟩⟩⟩
    rw [search] at same
    cases same

/-- `execvp` searches as it should, exactly if there is a candidate that is accessible or not
permitted, or the errno was `ENOENT` already. For an empty name it is the other way round. -/
theorem execvp_search_iff (execve : CStr → List CStr → Option (Option Errno))
    (context : SearchContext) (errno : Option Errno) {file : CStr} (noSlash : '/' ∉ file)
    (argv : List CStr) :
    SearchLaw context file argv (doExecvep execve context errno file argv) ↔
      if file = [] then ¬ context.Decides file
      else context.Decides file ∨ errno = some .ENOENT := by
  unfold doExecvep startInPath SearchContext.Decides
  dsimp only
  split
  next =>
    rw [SearchContext.searchLaw_of_nil]
    have other : some Errno.ENOENT ≠ some Errno.EACCES := by decide
    simp only [other, imp_false, implies_true, and_true, not_exists, not_and, not_or]
    exact ⟨fun law c member => ⟨law.1 c member, law.2 c member⟩,
      fun law => ⟨fun c member => (law c member).1, fun c member => (law c member).2⟩⟩
  next nonempty =>
    have spec := searchPath_spec context.access file context.path not_mem_nil false
    rw [nil_append] at spec
    cases search : (candidates file context.path).find? fun c => context.access c = none with
    | some startp =>
      have accessible := find?_some search
      rw [spec.1 startp search]
      refine iff_of_true ⟨fun startp' same => ?_, fun nothing => ?_⟩ (.inl ⟨startp,
        mem_of_find?_eq_some search, .inl (of_decide_eq_true accessible)⟩)
      · rw [search] at same
        cases same
        obtain ⟨more, attempts⟩ := tryFile_eq (execveGate execve) startp argv errno
        exact ⟨_, more, attempts, rfl, rfl⟩
      · rw [search] at nothing
        cases nothing
    | none =>
      obtain ⟨error, failed, isEacces⟩ := spec.2 search
      have inaccessible : ∀ c ∈ candidates file context.path, context.access c ≠ none :=
        fun c member => by simpa using find?_eq_none.1 search c member
      rw [failed, SearchContext.searchLaw_of_nil, and_iff_right inaccessible]
      by_cases eacces : ∃ c ∈ candidates file context.path, context.access c = some .EACCES
      · obtain ⟨c, member, denied⟩ := eacces
        rw [if_pos (isEacces.2 (.inr ⟨c, member, denied⟩))]
        exact iff_of_true ⟨fun _ => rfl, fun other => absurd denied (other c member)⟩
          (.inl ⟨c, member, .inr denied⟩)
      · rw [if_neg fun same => eacces ((isEacces.1 same).resolve_left Bool.false_ne_true)]
        constructor
        · exact fun law => .inr (law.2 fun c member denied => eacces ⟨c, member, denied⟩)
        · rintro (⟨c, member, accessible | denied⟩ | same)
          · exact absurd accessible (inaccessible c member)
          · exact absurd ⟨c, member, denied⟩ eacces
          · exact ⟨fun denied => absurd denied eacces, fun _ => same⟩

/-- The one file in the two directories is `/bin/x`. -/
def binWithX : SearchContext :=
  ⟨some "/sbin:/bin".toList, [], fun c => if c = "/bin/x".toList then none else some .ENOENT⟩

theorem execvp_finds_x :
    SearchLaw binWithX "x".toList [] (doExecvep (fun _ _ => none) binWithX none "x".toList []) :=
  (execvp_search_iff _ binWithX _ (by decide) []).2
    (.inl ⟨"/bin/x".toList, by decide, .inl rfl⟩)

def emptyBin : SearchContext := ⟨some "/bin".toList, [], fun _ => some .ENOENT⟩

/-- The errno `0` stays, when a file is not found. -/
theorem execvp_keeps_errno :
    doExecvep (fun _ _ => none) emptyBin none "x".toList [] = ([], none) :=
  rfl

/-! ## `posix_spawnp` -/

/-- There is one child at most, and the shell is started exactly if the first attempt failed with
`ENOEXEC`. -/
structure SpawnLaw (attempts : List Attempt) : Prop where
  once : attempts.countP (fun attempt => attempt.failed = none) ≤ 1
  retry : 1 < attempts.length ↔ ∃ first ∈ attempts.head?, first.failed = some (some .ENOEXEC)

def fileInPath (context : SearchContext) (file : CStr) : Option CStr :=
  if file = [] then none
  else if '/' ∈ file then some file
  else (searchPath context.access file [] false context.path).toOption

theorem attempts_startInPath (start : CStr → List CStr → Option Errno → Attempt)
    (context : SearchContext) (resultErrno : Option Errno) (file : CStr) (argv : List CStr) :
    (startInPath start context resultErrno file argv).1 =
      (fileInPath context file).elim [] fun found => tryFile start found argv resultErrno := by
  unfold startInPath fileInPath
  split
  · rfl
  · split
    · rfl
    · cases searchPath context.access file [] false context.path <;> rfl

/-- The decision about the shell has to be the right one. -/
theorem spawnLaw_tryFile (start : CStr → List CStr → Option Errno → Attempt) (file : CStr)
    (argv : List CStr) (resultErrno : Option Errno) :
    SpawnLaw (tryFile start file argv resultErrno) ↔
      ((start file argv resultErrno).resultErrno = some .ENOEXEC ↔
        (start file argv resultErrno).failed = some (some .ENOEXEC)) := by
  unfold tryFile
  dsimp only
  generalize start file argv resultErrno = first
  split
  next retried =>
    rw [iff_true_left retried]
    refine ⟨fun law => by simpa using law.retry, fun failed => ⟨?_, by simpa using failed⟩⟩
    rw [countP_cons_of_neg (by simp [failed])]
    exact countP_le_length
  next once =>
    rw [iff_false_left once]
    exact ⟨fun law => by simpa using law.retry,
      fun other => ⟨countP_le_length, by simpa using other⟩⟩

/-- `posix_spawnp` starts one process at most, and retries as it should, exactly if `errno` after
the real call says whether the call returned `ENOEXEC`. -/
theorem spawnp_once_iff (calls : SpawnCalls) (context : SearchContext) (errno : Option Errno)
    (file : CStr) (argv : List CStr) :
    SpawnLaw (doPosixSpawnp calls context errno file argv).1 ↔
      ∀ found ∈ fileInPath context file, calls.prepare found argv = none →
        (calls.errnoAfter found argv errno = some .ENOEXEC ↔
          calls.realSpawn found argv = some .ENOEXEC) := by
  unfold doPosixSpawnp
  rw [attempts_startInPath]
  cases fileInPath context file with
  | none => exact iff_of_true ⟨Nat.zero_le 1, by simp⟩ (by simp)
  | some found =>
    rw [Option.elim_some, spawnLaw_tryFile]
    unfold SpawnCalls.spawn
    cases prepared : calls.prepare found argv with
    | some refused => simp [prepared]
    | none => simp [prepared]

def successfulSpawns : SpawnCalls := ⟨fun _ _ => none, fun _ _ => none, fun _ _ errno => errno⟩

/-- There are two children, if `errno` is `ENOEXEC` from before. -/
theorem spawnp_starts_two :
    (doPosixSpawnp successfulSpawns emptyBin (some .ENOEXEC) "./x".toList []).1.countP
      (fun attempt => attempt.failed = none) = 2 :=
  rfl

end Scratchbox
