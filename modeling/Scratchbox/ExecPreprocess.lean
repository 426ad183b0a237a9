import Scratchbox.PrepareExec

/-!
# Preprocessing the arguments of an exec

`exec_preprocess.c`: a rule for the name of a binary adds arguments, removes others, and may replace
the file. The new vector is allocated if something is added; otherwise the old one is changed in
place. The vectors are lists of slots, with NULL for `none`; an index beyond the end is a fault.

An allocated vector gets the arguments that the rule asks for (`applyRule_allocated`). In place, a
table that is present and empty puts its terminating NULL over an argument, and for an empty vector
the new file name replaces the terminator (`exec_preprocessing_law_iff`).
-/

namespace Scratchbox

open List Except

/-! ## Rules -/

/-- `ruletree_exec_preprocessing_rule_t`. A table that is missing has the offset zero. -/
structure ExecPreprocessingRule where
  binaryName : Option CStr := none
  pathPrefixes : Option (List CStr) := none
  addHead : Option (List CStr) := none
  addOptions : Option (List CStr) := none
  addTail : Option (List CStr) := none
  remove : Option (List CStr) := none
  newFilename : Option CStr := none
  disableMapping : Bool := false
  deriving DecidableEq

/-- The part of a file name behind its last slash. -/
def fileBasename (filename : CStr) : CStr := (filename.reverse.takeWhile (· ≠ '/')).reverse

def checkPathPrefixMatch (rule : ExecPreprocessingRule) (filename : CStr) : Bool :=
  match rule.pathPrefixes with
  | none => true
  | some prefixes =>
    let dirnameLen := filename.length - (fileBasename filename).length
    dirnameLen ≠ 0 && prefixes.any fun pre =>
      (pre.length = dirnameLen || pre.length + 1 = dirnameLen) &&
        filename.take pre.length = pre

def findExecPreprocessingRule (rules : List ExecPreprocessingRule) (filename : CStr) :
    Option ExecPreprocessingRule :=
  rules.find? fun rule =>
    rule.binaryName = some (fileBasename filename) && checkPathPrefixMatch rule filename

/-- The number of arguments that are added, `max_new_argv_elements`. -/
def ExecPreprocessingRule.maxNewArgvElements (rule : ExecPreprocessingRule) : Nat :=
  (rule.addHead.getD []).length + (rule.addOptions.getD []).length +
    (rule.addTail.getD []).length

/-! ## Vectors -/

/-- A vector of pointers to strings. -/
abbrev Slots := List (Option CStr)

/-- The strings before the first NULL; nothing if there is none. -/
def Slots.strings : Slots → Option (List CStr)
  | [] => none
  | none :: _ => some []
  | some s :: rest => (Slots.strings rest).map (s :: ·)

/-- The vector with the given strings, as `duplicate_argv` makes it. -/
def duplicateArgv (argv : List CStr) : Slots := argv.map some ++ [none]

/-- The old vector, and the new one unless it is the old one. -/
structure ArgvMemory where
  old : Slots
  allocated : Option Slots

/-- The vector at `new_argv`. -/
def ArgvMemory.new (m : ArgvMemory) : Slots := m.allocated.getD m.old

/-- `new_argv[i] = v`. -/
def ArgvMemory.write (m : ArgvMemory) (i : Nat) (v : Option CStr) : Except Fault ArgvMemory :=
  if m.new.length ≤ i then .error .outOfBounds
  else
    match m.allocated with
    | some slots => .ok { m with allocated := some (slots.set i v) }
    | none => .ok { m with old := m.old.set i v }

/-- `(*argv)[k]` before the vector is replaced. -/
def ArgvMemory.read (m : ArgvMemory) (k : Nat) : Except Fault (Option CStr) :=
  match m.old[k]? with
  | none => .error .outOfBounds
  | some v => .ok v

/-- `add_elements_to_argv` for a table that is present. -/
def addElementsToArgv (m : ArgvMemory) (addIdx : Nat) :
    List CStr → Except Fault (ArgvMemory × Nat)
  | [] => do
    let m ← m.write addIdx none
    pure (m, addIdx)
  | str :: table => do
    let m ← m.write addIdx (some str)
    addElementsToArgv m (addIdx + 1) table

def addTableToArgv (m : ArgvMemory) (addIdx : Nat) :
    Option (List CStr) → Except Fault (ArgvMemory × Nat)
  | none => .ok (m, addIdx)
  | some table => addElementsToArgv m addIdx table

/-- The loop over the old arguments from `k` on; `n` of them are left. -/
def copyArguments (remove : List CStr) (m : ArgvMemory) (i k : Nat) :
    Nat → Except Fault (ArgvMemory × Nat)
  | 0 => .ok (m, i)
  | n + 1 => do
    match ← m.read k with
    | none => .error .nullPointer
    | some arg =>
      if arg ∈ remove then copyArguments remove m i (k + 1) n
      else do
        let m ← m.write i (some arg)
        copyArguments remove m (i + 1) (k + 1) n

def copyFirstArgument (m : ArgvMemory) (i : Nat) : Except Fault (ArgvMemory × Nat) := do
  match ← m.read 0 with
  | none => pure (m, i)
  | some arg => do
    let m ← m.write i (some arg)
    pure (m, i + 1)

/-- The new file name is the first argument, too. -/
def setFilename (m : ArgvMemory) (file : CStr) : Option CStr → Except Fault (CStr × Slots)
  | none => .ok (file, m.new)
  | some name => do
    let m ← m.write 0 (some name)
    pure (name, m.new)

/-- The vectors at the start: a new one is allocated, or the old one is used. -/
def newArgvMemory (allocate : Bool) (rule : ExecPreprocessingRule) (argv : List CStr) :
    ArgvMemory where
  old := duplicateArgv argv
  allocated :=
    if allocate then some (List.replicate (argv.length + rule.maxNewArgvElements + 1) none)
    else none

def setUpArgv (m : ArgvMemory) (rule : ExecPreprocessingRule) (file : CStr) (origArgc : Nat) :
    Except Fault (CStr × Slots) := do
  let (m, i) ← addTableToArgv m 0 rule.addHead
  let (m, i) ← copyFirstArgument m i
  let (m, i) ← addTableToArgv m i rule.addOptions
  let (m, i) ← copyArguments (rule.remove.getD []) m i 1 (origArgc - 1)
  let m ← m.write i none
  let (m, _) ← addTableToArgv m i rule.addTail
  setFilename m file rule.newFilename

/-- `apply_exec_preprocessing_rules` with the rule that was found. -/
def applyRule (allocate : Bool) (rule : ExecPreprocessingRule) (file : CStr) (argv : List CStr) :
    Except Fault (CStr × Slots) :=
  setUpArgv (newArgvMemory allocate rule argv) rule file argv.length

/-- What is added to the environment of a binary whose paths are not mapped. -/
def disabledMappingEnvironment (envp : List CStr) : List CStr :=
  envp ++ ["SBOX_DISABLE_MAPPING=1".toList, "SBOX_DISABLE_ARGVENVP=1".toList]

/-- `apply_exec_preprocessing_rules`: the file, the vector and the environment. -/
def applyExecPreprocessingRules (argvmodsRules : Option (List ExecPreprocessingRule)) (file : CStr)
    (argv envp : List CStr) : Except Fault (CStr × Slots × List CStr) :=
  if file = [] then .ok (file, duplicateArgv argv, envp)
  else
    match argvmodsRules.bind (findExecPreprocessingRule · file) with
    | none => .ok (file, duplicateArgv argv, envp)
    | some rule => do
      let (file, slots) ← applyRule (0 < rule.maxNewArgvElements) rule file argv
      pure (file, slots, if rule.disableMapping then disabledMappingEnvironment envp else envp)

/-! ## What a rule asks for -/

def ExecPreprocessingRule.kept (rule : ExecPreprocessingRule) (argv : List CStr) : List CStr :=
  (argv.drop 1).filter (· ∉ rule.remove.getD [])

/-- The arguments before the file name is set. -/
def ExecPreprocessingRule.arguments (rule : ExecPreprocessingRule) (argv : List CStr) : List CStr :=
  rule.addHead.getD [] ++ argv.take 1 ++ rule.addOptions.getD [] ++ rule.kept argv ++
    rule.addTail.getD []

/-- The first argument is the new file name, if the rule has one. -/
def ExecPreprocessingRule.newArgv (rule : ExecPreprocessingRule) (argv : List CStr) : List CStr :=
  match rule.newFilename with
  | none => rule.arguments argv
  | some name => (rule.arguments argv).set 0 name

def CarriesOut (allocate : Bool) (rule : ExecPreprocessingRule) (file : CStr) (argv : List CStr) :
    Prop :=
  ∃ slots, applyRule allocate rule file argv = .ok (rule.newFilename.getD file, slots) ∧
    slots.strings = some (rule.newArgv argv)

/-! ## Writing behind what has been written -/

theorem Slots.strings_terminated (args : List CStr) (rest : Slots) :
    Slots.strings (args.map some ++ none :: rest) = some args := by
  induction args with
  | nil => rfl
  | cons s args ih =>
    rw [map_cons, cons_append, Slots.strings, ih]
    rfl

theorem Slots.strings_unterminated (args : List CStr) : Slots.strings (args.map some) = none := by
  induction args with
  | nil => rfl
  | cons s args ih =>
    rw [map_cons, Slots.strings, ih]
    rfl

variable {m : ArgvMemory} {rest : Slots}

theorem write_zero {x : Option CStr} (h : m.new = x :: rest)
    (v : Option CStr) : ∃ m', m.write 0 v = .ok m' ∧ m'.new = v :: rest := by
  obtain ⟨old, allocated⟩ := m
  cases allocated with
  | some slots =>
    obtain rfl : slots = x :: rest := h
    exact ⟨_, rfl, rfl⟩
  | none =>
    obtain rfl : old = x :: rest := h
    exact ⟨_, rfl, rfl⟩

variable {rule : ExecPreprocessingRule}

theorem setFilename_carries {argv : List CStr} (file : CStr)
    (hnew : m.new = (rule.arguments argv).map some ++ none :: rest)
    (h : rule.newFilename = none ∨ rule.arguments argv ≠ []) :
    ∃ slots, setFilename m file rule.newFilename = .ok (rule.newFilename.getD file, slots) ∧
      slots.strings = some (rule.newArgv argv) := by
  cases hname : rule.newFilename with
  | none =>
    refine ⟨m.new, rfl, ?_⟩
    rw [hnew, Slots.strings_terminated, ExecPreprocessingRule.newArgv, hname]
  | some name =>
    obtain ⟨arg, args, hargs⟩ := exists_cons_of_ne_nil (h.resolve_left (by simp [hname]))
    rw [hargs] at hnew
    obtain ⟨m', hwrite, hnew'⟩ := write_zero hnew (some name)
    refine ⟨m'.new, ?_, ?_⟩
    · rw [setFilename, hwrite, ok_bind]
      rfl
    · rw [hnew', ExecPreprocessingRule.newArgv, hname, hargs]
      exact Slots.strings_terminated (name :: args) rest

section InPlace

variable {args : List CStr} {x v : Option CStr}

theorem write_inPlace : ArgvMemory.write ⟨args.map some ++ x :: rest, none⟩ args.length v =
    .ok ⟨args.map some ++ v :: rest, none⟩ := by
  have hlen : ¬ (ArgvMemory.mk (args.map some ++ x :: rest) none).new.length ≤ args.length := by
    simp [ArgvMemory.new]
  rw [ArgvMemory.write, if_neg hlen]
  simp [set_append_right]

end InPlace

section Allocated

variable {old : Slots} {size : Nat} {args : List CStr}

/-- An allocated vector has NULL in all slots that have not been written. -/
def allocatedMemory (old : Slots) (size : Nat) (args : List CStr) : ArgvMemory where
  old := old
  allocated := some (args.map some ++ List.replicate (size - args.length) none)

theorem allocatedMemory_eq (h : args.length < size) :
    allocatedMemory old size args =
      ⟨old, some (args.map some ++ none :: List.replicate (size - (args.length + 1)) none)⟩ := by
  rw [allocatedMemory, ← replicate_succ, ← Nat.sub_sub,
    Nat.sub_add_cancel (Nat.sub_pos_of_lt h)]

theorem write_slot {x v : Option CStr} {rest : Slots} :
    ArgvMemory.write ⟨old, some (args.map some ++ x :: rest)⟩ args.length v =
      .ok ⟨old, some (args.map some ++ v :: rest)⟩ := by
  simp [ArgvMemory.write, ArgvMemory.new, set_append_right]

theorem write_allocated (h : args.length < size) (s : CStr) :
    (allocatedMemory old size args).write args.length (some s) =
      .ok (allocatedMemory old size (args ++ [s])) := by
  rw [allocatedMemory_eq h, write_slot]
  simp [allocatedMemory]

theorem terminate_allocated (h : args.length < size) :
    (allocatedMemory old size args).write args.length none =
      .ok (allocatedMemory old size args) := by
  rw [allocatedMemory_eq h, write_slot]

theorem addElementsToArgv_allocated (args table : List CStr)
    (h : (args ++ table).length < size) :
    addElementsToArgv (allocatedMemory old size args) args.length table =
      .ok (allocatedMemory old size (args ++ table), (args ++ table).length) := by
  induction table generalizing args with
  | nil =>
    rw [append_nil] at h ⊢
    rw [addElementsToArgv, terminate_allocated h]
    rfl
  | cons str table ih =>
    have hargs : args.length < size := by
      rw [length_append, length_cons] at h
      omega
    have hnext := ih (args ++ [str]) (by simpa using h)
    rw [append_assoc, singleton_append, length_append, length_singleton]
      at hnext
    rw [addElementsToArgv, write_allocated hargs str, ok_bind]
    exact hnext

theorem addTableToArgv_allocated (old : Slots) (args : List CStr) (table : Option (List CStr))
    (h : (args ++ table.getD []).length < size) :
    addTableToArgv (allocatedMemory old size args) args.length table =
      .ok (allocatedMemory old size (args ++ table.getD []), (args ++ table.getD []).length) := by
  cases table with
  | none =>
    rw [Option.getD_none, append_nil]
    rfl
  | some table => exact addElementsToArgv_allocated args table h

theorem copyArguments_allocated (remove args before rest : List CStr)
    (h : (args ++ rest.filter (· ∉ remove)).length < size) :
    copyArguments remove
        (allocatedMemory (duplicateArgv (before ++ rest)) size args) args.length before.length
        rest.length =
      .ok (allocatedMemory (duplicateArgv (before ++ rest)) size
          (args ++ rest.filter (· ∉ remove)),
        (args ++ rest.filter (· ∉ remove)).length) := by
  induction rest generalizing before args with
  | nil =>
    rw [filter_nil, append_nil args]
    rfl
  | cons arg rest ih =>
    have hread : (allocatedMemory (duplicateArgv (before ++ arg :: rest)) size args).read
        before.length = .ok (some arg) := by
      simp [ArgvMemory.read, allocatedMemory, duplicateArgv]
    have hbefore : before ++ arg :: rest = (before ++ [arg]) ++ rest := by simp
    have hlength : before.length + 1 = (before ++ [arg]).length := by simp
    rw [length_cons, copyArguments, hread]
    change (if arg ∈ remove then _ else _) = _
    by_cases harg : arg ∈ remove
    · rw [filter_cons_of_neg (by simpa using harg)] at h ⊢
      rw [if_pos harg, hlength, hbefore]
      exact ih args (before ++ [arg]) h
    · rw [filter_cons_of_pos (by simpa using harg)] at h ⊢
      have hargs : args.length < size := by
        rw [length_append, length_cons] at h
        omega
      have hnext := ih (args ++ [arg]) (before ++ [arg]) (by simpa using h)
      have hindex : (args ++ [arg]).length = args.length + 1 := by simp
      rw [append_assoc args, singleton_append, hindex] at hnext
      rw [if_neg harg, write_allocated hargs arg, ok_bind, hlength, hbefore]
      exact hnext

theorem copyFirstArgument_allocated (args argv : List CStr) (h : args.length < size) :
    copyFirstArgument (allocatedMemory (duplicateArgv argv) size args) args.length =
      .ok (allocatedMemory (duplicateArgv argv) size (args ++ argv.take 1),
        (args ++ argv.take 1).length) := by
  cases argv with
  | nil =>
    rw [take_nil, append_nil]
    rfl
  | cons arg argv =>
    have hread : (allocatedMemory (duplicateArgv (arg :: argv)) size args).read 0 =
        .ok (some arg) := rfl
    rw [copyFirstArgument, hread]
    change ((allocatedMemory (duplicateArgv (arg :: argv)) size args).write args.length
      (some arg) >>= _) = _
    rw [write_allocated h arg]
    change Except.ok _ = Except.ok _
    rw [take_succ_cons, take_zero, length_append, length_singleton]

theorem length_arguments_lt (rule : ExecPreprocessingRule) (argv : List CStr) :
    (rule.arguments argv).length < argv.length + rule.maxNewArgvElements + 1 := by
  have hkept : (rule.kept argv).length ≤ argv.length - 1 := by
    rw [← length_drop]
    exact length_filter_le _ _
  simp only [ExecPreprocessingRule.arguments, ExecPreprocessingRule.maxNewArgvElements,
    length_append, length_take]
  omega

theorem copyArguments_kept (rule : ExecPreprocessingRule) (args argv : List CStr)
    (h : (args ++ rule.kept argv).length < size) :
    copyArguments (rule.remove.getD []) (allocatedMemory (duplicateArgv argv) size args)
        args.length 1 (argv.length - 1) =
      .ok (allocatedMemory (duplicateArgv argv) size (args ++ rule.kept argv),
        (args ++ rule.kept argv).length) := by
  cases argv with
  | nil =>
    have hkept : rule.kept [] = [] := rfl
    rw [hkept, append_nil]
    rfl
  | cons arg argv => exact copyArguments_allocated (rule.remove.getD []) args [arg] argv h

/-- An allocated vector is large enough, and gets what the rule asks for. -/
theorem applyRule_allocated {rule : ExecPreprocessingRule} {argv : List CStr} (file : CStr)
    (h : rule.newFilename = none ∨ rule.arguments argv ≠ []) : CarriesOut true rule file argv := by
  have hsize := length_arguments_lt rule argv
  generalize hn : argv.length + rule.maxNewArgvElements + 1 = size at hsize
  have hlt : ∀ args more, rule.arguments argv = args ++ more → args.length < size := by
    intro args more heq
    rw [heq, length_append] at hsize
    exact Nat.lt_of_le_of_lt (Nat.le_add_right _ _) hsize
  generalize hhead : rule.addHead.getD [] = head
  have hargs : rule.arguments argv = head ++ argv.take 1 ++ rule.addOptions.getD [] ++
      rule.kept argv ++ rule.addTail.getD [] := by rw [← hhead]; rfl
  generalize htwo : head ++ argv.take 1 = two at hargs
  generalize hthree : two ++ rule.addOptions.getD [] = three at hargs
  generalize hfour : three ++ rule.kept argv = four at hargs
  have hfour' : four.length < size := hlt _ _ hargs
  have hthree' : three.length < size := hlt _ _ (by rw [hargs, ← hfour, append_assoc])
  have htwo' : two.length < size := by
    rw [← hthree, length_append] at hthree'
    exact Nat.lt_of_le_of_lt (Nat.le_add_right _ _) hthree'
  have hhead' : head.length < size := by
    rw [← htwo, length_append] at htwo'
    exact Nat.lt_of_le_of_lt (Nat.le_add_right _ _) htwo'
  -- one equation for each stage
  have stage₁ := addTableToArgv_allocated (duplicateArgv argv) [] rule.addHead
    (by rwa [hhead, nil_append])
  have stage₂ := copyFirstArgument_allocated head argv hhead'
  have stage₃ := addTableToArgv_allocated (duplicateArgv argv) two rule.addOptions
    (by rwa [hthree])
  have stage₄ := copyArguments_kept rule three argv (by rwa [hfour])
  have stage₅ := addTableToArgv_allocated (duplicateArgv argv) four rule.addTail
    (by rwa [← hargs])
  rw [hhead, nil_append] at stage₁
  rw [htwo] at stage₂
  rw [hthree] at stage₃
  rw [hfour] at stage₄
  rw [← hargs] at stage₅
  have hstart : newArgvMemory true rule argv = allocatedMemory (duplicateArgv argv) size [] := by
    rw [← hn]
    rfl
  have hrun : applyRule true rule file argv =
      setFilename (allocatedMemory (duplicateArgv argv) size (rule.arguments argv)) file
        rule.newFilename := by
    rw [applyRule, hstart, setUpArgv]
    rw [length_nil] at stage₁
    simp only [ok_bind, stage₁, stage₂, stage₃, stage₄, terminate_allocated hfour', stage₅]
  rw [CarriesOut, hrun, allocatedMemory_eq hsize]
  exact setFilename_carries file rfl h

end Allocated

/-! ## In place -/

/-- The old arguments are moved forward over those that are removed. Behind them, parts of the old
vector are left over. -/
theorem copyArguments_inPlace (remove args : List CStr) (mid : Slots) (rest : List CStr) :
    ∃ mid', copyArguments remove ⟨args.map some ++ (mid ++ duplicateArgv rest), none⟩ args.length
          (args.length + mid.length) rest.length =
        .ok (⟨(args ++ rest.filter (· ∉ remove)).map some ++ (mid' ++ [none]), none⟩,
          (args ++ rest.filter (· ∉ remove)).length) ∧
      (rest.filter (· ∉ remove) = [] → mid' = mid ++ rest.map some) := by
  induction rest generalizing args mid with
  | nil =>
    refine ⟨mid, ?_, fun _ => (append_nil mid).symm⟩
    rw [filter_nil, append_nil args]
    rfl
  | cons arg rest ih =>
    have hread : ArgvMemory.read ⟨args.map some ++ (mid ++ duplicateArgv (arg :: rest)), none⟩
        (args.length + mid.length) = .ok (some arg) := by
      have hlength : args.length + mid.length = (args.map some ++ mid).length := by simp
      rw [ArgvMemory.read, ← append_assoc, hlength, getElem?_append_right (Nat.le_refl _),
        Nat.sub_self]
      rfl
    have hmoved : mid ++ duplicateArgv (arg :: rest) =
        (mid ++ [some arg]) ++ duplicateArgv rest := by
      simp [duplicateArgv]
    rw [length_cons, copyArguments, hread, ok_bind]
    dsimp only
    by_cases harg : arg ∈ remove
    · obtain ⟨mid', hcopy, hnone⟩ := ih args (mid ++ [some arg])
      rw [length_append, length_singleton, ← Nat.add_assoc] at hcopy
      rw [if_pos harg, filter_cons_of_neg (by simpa using harg), hmoved]
      exact ⟨mid', hcopy, fun hnil => by simp [hnone hnil]⟩
    · obtain ⟨x, left, hleft⟩ := exists_cons_of_ne_nil
        (append_ne_nil_of_right_ne_nil mid (cons_ne_nil (some arg) []))
      have hlength : left.length = mid.length := by
        have hsame := congrArg List.length hleft
        simpa using hsame.symm
      obtain ⟨mid', hcopy, -⟩ := ih (args ++ [arg]) left
      have hindex : (args ++ [arg]).length + left.length = args.length + mid.length + 1 := by
        rw [hlength, length_append, length_singleton]
        omega
      have hone : (args ++ [arg]).length = args.length + 1 := by simp
      rw [hindex, hone, map_append, append_assoc (args.map some),
        append_assoc args] at hcopy
      rw [if_neg harg, filter_cons_of_pos (by simpa using harg), hmoved, hleft,
        cons_append, write_inPlace, ok_bind]
      exact ⟨mid', hcopy, fun hnil => by cases hnil⟩

theorem addTableToArgv_empty {table : Option (List CStr)} (h : table.getD [] = [])
    (args : List CStr) (rest : Slots) :
    addTableToArgv ⟨args.map some ++ none :: rest, none⟩ args.length table =
      .ok (⟨args.map some ++ none :: rest, none⟩, args.length) := by
  cases table with
  | none => rfl
  | some table =>
    obtain rfl : table = [] := h
    rw [addTableToArgv, addElementsToArgv, write_inPlace]
    rfl

section Cases

structure ExecPreprocessingRule.AddsNothing (rule : ExecPreprocessingRule) : Prop where
  head : rule.addHead.getD [] = []
  options : rule.addOptions.getD [] = []
  tail : rule.addTail.getD [] = []

theorem addsNothing_of_maxNewArgvElements (h : rule.maxNewArgvElements = 0) : rule.AddsNothing := by
  simp only [ExecPreprocessingRule.maxNewArgvElements, Nat.add_eq_zero_iff,
    length_eq_zero_iff] at h
  exact ⟨h.1.1, h.1.2, h.2⟩

theorem ExecPreprocessingRule.AddsNothing.arguments (h : rule.AddsNothing) (argv : List CStr) :
    rule.arguments argv = argv.take 1 ++ rule.kept argv := by
  rw [ExecPreprocessingRule.arguments, h.head, h.options, h.tail]
  simp

theorem applyRule_nil (h : rule.AddsNothing) (file : CStr) :
    applyRule false rule file [] = setFilename ⟨[none], none⟩ file rule.newFilename := by
  have hempty : ∀ table : Option (List CStr), table.getD [] = [] →
      addTableToArgv ⟨[none], none⟩ 0 table = .ok (⟨[none], none⟩, 0) :=
    fun table htable => addTableToArgv_empty htable [] []
  have hwrite : ArgvMemory.write ⟨[none], none⟩ 0 none = .ok ⟨[none], none⟩ := rfl
  have hfirst : copyFirstArgument ⟨[none], none⟩ 0 = .ok (⟨[none], none⟩, 0) := rfl
  have hcopy : copyArguments (rule.remove.getD []) ⟨[none], none⟩ 0 1 0 =
      .ok (⟨[none], none⟩, 0) := rfl
  have hstart : newArgvMemory false rule [] = ⟨[none], none⟩ := rfl
  rw [applyRule, hstart, setUpArgv]
  simp only [ok_bind, hempty _ h.head, hfirst, hempty _ h.options, length_nil,
    Nat.zero_sub, hcopy, hwrite, hempty _ h.tail]

/-- From the copying of the arguments on: `args` have been written, and the loop begins to read
behind `mid`. -/
theorem setUpArgv_copy (h : rule.AddsNothing) (file : CStr) (args : List CStr) (mid : Slots)
    (argv : List CStr) :
    ∃ mid', (do
        let (m, i) ← copyArguments (rule.remove.getD [])
          ⟨args.map some ++ (mid ++ duplicateArgv argv), none⟩ args.length
          (args.length + mid.length) argv.length
        let m ← m.write i none
        let (m, _) ← addTableToArgv m i rule.addTail
        setFilename m file rule.newFilename) =
      setFilename ⟨(args ++ argv.filter (· ∉ rule.remove.getD [])).map some ++
        none :: (mid' ++ [none]).tail, none⟩ file rule.newFilename ∧
      (argv.filter (· ∉ rule.remove.getD []) = [] → mid' = mid ++ argv.map some) := by
  obtain ⟨mid', hcopy, hnone⟩ := copyArguments_inPlace (rule.remove.getD []) args mid argv
  refine ⟨mid', ?_, hnone⟩
  obtain ⟨x, rest, hrest⟩ := exists_cons_of_ne_nil
    (append_ne_nil_of_right_ne_nil mid' (cons_ne_nil (none : Option CStr) []))
  rw [hrest] at hcopy ⊢
  simp only [hcopy, ok_bind, write_inPlace, addTableToArgv_empty h.tail, tail_cons]

variable {arg : CStr} {argv : List CStr}

/-- Without tables, or with an empty one where the terminator is anyway, the vector is right. -/
theorem carries_inPlace (h : rule.AddsNothing) (file : CStr) (hhead : rule.addHead = none)
    (hoptions : rule.addOptions = none ∨ argv = []) : CarriesOut false rule file (arg :: argv) := by
  have hfirst : copyFirstArgument ⟨duplicateArgv (arg :: argv), none⟩ 0 =
      .ok (⟨duplicateArgv (arg :: argv), none⟩, 1) := rfl
  have hadd : addTableToArgv ⟨duplicateArgv (arg :: argv), none⟩ 1 rule.addOptions =
      .ok (⟨duplicateArgv (arg :: argv), none⟩, 1) := by
    rcases hoptions with hoptions | rfl
    · rw [hoptions]
      rfl
    · exact addTableToArgv_empty h.options [arg] []
  have hstart : newArgvMemory false rule (arg :: argv) = ⟨duplicateArgv (arg :: argv), none⟩ := rfl
  obtain ⟨mid', hrun, -⟩ := setUpArgv_copy h file [arg] [] argv
  have hargs : rule.arguments (arg :: argv) =
      [arg] ++ argv.filter (· ∉ rule.remove.getD []) := h.arguments (arg :: argv)
  rw [← hargs] at hrun
  have hcarries : applyRule false rule file (arg :: argv) =
      setFilename ⟨(rule.arguments (arg :: argv)).map some ++ none :: (mid' ++ [none]).tail, none⟩
        file rule.newFilename := by
    rw [applyRule, hstart, setUpArgv, hhead, addTableToArgv, ok_bind]
    dsimp only
    rw [hfirst, ok_bind]
    dsimp only
    rw [hadd, ok_bind]
    exact hrun
  rw [CarriesOut, hcarries]
  exact setFilename_carries file rfl (.inr (by simp [hargs]))

/-- An empty table at the head erases the first argument, and what is kept begins at index 0. -/
theorem applyRule_emptyHead (h : rule.AddsNothing) (file arg : CStr) (argv : List CStr)
    (hhead : rule.addHead = some []) :
    ∃ mid', applyRule false rule file (arg :: argv) =
        setFilename ⟨(rule.kept (arg :: argv)).map some ++ none :: (mid' ++ [none]).tail, none⟩ file
          rule.newFilename ∧
      (rule.kept (arg :: argv) = [] → mid' = none :: argv.map some) := by
  have hwrite : addTableToArgv ⟨duplicateArgv (arg :: argv), none⟩ 0 (some []) =
      .ok (⟨none :: duplicateArgv argv, none⟩, 0) := rfl
  have hfirst : copyFirstArgument ⟨none :: duplicateArgv argv, none⟩ 0 =
      .ok (⟨none :: duplicateArgv argv, none⟩, 0) := rfl
  have hadd := addTableToArgv_empty h.options [] (duplicateArgv argv)
  have hstart : newArgvMemory false rule (arg :: argv) = ⟨duplicateArgv (arg :: argv), none⟩ := rfl
  obtain ⟨mid', hrun, hnone⟩ := setUpArgv_copy h file [] [none] argv
  refine ⟨mid', ?_, hnone⟩
  rw [applyRule, hstart, setUpArgv, hhead, hwrite, ok_bind]
  dsimp only
  rw [hfirst, ok_bind]
  dsimp only
  rw [map_nil, nil_append, length_nil] at hadd
  rw [hadd, ok_bind]
  exact hrun

theorem strings_ok_iff (args : List CStr) {file : CStr} {args' : List CStr} {rest : Slots} :
    (∃ slots, (.ok (file, args.map some ++ none :: rest) : Except Fault (CStr × Slots)) =
        .ok (file, slots) ∧ slots.strings = some args') ↔ args = args' := by
  constructor
  · rintro ⟨slots, hslots, hstrings⟩
    obtain rfl : _ = slots := congrArg Prod.snd (Except.ok.inj hslots)
    rwa [Slots.strings_terminated, Option.some_inj] at hstrings
  · rintro rfl
    exact ⟨_, rfl, Slots.strings_terminated _ _⟩

/-- So the vector is right only if it had one element, which is replaced by the file name. -/
theorem carries_emptyHead_iff (h : rule.AddsNothing) (file : CStr)
    (hhead : rule.addHead = some []) :
    CarriesOut false rule file (arg :: argv) ↔ argv = [] ∧ rule.newFilename ≠ none := by
  obtain ⟨mid', hrun, hnone⟩ := applyRule_emptyHead h file arg argv hhead
  have hargs : rule.arguments (arg :: argv) = arg :: rule.kept (arg :: argv) :=
    h.arguments (arg :: argv)
  rw [CarriesOut, hrun, ExecPreprocessingRule.newArgv, hargs]
  cases rule.newFilename with
  | none =>
    refine (strings_ok_iff _).trans (iff_of_false (fun heq => ?_) fun hne => hne.2 rfl)
    exact cons_ne_self _ _ heq.symm
  | some name =>
    cases hkept : rule.kept (arg :: argv) with
    | nil =>
      -- what was behind the first argument is there again
      rw [hnone hkept]
      refine (strings_ok_iff (name :: argv)).trans ?_
      simp
    | cons k ks =>
      refine (strings_ok_iff (name :: ks)).trans (iff_of_false (fun heq => ?_) ?_)
      · exact cons_ne_self k ks (List.cons.inj heq).2.symm
      · rintro ⟨rfl, -⟩
        cases hkept

/-- An empty table of options puts its NULL over the argument at index 1, which is read next. -/
theorem applyRule_emptyOptions (file arg next : CStr) (argv : List CStr)
    (hhead : rule.addHead = none) (hoptions : rule.addOptions = some []) :
    applyRule false rule file (arg :: next :: argv) = .error .nullPointer := by
  rw [applyRule, setUpArgv, hhead, hoptions]
  rfl

structure ExecPreprocessingRule.InPlaceSafe (rule : ExecPreprocessingRule) (argv : List CStr) :
    Prop where
  filename : argv = [] → rule.newFilename = none
  head : rule.addHead ≠ none → argv = [] ∨ argv.length = 1 ∧ rule.newFilename ≠ none
  options : rule.addHead = none → rule.addOptions ≠ none → argv.length ≤ 1

theorem eq_some_nil_of_getD {table : Option (List CStr)} (h : table.getD [] = [])
    (hne : table ≠ none) : table = some [] := by
  obtain ⟨strings, rfl⟩ := Option.ne_none_iff_exists'.mp hne
  exact congrArg some h

theorem carries_inPlace_iff (h : rule.AddsNothing) (file : CStr) (argv : List CStr) :
    CarriesOut false rule file argv ↔ rule.InPlaceSafe argv := by
  cases argv with
  | nil =>
    have hargs : rule.arguments [] = [] := h.arguments []
    rw [CarriesOut, applyRule_nil h, ExecPreprocessingRule.newArgv, hargs]
    cases hname : rule.newFilename with
    | none =>
      exact iff_of_true ⟨_, rfl, rfl⟩
        ⟨fun _ => hname, fun _ => .inl rfl, fun _ _ => Nat.zero_le 1⟩
    | some name =>
      refine iff_of_false ?_ fun hsafe => by simp [hsafe.filename rfl] at hname
      rintro ⟨slots, hslots, hstrings⟩
      obtain rfl : [some name] = slots := congrArg Prod.snd (Except.ok.inj hslots)
      cases hstrings
  | cons arg argv =>
    by_cases hhead : rule.addHead = none
    · by_cases hoptions : rule.addOptions = none ∨ argv = []
      · refine iff_of_true (carries_inPlace h file hhead hoptions)
          ⟨fun hnil => absurd hnil (cons_ne_nil arg argv), fun hne => absurd hhead hne,
            fun _ hne => ?_⟩
        rw [hoptions.resolve_left hne]
        exact Nat.le_refl 1
      · rw [not_or] at hoptions
        obtain ⟨next, rest, rfl⟩ := exists_cons_of_ne_nil hoptions.2
        have hfault := applyRule_emptyOptions file arg next rest hhead
          (eq_some_nil_of_getD h.options hoptions.1)
        refine iff_of_false ?_ fun hsafe => ?_
        · rintro ⟨slots, hslots, -⟩
          rw [hfault] at hslots
          cases hslots
        · have hlength := hsafe.options hhead hoptions.1
          simp at hlength
    · rw [carries_emptyHead_iff h file (eq_some_nil_of_getD h.head hhead)]
      constructor
      · rintro ⟨rfl, hname⟩
        exact ⟨fun hnil => absurd hnil (cons_ne_nil arg []), fun _ => .inr ⟨rfl, hname⟩,
          fun _ _ => Nat.le_refl 1⟩
      · intro hsafe
        obtain ⟨hlength, hname⟩ := (hsafe.head hhead).resolve_left (cons_ne_nil arg argv)
        exact ⟨length_eq_zero_iff.mp (Nat.succ.inj hlength), hname⟩

end Cases

/-! ## The law -/

theorem arguments_ne_nil_of_adds (h : 0 < rule.maxNewArgvElements)
    (argv : List CStr) : rule.arguments argv ≠ [] := by
  intro hnil
  simp only [ExecPreprocessingRule.arguments, append_eq_nil_iff] at hnil
  obtain ⟨⟨⟨⟨hhead, -⟩, hoptions⟩, -⟩, htail⟩ := hnil
  simp [ExecPreprocessingRule.maxNewArgvElements, hhead, hoptions, htail] at h

/-- The function carries out the rule that it finds, and where it uses the old vector, a new one
would be filled in the same way. -/
def PreprocessingLaw (rules : List ExecPreprocessingRule) (rule : ExecPreprocessingRule)
    (file : CStr) (argv envp : List CStr) : Prop :=
  (∃ slots envp', applyExecPreprocessingRules (some rules) file argv envp =
      .ok (rule.newFilename.getD file, slots, envp') ∧ slots.strings = some (rule.newArgv argv)) ∧
    (rule.maxNewArgvElements = 0 → CarriesOut true rule file argv)

theorem applyExecPreprocessingRules_found {rules : List ExecPreprocessingRule} {file : CStr}
    (hfile : file ≠ []) (hfound : findExecPreprocessingRule rules file = some rule)
    (argv envp : List CStr) :
    (∃ slots envp', applyExecPreprocessingRules (some rules) file argv envp =
        .ok (rule.newFilename.getD file, slots, envp') ∧
        slots.strings = some (rule.newArgv argv)) ↔
      CarriesOut (0 < rule.maxNewArgvElements) rule file argv := by
  have hrun : applyExecPreprocessingRules (some rules) file argv envp = (do
      let (file, slots) ← applyRule (0 < rule.maxNewArgvElements) rule file argv
      pure (file, slots,
        if rule.disableMapping then disabledMappingEnvironment envp else envp)) := by
    rw [applyExecPreprocessingRules, if_neg hfile, Option.bind_some, hfound]
  rw [CarriesOut, hrun]
  constructor
  · rintro ⟨slots, envp', hok, hstrings⟩
    cases happly : applyRule (0 < rule.maxNewArgvElements) rule file argv with
    | error fault =>
      rw [happly] at hok
      cases hok
    | ok result =>
      obtain ⟨name, slots'⟩ := result
      rw [happly, ok_bind] at hok
      have hpair := Except.ok.inj hok
      obtain rfl : name = rule.newFilename.getD file := congrArg Prod.fst hpair
      obtain rfl : slots' = slots := congrArg (fun result => result.2.1) hpair
      exact ⟨slots', rfl, hstrings⟩
  · rintro ⟨slots, happly, hstrings⟩
    rw [happly, ok_bind]
    exact ⟨slots, _, rfl, hstrings⟩

/-- The law holds if something is added; otherwise for the vectors that can be changed in place. -/
theorem exec_preprocessing_law_iff {rules : List ExecPreprocessingRule}
    {rule : ExecPreprocessingRule} {file : CStr} (hfile : file ≠ [])
    (hfound : findExecPreprocessingRule rules file = some rule) (argv envp : List CStr) :
    PreprocessingLaw rules rule file argv envp ↔
      0 < rule.maxNewArgvElements ∨ rule.InPlaceSafe argv := by
  rw [PreprocessingLaw, applyExecPreprocessingRules_found hfile hfound]
  rcases Nat.eq_zero_or_pos rule.maxNewArgvElements with hzero | hpos
  · have hadds := addsNothing_of_maxNewArgvElements hzero
    have hold : decide (0 < rule.maxNewArgvElements) = false := by simp [hzero]
    rw [hold, carries_inPlace_iff hadds]
    refine ⟨fun hlaw => .inr hlaw.1, fun hcases => ?_⟩
    have hsafe := hcases.resolve_left (Nat.not_lt.mpr (Nat.le_of_eq hzero))
    refine ⟨hsafe, fun _ => applyRule_allocated file ?_⟩
    cases argv with
    | nil => exact .inl (hsafe.filename rfl)
    | cons arg argv => exact .inr (by simp [hadds.arguments])
  · have hnew : decide (0 < rule.maxNewArgvElements) = true := decide_eq_true hpos
    rw [hnew]
    refine iff_of_true ⟨applyRule_allocated file (.inr (arguments_ne_nil_of_adds hpos argv)), ?_⟩
      (.inl hpos)
    exact fun hzero => absurd hzero (Nat.ne_of_gt hpos)

/-- A rule that adds nothing: `sh` is replaced by another shell, and loses an option. -/
def otherShell : ExecPreprocessingRule where
  binaryName := some "sh".toList
  remove := some ["-x".toList]
  newFilename := some "/bin/bash".toList

theorem exec_preprocessing_law_otherShell :
    findExecPreprocessingRule [otherShell] "/bin/sh".toList = some otherShell ∧
      PreprocessingLaw [otherShell] otherShell "/bin/sh".toList
        ["sh".toList, "-x".toList, "file".toList] [] ∧
      otherShell.newArgv ["sh".toList, "-x".toList, "file".toList] =
        ["/bin/bash".toList, "file".toList] :=
  ⟨by decide,
    (exec_preprocessing_law_iff (by decide) (by decide) _ []).mpr
      (.inr ⟨fun h => absurd h (by decide), fun h => absurd rfl h, fun _ h => absurd rfl h⟩),
    by decide⟩

/-- With no arguments at all, the file name is put over the terminator. -/
theorem otherShell_unterminated :
    applyExecPreprocessingRules (some [otherShell]) "/bin/sh".toList [] [] =
        .ok ("/bin/bash".toList, [some "/bin/bash".toList], []) ∧
      Slots.strings [some "/bin/bash".toList] = none ∧
      ¬ PreprocessingLaw [otherShell] otherShell "/bin/sh".toList [] [] := by
  have hrun : applyExecPreprocessingRules (some [otherShell]) "/bin/sh".toList [] [] =
      .ok ("/bin/bash".toList, [some "/bin/bash".toList], []) := by rfl
  refine ⟨hrun, Slots.strings_unterminated ["/bin/bash".toList], ?_⟩
  rintro ⟨⟨slots, envp, hok, hstrings⟩, -⟩
  rw [hrun] at hok
  obtain rfl : [some "/bin/bash".toList] = slots :=
    congrArg (fun result => result.2.1) (Except.ok.inj hok)
  cases hstrings

end Scratchbox
