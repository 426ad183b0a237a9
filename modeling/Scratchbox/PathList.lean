import Scratchbox.Lib.Tokens

/-!
# Path lists

The primitives of `pathlistutils.c` and the easy cleaning of `pathresolution.c`: a path is split
into components at its slashes, empty pieces are dropped, and two flags remember that the path was
absolute and that it ended at a slash.
-/

namespace Scratchbox

open List Token

/-- A C string: its characters, without the final zero. -/
abbrev CStr := List Char

/-- A path component as splitting makes it: not empty, without a slash. -/
abbrev Component := Token '/'

namespace Component

def dot : Component := ⟨['.'], by decide, by decide⟩

def dotdot : Component := ⟨['.', '.'], by decide, by decide⟩

end Component

open Component

/-! ## Types -/

/-- `pl_flags` of a list. -/
structure PathFlags where
  absolute : Bool := false
  hasTrailingSlash : Bool := false
  hostPath : Bool := false
  deriving DecidableEq

/-- `struct path_entry`. `peNotSymlink` is `PATH_FLAGS_NOT_SYMLINK`. -/
structure PathEntry where
  pePathComponent : Component
  peNotSymlink : Bool := false
  deriving DecidableEq

/-- `struct path_entry_list`. -/
structure PathEntryList where
  plFirst : List PathEntry
  plFlags : PathFlags
  deriving DecidableEq

namespace PathEntry

def isDot (e : PathEntry) : Bool := e.pePathComponent = Component.dot

def isDotdot (e : PathEntry) : Bool := e.pePathComponent = Component.dotdot

end PathEntry

def components (entries : List PathEntry) : List Component :=
  entries.map PathEntry.pePathComponent

/-- The result of `is_clean_path`. -/
inductive Cleanness where
  | clean
  | dot
  | dotdot
  deriving DecidableEq

/-! ## Splitting and printing -/

def freshEntries (cs : List Component) : List PathEntry := cs.map fun c => { pePathComponent := c }

/-- `split_path_to_path_entries`. The leading slashes are skipped; each piece
between slashes becomes an entry unless it is empty; an empty last piece sets
the trailing slash flag. -/
def splitPathToPathEntries (cpath : CStr) : List PathEntry × PathFlags :=
  let start := cpath.dropWhile (· = '/')
  (freshEntries (Token.tokens '/' start),
    { absolute := cpath.head? = some '/', hasTrailingSlash := Token.openEnd '/' start })

def splitPathToPathList (cpath : CStr) : PathEntryList :=
  { plFirst := (splitPathToPathEntries cpath).1, plFlags := (splitPathToPathEntries cpath).2 }

/-- `append_path_entries`: the returned list, and the list that the caller's own
`head` pointer denotes afterwards. The two differ when `head` was NULL. -/
def appendPathEntries (head newEntries : List PathEntry) : List PathEntry × List PathEntry :=
  match head with
  | [] => (newEntries, [])
  | e :: es => (e :: es ++ newEntries, e :: es ++ newEntries)

/-- `path_entries_to_string_until` of the entries up to the last one to include. -/
def pathEntriesToString (entries : List PathEntry) (flags : PathFlags) : CStr :=
  match entries with
  | [] => ['/']
  | e :: es =>
    let buf := (if flags.absolute then ['/'] else []) ++ Token.join '/' (components (e :: es))
    if flags.hasTrailingSlash && buf.getLast? != some '/' then buf ++ ['/'] else buf

def pathListToString (listp : PathEntryList) : CStr :=
  pathEntriesToString listp.plFirst listp.plFlags

/-- `set_flags_in_path_entries` with `PATH_FLAGS_NOT_SYMLINK`. -/
def setNotSymlinkInPathEntries (entries : List PathEntry) : List PathEntry :=
  entries.map fun e => { e with peNotSymlink := true }

/-- `duplicate_path_entries_until`: the copies do not get the entries' flags. -/
def duplicatePathEntries (entries : List PathEntry) : List PathEntry :=
  freshEntries (components entries)

/-! ## Cleaning -/

def isCleanPath (entries : List PathEntry) : Cleanness :=
  if entries.any PathEntry.isDotdot then .dotdot
  else if entries.any PathEntry.isDot then .dot
  else .clean

/-- The loop of `remove_dots_from_path_list`, with whether the last entry was
one of the removed ones. -/
def removeDots : List PathEntry → List PathEntry × Bool
  | [] => ([], false)
  | work :: next =>
    let (rest, last) := removeDots next
    if work.isDot then (rest, last || next.isEmpty) else (work :: rest, last)

def removeDotsFromPathList (listp : PathEntryList) : PathEntryList :=
  let (entries, last) := removeDots listp.plFirst
  { plFirst := entries
    plFlags :=
      { listp.plFlags with hasTrailingSlash := listp.plFlags.hasTrailingSlash || last } }

/-! ## Facts about components -/

@[simp] theorem components_nil : components [] = [] := rfl

@[simp] theorem components_cons (e : PathEntry) (es : List PathEntry) :
    components (e :: es) = e.pePathComponent :: components es := rfl

variable {cs' : List Component} (s : CStr) (es : List PathEntry) (cs : List Component)
  (trailing : Bool) {listp : PathEntryList}

@[simp] theorem components_append (es' : List PathEntry) :
    components (es ++ es') = components es ++ components es' := map_append

@[simp] theorem components_reverse :
    components es.reverse = (components es).reverse := map_reverse

@[simp] theorem components_freshEntries : components (freshEntries cs) = cs := by
  simp [components, freshEntries, Function.comp_def]

@[simp] theorem components_duplicate : components (duplicatePathEntries es) = components es :=
  components_freshEntries _

@[simp] theorem components_setNotSymlink :
    components (setNotSymlinkInPathEntries es) = components es := by
  simp [components, setNotSymlinkInPathEntries, Function.comp_def]

theorem components_eq_nil {es : List PathEntry} : components es = [] ↔ es = [] :=
  map_eq_nil_iff

theorem isEmpty_components : (components es).isEmpty = es.isEmpty := isEmpty_map

theorem isEmpty_freshEntries : (freshEntries cs).isEmpty = cs.isEmpty := isEmpty_map

theorem freshEntries_cons (c : Component) (cs : List Component) :
    freshEntries (c :: cs) = { pePathComponent := c } :: freshEntries cs := rfl

@[simp] theorem freshEntries_append (cs' : List Component) :
    freshEntries (cs ++ cs') = freshEntries cs ++ freshEntries cs' := map_append

@[simp] theorem freshEntries_eq_nil {cs : List Component} : freshEntries cs = [] ↔ cs = [] :=
  map_eq_nil_iff

/-! ## Clean paths -/

/-- A path without `.` and `..`. -/
structure Clean (cs : List Component) : Prop where
  no_dot : Component.dot ∉ cs
  no_dotdot : Component.dotdot ∉ cs

theorem clean_nil : Clean [] := ⟨not_mem_nil, not_mem_nil⟩

theorem Clean.append {cs : List Component} (h : Clean cs) (h' : Clean cs') : Clean (cs ++ cs') := by
  refine ⟨fun hd => ?_, fun hd => ?_⟩
  · rcases mem_append.1 hd with hd | hd
    · exact h.no_dot hd
    · exact h'.no_dot hd
  · rcases mem_append.1 hd with hd | hd
    · exact h.no_dotdot hd
    · exact h'.no_dotdot hd

theorem Clean.subset {cs : List Component} (h : Clean cs) (hsub : cs' ⊆ cs) : Clean cs' :=
  ⟨fun hd => h.no_dot (hsub hd), fun hd => h.no_dotdot (hsub hd)⟩

theorem Clean.push {before rest : List PathEntry} {e : PathEntry}
    (h : Clean (components before.reverse)) (hdot : dot ∉ components (e :: rest))
    (hdotdot : e.pePathComponent ≠ dotdot) :
    Clean (components (e :: before).reverse) := by
  rw [reverse_cons, components_append]
  refine h.append ⟨fun hm => hdot ?_, fun hm => hdotdot (mem_singleton.1 hm).symm⟩
  rw [mem_singleton.1 hm]
  exact mem_cons_self

theorem any_isDotdot : es.any PathEntry.isDotdot = true ↔ dotdot ∈ components es := by
  simp [PathEntry.isDotdot, components]

theorem any_isDot : es.any PathEntry.isDot = true ↔ dot ∈ components es := by
  simp [PathEntry.isDot, components]

theorem isCleanPath_eq_clean {es : List PathEntry} :
    isCleanPath es = .clean ↔ Clean (components es) := by
  unfold isCleanPath
  constructor
  · intro h
    split at h
    · cases h
    · rename_i hdd
      split at h
      · cases h
      · rename_i hd
        exact ⟨fun hm => hd ((any_isDot es).2 hm), fun hm => hdd ((any_isDotdot es).2 hm)⟩
  · intro h
    rw [if_neg (fun hdd => h.no_dotdot ((any_isDotdot es).1 hdd)),
      if_neg (fun hd => h.no_dot ((any_isDot es).1 hd))]

theorem isCleanPath_eq_dotdot {es : List PathEntry} :
    isCleanPath es = .dotdot ↔ dotdot ∈ components es := by
  unfold isCleanPath
  rw [← any_isDotdot]
  constructor
  · intro h
    split at h
    · assumption
    · split at h <;> cases h
  · intro h
    rw [if_pos h]

/-! ## Removing `.` -/

theorem removeDots_fst : (removeDots es).1 = es.filter fun e => !e.isDot := by
  induction es with
  | nil => rfl
  | cons e es ih =>
    rw [removeDots]
    cases he : e.isDot with
    | true => simp [he, ih]
    | false => simp [he, ih]

theorem removeDots_snd :
    (removeDots es).2 = decide ((components es).getLast? = some dot) := by
  induction es with
  | nil => rfl
  | cons e es ih =>
    rw [removeDots]
    cases es with
    | nil => cases he : e.isDot <;> simpa [removeDots, PathEntry.isDot] using he
    | cons e' es =>
      rw [components_cons, components_cons, getLast?_cons_cons, ← components_cons, ← ih]
      cases he : e.isDot <;> simp

theorem components_removeDots (listp : PathEntryList) :
    components (removeDotsFromPathList listp).plFirst =
      (components listp.plFirst).filter (· ≠ dot) := by
  change components (removeDots listp.plFirst).1 = _
  rw [removeDots_fst, components, components, filter_map]
  congr 1
  refine filter_congr fun e _ => ?_
  simp [PathEntry.isDot]

theorem dot_not_mem_removeDots (listp : PathEntryList) :
    dot ∉ components (removeDotsFromPathList listp).plFirst := by
  rw [components_removeDots]
  intro h
  simpa using of_mem_filter h

theorem clean_removeDots (h : dotdot ∉ components listp.plFirst) :
    Clean (components (removeDotsFromPathList listp).plFirst) := by
  refine ⟨dot_not_mem_removeDots listp, fun hm => h ?_⟩
  rw [components_removeDots] at hm
  exact mem_of_mem_filter hm

theorem removeDotsFromPathList_of_clean
    (h : Clean (components listp.plFirst)) : removeDotsFromPathList listp = listp := by
  have hlast : (removeDots listp.plFirst).2 = false := by
    rw [removeDots_snd]
    exact decide_eq_false fun hl => h.no_dot (mem_of_getLast? hl)
  have hentries : (removeDots listp.plFirst).1 = listp.plFirst := by
    rw [removeDots_fst, filter_eq_self]
    intro e he
    simp only [PathEntry.isDot, Bool.not_eq_true', decide_eq_false_iff_not]
    exact fun heq => h.no_dot (heq ▸ mem_map_of_mem he)
  obtain ⟨es, flags⟩ := listp
  simp only [removeDotsFromPathList] at hlast hentries ⊢
  rw [hlast, hentries, Bool.or_false]

def withoutDots (cs : List Component) : List Component := cs.filter (· ≠ Component.dot)

theorem withoutDots_append (cs' : List Component) :
    withoutDots (cs ++ cs') = withoutDots cs ++ withoutDots cs' := filter_append _ _

theorem withoutDots_of_clean {cs : List Component} (h : Clean cs) : withoutDots cs = cs := by
  refine filter_eq_self.2 fun c hc => ?_
  simpa using fun heq : c = dot => h.no_dot (heq ▸ hc)

theorem dotdot_mem_withoutDots {cs : List Component} :
    dotdot ∈ withoutDots cs ↔ dotdot ∈ cs := by
  rw [withoutDots, mem_filter]
  exact and_iff_left (by decide)

/-! ## Splitting what was printed -/

@[simp] theorem splitPathToPathEntries_entries :
    (splitPathToPathEntries s).1 = freshEntries (tokens '/' s) := by
  simp [splitPathToPathEntries]

@[simp] theorem splitPathToPathEntries_flags :
    (splitPathToPathEntries s).2 =
      { absolute := s.head? = some '/', hasTrailingSlash := openEnd '/' s } := by
  simp [splitPathToPathEntries]

@[simp] theorem splitPathToPathList_plFirst :
    (splitPathToPathList s).plFirst = freshEntries (tokens '/' s) :=
  splitPathToPathEntries_entries s

@[simp] theorem splitPathToPathList_plFlags :
    (splitPathToPathList s).plFlags =
      { absolute := s.head? = some '/', hasTrailingSlash := openEnd '/' s } :=
  splitPathToPathEntries_flags s

theorem head?_append_absolute {s : CStr} (h : s.head? = some '/') (rest : CStr) :
    (s ++ rest).head? = some '/' := by
  rw [head?_append, h]
  rfl

theorem splitPathToPathList_absolute {s : CStr} (h : s.head? = some '/') :
    splitPathToPathList s =
      { plFirst := freshEntries (tokens '/' s)
        plFlags := { absolute := true, hasTrailingSlash := openEnd '/' s } } := by
  have hentries := splitPathToPathList_plFirst s
  have hflags := splitPathToPathList_plFlags s
  rw [decide_eq_true h] at hflags
  rw [← hentries, ← hflags]

@[simp] theorem appendPathEntries_fst (head newEntries : List PathEntry) :
    (appendPathEntries head newEntries).1 = head ++ newEntries := by
  cases head <;> rfl

theorem appendPathEntries_snd_of_ne_nil {head : List PathEntry} (newEntries : List PathEntry)
    (h : head ≠ []) : (appendPathEntries head newEntries).2 = head ++ newEntries := by
  obtain ⟨e, es, rfl⟩ := exists_cons_of_ne_nil h
  rfl

def absoluteString (cs : List Component) (trailing : Bool) : CStr :=
  match cs with
  | [] => ['/']
  | c :: cs => '/' :: Token.join '/' (c :: cs) ++ (if trailing then ['/'] else [])

theorem pathEntriesToString_absolute (entries : List PathEntry) {flags : PathFlags}
    (h : flags.absolute = true) :
    pathEntriesToString entries flags =
      absoluteString (components entries) flags.hasTrailingSlash := by
  cases entries with
  | nil => rfl
  | cons e es =>
    have hlast : ('/' :: join '/' (components (e :: es))).getLast? ≠ some '/' := by
      rw [components_cons, getLast?_cons_of_ne_nil (join_cons_ne_nil _ _)]
      exact getLast?_join _
    cases ht : flags.hasTrailingSlash with
    | false => simp [pathEntriesToString, absoluteString, h, ht]
    | true =>
      simp only [components_cons] at hlast
      simp [pathEntriesToString, absoluteString, h, ht, hlast]

@[simp] theorem tokens_absoluteString : tokens '/' (absoluteString cs trailing) = cs := by
  cases cs with
  | nil => rfl
  | cons c cs =>
    cases trailing with
    | false => simp [absoluteString]
    | true => simp [absoluteString, tokens_append_sep]

theorem openEnd_absoluteString (c : Component) (cs : List Component) (trailing : Bool) :
    openEnd '/' (absoluteString (c :: cs) trailing) = trailing := by
  cases trailing with
  | false => simp [absoluteString, openEnd_join]
  | true => simp [absoluteString, openEnd_append_sep]

@[simp] theorem head?_absoluteString : (absoluteString cs trailing).head? = some '/' := by
  cases cs <;> rfl

theorem absoluteString_ne_nil : absoluteString cs trailing ≠ [] := by
  cases cs <;> exact cons_ne_nil _ _

theorem absoluteString_inj {cs : List Component} {t t' : Bool}
    (h : absoluteString cs t = absoluteString cs' t') : cs = cs' := by
  rw [← tokens_absoluteString cs t, h, tokens_absoluteString]

theorem pathListToString_absolute (h : listp.plFlags.absolute = true) :
    pathListToString listp =
      absoluteString (components listp.plFirst) listp.plFlags.hasTrailingSlash :=
  pathEntriesToString_absolute _ h

end Scratchbox
