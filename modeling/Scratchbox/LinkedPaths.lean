import Scratchbox.CleanerLogic
import Scratchbox.Lib.LinkedList

/-!
# Path lists in memory

In the source a path is a doubly linked list of entries: the entry that is removed is taken out by
its two links, and assertions check that the list looks as expected. The functions of `Dotdots.lean`
are modelled here on cells in memory, with the assertions. They do the same as the functions on
lists (`cleanDotdotsLinked_eq`, `cleanVirtualPathLinked_eq`), so no assertion about the links fails,
and no cell is used after it was freed.
-/

namespace Scratchbox

open LinkedList List Except

/-! ## Entries -/

/-- `struct path_entry_list`, with the memory in which its entries are. -/
structure LinkedPath where
  mem : Memory PathEntry
  plFirst : Option Nat
  plFlags : PathFlags

/-- The use of a NULL pointer or of a cell that is not there ends the run. -/
def known {α : Type} : Option α → Except Fault α
  | none => .error .nullPointer
  | some a => .ok a

namespace LinkedPath

def entries (l : LinkedPath) : Except Fault (List PathEntry) :=
  known (l.mem.valuesUntil none l.mem.fresh l.plFirst)

/-- `duplicate_path_list_until`: the entries up to the given one. -/
def entriesUntil (l : LinkedPath) : Option Nat → Except Fault (List PathEntry)
  | none => .ok []
  | some last => known (l.mem.valuesUntil (some last) l.mem.fresh l.plFirst)

/-- `PATH_FLAGS_HAS_TRAILING_SLASH` is set when the last component is removed. -/
def setTrailingSlashIf (l : LinkedPath) (last : Bool) : LinkedPath :=
  { l with plFlags := l.plFlags.setTrailingSlashIf last }

end LinkedPath

/-- `remove_path_entry`: the list, and the entry behind the removed one. -/
def removePathEntry (l : LinkedPath) (pEntry : Nat) : Except Fault (LinkedPath × Option Nat) := do
  let entry ← known (l.mem.cells pEntry)
  match entry.prev with
  | some prev => do
    let mem ← known (l.mem.setNext prev entry.next)
    let mem ← known (mem.setPrevOf entry.next (some prev))
    pure ({ l with mem := mem.free pEntry }, entry.next)
  | none =>
    if l.plFirst ≠ some pEntry then .error .assertion
    else do
      let mem ← known (l.mem.setPrevOf entry.next none)
      pure ({ l with mem := mem.free pEntry, plFirst := entry.next }, entry.next)

/-- The first half of `remove_dotdot_entry_and_prev_entry`. -/
def removePrevEntry (l : LinkedPath) (dotdot : Nat) (preventry : Option Nat) :
    Except Fault LinkedPath :=
  match preventry with
  | some prev => do
    let (l, work) ← removePathEntry l prev
    if work ≠ some dotdot then .error .assertion else pure l
  | none => if l.plFirst ≠ some dotdot then .error .assertion else .ok l

def removeDotdotEntryAndPrevEntry (l : LinkedPath) (work : Nat) :
    Except Fault (LinkedPath × Option Nat) := do
  let dotdot ← known (l.mem.cells work)
  let l ← removePrevEntry l work dotdot.prev
  removePathEntry l work

/-- The loop of `remove_dots_from_path_list`. -/
def removeDotsLinked : Nat → LinkedPath → Option Nat → Except Fault LinkedPath
  | _, l, none => .ok l
  | 0, _, some _ => .error .tooManyRestarts
  | n + 1, l, some work => do
    let entry ← known (l.mem.cells work)
    if entry.value.isDot then do
      let (l, next) ← removePathEntry (l.setTrailingSlashIf entry.next.isNone) work
      removeDotsLinked n l next
    else removeDotsLinked n l entry.next

/-- `append_path_entries` for new entries that are not empty. -/
def appendEntriesLinked (mem : Memory PathEntry) (head : Option Nat) (newEntries : Nat) :
    Except Fault (Memory PathEntry × Option Nat) :=
  match head with
  | none => .ok (mem, some newEntries)
  | some first => do
    let work ← known (mem.endOf mem.fresh first)
    let mem ← known (mem.setNext work (some newEntries))
    let mem ← known (mem.setPrev newEntries (some work))
    pure (mem, some first)

/-- The list is cut before `work`, and the part before it is replaced by new entries. -/
def replaceParent (l : LinkedPath) (work : Nat) (realEntries : List PathEntry) :
    Except Fault LinkedPath := do
  let entry ← known (l.mem.cells work)
  let prev ← known entry.prev
  let real := newNodes l.mem.fresh realEntries
  let mem ← known (l.mem.allocList none realEntries)
  let mem ← known (mem.setNext prev none)
  let mem ← known (mem.setPrev work none)
  let (mem, first) ← appendEntriesLinked mem (firstOf real none) work
  let mem ← known (mem.freeList mem.fresh l.plFirst)
  pure { l with mem, plFirst := first }

/-! ## The three steps -/

section Steps

variable {m : Type → Type} [Monad m]

/-- A computation on the memory inside of the cleaner. -/
def ParentOps.ofExcept {α : Type} (ops : ParentOps m) : Except Fault α → m α
  | .ok a => pure a
  | .error f => ops.crash f

/-- Step 1. -/
def dropLeadingLinked (ops : ParentOps m) : Nat → LinkedPath → Option Nat → m LinkedPath
  | _, l, none => pure l
  | 0, _, some _ => ops.crash .tooManyRestarts
  | n + 1, l, some work => do
    let entry ← ops.ofExcept (known (l.mem.cells work))
    if entry.value.isDotdot then do
      let (l, next) ← ops.ofExcept
        (removePathEntry (l.setTrailingSlashIf entry.next.isNone) work)
      ops.evaluated []
      dropLeadingLinked ops n l next
    else pure l

/-- Whether the entry before a `..` is the root, or known not to be a symbolic link. -/
def prevIsKnown (l : LinkedPath) : Option Nat → Except Fault Bool
  | none => .ok true
  | some prev => (known (l.mem.cells prev)).map fun entry => entry.value.peNotSymlink

/-- Step 2, with whether some `..` was kept. -/
def removeKnownLinked (ops : ParentOps m) :
    Nat → LinkedPath → Bool → Option Nat → m (LinkedPath × Bool)
  | _, l, nontrivial, none => pure (l, nontrivial)
  | 0, _, _, some _ => ops.crash .tooManyRestarts
  | n + 1, l, nontrivial, some work => do
    let entry ← ops.ofExcept (known (l.mem.cells work))
    if entry.value.isDotdot then do
      if ← ops.ofExcept (prevIsKnown l entry.prev) then do
        let dir ← ops.ofExcept (l.entriesUntil entry.prev)
        let (l, next) ← ops.ofExcept
          (removeDotdotEntryAndPrevEntry (l.setTrailingSlashIf entry.next.isNone) work)
        ops.evaluated (components dir)
        removeKnownLinked ops n l nontrivial next
      else removeKnownLinked ops n l true entry.next
    else removeKnownLinked ops n l nontrivial entry.next

/-- Step 3. -/
def resolveDotdotsLinked (ops : ParentOps m)
    (restart : LinkedPath → m (Except Errno PathEntryList)) :
    Nat → LinkedPath → Option Nat → m (Except Errno PathEntryList)
  | _, l, none => do
    let entries ← ops.ofExcept l.entries
    pure (.ok ⟨entries, l.plFlags⟩)
  | 0, _, some _ => ops.crash .tooManyRestarts
  | n + 1, l, some work => do
    let entry ← ops.ofExcept (known (l.mem.cells work))
    if entry.value.isDotdot then do
      let dir ← ops.ofExcept (l.entriesUntil entry.prev)
      let absPathToParent : PathEntryList := ⟨duplicatePathEntries dir, l.plFlags⟩
      let origPathToParent := pathListToString absPathToParent
      if isCleanPath absPathToParent.plFirst ≠ .clean then ops.crash .assertion
      else do
        match ← ops.resolveParent absPathToParent with
        | .error err => pure (.error err)
        | .ok none => ops.crash .nullPointer
        | .ok (some resultBuf) =>
          if origPathToParent ≠ resultBuf then do
            let l ← ops.ofExcept (replaceParent l work
              (setNotSymlinkInPathEntries (splitPathToPathEntries resultBuf).1))
            restart l
          else do
            ops.evaluated (components dir)
            let (l, next) ← ops.ofExcept
              (removeDotdotEntryAndPrevEntry (l.setTrailingSlashIf entry.next.isNone) work)
            resolveDotdotsLinked ops restart n l next
    else resolveDotdotsLinked ops restart n l entry.next

/-- One pass of `clean_dotdots_from_path`. -/
def cleanDotdotsPassLinked (ops : ParentOps m)
    (restart : LinkedPath → m (Except Errno PathEntryList)) (absPath : LinkedPath) :
    m (Except Errno PathEntryList) :=
  if !absPath.plFlags.absolute then ops.crash .assertion
  else do
    let l ← dropLeadingLinked ops absPath.mem.fresh absPath absPath.plFirst
    let entries ← ops.ofExcept l.entries
    if isCleanPath entries ≠ .dotdot then pure (.ok ⟨entries, l.plFlags⟩)
    else do
      let (l, nontrivial) ← removeKnownLinked ops l.mem.fresh l false l.plFirst
      if !nontrivial then do
        let entries ← ops.ofExcept l.entries
        pure (.ok ⟨entries, l.plFlags⟩)
      else resolveDotdotsLinked ops restart l.mem.fresh l l.plFirst

/-- `clean_dotdots_from_path` with at most the given number of restarts. The list is returned as
its caller reads it. -/
def cleanDotdotsLinked (ops : ParentOps m) : Nat → LinkedPath → m (Except Errno PathEntryList)
  | 0 => cleanDotdotsPassLinked ops fun _ => ops.crash .tooManyRestarts
  | restarts + 1 => cleanDotdotsPassLinked ops (cleanDotdotsLinked ops restarts)

end Steps

/-! ## Removing entries -/

/-- The cells of the list. -/
structure HoldsEntries (l : LinkedPath) (nodes : Nodes PathEntry) : Prop where
  chain : Chain l.mem nodes
  first : l.plFirst = firstOf nodes none

section Removal

variable {l : LinkedPath} {xs ys nodes : Nodes PathEntry} {a : Nat} {e : PathEntry}

theorem HoldsEntries.setTrailingSlashIf (h : HoldsEntries l nodes) (last : Bool) :
    HoldsEntries (l.setTrailingSlashIf last) nodes := ⟨h.chain, h.first⟩

theorem HoldsEntries.move (h : HoldsEntries l (xs ++ (a, e) :: ys)) :
    HoldsEntries l ((xs ++ [(a, e)]) ++ ys) := by
  rwa [append_assoc, singleton_append]

theorem plFlags_removed {l₁ l' : LinkedPath} {last rest : Bool}
    (hremoved : l₁.plFlags = (l.setTrailingSlashIf last).plFlags)
    (hrest : l'.plFlags = l₁.plFlags.setTrailingSlashIf rest) :
    l'.plFlags = l.plFlags.setTrailingSlashIf (rest || last) := by
  rw [hrest, hremoved, LinkedPath.setTrailingSlashIf, setTrailingSlashIf_twice, Bool.or_comm]

theorem HoldsEntries.cell (h : HoldsEntries l (xs ++ (a, e) :: ys)) :
    l.mem.cells a = some ⟨e, lastOf none xs, firstOf ys none⟩ := h.chain.cell

theorem HoldsEntries.entries (h : HoldsEntries l nodes) : l.entries = .ok (values nodes) := by
  rw [LinkedPath.entries, h.first, valuesUntil_none h.chain.linked h.chain.length_le]
  rfl

theorem HoldsEntries.entriesUntil (h : HoldsEntries l (xs ++ ys)) :
    l.entriesUntil (lastOf none xs) = .ok (values xs) := by
  cases xs with
  | nil => rfl
  | cons x xs =>
    obtain ⟨a, e⟩ := x
    have hlength := h.chain.length_le
    have hlt : xs.length < l.mem.fresh := by
      rw [length_append, length_cons] at hlength
      omega
    have hvalues := valuesUntil_last h.chain.linked h.chain.nodup hlt
    obtain ⟨last, hlast, -⟩ := exists_lastOf a xs
    rw [lastOf, hlast, LinkedPath.entriesUntil, h.first, ← hlast]
    exact congrArg known hvalues

theorem removePathEntry_spec (h : HoldsEntries l (xs ++ (a, e) :: ys)) :
    ∃ l', removePathEntry l a = .ok (l', firstOf ys none) ∧ HoldsEntries l' (xs ++ ys) ∧
      l'.plFlags = l.plFlags := by
  obtain ⟨mem₁, mem₂, hnext, hprev, hchain⟩ := h.chain.unlink
  rw [removePathEntry, h.cell]
  rcases eq_nil_or_concat xs with rfl | ⟨init, ⟨b, f⟩, rfl⟩
  · obtain rfl : l.mem = mem₁ := Option.some.inj hnext
    have hfirst : l.plFirst = some a := h.first
    refine ⟨{ l with mem := mem₂.free a, plFirst := firstOf ys none }, ?_, ⟨hchain, rfl⟩, rfl⟩
    simp only [known, lastOf, ok_bind] at hprev ⊢
    rw [if_neg (not_not_intro hfirst), hprev]
    rfl
  · rw [concat_eq_append] at h hnext hprev hchain ⊢
    rw [lastOf_append] at hnext hprev ⊢
    refine ⟨{ l with mem := mem₂.free a }, ?_, ⟨hchain, ?_⟩, rfl⟩
    · simp only [known, lastOf, ok_bind, Memory.setNextOf] at hnext hprev ⊢
      simp only [hnext, ok_bind, hprev]
      rfl
    · have hfirst := h.first
      rw [firstOf_append, firstOf_append] at hfirst ⊢
      cases init with
      | nil => exact hfirst
      | cons x init => exact hfirst

theorem removeDotdotEntryAndPrevEntry_spec (h : HoldsEntries l (xs ++ (a, e) :: ys)) :
    ∃ l', removeDotdotEntryAndPrevEntry l a = .ok (l', firstOf ys none) ∧
      HoldsEntries l' (xs.dropLast ++ ys) ∧ l'.plFlags = l.plFlags := by
  rw [removeDotdotEntryAndPrevEntry, h.cell, known, ok_bind]
  rcases eq_nil_or_concat xs with rfl | ⟨init, ⟨b, f⟩, rfl⟩
  · have hfirst : l.plFirst = some a := h.first
    obtain ⟨l', hremove, hstores, hflags⟩ := removePathEntry_spec h
    refine ⟨l', ?_, hstores, hflags⟩
    rw [lastOf, removePrevEntry, if_neg (not_not_intro hfirst), ok_bind]
    exact hremove
  · rw [concat_eq_append] at h ⊢
    rw [append_assoc, singleton_append] at h
    obtain ⟨l₁, hremove₁, hstores₁, hflags₁⟩ := removePathEntry_spec h
    obtain ⟨l', hremove, hstores, hflags⟩ := removePathEntry_spec hstores₁
    refine ⟨l', ?_, ?_, hflags.trans hflags₁⟩
    · rw [lastOf_append, lastOf, lastOf, removePrevEntry, hremove₁, ok_bind]
      simp only [firstOf, ne_eq, not_true_eq_false, if_false]
      exact hremove
    · rwa [dropLast_concat]

end Removal

/-! ## Replacing the path before a `..` -/

section Replacing

variable {mem : Memory PathEntry} {xs ys real : Nodes PathEntry} {a : Nat} {e : PathEntry}
  {l : LinkedPath}

theorem appendEntriesLinked_spec (hreal : Chain mem real) (hrest : Chain mem ((a, e) :: ys))
    (hdisjoint : ∀ b ∈ addresses real, b ∉ addresses ((a, e) :: ys)) :
    ∃ mem', appendEntriesLinked mem (firstOf real none) a =
        .ok (mem', firstOf (real ++ (a, e) :: ys) none) ∧ Chain mem' (real ++ (a, e) :: ys) ∧
      ∀ b, b ∉ addresses real → b ≠ a → mem'.cells b = mem.cells b := by
  cases real with
  | nil => exact ⟨mem, rfl, hrest, fun _ _ _ => rfl⟩
  | cons x real =>
    obtain ⟨r, f⟩ := x
    have hend : mem.endOf mem.fresh r = lastOf none ((r, f) :: real) :=
      endOf_spec hreal.linked hreal.length_le
    obtain ⟨mem₁, hnext, hreal₁, hsame₁, -⟩ := hreal.linked.setNextOf hreal.nodup (some a)
    have hrest₁ : Linked mem₁.cells none ((a, e) :: ys) none :=
      hrest.linked.congr fun b hb => hsame₁ b fun hmem => hdisjoint b hmem hb
    obtain ⟨mem₂, hprev, hrest₂, hsame₂, -⟩ :=
      hrest₁.setPrev (nodup_cons.1 hrest.nodup).1 (lastOf none ((r, f) :: real))
    have hreal₂ : Linked mem₂.cells none ((r, f) :: real) (some a) :=
      hreal₁.congr fun b hb => hsame₂ b fun heq => hdisjoint b hb (heq ▸ mem_cons_self)
    obtain ⟨last, hlast, -⟩ := exists_lastOf r real
    have hlast' : lastOf none ((r, f) :: real) = some last := hlast
    refine ⟨mem₂, ?_, ⟨linked_append.2 ⟨hreal₂, hrest₂⟩, ?_⟩, fun b hb hne => ?_⟩
    · rw [hlast'] at hend hnext hprev
      rw [firstOf, appendEntriesLinked, hend]
      simp only [known, ok_bind, Memory.setNextOf] at hnext ⊢
      simp only [hnext, ok_bind, hprev]
      rfl
    · rw [addresses_append]
      exact nodup_append.2 ⟨hreal.nodup, hrest.nodup,
        fun b hb c hc heq => hdisjoint b hb (heq ▸ hc)⟩
    · rw [hsame₂ b hne, hsame₁ b hb]

theorem replaceParent_spec (h : HoldsEntries l (xs ++ (a, e) :: ys)) (hne : xs ≠ [])
    (entries : List PathEntry) :
    ∃ l', replaceParent l a entries = .ok l' ∧
      (∃ real, HoldsEntries l' (real ++ (a, e) :: ys) ∧ values real = entries) ∧
      l'.plFlags = l.plFlags := by
  obtain ⟨init, ⟨p, f⟩, rfl⟩ := (eq_nil_or_concat xs).resolve_left hne
  rw [concat_eq_append] at h
  have hcell := h.cell
  rw [lastOf_append] at hcell
  have hfirst : l.plFirst = firstOf (init ++ [(p, f)]) none := by
    rw [h.first, firstOf_append, firstOf_append]
    cases init <;> rfl
  obtain ⟨hbefore, hafter⟩ := linked_append.1 h.chain.linked
  obtain ⟨hxs, hys, haxs, hays, hparts⟩ := nodup_parts h.chain.nodup
  have hp : p ∉ addresses init := by
    rw [addresses_append] at hxs
    exact fun hmem => (nodup_append.1 hxs).2.2 p hmem p mem_cons_self rfl
  have hpxs : p ∈ addresses (init ++ [(p, f)]) := by simp [addresses]
  have hxsrest : ∀ b ∈ addresses (init ++ [(p, f)]), b ∉ addresses ((a, e) :: ys) := by
    intro b hb hmem
    rcases mem_cons.1 hmem with rfl | hmem
    · exact haxs hb
    · exact hparts b hb hmem
  -- the new entries are made behind all that were ever used
  obtain ⟨mem₁, halloc, hreal₁, hsame₁⟩ :=
    allocList_spec (chain_nil l.mem).linked (chain_nil l.mem).nodup entries
  rw [nil_append] at hreal₁
  generalize hnew : newNodes l.mem.fresh entries = real at hreal₁
  have hnewle : ∀ b ∈ addresses real, l.mem.fresh ≤ b := by
    intro b hb
    rw [← hnew] at hb
    exact le_of_mem_newNodes hb
  have hnodup : (addresses real).Nodup := by
    rw [← hnew]
    exact nodup_newNodes _ _
  have hbefore₁ := hbefore.congr fun b hb =>
    hsame₁ b (hbefore.lt_fresh hb) not_mem_nil
  have hafter₁ := hafter.congr fun b hb =>
    hsame₁ b (hafter.lt_fresh hb) not_mem_nil
  have hrealxs : ∀ b ∈ addresses real, b ∉ addresses (init ++ [(p, f)]) := fun b hb hmem =>
    Nat.not_lt.2 (hnewle b hb) (hbefore.lt_fresh hmem)
  have hrealrest : ∀ b ∈ addresses real, b ∉ addresses ((a, e) :: ys) := fun b hb hmem =>
    Nat.not_lt.2 (hnewle b hb) (hafter.lt_fresh hmem)
  -- the list is cut
  obtain ⟨mem₂, hnext, hbefore₂, hsame₂, -⟩ := hbefore₁.setNext hp none
  have hafter₂ := hafter₁.congr fun b hb =>
    hsame₂ b fun heq => hxsrest p hpxs (heq ▸ hb)
  have hreal₂ := hreal₁.congr fun b hb => hsame₂ b fun heq => hrealxs b hb (heq ▸ hpxs)
  obtain ⟨mem₃, hprev, hafter₃, hsame₃, -⟩ := hafter₂.setPrev hays none
  have hbefore₃ := hbefore₂.congr fun b hb => hsame₃ b fun heq => haxs (heq ▸ hb)
  have hreal₃ := hreal₂.congr fun b hb =>
    hsame₃ b fun heq => hrealrest b hb (heq ▸ mem_cons_self)
  -- and joined with the new entries
  obtain ⟨mem₄, happend, hchain₄, hsame₄⟩ := appendEntriesLinked_spec ⟨hreal₃, hnodup⟩
    ⟨hafter₃, nodup_cons.2 ⟨hays, hys⟩⟩ hrealrest
  have hbefore₄ : Chain mem₄ (init ++ [(p, f)]) := by
    refine ⟨hbefore₃.congr fun b hb => hsame₄ b (fun hmem => hrealxs b hmem hb) ?_, hxs⟩
    exact fun heq => haxs (heq ▸ hb)
  obtain ⟨mem₅, hfree, hsame₅⟩ :=
    freeList_spec hbefore₄.linked hbefore₄.nodup hbefore₄.length_le
  have hchain₅ : Chain mem₅ (real ++ (a, e) :: ys) := by
    refine ⟨hchain₄.linked.congr fun b hb => hsame₅ b fun hmem => ?_, hchain₄.nodup⟩
    rw [addresses_append] at hb
    rcases mem_append.1 hb with hb | hb
    · exact hrealxs b hb hmem
    · exact hxsrest b hmem hb
  refine ⟨{ l with mem := mem₅, plFirst := firstOf (real ++ (a, e) :: ys) none }, ?_,
    ⟨real, ⟨hchain₅, rfl⟩, ?_⟩, rfl⟩
  · rw [replaceParent, hcell]
    rw [lastOf] at halloc
    simp only [known, ok_bind, lastOf, hnew, halloc, hnext, hprev, happend, hfirst, hfree]
    rfl
  · rw [← hnew, values_newNodes]

theorem replaceParent_root (h : HoldsEntries l ((a, e) :: ys))
    (entries : List PathEntry) : replaceParent l a entries = .error .nullPointer := by
  have h' : HoldsEntries l ([] ++ (a, e) :: ys) := h
  rw [replaceParent, h'.cell]
  rfl

end Replacing

/-! ## The steps on cells and on lists -/

section Refinement

variable {m : Type → Type} [Monad m] {ops : ParentOps m} {l : LinkedPath} {n : Nat} {α : Type}

@[simp] theorem ParentOps.ofExcept_known (a : α) : ops.ofExcept (known (some a)) = pure a := rfl

@[simp] theorem ParentOps.ofExcept_ok (a : α) :
    ops.ofExcept (.ok a : Except Fault α) = pure a := rfl

theorem isNone_firstOf (ys : Nodes PathEntry) :
    (firstOf ys none).isNone = (values ys).isEmpty := by
  cases ys with
  | nil => rfl
  | cons y ys => rfl

variable [LawfulMonad m] {xs ys nodes : Nodes PathEntry}

theorem dropLeadingLinked_eq (ops : ParentOps m) (h : HoldsEntries l nodes)
    (hn : nodes.length ≤ n) :
    ∃ l' nodes', dropLeadingLinked ops n l (firstOf nodes none) = (do
        ((values nodes).takeWhile PathEntry.isDotdot).forM fun _ => ops.evaluated []
        pure l') ∧
      HoldsEntries l' nodes' ∧ values nodes' = (dropLeadingDotdots (values nodes)).1 ∧
      l'.plFlags = l.plFlags.setTrailingSlashIf (dropLeadingDotdots (values nodes)).2 := by
  induction nodes generalizing l n with
  | nil =>
    refine ⟨l, [], ?_, h, rfl, (setTrailingSlashIf_false _).symm⟩
    cases n <;> simp [dropLeadingLinked, firstOf, values]
  | cons x ys ih =>
    obtain ⟨a, e⟩ := x
    obtain ⟨n, rfl⟩ := Nat.exists_eq_succ_of_ne_zero (Nat.ne_zero_of_lt hn)
    have h' : HoldsEntries l ([] ++ (a, e) :: ys) := h
    have hvalues : values ((a, e) :: ys) = e :: values ys := rfl
    rw [hvalues, firstOf, dropLeadingLinked, h'.cell]
    simp only [ParentOps.ofExcept_known, pure_bind, isNone_firstOf]
    cases he : e.isDotdot with
    | false =>
      refine ⟨l, (a, e) :: ys, ?_, h, ?_, ?_⟩
      · simp [he]
      · simp [dropLeadingDotdots, he, hvalues]
      · simp [dropLeadingDotdots, he]
    | true =>
      obtain ⟨l₁, hremove, hholds, hflags⟩ :=
        removePathEntry_spec (h'.setTrailingSlashIf (values ys).isEmpty)
      obtain ⟨l', nodes', hloop, hholds', hvalues', hflags'⟩ :=
        ih hholds (Nat.le_of_succ_le_succ hn)
      refine ⟨l', nodes', ?_, hholds', ?_, ?_⟩
      · simp [hremove, hloop, he]
      · simp [dropLeadingDotdots, he, hvalues']
      · rw [dropLeadingDotdots, if_pos he]
        exact plFlags_removed hflags hflags'

theorem prevIsKnown_root (l : LinkedPath) : prevIsKnown l none = .ok true := rfl

theorem prevIsKnown_entry {p : Nat} {prev : PathEntry}
    (h : HoldsEntries l (xs ++ (p, prev) :: ys)) :
    prevIsKnown l (some p) = .ok prev.peNotSymlink := by
  rw [prevIsKnown, h.cell]
  rfl

theorem values_reverse_concat (init : Nodes PathEntry) (p : Nat) (prev : PathEntry) :
    (values (init ++ [(p, prev)])).reverse = prev :: (values init).reverse := by
  simp [values]

theorem removeKnownLinked_eq (ops : ParentOps m) (h : HoldsEntries l (xs ++ ys))
    (hn : ys.length ≤ n) (nontrivial : Bool) :
    ∃ l' nodes', removeKnownLinked ops n l nontrivial (firstOf ys none) = (do
        (removeKnownDotdots (values xs).reverse (values ys)).dirs.forM ops.evaluated
        pure (l', nontrivial ||
          (removeKnownDotdots (values xs).reverse (values ys)).hasNontrivialDotdots)) ∧
      HoldsEntries l' nodes' ∧
      values nodes' = (removeKnownDotdots (values xs).reverse (values ys)).entries ∧
      l'.plFlags = l.plFlags.setTrailingSlashIf
        (removeKnownDotdots (values xs).reverse (values ys)).lastRemoved := by
  induction ys generalizing l xs n nontrivial with
  | nil =>
    refine ⟨l, xs, ?_, by rwa [append_nil] at h, ?_, ?_⟩
    · cases n <;> simp [removeKnownLinked, firstOf, values, removeKnownDotdots]
    · simp [values, removeKnownDotdots]
    · simp [values, removeKnownDotdots]
  | cons x ys ih =>
    obtain ⟨a, e⟩ := x
    obtain ⟨n, rfl⟩ := Nat.exists_eq_succ_of_ne_zero (Nat.ne_zero_of_lt hn)
    have hlength := Nat.le_of_succ_le_succ hn
    have hvalues : values ((a, e) :: ys) = e :: values ys := rfl
    rw [hvalues, firstOf, removeKnownLinked, h.cell]
    simp only [ParentOps.ofExcept_known, pure_bind, isNone_firstOf]
    cases he : e.isDotdot with
    | false =>
      obtain ⟨l', nodes', hloop, hrest⟩ := ih h.move hlength nontrivial
      rw [values_reverse_concat] at hloop hrest
      rw [removeKnownDotdots_ordinary he]
      refine ⟨l', nodes', ?_, hrest⟩
      simp [hloop]
    | true =>
      have hdir := h.entriesUntil
      obtain ⟨l₁, hremove, hholds, hflags⟩ :=
        removeDotdotEntryAndPrevEntry_spec (h.setTrailingSlashIf (values ys).isEmpty)
      obtain ⟨l', nodes', hloop, hholds', hvalues', hflags'⟩ := ih hholds hlength nontrivial
      rcases eq_nil_or_concat xs with rfl | ⟨init, ⟨p, prev⟩, rfl⟩
      · rw [dropLast_nil] at hloop hvalues' hflags'
        have hnil : (values ([] : Nodes PathEntry)).reverse = [] := rfl
        rw [hnil] at hloop hvalues' hflags' ⊢
        rw [removeKnownDotdots_root he]
        refine ⟨l', nodes', ?_, hholds', hvalues', ?_⟩
        · have hdir' : l.entriesUntil none = .ok [] := rfl
          simp [lastOf, prevIsKnown_root, hdir', hremove, hloop]
        · exact plFlags_removed hflags hflags'
      · rw [concat_eq_append] at *
        have hprev := h
        rw [append_assoc, singleton_append] at hprev
        have hlast : lastOf none (init ++ [(p, prev)]) = some p := by rw [lastOf_append]; rfl
        rw [hlast] at hdir
        rw [hlast, prevIsKnown_entry hprev, values_reverse_concat]
        cases hknown : prev.peNotSymlink with
        | false =>
          obtain ⟨l', nodes', hloop, hrest⟩ := ih h.move hlength true
          rw [values_reverse_concat, values_reverse_concat] at hloop hrest
          rw [removeKnownDotdots_unmarked he hknown]
          refine ⟨l', nodes', ?_, hrest⟩
          simp [hloop]
        | true =>
          rw [dropLast_concat] at hloop hvalues' hflags'
          rw [removeKnownDotdots_marked he hknown]
          refine ⟨l', nodes', ?_, hholds', hvalues', ?_⟩
          · have hsingle : values [(p, prev)] = [prev] := rfl
            simp [hdir, hremove, hloop, hsingle]
          · exact plFlags_removed hflags hflags'

variable {restart : LinkedPath → m (Except Errno PathEntryList)}
  {restart' : PathEntryList → m (Except Errno PathEntryList)}

/-- Nothing is done after a crash. -/
def ParentOps.Stops (ops : ParentOps m) : Prop :=
  ∀ {α β : Type} (f : Fault) (next : α → m β), (ops.crash f >>= next) = ops.crash f

theorem resolveDotdotsLinked_eq (hstops : ops.Stops)
    (hrestart : ∀ l nodes, HoldsEntries l nodes → restart l = restart' ⟨values nodes, l.plFlags⟩)
    (h : HoldsEntries l (xs ++ ys)) (hn : ys.length ≤ n) :
    resolveDotdotsLinked ops restart n l (firstOf ys none) =
      resolveDotdots ops restart' l.plFlags (values xs).reverse (values ys) := by
  induction ys generalizing l xs n with
  | nil =>
    rw [append_nil] at h
    have hentries := h.entries
    cases n <;> simp [resolveDotdotsLinked, firstOf, hentries, values, resolveDotdots]
  | cons x ys ih =>
    obtain ⟨a, e⟩ := x
    obtain ⟨n, rfl⟩ := Nat.exists_eq_succ_of_ne_zero (Nat.ne_zero_of_lt hn)
    have hlength := Nat.le_of_succ_le_succ hn
    have hvalues : values ((a, e) :: ys) = e :: values ys := rfl
    rw [hvalues, firstOf, resolveDotdotsLinked, resolveDotdots, h.cell]
    simp only [ParentOps.ofExcept_known, pure_bind, isNone_firstOf]
    cases he : e.isDotdot with
    | false =>
      have hloop := ih h.move hlength
      rw [values_reverse_concat] at hloop
      simpa using hloop
    | true =>
      simp only [if_true, h.entriesUntil, ParentOps.ofExcept_ok, pure_bind, reverse_reverse]
      split
      · rfl
      · refine bind_congr fun located => ?_
        rcases located with err | _ | buf
        · rfl
        · rfl
        · dsimp only
          split
          · -- the parent is elsewhere
            rcases eq_nil_or_concat xs with rfl | ⟨init, ⟨p, f⟩, rfl⟩
            · rw [replaceParent_root h]
              exact hstops _ _
            · rw [concat_eq_append] at h ⊢
              obtain ⟨l', hreplace, ⟨real, hholds, hreal⟩, hflags⟩ := replaceParent_spec h
                (append_ne_nil_of_right_ne_nil init (cons_ne_nil (p, f) []))
                (setNotSymlinkInPathEntries (splitPathToPathEntries buf).1)
              rw [hreplace, ParentOps.ofExcept_ok, pure_bind, hrestart l' _ hholds, hflags,
                values_append, hreal, values_reverse_concat]
              dsimp only
              rw [appendPathEntries_fst, hvalues]
          · -- the parent is where it was
            refine bind_congr fun _ => ?_
            obtain ⟨l', hremove, hholds, hflags⟩ :=
              removeDotdotEntryAndPrevEntry_spec (h.setTrailingSlashIf (values ys).isEmpty)
            have hloop := ih hholds hlength
            have htail : (values xs.dropLast).reverse = (values xs).reverse.tail := by
              rw [values, map_dropLast, tail_reverse]
              rfl
            rw [htail, hflags] at hloop
            rw [hremove, ParentOps.ofExcept_ok, pure_bind]
            exact hloop

theorem cleanDotdotsPassLinked_eq (hstops : ops.Stops)
    (hrestart : ∀ l nodes, HoldsEntries l nodes → restart l = restart' ⟨values nodes, l.plFlags⟩)
    (h : HoldsEntries l nodes) :
    cleanDotdotsPassLinked ops restart l =
      cleanDotdotsPass ops restart' ⟨values nodes, l.plFlags⟩ := by
  rw [cleanDotdotsPassLinked, cleanDotdotsPass]
  split
  · rfl
  · obtain ⟨l₁, nodes₁, hdrop, hholds₁, hvalues₁, hflags₁⟩ :=
      dropLeadingLinked_eq ops h h.chain.length_le
    rw [h.first, hdrop, bind_assoc]
    refine bind_congr fun _ => ?_
    rw [pure_bind, hholds₁.entries, ParentOps.ofExcept_ok, pure_bind, hflags₁, hvalues₁]
    dsimp only
    split
    · rfl
    · have hempty : HoldsEntries l₁ ([] ++ nodes₁) := hholds₁
      obtain ⟨l₂, nodes₂, hknown, hholds₂, hvalues₂, hflags₂⟩ :=
        removeKnownLinked_eq ops hempty hholds₁.chain.length_le false
      rw [hholds₁.first, hknown, bind_assoc, hvalues₁]
      refine bind_congr fun _ => ?_
      have hnil : (values ([] : Nodes PathEntry)).reverse = [] := rfl
      rw [hvalues₁, hnil] at hvalues₂ hflags₂
      rw [pure_bind, hnil, Bool.false_or]
      dsimp only
      split
      · rw [hholds₂.entries, ParentOps.ofExcept_ok, pure_bind, hvalues₂, hflags₂, hflags₁]
      · have hstart : HoldsEntries l₂ ([] ++ nodes₂) := hholds₂
        have hresolve := resolveDotdotsLinked_eq hstops hrestart hstart hholds₂.chain.length_le
        rw [hholds₂.first, hresolve, hnil, hvalues₂, hflags₂, hflags₁]

theorem cleanDotdotsLinked_eq (hstops : ops.Stops) (restarts : Nat) (h : HoldsEntries l nodes) :
    cleanDotdotsLinked ops restarts l =
      cleanDotdotsFromPath ops restarts ⟨values nodes, l.plFlags⟩ := by
  induction restarts generalizing l nodes with
  | zero => exact cleanDotdotsPassLinked_eq hstops (fun _ _ _ => rfl) h
  | succ restarts ih => exact cleanDotdotsPassLinked_eq hstops (fun _ _ h => ih h) h

/-! ## The cleaning before each use of a path -/

/-- The loop that removes `.`, with the cells before the work pointer and those from it on. -/
theorem removeDotsLinked_eq (h : HoldsEntries l (xs ++ ys)) (hn : ys.length ≤ n) :
    ∃ l' nodes', removeDotsLinked n l (firstOf ys none) = .ok l' ∧ HoldsEntries l' nodes' ∧
      values nodes' = values xs ++ (removeDots (values ys)).1 ∧
      l'.plFlags = l.plFlags.setTrailingSlashIf (removeDots (values ys)).2 := by
  induction ys generalizing l xs n with
  | nil =>
    refine ⟨l, xs, by cases n <;> rfl, by rwa [append_nil] at h, ?_, ?_⟩
    · exact (append_nil _).symm
    · exact (setTrailingSlashIf_false _).symm
  | cons x ys ih =>
    obtain ⟨a, e⟩ := x
    obtain ⟨n, rfl⟩ := Nat.exists_eq_succ_of_ne_zero (Nat.ne_zero_of_lt hn)
    have hlength := Nat.le_of_succ_le_succ hn
    have hvalues : values ((a, e) :: ys) = e :: values ys := rfl
    rw [hvalues, firstOf, removeDotsLinked, h.cell, removeDots, known, ok_bind]
    dsimp only
    cases he : e.isDot with
    | false =>
      obtain ⟨l', nodes', hloop, hholds, hvalues', hflags⟩ := ih h.move hlength
      refine ⟨l', nodes', hloop, hholds, ?_, hflags⟩
      rw [hvalues', values_append, append_assoc]
      rfl
    | true =>
      obtain ⟨l₁, hremove, hholds₁, hflags₁⟩ :=
        removePathEntry_spec (h.setTrailingSlashIf (values ys).isEmpty)
      obtain ⟨l', nodes', hloop, hholds, hvalues', hflags⟩ := ih hholds₁ hlength
      refine ⟨l', nodes', ?_, hholds, hvalues', ?_⟩
      · rw [if_pos rfl, isNone_firstOf, hremove, ok_bind]
        exact hloop
      · exact plFlags_removed hflags₁ hflags

/-- A list as splitting a string or copying entries makes it. -/
def linkedPath (list : PathEntryList) : Except Fault LinkedPath := do
  let mem ← known (Memory.empty.allocList none list.plFirst)
  pure ⟨mem, firstOf (newNodes 0 list.plFirst) none, list.plFlags⟩

theorem linkedPath_spec (list : PathEntryList) :
    ∃ l nodes, linkedPath list = .ok l ∧ HoldsEntries l nodes ∧ values nodes = list.plFirst ∧
      l.plFlags = list.plFlags := by
  obtain ⟨mem, halloc, hlinked, -⟩ := allocList_spec (chain_nil Memory.empty).linked
    (chain_nil Memory.empty).nodup list.plFirst
  have halloc' : Memory.empty.allocList none list.plFirst = some mem := halloc
  refine ⟨⟨mem, firstOf (newNodes 0 list.plFirst) none, list.plFlags⟩, newNodes 0 list.plFirst, ?_,
    ⟨⟨hlinked, nodup_newNodes 0 _⟩, rfl⟩, values_newNodes 0 _, rfl⟩
  rw [linkedPath, halloc']
  rfl

/-- `switch (is_clean_path(..))` as it stands before each use of a path, on cells. -/
def cleanPathLinked (ops : ParentOps m) (list : PathEntryList) :
    m (Except Errno PathEntryList) := do
  let l ← ops.ofExcept (linkedPath list)
  let entries ← ops.ofExcept l.entries
  match isCleanPath entries with
  | .clean => pure (.ok ⟨entries, l.plFlags⟩)
  | .dot => do
    let l ← ops.ofExcept (removeDotsLinked l.mem.fresh l l.plFirst)
    let entries ← ops.ofExcept l.entries
    pure (.ok ⟨entries, l.plFlags⟩)
  | .dotdot => do
    let l ← ops.ofExcept (removeDotsLinked l.mem.fresh l l.plFirst)
    let entries ← ops.ofExcept l.entries
    cleanDotdotsLinked ops (countDotdots entries) l

theorem cleanPathLinked_eq (hstops : ops.Stops) (list : PathEntryList) :
    cleanPathLinked ops list = cleanPath ops list := by
  obtain ⟨l, nodes, hlist, hholds, hvalues, hflags⟩ := linkedPath_spec list
  have hstart : HoldsEntries l ([] ++ nodes) := hholds
  obtain ⟨l₁, nodes₁, hdots, hholds₁, hvalues₁, hflags₁⟩ :=
    removeDotsLinked_eq hstart hholds.chain.length_le
  have hentries : values nodes₁ = (removeDotsFromPathList list).plFirst := by
    rw [hvalues₁, hvalues]
    rfl
  have hflags' : l₁.plFlags = (removeDotsFromPathList list).plFlags := by
    rw [hflags₁, hvalues, hflags]
    rfl
  rw [cleanPathLinked, cleanPath, hlist, ParentOps.ofExcept_ok, pure_bind, hholds.entries,
    ParentOps.ofExcept_ok, pure_bind, hvalues, hflags, hholds.first, hdots]
  cases isCleanPath list.plFirst with
  | clean => rfl
  | dot =>
    dsimp only
    rw [ParentOps.ofExcept_ok, pure_bind, hholds₁.entries, ParentOps.ofExcept_ok, pure_bind,
      hentries, hflags']
  | dotdot =>
    dsimp only
    rw [ParentOps.ofExcept_ok, pure_bind, hholds₁.entries, ParentOps.ofExcept_ok, pure_bind,
      cleanDotdotsLinked_eq hstops _ hholds₁, hentries, hflags']

end Refinement

/-- Cleaning a virtual path. -/
theorem cleanVirtualPathLinked_eq (ctx : PathMappingContext) (list : PathEntryList) :
    cleanPathLinked (virtualParentOps ctx) list = cleanVirtualPath ctx list :=
  cleanPathLinked_eq (fun _ _ => rfl) list

/-- `clean_and_log_fs_mapping_result` on cells. -/
def cleanAndLogFsMappingResultLinked (host : Host) (hostPath : CStr) :
    Except Fault (Option CStr) := do
  let split := splitPathToPathList hostPath
  match ← cleanPathLinked (hostParentOps host)
      { split with plFlags := { split.plFlags with hostPath := true } } with
  | .error _ => pure none
  | .ok list => pure (some (pathListToString list))

theorem cleanAndLogFsMappingResultLinked_eq (host : Host) (hostPath : CStr) :
    cleanAndLogFsMappingResultLinked host hostPath = cleanAndLogFsMappingResult host hostPath := by
  rw [cleanAndLogFsMappingResultLinked, cleanAndLogFsMappingResult_cleanPath]
  dsimp only
  rw [cleanPathLinked_eq fun _ _ => rfl]
  rcases cleanPath (hostParentOps host) _ with f | err | list
  · rfl
  · rfl
  · rfl

end Scratchbox
