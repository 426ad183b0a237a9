import Scratchbox.CleanInvariant

/-!
# Rules for the cleaner

The cleaner is used for virtual paths, with calls of the resolver, and for host paths, with
`realpath`. `CleanerLogic` has rules of pre- and postconditions that do not depend on this
(`ParentOps`). They show that the cleaner asks only for absolute and clean parents, and returns
absolute and clean paths. `hostLogic` is the instance for host paths.
-/

namespace Scratchbox

/-! ## Faults that are not assertions -/

/-- Neither an assertion, nor the bound on restarts, which the source does not have. -/
structure Fault.Quiet (f : Fault) : Prop where
  assertion : f ≠ .assertion
  restarts : f ≠ .tooManyRestarts

def Quiet {α : Type} (x : Except Fault α) : Prop := ∀ f, x = .error f → f.Quiet

theorem quiet_nullPointer : Fault.nullPointer.Quiet := ⟨by decide, by decide⟩

theorem quiet_outOfBounds : Fault.outOfBounds.Quiet := ⟨by decide, by decide⟩

theorem quiet_undefinedBuffer : Fault.undefinedBuffer.Quiet := ⟨by decide, by decide⟩

variable {α : Type}

theorem quiet_ok (a : α) : Quiet (.ok a : Except Fault α) := by
  intro f heq
  cases heq

theorem quiet_error {f : Fault} (h : f.Quiet) : Quiet (.error f : Except Fault α) := by
  intro f' heq
  cases heq
  exact h

theorem Quiet.bind {β : Type} {x : Except Fault α} {next : α → Except Fault β} (h : Quiet x)
    (hnext : ∀ a, x = .ok a → Quiet (next a)) : Quiet (x >>= next) := by
  cases x with
  | error f => exact quiet_error (h f rfl)
  | ok a => exact hnext a rfl

/-! ## Clean lists -/

structure CleanList (list : PathEntryList) : Prop where
  absolute : list.plFlags.absolute = true
  clean : Clean (components list.plFirst)

/-- `switch (is_clean_path(..))` as it stands before each use of a path. -/
def cleanPath {m : Type → Type} [Monad m] (ops : ParentOps m)
    (list : PathEntryList) : m (Except Errno PathEntryList) :=
  match isCleanPath list.plFirst with
  | .clean => pure (.ok list)
  | .dot => pure (.ok (removeDotsFromPathList list))
  | .dotdot => cleanDotdotsFromPath ops (countDotdots (removeDotsFromPathList list).plFirst)
    (removeDotsFromPathList list)

theorem cleanAndLogFsMappingResult_cleanPath (host : Host) (hostPath : CStr) :
    cleanAndLogFsMappingResult host hostPath =
      (fun r => r.toOption.map pathListToString) <$> cleanPath (hostParentOps host)
        ⟨(splitPathToPathList hostPath).plFirst,
          { (splitPathToPathList hostPath).plFlags with hostPath := true }⟩ := by
  rw [cleanAndLogFsMappingResult, cleanPath]
  dsimp only
  cases isCleanPath (splitPathToPathList hostPath).plFirst with
  | clean => rfl
  | dot => rfl
  | dotdot =>
    dsimp only
    rcases cleanDotdotsFromPath (hostParentOps host) _ _ with f | err | list
    · rfl
    · rfl
    · rfl

/-! ## The logic -/

def LocatedParent (r : Except Errno (Option CStr)) : Prop :=
  ∀ buf, r = .ok (some buf) → ∃ cs trailing, buf = absoluteString cs trailing ∧ Clean cs

/-- Rules of pre- and postconditions for the surroundings of the cleaner. A parent is asked for
only if it is absolute and clean; following a NULL pointer is the only crash. -/
structure CleanerLogic {m : Type → Type} [Monad m] (ops : ParentOps m) where
  holds : {α : Type} → m α → (α → Prop) → Prop
  pure {α : Type} {a : α} {P : α → Prop} : P a → holds (Pure.pure a) P
  bind {α β : Type} {x : m α} {next : α → m β} {R : α → Prop} {P : β → Prop} :
    holds x R → (∀ a, R a → holds (next a) P) → holds (x >>= next) P
  parent {list : PathEntryList} : CleanList list →
    holds (ops.resolveParent list) LocatedParent
  evaluated (dir : List Component) : holds (ops.evaluated dir) fun _ => True
  null {α : Type} {P : α → Prop} : holds (ops.crash .nullPointer) P

def ReturnsClean (r : Except Errno PathEntryList) : Prop := ∀ list, r = .ok list → CleanList list

section Cleaner

variable {m : Type → Type} [Monad m] {ops : ParentOps m} (logic : CleanerLogic ops)
  {restart : PathEntryList → m (Except Errno PathEntryList)} {list : PathEntryList}

theorem CleanerLogic.forM {β : Type} {f : β → m Unit} (hf : ∀ b, logic.holds (f b) fun _ => True)
    (l : List β) : logic.holds (l.forM f) fun _ => True := by
  induction l with
  | nil => exact logic.pure trivial
  | cons b l ih => exact logic.bind (hf b) fun _ _ => ih

theorem CleanerLogic.resolveDotdots {count : Nat}
    (hrestart : ∀ flags cs work next, flags.absolute = true → Clean cs →
      work.isDotdot = true → countDotdots next < count → Component.dot ∉ components next →
      logic.holds (restart ⟨markedEntries cs ++ work :: next, flags⟩) ReturnsClean)
    {rest : List PathEntry} {flags : PathFlags} (habs : flags.absolute = true)
    {before : List PathEntry} (hbefore : Clean (components before.reverse))
    (hdot : Component.dot ∉ components rest) (hcount : countDotdots rest ≤ count) :
    logic.holds (resolveDotdots ops restart flags before rest) ReturnsClean := by
  induction rest generalizing flags before with
  | nil =>
    refine logic.pure ?_
    rintro list heq
    cases heq
    exact ⟨habs, hbefore⟩
  | cons work next ih =>
    have hdot' : Component.dot ∉ components next := fun hm => hdot (List.mem_cons_of_mem _ hm)
    rw [Scratchbox.resolveDotdots]
    cases hwork : work.isDotdot with
    | false =>
      rw [countDotdots_cons_of_neg hwork] at hcount
      exact ih habs (hbefore.push hdot (isDotdot_eq_false.1 hwork)) hdot' hcount
    | true =>
      rw [countDotdots_cons_of_pos hwork] at hcount
      have hparent : Clean (components (duplicatePathEntries before.reverse)) := by
        rwa [components_duplicate]
      simp only [if_true, isCleanPath_eq_clean.2 hparent, ne_eq, not_true_eq_false, if_false]
      refine logic.bind (logic.parent ⟨habs, hparent⟩) fun r hr => ?_
      rcases r with err | _ | buf
      · refine logic.pure fun list heq => ?_
        cases heq
      · exact logic.null
      · obtain ⟨cs, trailing, rfl, hcs⟩ := hr _ rfl
        dsimp only
        split
        · cases before with
          | nil => exact logic.null
          | cons prev before =>
            have hentries : (appendPathEntries (setNotSymlinkInPathEntries
                (splitPathToPathEntries (absoluteString cs trailing)).1) (work :: next)).1 =
                markedEntries cs ++ work :: next := by
              simp [markedEntries]
            dsimp only
            rw [hentries]
            exact hrestart flags cs work next habs hcs hwork hcount hdot'
        · have habs' : (flags.setTrailingSlashIf next.isEmpty).absolute = true := habs
          refine logic.bind (logic.evaluated _) fun _ _ =>
            ih habs' ?_ hdot' (Nat.le_of_succ_le hcount)
          refine hbefore.subset (List.map_subset _ fun e he => ?_)
          rw [List.mem_reverse] at he ⊢
          exact List.mem_of_mem_tail he

theorem CleanerLogic.cleanDotdotsPass
    (hrestart : ∀ flags cs work next, flags.absolute = true → Clean cs →
      work.isDotdot = true → countDotdots next < dotdotsToResolve list.plFirst →
      Component.dot ∉ components next →
      logic.holds (restart ⟨markedEntries cs ++ work :: next, flags⟩) ReturnsClean)
    (habs : list.plFlags.absolute = true) (hdot : Component.dot ∉ components list.plFirst) :
    logic.holds (cleanDotdotsPass ops restart list) ReturnsClean := by
  have hsub := (dropLeadingDotdots_suffix list.plFirst).subset
  have hscan := removeKnownDotdots_sublist [] (dropLeadingDotdots list.plFirst).1
  have hdot' : ∀ {es : List PathEntry}, es ⊆ list.plFirst → Component.dot ∉ components es :=
    fun hes hm => hdot (List.map_subset _ hes hm)
  have hscanned := hdot' fun e he => hsub (hscan.subset he)
  have hreturns : ∀ {entries : List PathEntry} {flags : PathFlags}, flags.absolute = true →
      Clean (components entries) → ReturnsClean (.ok ⟨entries, flags⟩) := by
    rintro entries flags hflags hclean _ heq
    cases heq
    exact ⟨hflags, hclean⟩
  rw [Scratchbox.cleanDotdotsPass]
  simp only [habs, Bool.not_true, Bool.false_eq_true, if_false]
  refine logic.bind (logic.forM (fun _ => logic.evaluated []) _) fun _ _ => ?_
  split
  · rename_i hno
    refine logic.pure (hreturns habs ⟨hdot' hsub, fun hm => hno ?_⟩)
    exact isCleanPath_eq_dotdot.2 hm
  · refine logic.bind (logic.forM logic.evaluated _) fun _ _ => ?_
    split
    · rename_i htrivial
      rw [Bool.not_eq_true'] at htrivial
      exact logic.pure (hreturns habs
        ⟨hscanned, removeKnownDotdots_trivial List.not_mem_nil htrivial⟩)
    · have hnil : Clean (components ([] : List PathEntry).reverse) := clean_nil
      refine logic.resolveDotdots hrestart ?_ hnil hscanned (Nat.le_refl _)
      exact habs

theorem CleanerLogic.cleanDotdotsFromPath {n : Nat} (hn : dotdotsToResolve list.plFirst ≤ n)
    (habs : list.plFlags.absolute = true) (hdot : Component.dot ∉ components list.plFirst) :
    logic.holds (cleanDotdotsFromPath ops n list) ReturnsClean := by
  induction n generalizing list with
  | zero =>
    refine logic.cleanDotdotsPass (fun flags cs work next _ _ _ hcount => ?_) habs hdot
    exact absurd (Nat.lt_of_lt_of_le hcount hn) (Nat.not_lt_zero _)
  | succ n ih =>
    refine logic.cleanDotdotsPass ?_ habs hdot
    intro flags cs work next habs hcs hwork hcount hdot
    have hle := dotdotsToResolve_restart hcs hwork next
    exact ih (Nat.le_trans hle (Nat.le_of_lt_succ (Nat.lt_of_lt_of_le hcount hn))) habs
      (dot_not_mem_restart hcs hwork hdot)

/-- The cleaning before each use of a path. -/
theorem CleanerLogic.cleanPath (habs : list.plFlags.absolute = true) :
    logic.holds (cleanPath ops list) ReturnsClean := by
  rw [Scratchbox.cleanPath]
  cases hclean : isCleanPath list.plFirst with
  | clean =>
    refine logic.pure ?_
    rintro _ heq
    cases heq
    exact ⟨habs, isCleanPath_eq_clean.1 hclean⟩
  | dot =>
    refine logic.pure ?_
    rintro _ heq
    cases heq
    refine ⟨habs, clean_removeDots fun hm => ?_⟩
    rw [isCleanPath_eq_dotdot.2 hm] at hclean
    cases hclean
  | dotdot =>
    exact logic.cleanDotdotsFromPath (dotdotsToResolve_le _) habs (dot_not_mem_removeDots list)

end Cleaner

def hostLogic (host : Host) : CleanerLogic (hostParentOps host) where
  holds x P := Quiet x ∧ ∀ a, x = .ok a → P a
  pure h := ⟨quiet_ok _, fun _ heq => by cases heq; exact h⟩
  bind h hnext := by
    refine ⟨h.1.bind fun a ha => (hnext a (h.2 a ha)).1, fun b hb => ?_⟩
    obtain ⟨a, ha, hb⟩ := Except.bind_eq_ok_iff.1 hb
    exact (hnext a (h.2 a ha)).2 b hb
  parent {list} _ := by
    simp only [hostParentOps]
    split
    · refine ⟨quiet_error quiet_undefinedBuffer, fun _ heq => ?_⟩
      cases heq
    · rename_i rp _
      refine ⟨quiet_ok _, ?_⟩
      rintro _ heq buf hbuf
      cases heq
      cases hbuf
      exact ⟨rp.parts, false, rfl, rp.no_dot, rp.no_dotdot⟩
  evaluated _ := ⟨quiet_ok _, fun _ _ => trivial⟩
  null := ⟨quiet_error quiet_nullPointer, fun _ heq => by cases heq⟩

end Scratchbox
