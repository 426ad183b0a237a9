import Scratchbox.CleanRules

/-!
# Invariants of cleaning

The cleaner removes a `..` at the root, removes a `..` with the component before it, or replaces the
part before a `..` by its location. `CleanerKeeps` says that a property of the path survives these
changes; `cleanVirtualPath_sat` is the induction over the passes and the restarts, done once. A
restarted pass has fewer `..` to resolve than the one before, so that the restarts never run out.
-/

namespace Scratchbox

open CallTree List Component

variable {S : Contract Question Answer Event Fault} {ctx : PathMappingContext}
  {E : Errno → Prop} {J : PathFlags → List Component → Prop}
  {before entries next rest : List PathEntry} {work e : PathEntry} {cs : List Component}
  {flags : PathFlags}

/-- The changes that the cleaner makes keep the property `J` of the flags and the
components; `E` is what an error of the cleaner satisfies. -/
structure CleanerKeeps (S : Contract Question Answer Event Fault) (ctx : PathMappingContext)
    (E : Errno → Prop) (J : PathFlags → List Component → Prop) : Prop where
  root {flags : PathFlags} {rest : List Component} : J flags (Component.dotdot :: rest) →
    S.event (.dotdot []) → J (flags.setTrailingSlashIf rest.isEmpty) rest
  pair {flags : PathFlags} {dir rest : List Component} {c : Component} :
    J flags (dir ++ c :: Component.dotdot :: rest) → c ≠ Component.dotdot →
    S.event (.dotdot (dir ++ [c])) → J (flags.setTrailingSlashIf rest.isEmpty) (dir ++ rest)
  pre {flags : PathFlags} {dir rest : List Component} : flags.absolute = true →
    J flags (dir ++ Component.dotdot :: rest) → Clean dir →
    S.pre ⟨ctx.forParents, ⟨freshEntries dir, flags⟩⟩
  error {flags : PathFlags} {dir rest : List Component} {a : Answer} {err : Errno} :
    J flags (dir ++ Component.dotdot :: rest) →
    S.post ⟨ctx.forParents, ⟨freshEntries dir, flags⟩⟩ a → a.res.mresErrno = some err → E err
  null {flags : PathFlags} {dir : List Component} {a : Answer} :
    S.post ⟨ctx.forParents, ⟨freshEntries dir, flags⟩⟩ a → a.res.mresErrno = none →
    a.res.mresResultBuf = none → S.fault .nullPointer
  located {flags : PathFlags} {dir : List Component} {a : Answer} {buf : CStr} :
    S.post ⟨ctx.forParents, ⟨freshEntries dir, flags⟩⟩ a → a.res.mresErrno = none →
    a.res.mresResultBuf = some buf →
    ∃ cs trailing, buf = absoluteString cs trailing ∧ Clean cs ∧ (dir = [] → cs = [])
  moved {flags : PathFlags} {dir rest cs : List Component} {trailing : Bool} {a : Answer} :
    J flags (dir ++ Component.dotdot :: rest) → Clean dir →
    S.post ⟨ctx.forParents, ⟨freshEntries dir, flags⟩⟩ a → a.res.mresErrno = none →
    a.res.mresResultBuf = some (absoluteString cs trailing) → Clean cs →
    J flags (cs ++ Component.dotdot :: rest)

/-- No `..` is marked as not being a symbolic link. -/
def DotdotsUnmarked (entries : List PathEntry) : Prop :=
  ∀ e ∈ entries, e.peNotSymlink = true → e.isDotdot = false

theorem dotdotsUnmarked_freshEntries (cs : List Component) :
    DotdotsUnmarked (freshEntries cs) := by
  intro e he hmark
  obtain ⟨c, -, rfl⟩ := mem_map.1 he
  cases hmark

def CleanedTo (E : Errno → Prop) (J : PathFlags → List Component → Prop) :
    Except Errno PathEntryList → Prop
  | .error err => E err
  | .ok list => list.plFlags.absolute = true ∧ Clean (components list.plFirst) ∧
      J list.plFlags (components list.plFirst)

/-! ## Steps 1 and 2 -/

theorem countDotdots_eq_zero :
    countDotdots entries = 0 ↔ dotdot ∉ components entries := by
  rw [countDotdots, countP_eq_zero, ← any_isDotdot, any_eq_true]
  constructor
  · rintro h ⟨e, he, hdd⟩
    exact h e he hdd
  · exact fun h e he hdd => h ⟨e, he, hdd⟩

theorem countDotdots_cons_of_pos (he : e.isDotdot = true) (es : List PathEntry) :
    countDotdots (e :: es) = countDotdots es + 1 :=
  countP_cons_of_pos he

theorem countDotdots_cons_of_neg (he : e.isDotdot = false) (es : List PathEntry) :
    countDotdots (e :: es) = countDotdots es :=
  countP_cons_of_neg (by simp [he])

theorem dropLeadingDotdots_suffix (entries : List PathEntry) :
    (dropLeadingDotdots entries).1 <:+ entries := by
  induction entries with
  | nil => exact suffix_rfl
  | cons e es ih =>
    rw [dropLeadingDotdots]
    split
    · exact ih.trans (suffix_cons e es)
    · exact suffix_rfl

theorem dropLeadingDotdots_inv (hk : CleanerKeeps S ctx E J) (hJ : J flags (components entries))
    (hev : ∀ e ∈ entries.takeWhile PathEntry.isDotdot, S.event (.dotdot [])) :
    J (flags.setTrailingSlashIf (dropLeadingDotdots entries).2)
      (components (dropLeadingDotdots entries).1) := by
  induction entries generalizing flags with
  | nil => simpa [dropLeadingDotdots] using hJ
  | cons e es ih =>
    rw [dropLeadingDotdots]
    cases he : e.isDotdot with
    | false => simpa using hJ
    | true =>
      rw [takeWhile_cons_of_pos he] at hev
      rw [components_cons, isDotdot_eq_true.1 he] at hJ
      have hroot := hk.root hJ (hev e mem_cons_self)
      have hrec := ih hroot fun e' he' => hev e' (mem_cons_of_mem e he')
      rw [isEmpty_components, setTrailingSlashIf_twice, Bool.or_comm] at hrec
      exact hrec

theorem DotdotsUnmarked.shift
    (h : DotdotsUnmarked (before ++ work :: next)) : DotdotsUnmarked (work :: before ++ next) := by
  intro e he
  refine h e ?_
  simpa [or_left_comm] using he

theorem removeKnownDotdots_inv (hk : CleanerKeeps S ctx E J)
    (hmarks : DotdotsUnmarked (before ++ rest)) (hJ : J flags (components (before.reverse ++ rest)))
    (hev : ∀ dir ∈ (removeKnownDotdots before rest).dirs, S.event (.dotdot dir)) :
    J (flags.setTrailingSlashIf (removeKnownDotdots before rest).lastRemoved)
      (components (removeKnownDotdots before rest).entries) := by
  fun_induction removeKnownDotdots before rest generalizing flags with
  | case1 before => simpa using hJ
  | case2 work next hwork scan =>
    rename_i ih
    rw [reverse_nil, nil_append, components_cons, isDotdot_eq_true.1 hwork] at hJ
    have hroot := hk.root hJ (hev [] mem_cons_self)
    have hrec := ih (fun e he => hmarks e (mem_cons_of_mem work he)) hroot
      fun dir hdir => hev dir (mem_cons_of_mem _ hdir)
    rwa [isEmpty_components, setTrailingSlashIf_twice, Bool.or_comm] at hrec
  | case3 work next hwork prev before hprev scan =>
    rename_i ih
    have hmem : prev ∈ prev :: before ++ work :: next := mem_cons_self
    have hc : prev.pePathComponent ≠ dotdot :=
      isDotdot_eq_false.1 (hmarks prev hmem hprev)
    have hdir := hev _ mem_cons_self
    simp only [reverse_cons, components_append, components_cons, components_nil,
      isDotdot_eq_true.1 hwork, append_assoc, singleton_append] at hJ hdir
    have hpair := hk.pair hJ hc hdir
    rw [← components_append] at hpair
    have hrest : DotdotsUnmarked (before ++ next) := by
      intro e he
      refine hmarks e (mem_cons_of_mem prev ?_)
      rcases mem_append.1 he with he | he
      · exact mem_append_left _ he
      · exact mem_append_right _ (mem_cons_of_mem work he)
    have hrec := ih hrest hpair fun dir hdir => hev dir (mem_cons_of_mem _ hdir)
    rwa [isEmpty_components, setTrailingSlashIf_twice, Bool.or_comm] at hrec
  | case4 work next hwork prev before hprev scan =>
    rename_i ih
    exact ih hmarks.shift (by simpa using hJ) hev
  | case5 before work next hwork ih => exact ih hmarks.shift (by simpa using hJ) hev

theorem removeKnownDotdots_sublist (before rest : List PathEntry) :
    (removeKnownDotdots before rest).entries.Sublist (before.reverse ++ rest) := by
  fun_induction removeKnownDotdots before rest with
  | case1 before => simp
  | case2 work next hwork scan =>
    rename_i ih
    exact ih.trans (sublist_cons_self work next)
  | case3 work next hwork prev before hprev scan =>
    rename_i ih
    refine ih.trans ?_
    rw [reverse_cons, append_assoc]
    exact (List.Sublist.refl _).append ((sublist_cons_self work next).trans
      (sublist_append_right [prev] _))
  | case4 work next hwork prev before hprev scan =>
    rename_i ih
    simpa using ih
  | case5 before work next hwork ih => simpa using ih

theorem removeKnownDotdots_trivial (hbefore : dotdot ∉ components before)
    (htrivial : (removeKnownDotdots before rest).hasNontrivialDotdots = false) :
    dotdot ∉ components (removeKnownDotdots before rest).entries := by
  fun_induction removeKnownDotdots before rest with
  | case1 before => simpa using hbefore
  | case2 work next hwork scan =>
    rename_i ih
    exact ih hbefore htrivial
  | case3 work next hwork prev before hprev scan =>
    rename_i ih
    exact ih (fun hm => hbefore (mem_cons_of_mem _ hm)) htrivial
  | case4 work next hwork prev before hprev scan =>
    rename_i ih
    cases htrivial
  | case5 before work next hwork ih =>
    refine ih (fun hm => ?_) htrivial
    rcases mem_cons.1 hm with hm | hm
    · exact hwork (isDotdot_eq_true.2 hm.symm)
    · exact hbefore hm

/-! ## Restarts -/

/-- The `..` components that the first two steps leave. -/
def dotdotsToResolve (entries : List PathEntry) : Nat :=
  countDotdots (removeKnownDotdots [] (dropLeadingDotdots entries).1).entries

theorem dotdotsToResolve_le (entries : List PathEntry) :
    dotdotsToResolve entries ≤ countDotdots entries := by
  have hscan := removeKnownDotdots_sublist [] (dropLeadingDotdots entries).1
  exact (hscan.trans (dropLeadingDotdots_suffix entries).sublist).countP_le

/-- A restarted pass removes the `..` it was restarted for in its first two
steps. -/
theorem dotdotsToResolve_restart (hcs : Clean cs) (hwork : work.isDotdot = true)
    (next : List PathEntry) :
    dotdotsToResolve (markedEntries cs ++ work :: next) ≤ countDotdots next := by
  rcases eq_nil_or_concat cs with rfl | ⟨init, c, rfl⟩
  · have hdrop : (dropLeadingDotdots (markedEntries [] ++ work :: next)).1 =
        (dropLeadingDotdots next).1 := by
      rw [markedEntries_nil, nil_append, dropLeadingDotdots, if_pos hwork]
    rw [dotdotsToResolve, hdrop]
    exact dotdotsToResolve_le next
  · rw [concat_eq_append] at hcs ⊢
    have hmarked : dotdot ∉ components (markedEntries (init ++ [c])) := by
      simpa using hcs.no_dotdot
    have hdrop : (dropLeadingDotdots (markedEntries (init ++ [c]) ++ work :: next)).1 =
        markedEntries (init ++ [c]) ++ work :: next := by
      cases hes : markedEntries (init ++ [c]) with
      | nil => simp [markedEntries, freshEntries, setNotSymlinkInPathEntries] at hes
      | cons e es =>
        rw [hes] at hmarked
        have he : e.isDotdot = false := isDotdot_false_of_mem hmarked mem_cons_self
        rw [cons_append, dropLeadingDotdots, he]
        rfl
    have hscan := removeKnownDotdots_sublist (markedEntries init).reverse next
    rw [reverse_reverse] at hscan
    have hentries : (removeKnownDotdots [] (markedEntries (init ++ [c]) ++ work :: next)).entries =
        (removeKnownDotdots (markedEntries init).reverse next).entries := by
      rw [removeKnownDotdots_append hmarked, append_nil, reverse_markedEntries_concat,
        removeKnownDotdots_marked hwork rfl]
    rw [dotdotsToResolve, hdrop, hentries]
    have hle := hscan.countP_le (p := PathEntry.isDotdot)
    have hzero : countDotdots (markedEntries init) = 0 :=
      countDotdots_eq_zero.2 (by simpa using fun hm => hcs.no_dotdot (mem_append_left _ hm))
    rw [countP_append] at hle
    unfold countDotdots at hzero ⊢
    omega

theorem dot_not_mem_restart (hcs : Clean cs) (hwork : work.isDotdot = true)
    (hdot : dot ∉ components next) :
    dot ∉ components (markedEntries cs ++ work :: next) := by
  rw [components_append, components_markedEntries, components_cons, isDotdot_eq_true.1 hwork]
  intro hm
  rcases mem_append.1 hm with hm | hm
  · exact hcs.no_dot hm
  · exact (mem_cons.1 hm).elim (by decide) hdot

/-! ## Step 3 and the whole function -/

section Passes

variable {restart : PathEntryList → Run (Except Errno PathEntryList)} {list : PathEntryList}

/-- What is asked of the restarts of a pass with `m` `..` to resolve. -/
def RestartKeeps (S : Contract Question Answer Event Fault) (E : Errno → Prop)
    (J : PathFlags → List Component → Prop)
    (restart : PathEntryList → Run (Except Errno PathEntryList)) (m : Nat) : Prop :=
  ∀ (flags : PathFlags) (cs : List Component) (work : PathEntry) (next : List PathEntry),
    flags.absolute = true → Clean cs → work.isDotdot = true → countDotdots next < m →
    Component.dot ∉ components next → DotdotsUnmarked (work :: next) →
    J flags (cs ++ Component.dotdot :: components next) →
    (restart ⟨markedEntries cs ++ work :: next, flags⟩).Sat S (CleanedTo E J)

theorem resolveDotdots_inv (hk : CleanerKeeps S ctx E J) {m : Nat}
    (hrestart : RestartKeeps S E J restart m) {rest : List PathEntry} {flags : PathFlags}
    (habs : flags.absolute = true) {before : List PathEntry}
    (hbefore : Clean (components before.reverse)) (hdot : dot ∉ components rest)
    (hmarks : DotdotsUnmarked rest) (hcount : countDotdots rest ≤ m)
    (hJ : J flags (components (before.reverse ++ rest))) :
    (resolveDotdots (virtualParentOps ctx) restart flags before rest).Sat S (CleanedTo E J) := by
  induction rest generalizing flags before with
  | nil => exact ⟨habs, hbefore, by simpa using hJ⟩
  | cons work next ih =>
    have hdot' : dot ∉ components next := fun hm => hdot (mem_cons_of_mem _ hm)
    have hmarks' : DotdotsUnmarked next := fun e he => hmarks e (mem_cons_of_mem work he)
    cases hwork : work.isDotdot with
    | false =>
      rw [resolveDotdots_ordinary hwork]
      rw [countDotdots_cons_of_neg hwork] at hcount
      have hclean := hbefore.push hdot (isDotdot_eq_false.1 hwork)
      exact ih habs hclean hdot' hmarks' hcount (by simpa using hJ)
    | true =>
      rw [countDotdots_cons_of_pos hwork] at hcount
      rw [components_append, components_cons, isDotdot_eq_true.1 hwork] at hJ
      refine resolveDotdots_dotdot_sat hwork hbefore (hk.pre habs hJ hbefore)
        (fun a err ha herr => hk.error hJ ha herr) (fun a ha herr hbuf => hk.null ha herr hbuf)
        ?_ ?_ ?_
      · intro a buf ha herr hbuf hne hnil
        subst hnil
        obtain ⟨cs, trailing, rfl, -, hroot⟩ := hk.located ha herr hbuf
        rw [hroot rfl, parentString_absolute habs] at hne
        exact absurd rfl hne
      · intro a buf ha herr hbuf _ _
        obtain ⟨cs, trailing, rfl, hcs, -⟩ := hk.located ha herr hbuf
        rw [tokens_absoluteString]
        exact hrestart flags cs work next habs hcs hwork (by omega) hdot' hmarks
          (hk.moved hJ hbefore ha herr hbuf hcs)
      · intro a _ _ _ hev
        have habs' : (flags.setTrailingSlashIf next.isEmpty).absolute = true := habs
        cases before with
        | nil =>
          have hroot := hk.root hJ hev
          rw [isEmpty_components] at hroot
          exact ih habs' hbefore hdot' hmarks' (by omega) hroot
        | cons prev before =>
          have hsplit : components (prev :: before).reverse =
              components before.reverse ++ [prev.pePathComponent] := by simp
          rw [hsplit] at hbefore hJ hev
          rw [append_assoc, singleton_append] at hJ
          have hc : prev.pePathComponent ≠ dotdot := fun heq =>
            hbefore.no_dotdot (heq ▸ mem_append_right _ mem_cons_self)
          have hpair := hk.pair hJ hc hev
          rw [isEmpty_components, ← components_append] at hpair
          have hclean : Clean (components before.reverse) :=
            hbefore.subset (subset_append_left _ _)
          exact ih habs' hclean hdot' hmarks' (by omega) hpair

theorem cleanDotdotsPass_inv (hk : CleanerKeeps S ctx E J)
    (hrestart : RestartKeeps S E J restart (dotdotsToResolve list.plFirst))
    (habs : list.plFlags.absolute = true) (hdot : dot ∉ components list.plFirst)
    (hmarks : DotdotsUnmarked list.plFirst) (hJ : J list.plFlags (components list.plFirst)) :
    (cleanDotdotsPass (virtualParentOps ctx) restart list).Sat S (CleanedTo E J) := by
  have hsub := (dropLeadingDotdots_suffix list.plFirst).subset
  have hscan := removeKnownDotdots_sublist [] (dropLeadingDotdots list.plFirst).1
  have hmem : (removeKnownDotdots [] (dropLeadingDotdots list.plFirst).1).entries ⊆
      list.plFirst := fun e he => hsub (hscan.subset he)
  have hdot' : ∀ {es : List PathEntry}, es ⊆ list.plFirst → dot ∉ components es :=
    fun hes hm => hdot (map_subset _ hes hm)
  apply cleanDotdotsPass_sat habs
  · intro hev hno
    exact ⟨habs, ⟨hdot' hsub, hno⟩, dropLeadingDotdots_inv hk hJ hev⟩
  · rintro scan flags hev rfl hflags hdirs
    have habs' : flags.absolute = true := by
      rw [hflags]
      exact habs
    have hmarks' : DotdotsUnmarked ([] ++ (dropLeadingDotdots list.plFirst).1) :=
      fun e he => hmarks e (hsub he)
    have hinv := removeKnownDotdots_inv hk hmarks' (dropLeadingDotdots_inv hk hJ hev) hdirs
    rw [← hflags] at hinv
    cases hnt :
      (removeKnownDotdots [] (dropLeadingDotdots list.plFirst).1).hasNontrivialDotdots with
    | false =>
      have hno := removeKnownDotdots_trivial not_mem_nil hnt
      exact ⟨habs', ⟨hdot' hmem, hno⟩, hinv⟩
    | true =>
      have hnil : Clean (components ([] : List PathEntry).reverse) := clean_nil
      exact resolveDotdots_inv hk hrestart habs' hnil (hdot' hmem)
        (fun e he => hmarks e (hmem he)) (Nat.le_refl _) hinv

theorem cleanDotdots_inv (hk : CleanerKeeps S ctx E J) {n : Nat}
    (hn : dotdotsToResolve list.plFirst ≤ n) (habs : list.plFlags.absolute = true)
    (hdot : dot ∉ components list.plFirst) (hmarks : DotdotsUnmarked list.plFirst)
    (hJ : J list.plFlags (components list.plFirst)) :
    (cleanDotdotsFromPath (virtualParentOps ctx) n list).Sat S (CleanedTo E J) := by
  induction n generalizing list with
  | zero =>
    refine cleanDotdotsPass_inv hk ?_ habs hdot hmarks hJ
    intro flags cs work next _ _ _ hcount
    omega
  | succ n ih =>
    refine cleanDotdotsPass_inv hk ?_ habs hdot hmarks hJ
    intro flags cs work next habs hcs hwork hcount hdot hmarks hJ
    have hle := dotdotsToResolve_restart hcs hwork next
    refine ih (Nat.le_trans hle (by omega)) habs (dot_not_mem_restart hcs hwork hdot) ?_ ?_
    · intro e he
      rcases mem_append.1 he with he | he
      · exact fun _ => isDotdot_false_of_mem (by simpa using hcs.no_dotdot) he
      · exact hmarks e he
    · simpa [isDotdot_eq_true.1 hwork] using hJ

end Passes

/-- Cleaning a virtual path returns a clean absolute path with the property, or
an error. -/
theorem cleanVirtualPath_sat (hk : CleanerKeeps S ctx E J) {list : PathEntryList}
    (habs : list.plFlags.absolute = true) (hmarks : DotdotsUnmarked list.plFirst)
    (hJ : J (list.plFlags.setTrailingSlashIf
        ((components list.plFirst).getLast? = some dot))
      ((components list.plFirst).filter (· ≠ dot))) :
    (cleanVirtualPath ctx list).Sat S (CleanedTo E J) := by
  rw [← components_removeDots, ← removeDots_flags] at hJ
  have habs' : (removeDotsFromPathList list).plFlags.absolute = true := habs
  unfold cleanVirtualPath
  cases hclean : isCleanPath list.plFirst with
  | clean =>
    have hc := isCleanPath_eq_clean.1 hclean
    rw [removeDotsFromPathList_of_clean hc] at hJ
    exact ⟨habs, hc, hJ⟩
  | dot =>
    refine ⟨habs', clean_removeDots fun hm => ?_, hJ⟩
    rw [isCleanPath_eq_dotdot.2 hm] at hclean
    cases hclean
  | dotdot =>
    refine cleanDotdots_inv hk (dotdotsToResolve_le _) habs' (dot_not_mem_removeDots list)
      (fun e he => hmarks e ?_) hJ
    have hentries : (removeDotsFromPathList list).plFirst =
        list.plFirst.filter fun e => !e.isDot := removeDots_fst list.plFirst
    rw [hentries] at he
    exact mem_of_mem_filter he

end Scratchbox
