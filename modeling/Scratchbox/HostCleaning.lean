import Scratchbox.CleanerLogic

/-!
# Cleaning host paths

`clean_dotdots_from_path` with `realpath`, as the translator uses it for the result of a
rule. A path that it returns is clean (`cleanDotdotsFromPath_host`). Components behind the
last `..` are never looked at, so cleaning a path and then appending components is the
same as cleaning the longer path (`cleanDotdotsFromPath_host_append`). An ordinary last
component stays where it is (`cleanDotdotsFromPath_host_endsClosed`).
-/

namespace Scratchbox

open List Component

variable {host : Host} {restart : PathEntryList → Except Fault (Except Errno PathEntryList)}
  {entries : List PathEntry} {list' list : PathEntryList} {work : PathEntry}

/-! ## One step -/

theorem forM_ok {α : Type} {f : α → Except Fault Unit} (hf : ∀ a, f a = .ok ()) (l : List α) :
    l.forM f = .ok () := by
  induction l with
  | nil => rfl
  | cons a l ih =>
    show (f a >>= fun _ => l.forM f) = .ok ()
    rw [hf a]
    exact ih

theorem resolveDotdots_host_dotdot (hwork : work.isDotdot = true) (flags : PathFlags)
    (before next : List PathEntry) :
    resolveDotdots (hostParentOps host) restart flags before (work :: next) =
      if isCleanPath (duplicatePathEntries before.reverse) ≠ .clean then .error .assertion
      else match host.realpath (parentString flags before) with
        | none => .error .undefinedBuffer
        | some rp =>
          if parentString flags before ≠ absoluteString rp.parts false then
            if before = [] then .error .nullPointer
            else restart ⟨markedEntries rp.parts ++ work :: next, flags⟩
          else resolveDotdots (hostParentOps host) restart
            (flags.setTrailingSlashIf next.isEmpty) before.tail next := by
  rw [resolveDotdots, if_pos hwork]
  dsimp only
  split
  · rfl
  · have hparent : pathListToString ⟨duplicatePathEntries before.reverse, flags⟩ =
        parentString flags before := rfl
    rw [hparent]
    cases hreal : host.realpath (parentString flags before) with
    | none => simp [hostParentOps, hparent, hreal, bind, Except.bind]
    | some rp =>
      simp only [hostParentOps, hparent, hreal, bind, Except.bind]
      split
      · cases before with
        | nil => rfl
        | cons prev before => simp [markedEntries]
      · rfl

theorem resolveDotdots_host_ordinary (hwork : work.isDotdot = false) (flags : PathFlags)
    (before next : List PathEntry) :
    resolveDotdots (hostParentOps host) restart flags before (work :: next) =
      resolveDotdots (hostParentOps host) restart flags (work :: before) next := by
  rw [resolveDotdots, hwork]
  simp

theorem cleanDotdotsPass_host (habs : list.plFlags.absolute = true) :
    cleanDotdotsPass (hostParentOps host) restart list =
      let leading := dropLeadingDotdots list.plFirst
      let flags := list.plFlags.setTrailingSlashIf leading.2
      let scan := removeKnownDotdots [] leading.1
      if dotdot ∉ components leading.1 then .ok (.ok ⟨leading.1, flags⟩)
      else if scan.hasNontrivialDotdots then
        resolveDotdots (hostParentOps host) restart (flags.setTrailingSlashIf scan.lastRemoved) []
          scan.entries
      else .ok (.ok ⟨scan.entries, flags.setTrailingSlashIf scan.lastRemoved⟩) := by
  unfold cleanDotdotsPass
  have hleading := forM_ok (f := fun _ : PathEntry => (hostParentOps host).evaluated [])
    (fun _ => rfl) (list.plFirst.takeWhile PathEntry.isDotdot)
  have hdirs := forM_ok (f := (hostParentOps host).evaluated) (fun _ => rfl)
    (removeKnownDotdots [] (dropLeadingDotdots list.plFirst).1).dirs
  simp only [habs, Bool.not_true, Bool.false_eq_true, if_false, hleading, hdirs, ne_eq,
    isCleanPath_eq_dotdot]
  split
  · rfl
  · cases (removeKnownDotdots [] (dropLeadingDotdots list.plFirst).1).hasNontrivialDotdots <;> rfl

/-! ## The result is clean -/

/-- What `clean_dotdots_from_path` makes of an absolute host path without `.` is clean. -/
theorem cleanDotdotsFromPath_host (habs : list.plFlags.absolute = true)
    (hdot : dot ∉ components list.plFirst)
    (h : cleanDotdotsFromPath (hostParentOps host) (countDotdots list.plFirst) list =
      .ok (.ok list')) : CleanList list' :=
  ((hostLogic host).cleanDotdotsFromPath (dotdotsToResolve_le _) habs hdot).2 _ h _ rfl

/-! ## Components behind the last `..` -/

def EndsPlain (entries : List PathEntry) : Prop :=
  ∃ init last, entries = init ++ [last] ∧ last.isDotdot = false

theorem EndsPlain.ne_nil (h : EndsPlain entries) : entries ≠ [] := by
  obtain ⟨init, last, rfl, -⟩ := h
  simp

theorem endsPlain_append (front : List PathEntry)
    (h : EndsPlain entries) : EndsPlain (front ++ entries) := by
  obtain ⟨init, last, rfl, hlast⟩ := h
  exact ⟨front ++ init, last, (append_assoc ..).symm, hlast⟩

theorem EndsPlain.of_cons {e : PathEntry} (h : EndsPlain (e :: entries))
    (hne : entries ≠ []) : EndsPlain entries := by
  obtain ⟨init, last, heq, hlast⟩ := h
  cases init with
  | nil => exact absurd (List.cons.inj heq).2 hne
  | cons e' init => exact ⟨init, last, (List.cons.inj heq).2, hlast⟩

theorem EndsPlain.behind_dotdot (hwork : work.isDotdot = true) {next : List PathEntry}
    (h : EndsPlain (work :: next)) : EndsPlain next := by
  refine h.of_cons ?_
  rintro rfl
  obtain ⟨init, last, heq, hlast⟩ := h
  cases init with
  | nil =>
    cases heq
    rw [hwork] at hlast
    cases hlast
  | cons e init => exact absurd (List.cons.inj heq).2 (by simp)

theorem EndsPlain.isEmpty_append (h : EndsPlain entries) (tail : List PathEntry) :
    (entries ++ tail).isEmpty = false ∧ entries.isEmpty = false := by
  obtain ⟨e, es, rfl⟩ := exists_cons_of_ne_nil h.ne_nil
  exact ⟨rfl, rfl⟩

variable {tail : List PathEntry}

variable {rest : List PathEntry} {flags : PathFlags}

theorem dropLeadingDotdots_tail (tail : List PathEntry) (h : EndsPlain entries) :
    dropLeadingDotdots (entries ++ tail) = ((dropLeadingDotdots entries).1 ++ tail, false) ∧
      (dropLeadingDotdots entries).2 = false ∧ EndsPlain (dropLeadingDotdots entries).1 := by
  induction entries with
  | nil => exact absurd rfl h.ne_nil
  | cons work next ih =>
    rw [cons_append, dropLeadingDotdots, dropLeadingDotdots]
    cases hwork : work.isDotdot with
    | false => exact ⟨rfl, rfl, h⟩
    | true =>
      have hnext := h.behind_dotdot hwork
      obtain ⟨hdrop, hlast, hends⟩ := ih hnext
      obtain ⟨hempty, hempty'⟩ := hnext.isEmpty_append tail
      simp only [if_true, hdrop, hlast, hempty, hempty', Bool.or_false]
      exact ⟨trivial, trivial, hends⟩

theorem removeKnownDotdots_tail (htail : dotdot ∉ components tail)
    (before : List PathEntry) (h : rest = [] ∨ EndsPlain rest) :
    removeKnownDotdots before (rest ++ tail) =
        { removeKnownDotdots before rest with
          entries := (removeKnownDotdots before rest).entries ++ tail } ∧
      (removeKnownDotdots before rest).lastRemoved = false := by
  fun_induction removeKnownDotdots before rest with
  | case1 before =>
    have htailed := removeKnownDotdots_append htail before []
    rw [append_nil] at htailed
    rw [nil_append, htailed]
    simp [removeKnownDotdots]
  | case2 work next hwork scan =>
    rename_i ih
    have hnext := (h.resolve_left (cons_ne_nil _ _)).behind_dotdot hwork
    obtain ⟨hrec, hlast⟩ := ih (.inr hnext)
    obtain ⟨hempty, hempty'⟩ := hnext.isEmpty_append tail
    rw [cons_append, removeKnownDotdots_root hwork, hrec, hempty, hempty', hlast]
    exact ⟨rfl, rfl⟩
  | case3 work next hwork prev before hprev scan =>
    rename_i ih
    have hnext := (h.resolve_left (cons_ne_nil _ _)).behind_dotdot hwork
    obtain ⟨hrec, hlast⟩ := ih (.inr hnext)
    obtain ⟨hempty, hempty'⟩ := hnext.isEmpty_append tail
    rw [cons_append, removeKnownDotdots_marked hwork hprev, hrec, hempty, hempty', hlast]
    exact ⟨rfl, rfl⟩
  | case4 work next hwork prev before hprev scan =>
    rename_i ih
    have hnext := (h.resolve_left (cons_ne_nil _ _)).behind_dotdot hwork
    obtain ⟨hrec, hlast⟩ := ih (.inr hnext)
    rw [cons_append, removeKnownDotdots_unmarked hwork (Bool.eq_false_iff.2 hprev), hrec]
    exact ⟨rfl, hlast⟩
  | case5 before work next hwork ih =>
    rw [cons_append, removeKnownDotdots_ordinary (Bool.eq_false_iff.2 hwork)]
    refine ih ?_
    rcases eq_nil_or_concat next with rfl | ⟨init, last, rfl⟩
    · exact .inl rfl
    · exact .inr ((h.resolve_left (cons_ne_nil _ _)).of_cons (by simp))

theorem removeKnownDotdots_endsPlain (before : List PathEntry) (h : EndsPlain rest) :
    EndsPlain (removeKnownDotdots before rest).entries := by
  fun_induction removeKnownDotdots before rest with
  | case1 before => exact absurd rfl h.ne_nil
  | case2 work next hwork scan =>
    rename_i ih
    exact ih (h.behind_dotdot hwork)
  | case3 work next hwork prev before hprev scan =>
    rename_i ih
    exact ih (h.behind_dotdot hwork)
  | case4 work next hwork prev before hprev scan =>
    rename_i ih
    exact ih (h.behind_dotdot hwork)
  | case5 before work next hwork ih =>
    by_cases hne : next = []
    · subst hne
      exact ⟨before.reverse, work, reverse_cons, Bool.eq_false_iff.2 hwork⟩
    · exact ih (h.of_cons hne)

def appendEntries (tail : List PathEntry) (list : PathEntryList) : PathEntryList :=
  { list with plFirst := list.plFirst ++ tail }

def appendToResult (tail : List PathEntry) :
    Except Fault (Except Errno PathEntryList) → Except Fault (Except Errno PathEntryList) :=
  Except.map (Except.map (appendEntries tail))

theorem resolveDotdots_host_tail (htail : dotdot ∉ components tail)
    (hrestart : ∀ flags entries, flags.absolute = true → EndsPlain entries →
      restart ⟨entries ++ tail, flags⟩ = appendToResult tail (restart ⟨entries, flags⟩))
    (habs : flags.absolute = true) (before : List PathEntry) (h : rest = [] ∨ EndsPlain rest) :
    resolveDotdots (hostParentOps host) restart flags before (rest ++ tail) =
      appendToResult tail (resolveDotdots (hostParentOps host) restart flags before rest) := by
  induction rest generalizing flags before with
  | nil =>
    have htailed := resolveDotdots_append (hostParentOps host) restart htail flags before []
    rw [append_nil] at htailed
    rw [nil_append, htailed, resolveDotdots, resolveDotdots, reverse_append,
      reverse_reverse]
    rfl
  | cons work next ih =>
    have hends := h.resolve_left (cons_ne_nil _ _)
    rw [cons_append]
    cases hwork : work.isDotdot with
    | false =>
      rw [resolveDotdots_host_ordinary hwork, resolveDotdots_host_ordinary hwork]
      refine ih habs (work :: before) ?_
      by_cases hne : next = []
      · exact .inl hne
      · exact .inr (hends.of_cons hne)
    | true =>
      have hnext := hends.behind_dotdot hwork
      obtain ⟨hempty, hempty'⟩ := hnext.isEmpty_append tail
      rw [resolveDotdots_host_dotdot hwork, resolveDotdots_host_dotdot hwork, hempty, hempty']
      split
      · rfl
      · cases hreal : host.realpath (parentString flags before) with
        | none => rfl
        | some rp =>
          dsimp only
          split
          · split
            · rfl
            · rw [← hrestart flags _ habs (endsPlain_append _ hends), append_assoc,
                cons_append]
          · have habs' : (flags.setTrailingSlashIf false).absolute = true := habs
            exact ih habs' _ (.inr hnext)

theorem cleanDotdotsPass_host_tail (htail : dotdot ∉ components tail)
    (hrestart : ∀ flags entries, flags.absolute = true → EndsPlain entries →
      restart ⟨entries ++ tail, flags⟩ = appendToResult tail (restart ⟨entries, flags⟩))
    (habs : flags.absolute = true) (h : EndsPlain entries) :
    cleanDotdotsPass (hostParentOps host) restart ⟨entries ++ tail, flags⟩ =
      appendToResult tail (cleanDotdotsPass (hostParentOps host) restart ⟨entries, flags⟩) := by
  obtain ⟨hdrop, hlast, hleading⟩ := dropLeadingDotdots_tail tail h
  obtain ⟨hscan, hremoved⟩ := removeKnownDotdots_tail htail [] (.inr hleading)
  have hplain := removeKnownDotdots_endsPlain [] hleading
  rw [cleanDotdotsPass_host habs, cleanDotdotsPass_host habs]
  rw [hdrop]
  dsimp only
  rw [hscan, hlast, hremoved, components_append]
  by_cases hdotdot : dotdot ∈ components (dropLeadingDotdots entries).1
  · rw [if_neg (not_not_intro (mem_append_left _ hdotdot))]
    split
    · have habs' : ((flags.setTrailingSlashIf false).setTrailingSlashIf false).absolute = true :=
        habs
      exact resolveDotdots_host_tail htail hrestart habs' _ (.inr hplain)
    · rfl
  · rw [if_pos hdotdot, if_pos fun hm => (mem_append.1 hm).elim hdotdot htail]
    rfl

/-- Cleaning goes no further than the last `..`. -/
theorem cleanDotdotsFromPath_host_append (htail : dotdot ∉ components tail) (n : Nat)
    (habs : flags.absolute = true) (h : EndsPlain entries) :
    cleanDotdotsFromPath (hostParentOps host) n ⟨entries ++ tail, flags⟩ =
      appendToResult tail (cleanDotdotsFromPath (hostParentOps host) n ⟨entries, flags⟩) := by
  induction n generalizing flags entries with
  | zero => exact cleanDotdotsPass_host_tail htail (fun _ _ _ _ => rfl) habs h
  | succ n ih => exact cleanDotdotsPass_host_tail htail (fun _ _ ha he => ih ha he) habs h

/-! ## The last component stays -/

/-- The last entry is ordinary, and no slash stands behind it. -/
structure EndsClosed (list : PathEntryList) : Prop where
  plain : EndsPlain list.plFirst
  closed : list.plFlags.hasTrailingSlash = false

theorem resolveDotdots_host_endsClosed
    (hrestart : ∀ list list', restart list = .ok (.ok list') → list.plFlags.absolute = true →
      EndsClosed list → EndsClosed list')
    (habs : flags.absolute = true) (hflags : flags.hasTrailingSlash = false)
    {before : List PathEntry} (h : rest = [] ∧ EndsPlain before.reverse ∨ EndsPlain rest)
    (hr : resolveDotdots (hostParentOps host) restart flags before rest = .ok (.ok list)) :
    EndsClosed list := by
  induction rest generalizing before with
  | nil =>
    cases hr
    rcases h with ⟨-, h⟩ | h
    · exact ⟨h, hflags⟩
    · exact absurd rfl h.ne_nil
  | cons work next ih =>
    have hends : EndsPlain (work :: next) := h.resolve_left fun h => cons_ne_nil _ _ h.1
    cases hwork : work.isDotdot with
    | false =>
      rw [resolveDotdots_host_ordinary hwork] at hr
      refine ih ?_ hr
      by_cases hne : next = []
      · exact .inl ⟨hne, before.reverse, work, reverse_cons, hwork⟩
      · exact .inr (hends.of_cons hne)
    | true =>
      have hnext := hends.behind_dotdot hwork
      rw [resolveDotdots_host_dotdot hwork, (hnext.isEmpty_append []).2,
        setTrailingSlashIf_false] at hr
      split at hr
      · cases hr
      · split at hr
        · cases hr
        · split at hr
          · split at hr
            · cases hr
            · exact hrestart _ _ hr habs ⟨endsPlain_append _ hends, hflags⟩
          · exact ih (.inr hnext) hr

theorem cleanDotdotsPass_host_endsClosed
    (hrestart : ∀ list list', restart list = .ok (.ok list') → list.plFlags.absolute = true →
      EndsClosed list → EndsClosed list') (habs : list.plFlags.absolute = true)
    (h : EndsClosed list)
    (hr : cleanDotdotsPass (hostParentOps host) restart list = .ok (.ok list')) :
    EndsClosed list' := by
  obtain ⟨-, hlast, hleading⟩ := dropLeadingDotdots_tail [] h.plain
  obtain ⟨-, hremoved⟩ :=
    removeKnownDotdots_tail (components_nil ▸ not_mem_nil) [] (.inr hleading)
  have hplain := removeKnownDotdots_endsPlain [] hleading
  rw [cleanDotdotsPass_host habs] at hr
  dsimp only at hr
  rw [hlast, hremoved, setTrailingSlashIf_false, setTrailingSlashIf_false] at hr
  split at hr
  · cases hr
    exact ⟨hleading, h.closed⟩
  · split at hr
    · exact resolveDotdots_host_endsClosed hrestart habs h.closed (.inr hplain) hr
    · cases hr
      exact ⟨hplain, h.closed⟩

/-- A path that ends in an ordinary component still does so when it is cleaned. -/
theorem cleanDotdotsFromPath_host_endsClosed {n : Nat} (habs : list.plFlags.absolute = true)
    (h : EndsClosed list)
    (hr : cleanDotdotsFromPath (hostParentOps host) n list = .ok (.ok list')) :
    EndsClosed list' := by
  induction n generalizing list list' with
  | zero =>
    refine cleanDotdotsPass_host_endsClosed (fun _ _ hr => ?_) habs h hr
    cases hr
  | succ n ih =>
    exact cleanDotdotsPass_host_endsClosed (fun _ _ hr ha he => ih ha he hr) habs h hr

end Scratchbox
