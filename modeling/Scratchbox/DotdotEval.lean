import Scratchbox.CleanRules

/-!
# What cleaning `..` computes

The cleaner works in three passes over a list, with shortcuts and with restarts. Its purpose is
simple to say: the components are read from left to right, and a `..` replaces the path read so far
by the parent of its location (`evalDotdots`). The cleaner computes this, with no more restarts than
there are `..` components (`cleanDotdots_eval`), for every resolver that behaves like one
(`IsResolver`).
-/

namespace Scratchbox

open CallTree List Component

/-! ## Resolvers and the reading of a path -/

/-- A clean path that the resolver leaves where it is. -/
structure Canonical (resolve : List Component → Except Errno (List Component))
    (c : List Component) : Prop where
  clean : Clean c
  fixed : resolve c = .ok c

/-- What is assumed of a resolver for clean absolute paths: its results are
canonical, so it is idempotent, the root is where it is, and so is every path
above a canonical one. -/
structure IsResolver (resolve : List Component → Except Errno (List Component)) : Prop where
  canonical : ∀ {p c}, Clean p → resolve p = .ok c → Canonical resolve c
  root : resolve [] = .ok []
  above : ∀ {c c'}, Canonical resolve c → c' <+: c → resolve c' = .ok c'

/-- The components are read from left to right; `cur` is the path so far. -/
def evalDotdots (resolve : List Component → Except Errno (List Component)) :
    List Component → List Component → Except Errno (List Component)
  | cur, [] => .ok cur
  | cur, c :: rest =>
    if c = Component.dotdot then
      match resolve cur with
      | .error err => .error err
      | .ok real => evalDotdots resolve real.dropLast rest
    else evalDotdots resolve (cur ++ [c]) rest

/-- The answer is what the resolver says. The location may be written with or
without a slash at its end. -/
structure AnswersAs (resolve : List Component → Except Errno (List Component)) (q : Question)
    (a : Answer) : Prop where
  error : ∀ {err}, resolve (components q.absVirtualCleanSourcePathList.plFirst) = .error err →
    a.res.mresErrno = some err
  ok : ∀ {c}, resolve (components q.absVirtualCleanSourcePathList.plFirst) = .ok c →
    a.res.mresErrno = none ∧ ∃ slash, a.res.mresResultBuf = some (absoluteString c slash)

/-- Parents are located by the given resolver, and nothing goes wrong. -/
def resolverContract (resolve : List Component → Except Errno (List Component)) :
    Contract Question Answer Event Fault where
  pre := CleanQuestion
  post := AnswersAs resolve
  event _ := True
  fault _ := False

/-- The result of cleaning: the first error, or the components that were read,
with the trailing slash flag set if the path ended in `..`. -/
def EvaluatesTo (resolve : List Component → Except Errno (List Component)) (flags : PathFlags)
    (cur rest : List Component) (r : Except Errno PathEntryList) : Prop :=
  match evalDotdots resolve cur rest with
  | .error err => r = .error err
  | .ok cs => ∃ l, r = .ok l ∧ components l.plFirst = cs ∧
      l.plFlags = flags.setTrailingSlashIf (rest.getLast? = some Component.dotdot)

variable {resolve : List Component → Except Errno (List Component)}

/-! ## Facts about the reading -/

variable {c cur rest : List Component} {flags : PathFlags} {ctx : PathMappingContext}
  {restart : PathEntryList → Run (Except Errno PathEntryList)} {before : List PathEntry}
  {rest' c' cs : List Component} {err : Errno} {a : Answer}

theorem IsResolver.canonical_above (hres : IsResolver resolve) (hc : Canonical resolve c)
    (hpre : c' <+: c) : Canonical resolve c' :=
  ⟨hc.clean.subset hpre.subset, hres.above hc hpre⟩

theorem IsResolver.canonical_root (hres : IsResolver resolve) : Canonical resolve [] :=
  ⟨clean_nil, hres.root⟩

theorem evalDotdots_dotdot_of_ok {real : List Component} (h : resolve cur = .ok real)
    (rest : List Component) :
    evalDotdots resolve cur (dotdot :: rest) =
      evalDotdots resolve real.dropLast rest := by
  simp [evalDotdots, h]

theorem evalDotdots_dotdot_of_error (h : resolve cur = .error err) (rest : List Component) :
    evalDotdots resolve cur (dotdot :: rest) = .error err := by
  simp [evalDotdots, h]

theorem evalDotdots_ordinary {c : Component} (h : c ≠ dotdot)
    (cur rest : List Component) :
    evalDotdots resolve cur (c :: rest) = evalDotdots resolve (cur ++ [c]) rest := by
  simp [evalDotdots, h]

theorem evalDotdots_append (h : dotdot ∉ cs) (cur rest : List Component) :
    evalDotdots resolve cur (cs ++ rest) = evalDotdots resolve (cur ++ cs) rest := by
  induction cs generalizing cur with
  | nil => simp
  | cons c cs ih =>
    have hc : c ≠ dotdot := fun heq => h (heq ▸ mem_cons_self)
    have hcs : dotdot ∉ cs := fun hm => h (mem_cons_of_mem c hm)
    rw [cons_append, evalDotdots_ordinary hc, ih hcs]
    simp

theorem evalDotdots_plain (h : dotdot ∉ cs) (cur : List Component) :
    evalDotdots resolve cur cs = .ok (cur ++ cs) := by
  have happend : evalDotdots resolve cur (cs ++ []) = evalDotdots resolve (cur ++ cs) [] :=
    evalDotdots_append h cur []
  rwa [append_nil] at happend

theorem evalDotdots_no_dotdot (hres : IsResolver resolve) (hcur : Clean cur)
    (hrest : dot ∉ rest) (h : evalDotdots resolve cur rest = .ok cs) : Clean cs := by
  induction rest generalizing cur with
  | nil =>
    cases h
    exact hcur
  | cons c rest ih =>
    have hrest' : dot ∉ rest := fun hm => hrest (mem_cons_of_mem c hm)
    by_cases hc : c = dotdot
    · subst hc
      cases hr : resolve cur with
      | error err =>
        rw [evalDotdots_dotdot_of_error hr] at h
        cases h
      | ok real =>
        rw [evalDotdots_dotdot_of_ok hr] at h
        have hreal := (hres.canonical hcur hr).clean
        exact ih (hreal.subset (dropLast_subset real)) hrest' h
    · rw [evalDotdots_ordinary hc] at h
      have hc' : Clean [c] := by
        refine ⟨fun hm => hrest ?_, fun hm => hc ?_⟩
        · rw [mem_singleton.1 hm]
          exact mem_cons_self
        · exact (mem_singleton.1 hm).symm
      exact ih (hcur.append hc') hrest' h

theorem decide_getLast?_ordinary {c : Component} (h : c ≠ dotdot)
    (rest : List Component) :
    decide ((c :: rest).getLast? = some dotdot) =
      decide (rest.getLast? = some dotdot) := by
  cases rest with
  | nil => simp [h]
  | cons d rest => rw [getLast?_cons_cons]

theorem decide_getLast?_dotdot (rest : List Component) :
    decide ((dotdot :: rest).getLast? = some dotdot) =
      (rest.isEmpty || decide (rest.getLast? = some dotdot)) := by
  cases rest with
  | nil => simp
  | cons d rest => simp [getLast?_cons_cons]

/-! ## Step 2 -/

/-- What step 2 leaves of a path that starts with a canonical part: again such a
path, with the same reading, and `..` only behind an ordinary component. -/
structure ScanEval (resolve : List Component → Except Errno (List Component))
    (c rest : List Component) (scan : Scan) (c' rest' : List Component) : Prop where
  canonical : Canonical resolve c'
  suffix : rest' <:+ rest
  head : rest'.head? ≠ some Component.dotdot
  entries : scan.entries = markedEntries c' ++ freshEntries rest'
  nontrivial : scan.hasNontrivialDotdots = decide (Component.dotdot ∈ rest')
  eval : evalDotdots resolve c rest = evalDotdots resolve c' rest'
  last : (scan.lastRemoved || decide (rest'.getLast? = some Component.dotdot)) =
    decide (rest.getLast? = some Component.dotdot)
  removed : scan.lastRemoved = true → rest' = []

theorem ScanEval.remove {c₁ : List Component} {scan : Scan}
    (h : ScanEval resolve c₁ rest scan c' rest') (dirs : List (List Component))
    (heval : evalDotdots resolve c (dotdot :: rest) = evalDotdots resolve c₁ rest) :
    ScanEval resolve c (dotdot :: rest)
      { scan with
        lastRemoved := scan.lastRemoved || (freshEntries rest).isEmpty
        dirs := dirs } c' rest' where
  canonical := h.canonical
  suffix := h.suffix.trans (suffix_cons _ _)
  head := h.head
  entries := h.entries
  nontrivial := h.nontrivial
  eval := heval.trans h.eval
  last := by
    rw [decide_getLast?_dotdot, ← h.last, isEmpty_freshEntries]
    cases rest.isEmpty <;> simp
  removed hlast := by
    rw [isEmpty_freshEntries, Bool.or_eq_true] at hlast
    refine hlast.elim h.removed fun hempty => suffix_nil.1 ?_
    rw [← isEmpty_iff.1 hempty]
    exact h.suffix

theorem removeKnownDotdots_marked_append (hc : Clean c) (entries : List PathEntry) :
    removeKnownDotdots [] (markedEntries c ++ entries) =
      removeKnownDotdots (markedEntries c).reverse entries := by
  rw [removeKnownDotdots_append (by simpa using hc.no_dotdot), append_nil]

theorem removeKnownDotdots_eval (hres : IsResolver resolve) (hc : Canonical resolve c)
    (rest : List Component) :
    ∃ c' rest', ScanEval resolve c rest
      (removeKnownDotdots (markedEntries c).reverse (freshEntries rest)) c' rest' := by
  induction rest generalizing c with
  | nil =>
    refine ⟨c, [], hc, suffix_rfl, by simp, ?_, ?_, rfl, ?_, fun _ => rfl⟩
    · simp [removeKnownDotdots, freshEntries]
    · simp [removeKnownDotdots, freshEntries]
    · simp [removeKnownDotdots, freshEntries]
  | cons x rest ih =>
    rw [freshEntries_cons]
    by_cases hx : x = dotdot
    · have hwork := isDotdot_eq_true (e := { pePathComponent := x }).2 hx
      subst hx
      rcases eq_nil_or_concat c with rfl | ⟨c₁, y, rfl⟩
      · obtain ⟨c', rest', h⟩ := ih hc
        refine ⟨c', rest', ?_⟩
        rw [markedEntries_nil, reverse_nil, removeKnownDotdots_root hwork]
        exact h.remove _ (evalDotdots_dotdot_of_ok hc.fixed rest)
      · have habove : Canonical resolve c₁ := hres.canonical_above hc ⟨[y], by simp⟩
        obtain ⟨c', rest', h⟩ := ih habove
        refine ⟨c', rest', ?_⟩
        rw [concat_eq_append] at hc ⊢
        rw [reverse_markedEntries_concat, removeKnownDotdots_marked hwork rfl]
        refine h.remove _ ?_
        rw [evalDotdots_dotdot_of_ok hc.fixed, dropLast_concat]
    · -- the entry just read may be a symlink: everything behind it is kept
      refine ⟨c, x :: rest, hc, suffix_rfl, by simpa using hx, ?_, ?_, rfl, ?_, ?_⟩
      all_goals
        rw [removeKnownDotdots_ordinary (isDotdot_eq_false.2 hx),
          removeKnownDotdots_kept _ rfl]
      · simp [freshEntries]
      · simp [Ne.symm hx]
      · simp
      · simp

/-! ## Step 3 -/

theorem EvaluatesTo.congr {flags' : PathFlags} {cur' : List Component}
    {r : Except Errno PathEntryList} (h : EvaluatesTo resolve flags' cur' rest' r)
    (heval : evalDotdots resolve cur rest = evalDotdots resolve cur' rest')
    (hflags : flags.setTrailingSlashIf (rest.getLast? = some dotdot) =
      flags'.setTrailingSlashIf (rest'.getLast? = some dotdot)) :
    EvaluatesTo resolve flags cur rest r := by
  unfold EvaluatesTo at h ⊢
  rw [heval, hflags]
  exact h

theorem AnswersAs.located (h : AnswersAs resolve (parentQuestion ctx flags before) a)
    (herrno : a.res.mresErrno = none) :
    ∃ c slash, resolve (components before.reverse) = .ok c ∧
      a.res.mresResultBuf = some (absoluteString c slash) := by
  have hcomps : components (parentQuestion ctx flags before).absVirtualCleanSourcePathList.plFirst =
      components before.reverse := components_duplicate _
  cases hr : resolve (components before.reverse) with
  | error err =>
    rw [h.error (hcomps ▸ hr)] at herrno
    cases herrno
  | ok c =>
    obtain ⟨-, slash, hbuf⟩ := h.ok (hcomps ▸ hr)
    exact ⟨c, slash, rfl, hbuf⟩

theorem AnswersAs.failed (h : AnswersAs resolve (parentQuestion ctx flags before) a)
    (herrno : a.res.mresErrno = some err) : resolve (components before.reverse) = .error err := by
  have hcomps : components (parentQuestion ctx flags before).absVirtualCleanSourcePathList.plFirst =
      components before.reverse := components_duplicate _
  cases hr : resolve (components before.reverse) with
  | error err' =>
    rw [h.error (hcomps ▸ hr)] at herrno
    cases herrno
    rfl
  | ok c =>
    rw [(h.ok (hcomps ▸ hr)).1] at herrno
    cases herrno

theorem resolveDotdots_sat (hres : IsResolver resolve) (ctx : PathMappingContext)
    (hrestart : ∀ c next flags, Canonical resolve c → dotdot :: next <:+ rest →
      flags.absolute = true →
      (restart ⟨markedEntries c ++ freshEntries (dotdot :: next), flags⟩).Sat
        (resolverContract resolve) (EvaluatesTo resolve flags c (dotdot :: next)))
    (flags : PathFlags) (habs : flags.absolute = true) (before : List PathEntry)
    (hbefore : Clean (components before.reverse)) (hdot : dot ∉ rest) :
    (resolveDotdots (virtualParentOps ctx) restart flags before (freshEntries rest)).Sat
      (resolverContract resolve)
      (EvaluatesTo resolve flags (components before.reverse) rest) := by
  induction rest generalizing before flags with
  | nil => exact ⟨⟨before.reverse, flags⟩, rfl, rfl, by simp⟩
  | cons x rest ih =>
    have hdot' : dot ∉ rest := fun hm => hdot (mem_cons_of_mem x hm)
    have ih' := ih fun c next flags hc hsuf =>
      hrestart c next flags hc (hsuf.trans (suffix_cons x rest))
    rw [freshEntries_cons]
    by_cases hx : x = dotdot
    · have hwork : PathEntry.isDotdot { pePathComponent := x } = true := isDotdot_eq_true.2 hx
      subst hx
      have hpre : CleanQuestion (parentQuestion ctx flags before) :=
        ⟨habs, by simpa [parentQuestion] using hbefore⟩
      refine resolveDotdots_dotdot_sat hwork hbefore hpre ?_ ?_ ?_ ?_ ?_
      · intro a err ha herrno
        rw [EvaluatesTo, evalDotdots_dotdot_of_error (ha.failed herrno)]
      · intro a ha herrno hnull
        obtain ⟨c, slash, -, hbuf⟩ := ha.located herrno
        rw [hnull] at hbuf
        cases hbuf
      · rintro a buf ha herrno hbuf hne rfl
        obtain ⟨c, slash, hr, hbuf'⟩ := ha.located herrno
        rw [reverse_nil, components_nil, hres.root] at hr
        cases hr
        rw [hbuf] at hbuf'
        cases hbuf'
        exact hne rfl
      · intro a buf ha herrno hbuf hne hne'
        obtain ⟨c, slash, hr, hbuf'⟩ := ha.located herrno
        rw [hbuf] at hbuf'
        cases hbuf'
        have hc := hres.canonical hbefore hr
        rw [tokens_absoluteString]
        refine (hrestart c rest flags hc suffix_rfl habs).mono fun r hevals => ?_
        refine hevals.congr ?_ rfl
        rw [evalDotdots_dotdot_of_ok hr, evalDotdots_dotdot_of_ok hc.fixed]
      · intro a ha herrno hbuf _
        obtain ⟨c, slash, hr, hbuf'⟩ := ha.located herrno
        rw [hbuf, parentString_absolute habs] at hbuf'
        have hc : components before.reverse = c := absoluteString_inj (Option.some.inj hbuf')
        have htail : components before.tail.reverse = c.dropLast := by
          rw [← hc]
          cases before <;> simp
        have hclean : Clean (components before.tail.reverse) := by
          rw [htail, ← hc]
          exact hbefore.subset (dropLast_subset _)
        refine (ih' (flags.setTrailingSlashIf (freshEntries rest).isEmpty) habs _ hclean
          hdot').mono fun r hevals => ?_
        refine hevals.congr ?_ ?_
        · rw [evalDotdots_dotdot_of_ok hr, htail]
        · rw [setTrailingSlashIf_twice, isEmpty_freshEntries, decide_getLast?_dotdot]
    · rw [resolveDotdots_ordinary (isDotdot_eq_false.2 hx)]
      have hdots : dot ∉ components (freshEntries (x :: rest)) := by simpa using hdot
      refine (ih' flags habs _ (hbefore.push hdots hx) hdot').mono fun r hevals => ?_
      refine hevals.congr ?_ ?_
      · rw [evalDotdots_ordinary hx]
        simp
      · rw [decide_getLast?_ordinary hx]

/-! ## One pass and the whole function -/

theorem dropLeadingDotdots_eval (hres : IsResolver resolve) (hc : Canonical resolve c)
    (rest : List Component) :
    ∃ rest₁, rest₁ <:+ rest ∧
      (dropLeadingDotdots (markedEntries c ++ freshEntries rest)).1 =
        markedEntries c ++ freshEntries rest₁ ∧
      evalDotdots resolve c rest = evalDotdots resolve c rest₁ ∧
      ((dropLeadingDotdots (markedEntries c ++ freshEntries rest)).2 ||
          decide (rest₁.getLast? = some dotdot)) =
        decide (rest.getLast? = some dotdot) ∧
      ((dropLeadingDotdots (markedEntries c ++ freshEntries rest)).2 = true → rest₁ = []) := by
  cases c with
  | cons y c =>
    have hy : PathEntry.isDotdot { pePathComponent := y, peNotSymlink := true } = false :=
      isDotdot_eq_false.2 fun heq => hc.clean.no_dotdot (heq ▸ mem_cons_self)
    have hdrop : dropLeadingDotdots (markedEntries (y :: c) ++ freshEntries rest) =
        (markedEntries (y :: c) ++ freshEntries rest, false) := by
      rw [show markedEntries (y :: c) =
        { pePathComponent := y, peNotSymlink := true } :: markedEntries c from rfl,
        cons_append, dropLeadingDotdots, hy]
      rfl
    rw [hdrop]
    exact ⟨rest, suffix_rfl, rfl, rfl, rfl, nofun⟩
  | nil =>
    induction rest with
    | nil => exact ⟨[], suffix_rfl, rfl, rfl, rfl, fun _ => rfl⟩
    | cons x rest ih =>
      simp only [markedEntries_nil, nil_append] at ih ⊢
      rw [freshEntries_cons, dropLeadingDotdots]
      by_cases hx : x = dotdot
      · obtain ⟨rest₁, hsuf, hentries, heval, hlast, hall⟩ := ih
        have hwork : PathEntry.isDotdot { pePathComponent := x } = true := isDotdot_eq_true.2 hx
        subst hx
        rw [if_pos hwork]
        refine ⟨rest₁, hsuf.trans (suffix_cons _ _), hentries, ?_, ?_, fun h => ?_⟩
        · rw [evalDotdots_dotdot_of_ok hres.root]
          exact heval
        · rw [decide_getLast?_dotdot, ← hlast, isEmpty_freshEntries]
          cases rest.isEmpty <;> simp
        · rw [isEmpty_freshEntries, Bool.or_eq_true] at h
          exact h.elim hall fun hempty => suffix_nil.1 (isEmpty_iff.1 hempty ▸ hsuf)
      · have hwork : PathEntry.isDotdot { pePathComponent := x } = false := isDotdot_eq_false.2 hx
        rw [hwork]
        exact ⟨x :: rest, suffix_rfl, rfl, rfl, rfl, nofun⟩

theorem evaluatesTo_self (hrest : dotdot ∉ rest) (flags : PathFlags) :
    EvaluatesTo resolve flags c rest (.ok ⟨markedEntries c ++ freshEntries rest, flags⟩) := by
  have hlast : rest.getLast? ≠ some dotdot := fun h => hrest (mem_of_getLast? h)
  rw [EvaluatesTo, evalDotdots_plain hrest]
  exact ⟨_, rfl, by simp, by simp [hlast]⟩

theorem cleanDotdotsPass_eval (hres : IsResolver resolve)
    (hrestart : ∀ c next flags, Canonical resolve c →
      (∃ rest', rest' <:+ rest ∧ rest'.head? ≠ some dotdot ∧
        dotdot :: next <:+ rest') → flags.absolute = true →
      (restart ⟨markedEntries c ++ freshEntries (dotdot :: next), flags⟩).Sat
        (resolverContract resolve) (EvaluatesTo resolve flags c (dotdot :: next)))
    (hc : Canonical resolve c) (hdot : dot ∉ rest) (habs : flags.absolute = true) :
    (cleanDotdotsPass (virtualParentOps ctx) restart
      ⟨markedEntries c ++ freshEntries rest, flags⟩).Sat (resolverContract resolve)
      (EvaluatesTo resolve flags c rest) := by
  obtain ⟨rest₁, hsuf₁, hentries, heval₁, hlast₁, -⟩ := dropLeadingDotdots_eval hres hc rest
  apply cleanDotdotsPass_sat
  · exact habs
  · intro _ hno
    simp only [hentries, components_append, components_markedEntries,
      components_freshEntries] at hno
    have hno₁ : dotdot ∉ rest₁ := fun hm => hno (mem_append_right c hm)
    rw [hentries]
    refine (evaluatesTo_self hno₁ _).congr heval₁ ?_
    rw [setTrailingSlashIf_twice, hlast₁]
  · rintro scan flags' - hscan hflags' -
    rw [hentries, removeKnownDotdots_marked_append hc.clean] at hscan
    obtain ⟨c', rest', hse⟩ := removeKnownDotdots_eval hres hc rest₁
    rw [← hscan] at hse
    have heval := heval₁.trans hse.eval
    have habs' : flags'.absolute = true := by
      rw [hflags']
      exact habs
    have hflags : flags.setTrailingSlashIf (rest.getLast? = some dotdot) =
        flags'.setTrailingSlashIf (rest'.getLast? = some dotdot) := by
      rw [hflags', setTrailingSlashIf_twice, setTrailingSlashIf_twice, hse.last, hlast₁]
    rw [hse.nontrivial, hse.entries]
    by_cases hdd : dotdot ∈ rest'
    · have hmarked : dotdot ∉ components (markedEntries c') := by
        simpa using hse.canonical.clean.no_dotdot
      have hdot' : dot ∉ rest' := fun hm => hdot ((hse.suffix.trans hsuf₁).subset hm)
      rw [if_pos (decide_eq_true hdd), resolveDotdots_append _ _ hmarked]
      refine (resolveDotdots_sat hres ctx
        (fun c next flags hc hsuf =>
          hrestart c next flags hc ⟨rest', hse.suffix.trans hsuf₁, hse.head, hsuf⟩)
        flags' habs' _ (by simpa using hse.canonical.clean) hdot').mono fun r hevals => ?_
      refine hevals.congr ?_ hflags
      simpa using heval
    · rw [if_neg (by simpa using hdd)]
      exact (evaluatesTo_self hdd _).congr heval hflags

/-- A round that starts with an ordinary component is restarted at most once for each `..`. -/
def EnoughRounds (n : Nat) (rest : List Component) : Prop :=
  ∀ rest', rest' <:+ rest → rest'.head? ≠ some dotdot → rest'.count dotdot ≤ n

/-- The restarted round removes the `..` it was restarted for without asking again. -/
theorem EnoughRounds.behind {n : Nat} {next : List Component} (hn : EnoughRounds n rest)
    (h : ∃ rest', rest' <:+ rest ∧ rest'.head? ≠ some dotdot ∧ dotdot :: next <:+ rest') :
    ∃ m, n = m + 1 ∧ EnoughRounds m (dotdot :: next) := by
  obtain ⟨rest', hsuf, hhead, hsuf'⟩ := h
  have hle := (hsuf'.sublist.count_le dotdot).trans (hn rest' hsuf hhead)
  rw [count_cons_self] at hle
  obtain ⟨m, rfl⟩ := Nat.exists_eq_add_of_le' (Nat.one_le_of_lt hle)
  refine ⟨m, rfl, fun rest'' hsuf'' hhead'' => ?_⟩
  rcases suffix_cons_iff.1 hsuf'' with rfl | hsuf''
  · exact absurd rfl hhead''
  · exact (hsuf''.sublist.count_le dotdot).trans (Nat.le_of_succ_le_succ hle)

theorem cleanDotdots_eval (hres : IsResolver resolve) (ctx : PathMappingContext) (n : Nat)
    (hc : Canonical resolve c) (hdot : dot ∉ rest) (habs : flags.absolute = true)
    (hn : EnoughRounds n rest) :
    (cleanDotdotsFromPath (virtualParentOps ctx) n
      ⟨markedEntries c ++ freshEntries rest, flags⟩).Sat (resolverContract resolve)
      (EvaluatesTo resolve flags c rest) := by
  induction n generalizing c rest flags with
  | zero =>
    refine cleanDotdotsPass_eval hres (fun c next flags _ hnext => ?_) hc hdot habs
    obtain ⟨m, hm, -⟩ := hn.behind hnext
    cases hm
  | succ n ih =>
    refine cleanDotdotsPass_eval hres ?_ hc hdot habs
    intro c next flags hc hnext habs
    obtain ⟨_, ⟨⟩, hm⟩ := hn.behind hnext
    obtain ⟨rest', hsuf, -, hsuf'⟩ := hnext
    exact ih hc (fun hmem => hdot ((hsuf'.trans hsuf).subset hmem)) habs hm

theorem cleanVirtualPath_reads (hres : IsResolver resolve) (ctx : PathMappingContext)
    (hc : Canonical resolve c) (habs : flags.absolute = true) (rest : List Component) :
    (cleanVirtualPath ctx ⟨markedEntries c ++ freshEntries rest, flags⟩).Sat
      (resolverContract resolve) (EvaluatesTo resolve
        (flags.setTrailingSlashIf ((c ++ rest).getLast? = some dot)) c (withoutDots rest)) := by
  have hdot : dot ∉ withoutDots rest := fun hm => by
    simpa using of_mem_filter hm
  by_cases hdd : dotdot ∈ components (markedEntries c ++ freshEntries rest)
  · rw [cleanVirtualPath_dotdot ctx hdd, removeDots_markedEntries hc.clean]
    refine cleanDotdots_eval hres ctx _ hc hdot habs fun rest' hsuf _ => ?_
    have hle := hsuf.sublist.count_le dotdot
    rw [countDotdots, countP_append]
    have hcount := countDotdots_freshEntries (withoutDots rest)
    rw [countDotdots] at hcount
    omega
  · rw [cleanVirtualPath_plain ctx hdd, removeDots_markedEntries hc.clean]
    refine evaluatesTo_self (fun hm => hdd ?_) _
    rw [components_append, components_freshEntries]
    exact mem_append_right _ (mem_of_mem_filter hm)

/-- Cleaning a path whose parents are located by a resolver returns the first
error that reading the path from left to right meets, or the path it reads; it
needs no more restarts than the path has `..` components. -/
theorem cleanDotdots_left_to_right (hres : IsResolver resolve) (ctx : PathMappingContext)
    {answer : Question → List Event × Outcome Fault Answer}
    (hanswer : ∀ q, CleanQuestion q → ∃ es a, answer q = (es, .ok a) ∧ AnswersAs resolve q a)
    (c rest : List Component) (hc : Canonical resolve c) (hdot : Component.dot ∉ rest)
    (flags : PathFlags) (habs : flags.absolute = true) (restarts : Nat)
    (hrestarts : (c ++ rest).count Component.dotdot ≤ restarts) :
    ∃ es r, (cleanDotdotsFromPath (virtualParentOps ctx) restarts
        ⟨markedEntries c ++ freshEntries rest, flags⟩).run answer = (es, .ok r) ∧
      match evalDotdots resolve [] (c ++ rest) with
      | .error err => r = .error err
      | .ok cs => Component.dotdot ∉ cs ∧
          ∃ l, r = .ok l ∧ components l.plFirst = cs ∧
            l.plFlags = flags.setTrailingSlashIf (rest.getLast? = some Component.dotdot) := by
  have hn : ∀ rest', rest' <:+ rest → rest'.head? ≠ some dotdot →
      rest'.count dotdot ≤ restarts := by
    intro rest' hsuf _
    have hle := hsuf.sublist.count_le dotdot
    rw [count_append] at hrestarts
    omega
  have hsat := cleanDotdots_eval hres ctx restarts hc hdot habs hn
  obtain ⟨es, r, hrun, hevals⟩ := hsat.exists_run (fun _ hf => hf) (fun _ => trivial) hanswer
  refine ⟨es, r, hrun, ?_⟩
  rw [evalDotdots_append hc.clean.no_dotdot, nil_append]
  unfold EvaluatesTo at hevals
  cases heval : evalDotdots resolve c rest with
  | error err => simpa [heval] using hevals
  | ok cs =>
    simp only [heval] at hevals
    exact ⟨(evalDotdots_no_dotdot hres hc.clean hdot heval).no_dotdot, hevals⟩

/-! ## A resolver with one symbolic link -/

def exampleComponent (c : Char) (h : '/' ∉ [c]) : Component := ⟨[c], List.cons_ne_nil _ _, h⟩

/-- A file system in which `/l` is a symbolic link to `/d/e`. -/
def oneLinkResolver : List Component → Except Errno (List Component)
  | [] => .ok []
  | x :: p =>
    if x = exampleComponent 'l' (by decide) then
      .ok (exampleComponent 'd' (by decide) :: exampleComponent 'e' (by decide) :: p)
    else .ok (x :: p)

theorem isResolver_oneLinkResolver : IsResolver oneLinkResolver where
  canonical := by
    intro p c hp hc
    cases p with
    | nil =>
      cases hc
      exact ⟨clean_nil, rfl⟩
    | cons x p =>
      rw [oneLinkResolver] at hc
      split at hc
      · cases hc
        have hdir : Clean [exampleComponent 'd' (by decide), exampleComponent 'e' (by decide)] :=
          ⟨by decide, by decide⟩
        exact ⟨hdir.append (hp.subset (subset_cons_self x p)), rfl⟩
      · rename_i hx
        cases hc
        exact ⟨hp, by rw [oneLinkResolver, if_neg hx]⟩
  root := rfl
  above := by
    intro c c' hc hpre
    cases c' with
    | nil => rfl
    | cons x p =>
      obtain ⟨t, rfl⟩ := hpre
      have hfixed := hc.fixed
      rw [cons_append, oneLinkResolver] at hfixed
      rw [oneLinkResolver]
      split at hfixed
      · rename_i hx
        have hne := (List.cons.inj (Except.ok.inj hfixed)).1
        rw [hx] at hne
        exact absurd hne (by decide)
      · rename_i hx
        rw [if_neg hx]

/-- Answers by the resolver, written without a slash at the end. -/
def oneLinkAnswer (q : Question) : List Event × Outcome Fault Answer :=
  match oneLinkResolver (components q.absVirtualCleanSourcePathList.plFirst) with
  | .error err => ([], .ok ⟨none, { mresErrno := some err }⟩)
  | .ok c => ([], .ok ⟨none, { mresResultBuf := some (absoluteString c false) }⟩)

theorem oneLinkAnswer_answersAs (q : Question) :
    ∃ es a, oneLinkAnswer q = (es, .ok a) ∧ AnswersAs oneLinkResolver q a := by
  cases hr : oneLinkResolver (components q.absVirtualCleanSourcePathList.plFirst) with
  | error err =>
    refine ⟨[], ⟨none, { mresErrno := some err }⟩, by simp [oneLinkAnswer, hr], ?_, ?_⟩
    · intro err' h
      rw [hr] at h
      cases h
      rfl
    · intro c h
      rw [hr] at h
      cases h
  | ok c =>
    refine ⟨[], ⟨none, { mresResultBuf := some (absoluteString c false) }⟩,
      by simp [oneLinkAnswer, hr], ?_, ?_⟩
    · intro err h
      rw [hr] at h
      cases h
    · intro c' h
      rw [hr] at h
      cases h
      exact ⟨rfl, false, rfl⟩

/-- `/l/../x` is cleaned to `/d/x` with one restart. -/
theorem cleanDotdots_oneLink :
    ∃ es r, (cleanDotdotsFromPath
        (virtualParentOps { pmcBinaryName := [], pmcFnClass := 1 }) 1
        ⟨markedEntries [] ++ freshEntries [exampleComponent 'l' (by decide), Component.dotdot,
          exampleComponent 'x' (by decide)], { absolute := true }⟩).run oneLinkAnswer =
            (es, .ok r) ∧
      ∃ l, r = .ok l ∧ components l.plFirst =
        [exampleComponent 'd' (by decide), exampleComponent 'x' (by decide)] := by
  obtain ⟨es, r, hrun, -, l, hl, hcomps, -⟩ := cleanDotdots_left_to_right
    isResolver_oneLinkResolver { pmcBinaryName := [], pmcFnClass := 1 }
    (fun q _ => oneLinkAnswer_answersAs q) []
    [exampleComponent 'l' (by decide), dotdot, exampleComponent 'x' (by decide)]
    isResolver_oneLinkResolver.canonical_root (by decide) { absolute := true } rfl 1 (by decide)
  exact ⟨es, r, hrun, l, hl, hcomps⟩

end Scratchbox
