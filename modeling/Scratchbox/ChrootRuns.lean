import Scratchbox.ChrootFacts
import Scratchbox.ResolutionAnswers
import Scratchbox.PathMatchers

/-!
# Sequences of chroot calls

The stored chroot path is written by path cleaning, which keeps a trailing slash and adds one when
it removes a `.` or `..` at the end of the path (`chrootRun_root`). Reversing compares strings: the
stored path has to be a prefix that is followed by a slash or by nothing. So the prefix is dropped
exactly if the argument from which the active root comes ended in an ordinary name
(`chroot_prefix_dropped_iff`).
-/

namespace Scratchbox

open CallTree List

/-! ## The spelling of the stored path -/

def endsOpen (path : CStr) : Bool :=
  Token.openEnd '/' path || endsInDots (Token.tokens '/' path)

theorem endsInDots_append (cs : List Component) {cs' : List Component} (h : cs' ≠ []) :
    endsInDots (cs ++ cs') = endsInDots cs' := by
  rw [endsInDots, endsInDots, getLast?_append_of_ne_nil cs h]

theorem endsOpen_append (cs : List Component) (path : CStr) :
    (Token.openEnd '/' path || endsInDots (cs ++ Token.tokens '/' path)) = endsOpen path := by
  by_cases hnil : Token.tokens '/' path = []
  · rw [endsOpen, Token.openEnd_of_tokens_eq_nil hnil, Bool.true_or, Bool.true_or]
  · rw [endsInDots_append cs hnil, endsOpen]

theorem endsOpen_pathForNewRoot (chroot : Option CStr) (path : CStr) :
    endsOpen (pathForNewRoot chroot path) = endsOpen path := by
  unfold pathForNewRoot
  cases chroot with
  | none => rfl
  | some chroot =>
    dsimp only
    split
    · rw [endsOpen, Token.tokens_append_sep, Token.openEnd_append_sep, endsOpen_append]
    · rfl

/-- The process can call the gate: mapping is active, and the current directory
has an absolute virtual path without `..`. -/
structure GateReady (p : Process) (sb2 : Sb2Context) : Prop where
  context : p.sb2ctx = some sb2
  active : MappingActive p.session sb2
  cwd : ∃ hostCwd, p.session.host.getcwd = some hostCwd ∧ ∀ reversed,
    virtualReversedCwd p.session sb2 p.chrootContext hostCwd = .ok reversed →
    reversed.head? = some '/' ∧ Component.dotdot ∉ Token.tokens '/' reversed

variable {p p' : Process} {sb2 : Sb2Context} {es : List Event} {cs : List Component} {path : CStr}

theorem dotdotsUnmarked_markedEntries {c : List Component} (hc : Component.dotdot ∉ c)
    (cs : List Component) : DotdotsUnmarked (markedEntries c ++ freshEntries cs) := by
  intro e he hmark
  rcases mem_append.1 he with he | he
  · exact isDotdot_false_of_mem (by simpa using hc) he
  · exact dotdotsUnmarked_freshEntries cs e he hmark

/-- The absolute virtual path of a new root is clean; its last slash depends on how
the argument ended. -/
theorem newRoot_text (hready : GateReady p sb2) (hne : path ≠ []) {text : CStr}
    {sb2' : Option Sb2Context}
    (h : Yields (resolutionBody p.session) (sboxVirtualPathToAbsVirtualPath p.session p.sb2ctx
      p.chrootContext (pathForNewRoot p.session.sboxChrootPath path)) es (.ok text, sb2')) :
    ∃ cs, Clean cs ∧ text = absoluteString cs (endsOpen path) := by
  have hne' := pathForNewRoot_ne_nil p.session.sboxChrootPath hne
  obtain ⟨hostCwd, hcwd, hgood⟩ := hready.cwd
  rw [hready.context] at h
  rcases yields_absVirtualPath hready.active hne' h with hnone | ⟨list, root, hstart, hroot, rfl⟩
  · exact absurd hnone (startList_ne_none hcwd _)
  · obtain ⟨c, absolute, rfl, hcases⟩ := startList_some hstart
    have hc : absolute = true ∧ Component.dotdot ∉ c := by
      rcases hcases with ⟨-, rfl, rfl⟩ | ⟨hostCwd', reversed, -, hcwd', hrev, rfl, rfl⟩
      · exact ⟨rfl, not_mem_nil⟩
      · rw [hcwd] at hcwd'
        cases hcwd'
        exact ⟨decide_eq_true (hgood reversed hrev).1, (hgood reversed hrev).2⟩
    obtain ⟨habs, hclean, htrailing⟩ :=
      cleanVirtualPath_cleaned hc.1 (dotdotsUnmarked_markedEntries hc.2 _) hroot
    refine ⟨components root.plFirst, hclean, ?_⟩
    rw [pathListToString_absolute habs, htrailing, components_append, components_markedEntries,
      components_freshEntries, endsOpen_append, endsOpen_pathForNewRoot]

/-! ## Runs -/

/-- A sequence of chroot calls with their results. Between the calls the process
may do anything that leaves the chroot directory alone. -/
inductive ChrootRun (p₀ : Process) : List (CStr × Except Errno Unit) → Process → Prop
  | start : ChrootRun p₀ [] p₀
  | between {calls : List (CStr × Except Errno Unit)} {p p' : Process} : ChrootRun p₀ calls p →
      p'.session.sboxChrootPath = p.session.sboxChrootPath → ChrootRun p₀ calls p'
  | call {calls : List (CStr × Except Errno Unit)} {p p' : Process} {sb2 : Sb2Context}
      {path : CStr} {es : List Event} {r : Except Errno Unit} : ChrootRun p₀ calls p →
      GateReady p sb2 → path ≠ [] →
      Yields (resolutionBody p.session) (chrootGate p path) es (r, p') →
      ChrootRun p₀ (calls ++ [(path, r)]) p'

def lastSuccess (calls : List (CStr × Except Errno Unit)) : Option CStr :=
  (calls.filterMap fun call => if call.2.isOk then some call.1 else none).getLast?

theorem lastSuccess_ok (calls : List (CStr × Except Errno Unit)) (path : CStr) :
    lastSuccess (calls ++ [(path, .ok ())]) = some path := by
  simp [lastSuccess, Except.isOk, Except.toBool]

theorem lastSuccess_error (calls : List (CStr × Except Errno Unit)) (path : CStr) (err : Errno) :
    lastSuccess (calls ++ [(path, .error err)]) = lastSuccess calls := by
  simp [lastSuccess, Except.isOk, Except.toBool]

/-- The chroot directory left by the calls: its components, and the way its path is
spelled. -/
def RootFrom (calls : List (CStr × Except Errno Unit)) (chroot : Option CStr) : Prop :=
  ∀ c, chroot = some c → ∃ d cs, lastSuccess calls = some d ∧ cs ≠ [] ∧
    c = absoluteString cs (endsOpen d)

theorem chrootGate_failed {err : Errno} {body : Question → Run Answer}
    (h : Yields body (chrootGate p path) es (.error err, p')) : p'.session = p.session := by
  cases yields_chrootGate h with
  | failed => rfl

theorem chrootRun_root {p₀ : Process} {calls : List (CStr × Except Errno Unit)}
    (hstart : p₀.session.sboxChrootPath = none) (hrun : ChrootRun p₀ calls p) :
    RootFrom calls p.session.sboxChrootPath := by
  induction hrun with
  | start =>
    intro c hc
    rw [hstart] at hc
    cases hc
  | between _ hsame ih =>
    rw [hsame]
    exact ih
  | @call calls p p' sb2 path es r _ hready hne h ih =>
    cases yields_chrootGate h with
    | @failed err _ =>
      intro c hc
      rw [lastSuccess_error]
      exact ih c hc
    | @entered _ text _ _ htext =>
      obtain ⟨cs, -, rfl⟩ := newRoot_text hready hne htext
      intro c hc
      have hstored : storedRoot (absoluteString cs (endsOpen path)) = some c := hc
      unfold storedRoot at hstored
      split at hstored
      · cases hstored
      · rename_i hroot
        refine ⟨path, cs, lastSuccess_ok calls path, ?_, (Option.some.inj hstored).symm⟩
        rintro rfl
        exact hroot rfl

/-! ## Dropping the prefix -/

theorem absoluteString_ne_root (h : cs ≠ []) : absoluteString cs false ≠ ['/'] := by
  intro hroot
  have htokens := tokens_absoluteString cs false
  rw [hroot] at htokens
  exact h htokens.symm

/-- The directory itself is reversed to `/` exactly if it is stored without a slash
at its end. -/
theorem dropChrootPrefix_root_iff (hne : cs ≠ []) (trailing : Bool) :
    dropChrootPrefix (some (absoluteString cs trailing)) (some (absoluteString cs false)) =
      .ok (some ['/']) ↔ trailing = false := by
  cases trailing with
  | false => simp [dropChrootPrefix]
  | true =>
    have hlong : ¬ absoluteString cs true <+: absoluteString cs false := by
      intro h
      have hlen := h.length_le
      rw [absoluteString_slash hne, length_append, length_singleton] at hlen
      omega
    simp [dropChrootPrefix, hlong, absoluteString_ne_root hne]

/-- A path below the directory is reversed to what comes after the directory exactly
if it is stored without a slash at its end. -/
theorem dropChrootPrefix_below_iff (hne : cs ≠ []) (trailing : Bool) {rest : CStr}
    (hrest : rest ≠ []) :
    dropChrootPrefix (some (absoluteString cs trailing))
        (some (absoluteString cs false ++ '/' :: rest)) = .ok (some ('/' :: rest)) ↔
      trailing = false := by
  cases trailing with
  | false => simp [dropChrootPrefix]
  | true =>
    have hpath : absoluteString cs false ++ '/' :: rest = absoluteString cs true ++ rest := by
      rw [absoluteString_slash hne]
      simp
    rw [hpath, dropChrootPrefix]
    simp only [prefix_append, if_true, drop_left]
    have hlen : ∀ r : CStr, absoluteString cs true ++ r ≠ '/' :: r := by
      intro r heq
      have hl := congrArg List.length heq
      rw [absoluteString_slash hne, length_append, length_append,
        length_singleton, length_cons] at hl
      exact absoluteString_ne_nil cs false (length_eq_zero_iff.1 (by omega))
    cases rest with
    | nil => exact absurd rfl hrest
    | cons x rest =>
      by_cases hx : x = '/'
      · subst hx
        simp
      · split
        · rename_i heq
          cases heq
        · rename_i heq
          cases heq
          exact absurd rfl hx
        · simpa using hlen (x :: rest)

def rootName (c : CStr) : CStr := absoluteString (Token.tokens '/' c) false

/-- After any sequence of calls that leaves a chroot directory, a host path is
reversed to its path inside that directory exactly if the last successful call had
an argument that ends in an ordinary name; a failing call leaves the directory as
it is. -/
theorem chroot_prefix_dropped_iff {p₀ : Process} {calls : List (CStr × Except Errno Unit)}
    (hstart : p₀.session.sboxChrootPath = none) (hrun : ChrootRun p₀ calls p) {c : CStr}
    (hc : p.session.sboxChrootPath = some c) (hmem : p.session.ruletreeInMemory = true) :
    (∃ d, lastSuccess calls = some d ∧
      (∀ ctx host, reverseByRules p.session ctx host = .ok (some (rootName c)) →
        (sboxReversePathInternal p.session ctx host true = .ok (some ['/']) ↔
          endsOpen d = false)) ∧
      (∀ ctx host rest, rest ≠ [] →
        reverseByRules p.session ctx host = .ok (some (rootName c ++ '/' :: rest)) →
        (sboxReversePathInternal p.session ctx host true = .ok (some ('/' :: rest)) ↔
          endsOpen d = false))) ∧
    ∀ path es err p', Yields (resolutionBody p.session) (chrootGate p path) es (.error err, p') →
      p'.session.sboxChrootPath = p.session.sboxChrootPath := by
  refine ⟨?_, fun path es err p' h => by rw [chrootGate_failed h]⟩
  obtain ⟨d, cs, hd, hne, rfl⟩ := chrootRun_root hstart hrun c hc
  have hreverse : ∀ {ctx : PathMappingContext} {host v : CStr},
      reverseByRules p.session ctx host = .ok (some v) →
      sboxReversePathInternal p.session ctx host true =
        dropChrootPrefix (some (absoluteString cs (endsOpen d))) (some v) := by
    intro ctx host v hv
    rw [sboxReversePathInternal, hmem, hv, hc]
    rfl
  rw [rootName, tokens_absoluteString]
  refine ⟨d, hd, fun ctx host hv => ?_, fun ctx host rest hrest hv => ?_⟩
  · rw [hreverse hv]
    exact dropChrootPrefix_root_iff hne _
  · rw [hreverse hv]
    exact dropChrootPrefix_below_iff hne _ hrest

/-! ## Examples of both -/

theorem gateReady_linkProcess (links : List (CStr × LinkText)) (chroot : Option CStr) :
    GateReady (linkProcess links chroot) {} where
  context := rfl
  active := mappingActive_linkSession links chroot
  cwd := by
    refine ⟨['/'], rfl, fun reversed hrev => ?_⟩
    cases hrev
    exact ⟨rfl, not_mem_nil⟩

theorem chrootRun_once (hne : path ≠ []) {chroot : Option CStr}
    (h : gateLeaves (linkProcess [] none) path chroot = true) :
    ∃ sb2ctx, ChrootRun (linkProcess [] none) [(path, .ok ())]
      { (linkProcess [] none).withChroot chroot with sb2ctx } := by
  obtain ⟨es, sb2ctx, hchroot⟩ := exists_of_gateLeaves h
  exact ⟨sb2ctx, .call .start (gateReady_linkProcess [] none) hne hchroot⟩

theorem chroot_prefix_dropped_in_c :
    ∃ p, ChrootRun (linkProcess [] none) [("/c".toList, .ok ())] p ∧
      sboxReversePathInternal p.session exampleContext "/c/x".toList true =
        .ok (some "/x".toList) := by
  obtain ⟨sb2ctx, hrun⟩ := chrootRun_once (by decide)
    (show gateLeaves (linkProcess [] none) "/c".toList (some "/c".toList) = true by
      decide +kernel)
  obtain ⟨⟨d, hd, -, hbelow⟩, -⟩ := chroot_prefix_dropped_iff rfl hrun rfl rfl
  cases hd
  exact ⟨_, hrun, (hbelow exampleContext "/c/x".toList "x".toList (by decide) rfl).2 (by decide)⟩

/-- A slash at the end of the argument is stored, and the directory is not reversed
to `/`. -/
theorem chroot_prefix_kept :
    ∃ p, ChrootRun (linkProcess [] none) [("/c/".toList, .ok ())] p ∧
      p.session.sboxChrootPath = some "/c/".toList ∧
      reverseByRules p.session exampleContext "/c".toList = .ok (some "/c".toList) ∧
      sboxReversePathInternal p.session exampleContext "/c".toList true =
        .ok (some "/c".toList) := by
  obtain ⟨sb2ctx, hrun⟩ := chrootRun_once (by decide)
    (show gateLeaves (linkProcess [] none) "/c/".toList (some "/c/".toList) = true by
      decide +kernel)
  exact ⟨_, hrun, rfl, rfl, rfl⟩

/-! ## Reversing without an answer -/

/-- The reverse rules give no answer: there is no list of rules, no rule matches, or the rule that
matches gives no path. -/
inductive NoReverse (session : Session) (ctx : PathMappingContext) (host : CStr) : Prop
  | noList {msg : String} (h : ruletreeGetRuleListOffs session false = .error msg)
  | noRule {rules : List FsRule} (hlist : ruletreeGetRuleListOffs session false = .ok rules)
      (h : ruletreeGetMappingRequirements rules ctx (splitPathToPathList host) = none)
  | failed {rules : List FsRule} {req : MappingRequirements} {t : Translation}
      (hlist : ruletreeGetRuleListOffs session false = .ok rules)
      (hreq : ruletreeGetMappingRequirements rules ctx (splitPathToPathList host) = some req)
      (ht : ruletreeTranslatePath session.host (some req.rule) host = .ok t)
      (h : t.errormsg.isSome = true ∨ t.hostPath = none)

theorem reverseByRules_none_iff {session : Session} {ctx : PathMappingContext} {host : CStr} :
    reverseByRules session ctx host = .ok none ↔ NoReverse session ctx host := by
  unfold reverseByRules
  cases hlist : ruletreeGetRuleListOffs session false with
  | error msg => exact iff_of_true rfl (.noList hlist)
  | ok rules =>
    dsimp only
    cases hreq : ruletreeGetMappingRequirements rules ctx (splitPathToPathList host) with
    | none => exact iff_of_true rfl (.noRule hlist hreq)
    | some req =>
      dsimp only
      constructor
      · intro h
        cases ht : ruletreeTranslatePath session.host (some req.rule) host with
        | error fault =>
          rw [ht] at h
          cases h
        | ok t =>
          rw [ht] at h
          refine .failed hlist hreq ht (or_iff_not_imp_left.2 fun hmsg => ?_)
          have hresult := Except.ok.inj h
          rwa [if_neg hmsg] at hresult
      · rintro (hnone | ⟨hlist', h⟩ | ⟨hlist', hreq', ht, h⟩)
        · rw [hlist] at hnone
          cases hnone
        · cases hlist.symm.trans hlist'
          rw [hreq] at h
          cases h
        · cases hlist.symm.trans hlist'
          cases hreq.symm.trans hreq'
          rw [ht]
          refine congrArg Except.ok ?_
          rcases h with hmsg | hpath
          · rw [if_pos hmsg]
          · rw [hpath, ite_self]

theorem dropChrootPrefix_outside {chroot v : CStr}
    (h : ¬ pathComponents chroot <+: pathComponents v) :
    dropChrootPrefix (some chroot) (some v) = .ok (some v) := by
  rw [dropChrootPrefix]
  split
  · rename_i hbegin
    obtain ⟨rest, rfl⟩ := hbegin
    rw [drop_left]
    split
    · rename_i hnil
      rw [append_nil] at h
      exact absurd prefix_rfl h
    · rename_i more
      refine absurd ?_ h
      rw [pathComponents_eq, pathComponents_eq, Token.tokens_append_sep]
      exact prefix_append _ _
    · rfl
  · rfl

/-- With an active chroot directory, reversing is safe exactly if the reverse rules have an answer
(or there is no rule tree at all): a missing answer is compared with the directory. -/
theorem reversing_is_safe_iff {session : Session} {chroot : CStr}
    (hchroot : session.sboxChrootPath = some chroot) (ctx : PathMappingContext) (host : CStr) :
    ((NoReverse session ctx host → sboxReversePathInternal session ctx host true = .ok none) ∧
      ∀ v, reverseByRules session ctx host = .ok (some v) →
        session.ruletreeInMemory = true → ¬ pathComponents chroot <+: pathComponents v →
          sboxReversePathInternal session ctx host true = .ok (some v)) ↔
      (session.ruletreeInMemory = true → ¬ NoReverse session ctx host) := by
  constructor
  · rintro ⟨hsafe, -⟩ hmem hno
    have hresult := hsafe hno
    rw [sboxReversePathInternal, hmem, reverseByRules_none_iff.2 hno, hchroot] at hresult
    cases hresult
  · intro hanswer
    refine ⟨fun hno => ?_, fun v hv hmem houtside => ?_⟩
    · have hmem : session.ruletreeInMemory = false :=
        Bool.eq_false_iff.2 fun hmem => hanswer hmem hno
      rw [sboxReversePathInternal, hmem]
      rfl
    · rw [sboxReversePathInternal, hmem, hv, hchroot]
      exact dropChrootPrefix_outside houtside

/-- The path `/d` is outside of `/c`. -/
theorem reversing_outside_of_c :
    sboxReversePathInternal (linkSession [] (some "/c".toList)) exampleContext "/d".toList true =
      .ok (some "/d".toList) :=
  ((reversing_is_safe_iff rfl exampleContext "/d".toList).2 fun _ hno => by
    cases reverseByRules_none_iff.2 hno).2 "/d".toList rfl rfl (by decide)

/-- There are no reverse rules: NULL is compared with `/c`. -/
theorem reversing_without_rules :
    NoReverse { linkSession [] (some "/c".toList) with revRules := [] } exampleContext
        "/d".toList ∧
      sboxReversePathInternal { linkSession [] (some "/c".toList) with revRules := [] }
        exampleContext "/d".toList true = .error .nullPointer :=
  ⟨reverseByRules_none_iff.1 rfl, rfl⟩

end Scratchbox
