import Scratchbox.LevelSafety
import Scratchbox.PathTexts

/-!
# Selector coverage

A rule is selected by the text of the whole path, with its trailing slash. The walk of
`sb_path_resolution` then has parts of this path translated by the rule. They are beginnings of the
path, and the rule matches those that are not shorter than its selector. So they are covered by the
selector unless it is the whole path with a trailing slash (`selector_covers_iff`): then the first
part is one character shorter.
-/

namespace Scratchbox

open List

/-! ## The paths that are translated -/

/-- The path that is translated to find the host path of the next component, if the
component is not just appended. -/
def nextTranslations (w : WalkContext) (upToNext : List PathEntry) : List CStr :=
  if w.callTranslateForAll then [pathEntriesToString upToNext w.source.plFlags] else []

/-- The paths that the loop of `sb_path_resolution` hands to `ruletree_translate_path`. -/
def walkTranslations (session : Session) (w : WalkContext) :
    MappingResults → List PathEntry → List PathEntry → Option CStr → RuleFlags → List CStr
  | _, _, [], _, _ => []
  | res, before, work :: next, hostPath, flags =>
    if stopsBefore session w.ctx w.source.plFlags.hasTrailingSlash flags next.isEmpty then []
    else
      match componentStatus session.host w.ctx work hostPath next.isEmpty with
      | .failed _ => []
      | .symlink _ => []
      | .passed =>
        match next with
        | [] => []
        | e :: rest =>
          let upToNext := before.reverse ++ [work, e]
          match nextHostPath session w upToNext e.pePathComponent hostPath flags res with
          | .error _ => nextTranslations w upToNext
          | .ok (hostPath', flags', res') =>
            nextTranslations w upToNext ++
              walkTranslations session w res' (work :: before) (e :: rest) hostPath' flags'

/-- The paths that one call of `sb_path_resolution` hands to `ruletree_translate_path`,
up to the first symbolic link it follows, when the rule of `req` has been selected. -/
def levelTranslations (session : Session) (ctx : PathMappingContext) (res : MappingResults)
    (source : PathEntryList) (req : MappingRequirements) : List CStr :=
  match skipComponents req.minPathLen 1 [] source.plFirst with
  | none => []
  | some (before, rest) =>
    let cleanVirtualPathPrefix :=
      pathEntriesToString (before.reverse ++ rest.take 1) { absolute := true }
    match ruletreeTranslatePath session.host (some req.rule) cleanVirtualPathPrefix with
    | .error _ => [cleanVirtualPathPrefix]
    | .ok t =>
      cleanVirtualPathPrefix ::
        walkTranslations session ⟨ctx, req.rule, req.callTranslateForAll, source⟩
          (res.withTranslation t) before rest t.hostPath t.flags

theorem absoluteString_closed_isPrefix (cs : List Component) (trailing : Bool) :
    absoluteString cs false <+: absoluteString cs trailing := by
  cases trailing with
  | false => exact prefix_rfl
  | true =>
    cases cs with
    | nil => exact prefix_rfl
    | cons c cs =>
      rw [absoluteString_slash (cons_ne_nil c cs)]
      exact prefix_append _ _

theorem absoluteString_isPrefix {cs ds : List Component} (h : cs <+: ds) (trailing : Bool) :
    absoluteString cs trailing <+: absoluteString ds trailing := by
  obtain ⟨es, rfl⟩ := h
  rcases cs with - | ⟨c, cs⟩
  · obtain ⟨rest, hrest⟩ := head?_eq_some_iff.1 (head?_absoluteString es trailing)
    exact ⟨rest, hrest.symm⟩
  · rcases es with - | ⟨e, es⟩
    · exact ⟨[], by rw [append_nil, append_nil]⟩
    · rw [absoluteString_append (cons_ne_nil _ _) (cons_ne_nil _ _)]
      cases trailing with
      | false => exact prefix_append _ _
      | true =>
        -- the slash after the component is the first one of the rest
        rw [absoluteString_slash (cons_ne_nil c cs)]
        exact (prefix_append_right_inj _).2 ⟨_, rfl⟩

section Walk

variable {session : Session} {w : WalkContext} {res : MappingResults}
  {before rest : List PathEntry} {hostPath : Option CStr} {flags : RuleFlags}

/-- The paths of the loop are beginnings of the source path, and longer than what was
skipped before. -/
theorem walkTranslations_parts (habs : w.source.plFlags.absolute = true)
    (hsplit : before.reverse ++ rest = w.source.plFirst) {p : CStr}
    (hp : p ∈ walkTranslations session w res before rest hostPath flags) :
    p <+: pathListToString w.source ∧ textLength (components before.reverse) < p.length := by
  induction rest generalizing res before hostPath flags with
  | nil => cases hp
  | cons work next ih =>
    rw [walkTranslations.eq_def] at hp
    dsimp only at hp
    split at hp
    · cases hp
    · split at hp
      · cases hp
      · cases hp
      · cases next with
        | nil => cases hp
        | cons e rest =>
          have hsplit' : (work :: before).reverse ++ e :: rest = w.source.plFirst := by
            simpa using hsplit
          have hhere : p ∈ nextTranslations w (before.reverse ++ [work, e]) →
              p <+: pathListToString w.source ∧
                textLength (components before.reverse) < p.length := by
            intro hmem
            unfold nextTranslations at hmem
            split at hmem
            · rw [mem_singleton.1 hmem, pathEntriesToString_absolute _ habs,
                pathListToString_absolute habs]
              refine ⟨absoluteString_isPrefix ?_ _,
                Nat.lt_of_lt_of_le ?_ (textLength_le_length _ _)⟩
              · exact ⟨components rest, by rw [← hsplit]; simp⟩
              · rw [components_append, textLength_append]
                exact Nat.lt_add_of_pos_right (Nat.succ_pos _)
            · cases hmem
          dsimp only at hp
          split at hp
          · exact hhere hp
          · rcases mem_append.1 hp with hp | hp
            · exact hhere hp
            · obtain ⟨hpart, hlen⟩ := ih hsplit' hp
              refine ⟨hpart, Nat.lt_of_le_of_lt ?_ hlen⟩
              rw [reverse_cons, components_append, textLength_append]
              exact Nat.le_add_right _ _

end Walk

/-! ## Matching a part of a path -/

variable {rp : FsRuleFields} {path : CStr} {n : Nat}

/-- A rule that matches a path also matches the beginnings of it that are not shorter than
the selector. -/
theorem ruletreeTestPathMatch_part {p : CStr} (h : ruletreeTestPathMatch path rp = some n)
    (hp : p <+: path) (hn : n ≤ p.length) : ruletreeTestPathMatch p rp = some n := by
  unfold ruletreeTestPathMatch at h ⊢
  split at h
  · split at h
    · rename_i hpath
      cases h
      have hsame : p = path := hp.eq_of_length (Nat.le_antisymm hp.length_le (hpath ▸ hn))
      rw [if_pos (hsame.trans hpath)]
    · cases h
  · split at h
    · rename_i hmatch
      cases h
      rw [if_pos ⟨hmatch.1, prefix_of_prefix_length_le hmatch.2 hp hn⟩]
    · cases h
  · split at h
    · rename_i selector _ _ hmatch
      obtain ⟨hne, -, hnext, hsel⟩ := hmatch
      cases h
      have hnext' : p[selector.length]? = some '/' ∨ p[selector.length]? = none ∨
          (selector.length = 1 ∧ p.head? = some '/') := by
        obtain ⟨rest, rfl⟩ := hp
        rcases Nat.lt_or_eq_of_le hn with hlt | heq
        · have hhead : (p ++ rest).head? = p.head? :=
            head?_append_of_ne_nil p (length_pos_iff.1 (Nat.zero_lt_of_lt hlt))
          rwa [getElem?_append_left hlt, hhead] at hnext
        · exact .inr (.inl (getElem?_eq_none (Nat.le_of_eq heq.symm)))
      rw [if_pos ⟨hne, hn, hnext', prefix_of_prefix_length_le hsel hp hn⟩]
    · cases h
  · cases h

theorem ruletreeTestPathMatch_selector (h : ruletreeTestPathMatch path rp = some n) :
    ∃ selector, rp.selector = some selector ∧ selector <+: path ∧ selector.length = n := by
  unfold ruletreeTestPathMatch at h
  split at h
  · rename_i selector _ hsel
    split at h
    · rename_i hmatch
      cases h
      exact ⟨selector, hsel, hmatch ▸ prefix_rfl, rfl⟩
    · cases h
  · rename_i selector _ hsel
    split at h
    · rename_i hmatch
      cases h
      exact ⟨selector, hsel, hmatch.2, rfl⟩
    · cases h
  · rename_i selector _ hsel
    split at h
    · rename_i hmatch
      cases h
      exact ⟨selector, hsel, hmatch.2.2.2, rfl⟩
    · cases h
  · cases h

/-! ## One call -/

section Level

variable {session : Session} {ctx : PathMappingContext} {res : MappingResults}
  {source : PathEntryList} {req : MappingRequirements} {before rest : List PathEntry}

/-- The rule matches the path that is to be translated, and the path is not shorter than
the selector. -/
def Covers (rule : FsRule) (path : CStr) : Prop :=
  ∃ selector, rule.selector = some selector ∧ selector.length ≤ path.length ∧
    ruletreeTestPathMatch path rule.toFsRuleFields = some selector.length

def SkipEnds (source : PathEntryList) (req : MappingRequirements) : Prop :=
  ∃ before rest, skipComponents req.minPathLen 1 [] source.plFirst = some (before, rest)

def SelectedWithSlash (source : PathEntryList) (rule : FsRule) : Prop :=
  source.plFlags.hasTrailingSlash = true ∧ source.plFirst ≠ [] ∧
    rule.selector = some (pathListToString source)

def firstPart (before rest : List PathEntry) : CStr :=
  absoluteString (components (before.reverse ++ rest.take 1)) false

theorem levelTranslations_eq
    (hskip : skipComponents req.minPathLen 1 [] source.plFirst = some (before, rest)) :
    levelTranslations session ctx res source req = firstPart before rest ::
      match ruletreeTranslatePath session.host (some req.rule) (firstPart before rest) with
      | .error _ => []
      | .ok t =>
        walkTranslations session ⟨ctx, req.rule, req.callTranslateForAll, source⟩
          (res.withTranslation t) before rest t.hostPath t.flags := by
  have hfirst : pathEntriesToString (before.reverse ++ rest.take 1) { absolute := true } =
      firstPart before rest := pathEntriesToString_absolute _ rfl
  unfold levelTranslations
  simp only [hskip, hfirst]
  cases ruletreeTranslatePath session.host (some req.rule) (firstPart before rest) with
  | error f => rfl
  | ok t => rfl

theorem firstPart_short_iff (habs : source.plFlags.absolute = true)
    (hreq : ruletreeGetMappingRequirements session.fwdRules ctx source = some req)
    (hsplit : before.reverse ++ rest = source.plFirst)
    (hlen : req.minPathLen ≤ 1 + textLength (components before.reverse)) :
    (firstPart before rest).length < req.minPathLen ↔ SelectedWithSlash source req.rule := by
  have hmatch := ruletreeFindRule_match (ruletreeGetMappingRequirements_rule hreq)
  obtain ⟨selector, hsel, hpre, hlength⟩ := ruletreeTestPathMatch_selector hmatch
  unfold SelectedWithSlash
  rw [hsel, ← hlength, Option.some_inj]
  rw [pathListToString_absolute habs] at hpre ⊢
  constructor
  · intro hshort
    -- a path that ends at a component of the walk is long enough
    obtain rfl : rest = [] := by
      rcases rest with - | ⟨work, next⟩
      · rfl
      · have hlong := textLength_le_length (components (before.reverse ++ [work])) false
        rw [components_append, textLength_append] at hlong
        simp only [firstPart, take_succ_cons, take_zero, components_append] at hshort
        simp only [components_cons, components_nil, textLength] at hlong hshort
        omega
    rw [append_nil] at hsplit
    simp only [firstPart, take_nil, append_nil, hsplit] at hshort
    have hslash : source.plFlags.hasTrailingSlash = true := by
      cases hflag : source.plFlags.hasTrailingSlash with
      | true => rfl
      | false =>
        rw [hflag] at hpre
        exact absurd hpre.length_le (Nat.not_le.2 hshort)
    have hne : components source.plFirst ≠ [] := by
      intro hnil
      rw [hnil] at hpre hshort
      exact absurd hpre.length_le (Nat.not_le.2 hshort)
    refine ⟨hslash, fun hnil => hne (by rw [hnil]; rfl), hpre.eq_of_length ?_⟩
    have hle := hpre.length_le
    rw [hslash, absoluteString_slash hne, length_append, length_singleton] at hle ⊢
    omega
  · rintro ⟨hslash, hne, rfl⟩
    have hle := (absoluteString_isPrefix (firstComponents_isPrefix hsplit) false).length_le
    have hcs : components source.plFirst ≠ [] := by simpa [components] using hne
    rw [hslash, absoluteString_slash hcs, length_append, length_singleton]
    exact Nat.lt_succ_of_le hle

/-- The paths that are translated are beginnings of the source path. The first one may be
shorter than the selector, the others are not. -/
theorem levelTranslations_parts (habs : source.plFlags.absolute = true)
    (hskip : skipComponents req.minPathLen 1 [] source.plFirst = some (before, rest))
    (hsplit : before.reverse ++ rest = source.plFirst)
    (hlen : req.minPathLen ≤ 1 + textLength (components before.reverse)) {p : CStr}
    (hp : p ∈ levelTranslations session ctx res source req) :
    p <+: pathListToString source ∧ (p = firstPart before rest ∨ req.minPathLen ≤ p.length) := by
  rw [levelTranslations_eq hskip] at hp
  rcases mem_cons.1 hp with rfl | hp
  · refine ⟨?_, .inl rfl⟩
    rw [pathListToString_absolute habs]
    exact (absoluteString_isPrefix (firstComponents_isPrefix hsplit) false).trans
      (absoluteString_closed_isPrefix _ _)
  · split at hp
    · cases hp
    · obtain ⟨hpart, hlonger⟩ := walkTranslations_parts habs hsplit hp
      exact ⟨hpart, .inr (by omega)⟩

/-- The skipping loop ends inside the list, and all paths that are translated are covered
by the selector, exactly if the rule was not selected by the whole path with a slash at
its end. -/
theorem selector_covers_iff (habs : source.plFlags.absolute = true)
    (hreq : ruletreeGetMappingRequirements session.fwdRules ctx source = some req) :
    (SkipEnds source req ∧
        ∀ p ∈ levelTranslations session ctx res source req, Covers req.rule p) ↔
      ¬ SelectedWithSlash source req.rule := by
  obtain ⟨before, rest, hskip, hsplit, hlen⟩ := skip_selected habs hreq
  have hmatch := ruletreeFindRule_match (ruletreeGetMappingRequirements_rule hreq)
  obtain ⟨selector, hsel, -, hlength⟩ := ruletreeTestPathMatch_selector hmatch
  rw [← firstPart_short_iff habs hreq hsplit hlen, Nat.not_lt]
  constructor
  · rintro ⟨-, hcovers⟩
    obtain ⟨selector', hsel', hle, -⟩ := hcovers (firstPart before rest) (by
      rw [levelTranslations_eq hskip]
      exact mem_cons_self)
    rw [hsel] at hsel'
    cases hsel'
    rwa [← hlength]
  · intro hfirst
    refine ⟨⟨before, rest, hskip⟩, fun p hp => ?_⟩
    obtain ⟨hpart, hlong⟩ := levelTranslations_parts habs hskip hsplit hlen hp
    have hle : req.minPathLen ≤ p.length := by
      rcases hlong with rfl | hlong
      · exact hfirst
      · exact hlong
    refine ⟨selector, hsel, hlength ▸ hle, ?_⟩
    rw [hlength]
    exact ruletreeTestPathMatch_part hmatch hpart hle

end Level

/-! ## Examples of both -/

/-- A rule for everything below `/u`, written with a slash. -/
def belowURule : FsRule :=
  { ruleOffs := 1, selectorType := some .selPrefix, selector := some "/u/".toList
    actionType := .replaceBy, actionStr := some "/T/".toList }

def belowUSession : Session := { linkSession [] none with fwdRules := [belowURule] }

def belowURequirements : MappingRequirements := ⟨belowURule, 3, false⟩

/-- The part of `/u/x` that is translated is covered. -/
theorem selector_covers_u_x :
    SkipEnds (splitPathToPathList "/u/x".toList) belowURequirements ∧
      ∀ p ∈ levelTranslations belowUSession exampleContext {}
        (splitPathToPathList "/u/x".toList) belowURequirements, Covers belowURule p := by
  have hreq : ruletreeGetMappingRequirements belowUSession.fwdRules exampleContext
      (splitPathToPathList "/u/x".toList) = some belowURequirements := rfl
  exact (selector_covers_iff rfl hreq).2 fun h => absurd h.1 (by decide)

/-- The part of `/u/` that is translated is `/u`: the rule does not match it, and the rest
of the path is read from outside of the string. -/
theorem selector_longer_than_part :
    ruletreeGetMappingRequirements belowUSession.fwdRules exampleContext
      (splitPathToPathList "/u/".toList) = some belowURequirements ∧
    levelTranslations belowUSession exampleContext {} (splitPathToPathList "/u/".toList)
      belowURequirements = ["/u".toList] ∧
    ¬ Covers belowURule "/u".toList ∧
    resolveUpToSymlink belowUSession exampleContext {} (splitPathToPathList "/u/".toList) =
      .error .outOfBounds := by
  refine ⟨rfl, by decide +kernel, ?_, rfl⟩
  rintro ⟨selector, hsel, hle, -⟩
  cases hsel
  exact absurd hle (by decide)

end Scratchbox
