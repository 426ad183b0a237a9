import Scratchbox.ReverseGeneration
import Scratchbox.ReverseRoundTrip

/-!
# Reverse rules do not hide each other

The generator looks for the first rule that matches the selector of the new rule, with a colon
behind it if it is the selector of a `prefix` rule, and puts the new rule before it. So each rule is
the first match for this text (`reverse_rules_unshadowed`). The selector itself may be matched by an
earlier rule (`selector_matched_by_earlier_dir`). Where two slashes meet, rules can be hidden.
-/

namespace Scratchbox

open List

/-! ## Selectors -/

structure RevRule.Selects (rule : RevRule) (kind : SelectorType) (sel : CStr) : Prop where
  dir : rule.selDir = if kind = .selDir then some sel else none
  pre : rule.selPrefix = if kind = .selPrefix then some sel else none
  path : rule.selPath = if kind = .selPath then some sel else none

structure RevRule.Silent (rule : RevRule) : Prop where
  dir : rule.selDir = none
  pre : rule.selPrefix = none
  path : rule.selPath = none

def selectorMapping (kind : SelectorType) (sel : CStr) : PlainMapping := ⟨kind, sel, .useOrigPath⟩

/-- The path for which a rule is meant: it belongs to its selector, and to no shorter one. -/
def ownPath (kind : SelectorType) (sel : CStr) : CStr :=
  if kind = .selPrefix then sel ++ [':'] else sel

def RevRule.ownText (rule : RevRule) : Option CStr :=
  (rule.selPrefix.map (· ++ [':'])).or (rule.selDir.or rule.selPath)

section Selects

variable {rule : RevRule} {kind : SelectorType} {sel : CStr}

theorem RevRule.Selects.hits (h : rule.Selects kind sel) (path : CStr) :
    rule.hits path = (selectorMapping kind sel).luaHits path := by
  rw [RevRule.hits, h.dir, h.pre, h.path]
  cases kind with
  | selDir => exact luaSbTestPathMatch_dir path sel
  | selPrefix => exact luaSbTestPathMatch_pre path sel
  | selPath => exact luaSbTestPathMatch_path path sel

theorem RevRule.Selects.ownText (h : rule.Selects kind sel) :
    rule.ownText = some (ownPath kind sel) := by
  rw [RevRule.ownText, h.dir, h.pre, h.path]
  cases kind <;> rfl

theorem RevRule.Selects.xPath (h : rule.Selects kind sel) : rule.xPath = some sel := by
  rw [RevRule.xPath, h.dir, h.pre, h.path]
  cases kind <;> rfl

theorem RevRule.Silent.hits (h : rule.Silent) (path : CStr) : rule.hits path = false := by
  rw [RevRule.hits, h.dir, h.pre, h.path]
  rfl

theorem RevRule.Silent.ownText (h : rule.Silent) : rule.ownText = none := by
  rw [RevRule.ownText, h.dir, h.pre, h.path]
  rfl

end Selects

/-! ## Hits of one rule and another -/

/-- The texts for which the generator is made: absolute, without a colon, and no two slashes
meet. -/
structure RegularText (sel : CStr) : Prop where
  absolute : sel.head? = some '/'
  noColon : ':' ∉ sel
  spaced : Token.Spaced '/' sel

variable {sel : CStr}

theorem RegularText.ne_nil (h : RegularText sel) : sel ≠ [] := by
  rintro rfl
  cases h.absolute

theorem not_spaced_double {s t : CStr} (h : Token.Spaced '/' (s ++ '/' :: '/' :: t)) : False :=
  (isChain_append_cons_cons.1 h).2.1 rfl rfl

section Hits

variable {kn ko : SelectorType} {n o t w : CStr} {r : CStr}

theorem two_lt_length (hn : RegularText n) (hspaced : Token.Spaced '/' (n ++ ['/'])) :
    2 < (n ++ ['/']).length := by
  obtain ⟨more, rfl⟩ := head?_eq_some_iff.1 hn.absolute
  cases more with
  | nil => exact (not_spaced_double (s := []) hspaced).elim
  | cons c more => simp

theorem hits_own_selector (kind : SelectorType) (hn : RegularText n) :
    (selectorMapping kind n).luaHits n = true := by
  refine luaHits_iff.2 ⟨[], (append_nil n).symm, ?_⟩
  cases kind with
  | selPath => exact .inl rfl
  | selPrefix => exact hn.ne_nil
  | selDir => exact ⟨hn.ne_nil, .inl (.inl rfl)⟩

theorem hits_ownPath (kind : SelectorType) (hn : RegularText n) :
    (selectorMapping kind n).luaHits (ownPath kind n) = true := by
  cases kind with
  | selPrefix => exact luaHits_iff.2 ⟨[':'], rfl, hn.ne_nil⟩
  | selPath => exact hits_own_selector .selPath hn
  | selDir => exact hits_own_selector .selDir hn

theorem hits_slash (hn : RegularText n) (hspaced : Token.Spaced '/' (n ++ ['/']))
    (h : (selectorMapping ko o).luaHits n = true) :
    (selectorMapping ko o).luaHits (n ++ ['/']) = true := by
  have hlen := two_lt_length hn hspaced
  obtain ⟨rest, hrest, hadm⟩ := luaHits_iff.1 h
  obtain rfl : n = o ++ rest := hrest
  refine luaHits_iff.2 ⟨rest ++ ['/'], append_assoc .., ?_⟩
  cases ko with
  | selPrefix => exact hadm
  | selDir =>
    refine ⟨hadm.1, hadm.2.imp_left fun hbound => .inr ?_⟩
    rcases hbound with rfl | hhead
    · rfl
    · rw [head?_append, hhead]
      rfl
  | selPath =>
    rcases hadm with rfl | ⟨rfl, -⟩
    · exact .inr ⟨rfl, by rwa [append_nil] at hlen⟩
    · rw [append_assoc] at hspaced
      exact (not_spaced_double hspaced).elim

theorem AtBoundary.of_concat {c : Char} (h : AtBoundary (r ++ [c])) : AtBoundary r := by
  cases r with
  | nil => exact .inl rfl
  | cons d r => exact .inr (by simpa using h.resolve_left (by simp))

theorem hits_of_colon (hcolon : ':' ∉ n) (h : (selectorMapping kn n).luaHits (o ++ [':']) = true) :
    (selectorMapping kn n).luaHits o = true := by
  obtain ⟨rest, hrest, hadm⟩ := luaHits_iff.1 h
  obtain ⟨r, rfl, ho⟩ := append_colon_cases hcolon hrest
  refine luaHits_iff.2 ⟨r, ho, ?_⟩
  cases kn with
  | selPrefix => exact hadm
  | selDir => exact ⟨hadm.1, hadm.2.imp_left AtBoundary.of_concat⟩
  | selPath =>
    rcases hadm with hnil | ⟨hslash, -⟩
    · simp at hnil
    · have hlast : r ++ [':'] = [] ++ ['/'] := hslash
      cases (append_inj' hlast rfl).2

/-- The text with which the position of a new rule is found: the path that the rule is meant for,
or its path with a slash behind it. -/
def IsTestText (kn : SelectorType) (n t : CStr) : Prop :=
  t = ownPath kn n ∨ (kn = .selPath ∧ t = n ++ ['/'])

theorem IsTestText.cases (h : IsTestText kn n t) :
    (t = n ∧ kn ≠ .selPrefix) ∨ (t = n ++ [':'] ∧ kn = .selPrefix) ∨
      (t = n ++ ['/'] ∧ kn = .selPath) := by
  rcases h with rfl | ⟨hkind, rfl⟩
  · cases kn with
    | selPrefix => exact .inr (.inl ⟨rfl, rfl⟩)
    | selPath => exact .inl ⟨rfl, nofun⟩
    | selDir => exact .inl ⟨rfl, nofun⟩
  · exact .inr (.inr ⟨rfl, hkind⟩)

theorem IsTestText.hits_whole (h : IsTestText kn n t) (hn : RegularText n)
    (hspaced : Token.Spaced '/' t) (hcolon : ':' ∉ t) :
    (selectorMapping kn n).luaHits t = true := by
  rcases h.cases with ⟨rfl, -⟩ | ⟨rfl, -⟩ | ⟨rfl, rfl⟩
  · exact hits_own_selector kn hn
  · exact absurd (mem_append_right _ (mem_singleton.2 rfl)) hcolon
  · exact hits_slash hn hspaced (hits_own_selector .selPath hn)

/-- An old selector at the beginning of the text is the whole text, or stands at the beginning of
the new selector. -/
theorem IsTestText.beginning (h : IsTestText kn n t) (hr : t = o ++ r) :
    o = t ∨ ∃ r', n = o ++ r' ∧ ((r' = r ∧ kn ≠ .selPrefix) ∨ ∃ c, r = r' ++ [c]) := by
  have hlonger : ∀ c, t = n ++ [c] →
      o = t ∨ ∃ r', n = o ++ r' ∧ ((r' = r ∧ kn ≠ .selPrefix) ∨ ∃ c, r = r' ++ [c]) := by
    intro c ht
    rcases eq_nil_or_concat' r with rfl | ⟨r', d, rfl⟩
    · exact .inl (by rw [hr, append_nil])
    · rw [ht, ← append_assoc] at hr
      exact .inr ⟨r', (append_inj' hr rfl).1, .inr ⟨d, rfl⟩⟩
  rcases h.cases with ⟨rfl, hkind⟩ | ⟨ht, -⟩ | ⟨ht, -⟩
  · exact .inr ⟨r, hr, .inl ⟨rfl, hkind⟩⟩
  · exact hlonger _ ht
  · exact hlonger _ ht

/-- A selector with a slash at its end hits nothing longer, unless it is a `prefix`. -/
theorem rest_eq_nil_of_slash {rest : CStr} (hkind : kn ≠ .selPrefix)
    (hlen : 2 < (o ++ ['/']).length) (hw : Token.Spaced '/' (o ++ ['/'] ++ rest))
    (hadm : (selectorMapping kn (o ++ ['/'])).LuaAdmits rest) : rest = [] := by
  have hmore : ∀ s, rest = '/' :: s → False := by
    rintro s rfl
    rw [append_assoc] at hw
    exact not_spaced_double hw
  cases kn with
  | selPrefix => exact absurd rfl hkind
  | selPath =>
    rcases hadm with hnil | ⟨hslash, -⟩
    · exact hnil
    · exact (hmore [] hslash).elim
  | selDir =>
    have hroot : o ++ ['/'] ≠ ['/'] := by
      intro hroot
      rw [hroot] at hlen
      exact absurd hlen (by decide)
    rcases hadm.2.resolve_right hroot with hnil | hhead
    · exact hnil
    · obtain ⟨s, hs⟩ := head?_eq_some_iff.1 hhead
      exact (hmore s hs).elim

/-- If an old rule is found for the new one, all that is hit by the new rule is hit by the old one,
unless the new rule would hide the old one. -/
theorem hits_through (hn : RegularText n) (ho : RegularText o) (ht : IsTestText kn n t)
    (hspaced : Token.Spaced '/' t) (hw : Token.Spaced '/' w)
    (hold : (selectorMapping ko o).luaHits t = true)
    (hnew : (selectorMapping kn n).luaHits w = true) :
    (selectorMapping ko o).luaHits w = true ∨ (selectorMapping kn n).luaHits o = true := by
  obtain ⟨r, hr, hadm⟩ := luaHits_iff.1 hold
  obtain ⟨rest, hrest, hadm'⟩ := luaHits_iff.1 hnew
  obtain rfl : w = n ++ rest := hrest
  rcases ht.beginning (o := o) hr with hwhole | ⟨r', rfl, hr'⟩
  · subst hwhole
    exact .inr (ht.hits_whole hn hspaced ho.noColon)
  · -- the old selector is the beginning of the new one; where it ends decides
    cases hnil : r' with
    | nil =>
      subst hnil
      rw [append_nil] at hn ⊢
      exact .inr (hits_own_selector kn hn)
    | cons d u =>
      rw [← hnil]
      cases ko with
      | selPrefix =>
        exact .inl (luaHits_iff.2 ⟨r' ++ rest, append_assoc .., ho.ne_nil⟩)
      | selDir =>
        refine .inl (luaHits_iff.2 ⟨r' ++ rest, append_assoc .., ho.ne_nil, ?_⟩)
        refine hadm.2.imp_left fun hbound => ?_
        have hbound' : AtBoundary r' := by
          rcases hr' with ⟨rfl, -⟩ | ⟨c, rfl⟩
          · exact hbound
          · exact hbound.of_concat
        refine .inr ?_
        rw [head?_append, hbound'.resolve_left (by rw [hnil]; exact cons_ne_nil _ _)]
        rfl
      | selPath =>
        rcases hr' with ⟨rfl, hkind⟩ | ⟨c, rfl⟩
        · rcases hadm with hadm | ⟨hslash, hlen⟩
          · rw [hnil] at hadm
            cases hadm
          · -- a new selector with a slash at its end hits nothing but itself
            subst hslash
            obtain rfl := rest_eq_nil_of_slash hkind hlen hw hadm'
            exact .inl (luaHits_iff.2 ⟨['/'], append_nil _, .inr ⟨rfl, hlen⟩⟩)
        · rw [hnil] at hadm
          rcases hadm with hadm | ⟨hslash, -⟩
          · cases hadm
          · cases u <;> cases hslash

end Hits

/-! ## The output list -/

inductive RevRule.Regular (rule : RevRule) : Prop
  | silent (h : rule.Silent)
  | selects {kind : SelectorType} {sel : CStr} (h : rule.Selects kind sel) (hsel : RegularText sel)

inductive Reversal.Regular (r : Reversal) : Prop
  | silent (h : r.newRule.Silent) (htest : r.testPath = none)
  | selects {kind : SelectorType} {sel t : CStr} (h : r.newRule.Selects kind sel)
      (hsel : RegularText sel) (htest : r.testPath = some t) (ht : IsTestText kind sel t)
      (hspaced : Token.Spaced '/' t)

variable {r : Reversal}

theorem Reversal.Regular.newRule (h : r.Regular) : r.newRule.Regular := by
  cases h with
  | silent h htest => exact .silent h
  | selects h hsel htest ht hspaced => exact .selects h hsel

def RevRule.Spares (a b : RevRule) : Prop := ∀ w, b.ownText = some w → a.hits w = false

structure Unshadowed (out : List RevRule) : Prop where
  regular : ∀ rule ∈ out, rule.Regular
  spares : out.Pairwise RevRule.Spares

theorem spaced_ownPath {kind : SelectorType} (h : RegularText sel) :
    Token.Spaced '/' (ownPath kind sel) := by
  cases kind with
  | selPath => exact h.spaced
  | selDir => exact h.spaced
  | selPrefix =>
    refine isChain_append.2 ⟨h.spaced, isChain_singleton _, fun x _ y hy _ => ?_⟩
    obtain rfl : ':' = y := by simpa using hy
    exact nofun

section Place

variable {old new : RevRule} {ko kn : SelectorType} {o n t : CStr}

theorem RevRule.Selects.spares_of_miss (hold : old.Selects ko o) (hnew : new.Selects kn n)
    (hn : RegularText n) (ht : IsTestText kn n t) (hspaced : Token.Spaced '/' t)
    (hmiss : old.hits t = false) : old.Spares new := by
  intro w hw
  obtain rfl := Option.some.inj (hnew.ownText.symm.trans hw)
  rcases ht with rfl | ⟨rfl, rfl⟩
  · exact hmiss
  · rw [hold.hits] at hmiss ⊢
    exact Bool.eq_false_iff.2 fun hhit => by
      rw [hits_slash hn hspaced hhit] at hmiss
      cases hmiss

/-- A new rule that is not dropped does not match the selector of the older rule. -/
theorem hits_xPath_of_kept (hold : old.Selects ko o) (h : conflictDrops new old = false) :
    new.hits o = false := by
  rw [conflictDrops, Bool.or_eq_false_iff, hold.xPath] at h
  refine Bool.eq_false_iff.2 fun hhit => ?_
  have hposition := h.2
  simp [testRevRulePosition, findIdx?_cons, hhit] at hposition

theorem RevRule.Selects.spares_of_kept (hold : old.Selects ko o) (hnew : new.Selects kn n)
    (hn : RegularText n) (hkept : new.hits o = false) : new.Spares old := by
  intro w hw
  obtain rfl := Option.some.inj (hold.ownText.symm.trans hw)
  rw [hnew.hits] at hkept ⊢
  cases ko with
  | selPath => exact hkept
  | selDir => exact hkept
  | selPrefix =>
    exact Bool.eq_false_iff.2 fun hhit => by
      rw [hits_of_colon hn.noColon hhit] at hkept
      cases hkept

theorem RevRule.Selects.spares_behind (hold : old.Selects ko o) (hnew : new.Selects kn n)
    (hn : RegularText n) (ho : RegularText o) (ht : IsTestText kn n t)
    (hspaced : Token.Spaced '/' t) (hhit : old.hits t = true) (hkept : new.hits o = false)
    {x : RevRule} (hx : x.Regular) (hspares : old.Spares x) : new.Spares x := by
  intro w hw
  have hmiss := hspares w hw
  have hwspaced : Token.Spaced '/' w := by
    cases hx with
    | silent h =>
      rw [h.ownText] at hw
      cases hw
    | selects h hsel =>
      obtain rfl := Option.some.inj (h.ownText.symm.trans hw)
      exact spaced_ownPath hsel
  rw [hold.hits] at hhit hmiss
  rw [hnew.hits] at hkept ⊢
  refine Bool.eq_false_iff.2 fun hw' => ?_
  rcases hits_through hn ho ht hspaced hwspaced hhit hw' with h | h
  · rw [h] at hmiss
    cases hmiss
  · rw [h] at hkept
    cases hkept

end Place

variable {out : List RevRule}

theorem Unshadowed.add (h : Unshadowed out) (hr : r.Regular) :
    Unshadowed (addReverseRule out r.newRule r.testPath) := by
  have hregular := hr.newRule
  cases hr with
  | silent hsilent htest =>
    have hadd : addReverseRule out r.newRule r.testPath = out ++ [r.newRule] := by
      rw [htest]
      rfl
    rw [hadd]
    refine ⟨fun rule hmem => ?_, pairwise_append.2
      ⟨h.spares, pairwise_singleton _ _, fun a _ b hb w hw => ?_⟩⟩
    · rcases mem_append.1 hmem with hmem | hmem
      · exact h.regular rule hmem
      · exact mem_singleton.1 hmem ▸ hregular
    · rw [mem_singleton.1 hb, hsilent.ownText] at hw
      cases hw
  | @selects kind sel t hsel hreg htest ht hspaced =>
    rw [htest, addReverseRule_eq_place]
    refine ⟨fun rule hmem => ?_, Placing.pairwise_place h.spares ?_ ?_⟩
    · rcases Placing.mem_place hmem with rfl | hmem
      · exact hregular
      · exact h.regular rule hmem
    · intro old hold hmiss
      cases h.regular old hold with
      | silent hsilent => exact fun w _ => hsilent.hits w
      | selects hold _ => exact hold.spares_of_miss hsel hreg ht hspaced hmiss
    · intro old hmem hhit hkept
      cases h.regular old hmem with
      | silent hsilent =>
        rw [hsilent.hits] at hhit
        cases hhit
      | selects hold ho =>
        have hmiss := hits_xPath_of_kept hold hkept
        refine ⟨hold.spares_of_kept hsel hreg hmiss, fun x hx hspares => ?_⟩
        exact hold.spares_behind hsel hreg ho ht hspaced hhit hmiss (h.regular x hx) hspares

theorem Unshadowed.place {made : List Reversal} (h : Unshadowed out)
    (hmade : ∀ r ∈ made, r.Regular) : Unshadowed (placeReversals out made) := by
  induction made generalizing out with
  | nil => exact h
  | cons r made ih =>
    exact ih (h.add (hmade r mem_cons_self)) fun r' hr' =>
      hmade r' (mem_cons_of_mem r hr')

/-! ## The form of the reversals -/

/-- The rule does not keep the original path and map it at the same time. -/
def RuleTable.oneTarget (table : RuleTable) : Bool :=
  !(table.mapTo.isSome &&
    (table.useOrigPath || table.forceOrigPath || table.forceOrigPathUnlessChroot))

mutual

/-- This holds for all rules of a list, the nested ones, and their actions. -/
def oneTargets : List LuaRule → Bool
  | [] => true
  | rule :: rules => oneTargetRule rule && oneTargets rules

def oneTargetRule : LuaRule → Bool
  | ⟨table, actions, rules, thenActions⟩ =>
    table.oneTarget &&
      (match actions with
        | some as => oneTargets as
        | none => true) &&
      (match rules with
        | some rs => oneTargets rs
        | none => true) &&
      (match thenActions with
        | some as => oneTargets as
        | none => true)

end

/-- A reversal has no selector, or one and the text that belongs to it. -/
inductive Reversal.Formed (r : Reversal) : Prop
  | silent (h : r.newRule.Silent) (htest : r.testPath = none)
  | selects (kind : SelectorType) (sel t : CStr) (h : r.newRule.Selects kind sel)
      (htest : r.testPath = some t) (ht : IsTestText kind sel t)

section Formed

variable {modename : String} {rule : RuleTable} {forwardPath : Option CStr}
  {newRule newRule' : RevRule} {d : CStr}

theorem reverseAction_silent {d : Option CStr} (hsilent : newRule.Silent)
    (h : reverseAction rule forwardPath newRule = .ok (d, newRule')) : newRule'.Silent := by
  obtain ⟨hdir, hpre, hpath⟩ := hsilent
  unfold reverseAction concatenate at h
  dsimp only at h
  repeat' split at h
  all_goals first
    | (cases h; exact ⟨hdir, hpre, hpath⟩)
    | cases h

theorem reverseAction_mapTo {target path : CStr} (hone : rule.oneTarget = true)
    (hmap : rule.mapTo = some target)
    (h : reverseAction rule (some path) newRule = .ok (some d, newRule')) : d = target ++ path := by
  have hflags : (rule.useOrigPath || rule.forceOrigPath || rule.forceOrigPathUnlessChroot) =
      false := by simpa [RuleTable.oneTarget, hmap] using hone
  simp only [Bool.or_eq_false_iff] at hflags
  simp only [reverseAction, hflags, hmap, concatenate, Bool.false_eq_true, if_false] at h
  cases h
  rfl

theorem reverseSelector_formed (hsilent : newRule.Silent)
    (hroot : rule.selPrefix = none → rule.selDir = none → rule.selPath = some ['/'] →
      ∀ target, rule.mapTo = some target → d = target ++ ['/']) :
    Reversal.Formed ⟨(reverseSelector rule d newRule).2, (reverseSelector rule d newRule).1⟩ := by
  obtain ⟨hdir, hpre, hpath⟩ := hsilent
  cases hp : rule.selPrefix with
  | some pre =>
    refine .selects .selPrefix d (d ++ [':']) ⟨?_, ?_, ?_⟩ ?_ (.inl rfl)
    all_goals simp [reverseSelector, hp, hdir, hpath]
  | none =>
    cases hd : rule.selDir with
    | some dir =>
      refine .selects .selDir d d ⟨?_, ?_, ?_⟩ ?_ (.inl rfl)
      all_goals simp [reverseSelector, hp, hd, hpre, hpath]
    | none =>
      cases hs : rule.selPath with
      | none =>
        refine .silent ⟨?_, ?_, ?_⟩ ?_
        all_goals simp [reverseSelector, hp, hd, hs, hdir, hpre, hpath]
      | some path =>
        by_cases hslash : path = ['/']
        · subst hslash
          cases hm : rule.mapTo with
          | none =>
            refine .selects .selPath d d ⟨?_, ?_, ?_⟩ ?_ (.inl rfl)
            all_goals simp [reverseSelector, hp, hd, hs, hm, hdir, hpre]
          | some target =>
            refine .selects .selPath target d ⟨?_, ?_, ?_⟩ ?_
              (.inr ⟨rfl, hroot hp hd hs target hm⟩)
            all_goals simp [reverseSelector, hp, hd, hs, hm, hdir, hpre]
        · refine .selects .selPath d d ⟨?_, ?_, ?_⟩ ?_ (.inl rfl)
          all_goals simp [reverseSelector, hp, hd, hs, hslash, hdir, hpre]

theorem plainReversal_formed {n : Nat} (hone : rule.oneTarget = true)
    (hforward : forwardPath = (rule.selPrefix.or rule.selPath).or rule.selDir)
    (h : plainReversal modename n forwardPath rule = .ok r) : r.Formed := by
  unfold plainReversal at h
  dsimp only at h
  generalize hnew : (RevRule.mk { name := some (revRuleName modename rule n) } _) = newRule at h
  have hsilent : newRule.Silent := by
    subst hnew
    exact ⟨rfl, rfl, rfl⟩
  cases haction : reverseAction rule forwardPath newRule with
  | error e =>
    rw [haction] at h
    cases h
  | ok result =>
    rw [haction] at h
    obtain ⟨dPath, newRule'⟩ := result
    have hsilent' := reverseAction_silent hsilent haction
    cases dPath with
    | none =>
      cases h
      exact .silent hsilent' rfl
    | some d =>
      cases h
      refine reverseSelector_formed hsilent' fun hpre hdir hpath target hmap => ?_
      rw [hforward, hpre, hdir, hpath] at haction
      exact reverseAction_mapTo hone hmap haction

theorem reversalRule_formed :
    ReversalRule modename Reversal.Formed (fun table => table.oneTarget = true)
      (fun rule forwardPath => rule.oneTarget = true ∧
        forwardPath = (rule.selPrefix.or rule.selPath).or rule.selDir)
      (fun rule => oneTargetRule rule = true) (fun rules => oneTargets rules = true) where
  cons h := by rwa [oneTargets, Bool.and_eq_true] at h
  parts {rule} h := by
    obtain ⟨table, actions, rules, thenActions⟩ := rule
    rw [oneTargetRule.eq_def] at h
    simp only [Bool.and_eq_true] at h
    obtain ⟨⟨⟨htable, hactions⟩, hrules⟩, hthen⟩ := h
    refine ⟨htable, ?_, ?_, ?_⟩
    · rintro as rfl
      exact hactions
    · rintro rs rfl
      exact hrules
    · rintro as rfl
      exact hthen
  start h := ⟨h, rfl⟩
  action _ _ h haction := ⟨haction, h.2⟩
  made h := plainReversal_formed h.1 h.2

end Formed

/-! ## The rules that are generated -/

/-- The reverse selector is absolute and has no colon, and no two slashes meet in the text with
which its position is found. -/
structure Reversal.RegularTexts (r : Reversal) : Prop where
  selector : ∀ sel, r.newRule.xPath = some sel → sel.head? = some '/' ∧ ':' ∉ sel
  testText : ∀ t, r.testPath = some t → Token.Spaced '/' t

instance (r : Reversal) : Decidable r.RegularTexts :=
  decidable_of_iff ((∀ sel ∈ r.newRule.xPath, sel.head? = some '/' ∧ ':' ∉ sel) ∧
      ∀ t ∈ r.testPath, t.IsChain fun x y => x = '/' → y ≠ '/')
    ⟨fun h => ⟨h.1, h.2⟩, fun h => ⟨h.selector, h.testText⟩⟩

variable {kind : SelectorType} {rule : RevRule}

theorem IsTestText.spaced_selector {t : CStr} (h : IsTestText kind sel t)
    (hspaced : Token.Spaced '/' t) : Token.Spaced '/' sel := by
  rcases h.cases with ⟨rfl, -⟩ | ⟨rfl, -⟩ | ⟨rfl, -⟩
  · exact hspaced
  · exact (isChain_append.1 hspaced).1
  · exact (isChain_append.1 hspaced).1

theorem Reversal.Formed.regular {r : Reversal} (h : r.Formed) (htexts : r.RegularTexts) :
    r.Regular := by
  cases h with
  | silent h htest => exact .silent h htest
  | selects kind sel t h htest ht =>
    have hspaced := htexts.testText t htest
    obtain ⟨habs, hcolon⟩ := htexts.selector sel h.xPath
    exact .selects h ⟨habs, hcolon, ht.spaced_selector hspaced⟩ htest ht hspaced

def RevRule.selects (rule : RevRule) (path : CStr) : Bool :=
  (ruletreeTestPathMatch path
    { ruleOffs := 1
      selectorType := rule.selectorOf.map Prod.fst
      selector := rule.selectorOf.map Prod.snd
      actionType := .useOrigPath }).isSome

theorem RevRule.Selects.selects (h : rule.Selects kind sel) (path : CStr) :
    rule.selects path = (selectorMapping kind sel).selects path := by
  have hof : rule.selectorOf = some (kind, sel) := by
    rw [RuleTable.selectorOf, h.dir, h.pre, h.path]
    cases kind <;> rfl
  rw [RevRule.selects, hof]
  rfl

theorem RevRule.Regular.selects_of_miss (h : rule.Regular) {path : CStr}
    (hmiss : rule.hits path = false) : rule.selects path = false := by
  cases h with
  | silent h =>
    rw [RevRule.selects, RuleTable.selectorOf, h.dir, h.pre, h.path]
    rfl
  | @selects kind sel h _ =>
    rw [h.hits] at hmiss
    rw [h.selects]
    refine Bool.eq_false_iff.2 fun hsel => ?_
    rw [luaHits_of_selects hsel] at hmiss
    cases hmiss

theorem selects_ownPath (kind : SelectorType) (h : RegularText sel) :
    (selectorMapping kind sel).selects (ownPath kind sel) = true := by
  refine selects_iff.2 ?_
  cases kind with
  | selPath => exact ⟨[], (append_nil sel).symm, rfl⟩
  | selPrefix => exact ⟨[':'], rfl, h.ne_nil⟩
  | selDir => exact ⟨[], (append_nil sel).symm, h.ne_nil, .inl (.inl rfl)⟩

/-- At every point of the generation, no rule is hidden by one before it, and each rule with a
selector is the first match for the path that it is meant for, by both matchers. -/
theorem reverse_rules_unshadowed (modename : String) {rules : List LuaRule}
    (hone : oneTargets rules = true)
    (htexts : ∀ r ∈ (reversals modename 1 rules).made, r.RegularTexts)
    {made : List Reversal} (hmade : made <+: (reversals modename 1 rules).made) :
    (placeReversals [] made).Pairwise RevRule.Spares ∧
      ∀ rule ∈ placeReversals [] made, ∀ w, rule.ownText = some w →
        (placeReversals [] made).find? (·.hits w) = some rule ∧
          (placeReversals [] made).find? (·.selects w) = some rule := by
  have hout : Unshadowed (placeReversals [] made) := by
    refine Unshadowed.place ⟨fun rule hmem => absurd hmem not_mem_nil, .nil⟩ fun r hr => ?_
    have hformed := forall_reversals reversalRule_formed 1 rules hone r (hmade.subset hr)
    exact hformed.regular (htexts r (hmade.subset hr))
  refine ⟨hout.spares, fun rule hrule w hw => ?_⟩
  have hmiss : (placeReversals [] made).Pairwise fun x y => y = rule → x.hits w = false := by
    refine hout.spares.imp fun {x y} hspares heq => ?_
    subst heq
    exact hspares w hw
  cases hout.regular rule hrule with
  | silent h =>
    rw [h.ownText] at hw
    cases hw
  | selects h hsel =>
    obtain rfl := Option.some.inj (h.ownText.symm.trans hw)
    refine ⟨Placing.find?_of_pairwise hrule ?_ hmiss, Placing.find?_of_pairwise hrule ?_ ?_⟩
    · rw [h.hits]
      exact hits_ownPath _ hsel
    · rw [h.selects]
      exact selects_ownPath _ hsel
    · exact hmiss.imp_of_mem fun {x y} hx _ hxy heq =>
        (hout.regular x hx).selects_of_miss (hxy heq)

/-- Rules that map a directory, and all paths that begin with a text, to the same place. -/
def dirThenPrefix : List LuaRule :=
  [{ selDir := some "/a".toList, replaceBy := some "/x".toList },
    { selPrefix := some "/b".toList, replaceBy := some "/x".toList }]

theorem dirThenPrefix_unshadowed :
    (placeReversals [] (reversals "simple" 1 dirThenPrefix).made).Pairwise RevRule.Spares :=
  (reverse_rules_unshadowed "simple" (by decide) (by decide +kernel) prefix_rfl).1

/-- The selector of the second rule is matched by the first one. -/
theorem selector_matched_by_earlier_dir :
    ∃ a b, reverseRules "simple" [] 1 dirThenPrefix = .ok [a, b] ∧
      b.selPrefix = some "/x".toList ∧ a.hits "/x".toList = true :=
  ⟨_, _, rfl, rfl, rfl⟩

/-- Where two slashes meet, a rule for the root directory is hidden by another one. -/
example : ∃ a b, reverseRules "simple" [] 1
      [{ selPath := some "/".toList, useOrigPath := true },
        { selPath := some "/".toList, mapTo := some "/".toList }] = .ok [a, b] ∧
    a.selPath = b.selPath := ⟨_, _, rfl, rfl⟩

end Scratchbox
