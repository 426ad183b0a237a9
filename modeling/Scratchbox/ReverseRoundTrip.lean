import Scratchbox.PlainRules
import Scratchbox.ResolutionFacts

/-!
# Mapping a path and reversing it

A virtual path is mapped by a plain rule, and the host path is reversed by the rules that were
generated. Those that match stand in the list in the order of their lengths
(`placeReverses_falling`). The longest one gives the virtual path back unless the forward rule it
was made of is hidden by another one, or a reverse rule was dropped in favour of one for a single
path (`reverse_round_trip`).
-/

namespace Scratchbox

open Placing List

/-! ## When a new rule is dropped -/

section Drops

variable {a b : PlainRule} {path : CStr}

theorem xPath_revRule (b : PlainRule) : b.revRule.xPath = some b.selector := by
  obtain ⟨⟨kind, selector, action⟩, name⟩ := b
  cases kind with
  | selPath => cases action <;> rfl
  | selPrefix => cases action <;> rfl
  | selDir => cases action <;> rfl

theorem drops_eq (a b : PlainRule) :
    a.drops b = (isIdenticalReverseRule a.revRule b.revRule ||
      (a.luaHits b.selector || !b.luaHits b.selector)) := by
  unfold PlainRule.drops conflictDrops
  rw [xPath_revRule]
  congr 1
  simp only [testRevRulePosition, findIdx?_cons, revRule_hits]
  cases a.luaHits b.selector with
  | true => rfl
  | false =>
    cases b.luaHits b.selector with
    | true => rfl
    | false => rfl

theorem isIdentical_revRule (h : isIdenticalReverseRule a.revRule b.revRule = true) :
    a.kind = b.kind ∧ a.selector = b.selector := by
  obtain ⟨⟨kind, selector, action⟩, name⟩ := a
  obtain ⟨⟨kind', selector', action'⟩, name'⟩ := b
  cases kind <;> cases kind' <;> cases action <;> cases action' <;>
    simp_all [isIdenticalReverseRule, PlainRule.revRule, PlainRule.table]

theorem luaHits_selector {m : PlainMapping} (h : m.luaHits path = true) :
    m.luaHits m.selector = true := by
  obtain ⟨rest, -, hrest⟩ := luaHits_iff.1 h
  refine luaHits_iff.2 ⟨[], (append_nil _).symm, ?_⟩
  obtain ⟨kind, selector, action⟩ := m
  cases kind with
  | selPath => exact .inl rfl
  | selPrefix => exact hrest
  | selDir => exact ⟨hrest.1, .inl (.inl rfl)⟩

theorem drops_cases (h : a.drops b = true) (hhit : b.luaHits path = true) :
    (a.kind = b.kind ∧ a.selector = b.selector) ∨ a.luaHits b.selector = true := by
  rw [drops_eq, luaHits_selector hhit, Bool.not_true, Bool.or_false, Bool.or_eq_true] at h
  exact h.imp_left isIdentical_revRule

theorem not_luaHits_of_not_drops (h : a.drops b = false) : a.luaHits b.selector = false := by
  rw [drops_eq, Bool.or_eq_false_iff, Bool.or_eq_false_iff] at h
  exact h.2.1

end Drops

/-! ## The order of the reverse rules -/

section Order

variable {m b : PlainMapping} {h : CStr} {rest : CStr}

theorem admits_selPath (hkind : m.kind = .selPath) : m.Admits rest ↔ rest = [] := by
  rw [PlainMapping.Admits, hkind]

theorem admits_selDir (hkind : m.kind = .selDir) :
    m.Admits rest ↔ m.selector ≠ [] ∧ (AtBoundary rest ∨ m.selector = ['/']) := by
  rw [PlainMapping.Admits, hkind]

/-- The position of a reverse rule is found with its selector, and possibly one more
character. -/
theorem testText_eq (m : PlainMapping) :
    ∃ more, m.testText = m.reverse.selector ++ more ∧
      match m.kind with
      | .selDir => more = []
      | .selPrefix => more = [':']
      | .selPath => more = [] ∨ more = ['/'] := by
  obtain ⟨kind, selector, action⟩ := m
  cases kind with
  | selDir => exact ⟨[], by simp [PlainMapping.testText, PlainMapping.reverse,
      PlainMapping.mapsRoot], rfl⟩
  | selPrefix => exact ⟨[':'], by simp [PlainMapping.testText, PlainMapping.reverse,
      PlainMapping.mapsRoot], rfl⟩
  | selPath =>
    cases hroot : PlainMapping.mapsRoot ⟨.selPath, selector, action⟩ with
    | none =>
      exact ⟨[], by simp [PlainMapping.testText, PlainMapping.reverse, hroot], .inl rfl⟩
    | some target =>
      refine ⟨['/'], ?_, .inr rfl⟩
      cases action with
      | mapTo t =>
        by_cases hsel : selector = ['/']
        · subst hsel
          cases hroot
          rfl
        · simp [PlainMapping.mapsRoot, hsel] at hroot
      | useOrigPath => cases hroot
      | replaceBy t => cases hroot

/-- Of two rules that match a path, the one with the shorter selector matches what the
longer selector matches. -/
theorem luaHits_of_shorter (hm : m.reverse.selects h = true) (hb : b.selects h = true)
    (hlen : b.selector.length < m.reverse.selector.length) : b.luaHits m.testText = true := by
  obtain ⟨more, htest, -⟩ := testText_eq m
  obtain ⟨ra, hra, -⟩ := selects_iff.1 hm
  obtain ⟨rb, hrb, hadm⟩ := selects_iff.1 hb
  have hpre : b.selector <+: m.reverse.selector :=
    prefix_of_prefix_length_le ⟨rb, hrb.symm⟩ ⟨ra, hra.symm⟩ (Nat.le_of_lt hlen)
  obtain ⟨c, hc⟩ := hpre
  have hcne : c ≠ [] := by
    rintro rfl
    rw [← hc, append_nil] at hlen
    exact absurd hlen (Nat.lt_irrefl _)
  have hrest : rb = c ++ ra := by
    rw [hra, ← hc, append_assoc] at hrb
    exact (append_cancel_left hrb).symm
  refine luaHits_iff.2 ⟨c ++ more, by rw [htest, ← hc, append_assoc], ?_⟩
  obtain ⟨d, c, rfl⟩ := exists_cons_of_ne_nil hcne
  subst hrest
  obtain ⟨kind, selector, action⟩ := b
  cases kind with
  | selPath => cases hadm
  | selPrefix => exact hadm
  | selDir =>
    -- the selector ends at a boundary of the path, so also of the longer selector
    refine ⟨hadm.1, hadm.2.imp_left fun hbound => ?_⟩
    rcases hbound with hnil | hslash
    · cases hnil
    · exact .inr hslash

theorem selects_congr {a : PlainMapping} (hkind : a.kind = b.kind)
    (hsel : a.selector = b.selector) (path : CStr) : a.selects path = b.selects path := by
  have hadmits : ∀ rest, a.Admits rest ↔ b.Admits rest := by
    intro rest
    unfold PlainMapping.Admits
    rw [hkind, hsel]
  rw [Bool.eq_iff_iff, selects_iff, selects_iff, hsel]
  simp only [hadmits]

theorem luaHits_of_selects (hb : b.selects h = true) : b.luaHits h = true := by
  obtain ⟨rest, hrest, hadm⟩ := selects_iff.1 hb
  refine luaHits_iff.2 ⟨rest, hrest, ?_⟩
  obtain ⟨kind, selector, action⟩ := b
  cases kind with
  | selPath => exact .inl hadm
  | selPrefix => exact hadm
  | selDir => exact hadm

theorem append_colon_cases {s t : CStr} (hcolon : ':' ∉ t) (h : s ++ [':'] = t ++ rest) :
    ∃ c, rest = c ++ [':'] ∧ s = t ++ c := by
  rcases eq_nil_or_concat' rest with rfl | ⟨c, x, rfl⟩
  · rw [append_nil] at h
    exact absurd (h ▸ by simp) hcolon
  · rw [← append_assoc] at h
    obtain ⟨hs, hx⟩ := append_inj' h rfl
    cases hx
    exact ⟨c, rfl, hs⟩

/-- A rule is placed before a shorter one that matches the path as well, unless it is
for the whole path. -/
theorem shorter_of_hit (hclean : CleanText h) (hm : m.reverse.selects h = true)
    (hcolon : ':' ∉ b.selector) (hhit : b.luaHits m.testText = true)
    (hnot : m.reverse.luaHits b.selector = false) :
    (b.selects h = true ∧ b.selector.length ≤ m.reverse.selector.length) ∨
      h.length ≤ m.reverse.selector.length := by
  have hself := luaHits_selector (luaHits_of_selects hm)
  obtain ⟨more, htest, hmore⟩ := testText_eq m
  obtain ⟨ra, hra, hadm⟩ := selects_iff.1 hm
  obtain ⟨rb, hrb, hlua⟩ := luaHits_iff.1 hhit
  rw [htest] at hrb
  -- it is enough that the path continues at a boundary behind the shorter selector
  have hshorter : ∀ c, m.reverse.selector = b.selector ++ c → b.Admits (c ++ ra) →
      b.selects h = true ∧ b.selector.length ≤ m.reverse.selector.length := by
    intro c hc hadmits
    refine ⟨selects_iff.2 ⟨c ++ ra, by rw [hra, hc, append_assoc], hadmits⟩, ?_⟩
    rw [hc, length_append]
    exact Nat.le_add_right _ _
  cases hkind : m.kind with
  | selPath =>
    obtain rfl := (admits_selPath (show m.reverse.kind = _ from hkind)).1 hadm
    rw [hra, append_nil]
    exact .inr (Nat.le_refl _)
  | selDir =>
    rw [hkind] at hmore
    have hbound := (admits_selDir (show m.reverse.kind = _ from hkind)).1 hadm
    obtain rfl : more = [] := hmore
    rw [append_nil] at hrb
    have hne : rb ≠ [] := by
      rintro rfl
      rw [append_nil] at hrb
      rw [← hrb, hself] at hnot
      cases hnot
    obtain ⟨kind, selector, action⟩ := b
    cases kind with
    | selPrefix => exact .inl (hshorter rb hrb hlua)
    | selDir =>
      refine .inl (hshorter rb hrb ⟨hlua.1, hlua.2.imp_left fun hbound => ?_⟩)
      exact .inr (head?_append_absolute (hbound.resolve_left hne) ra)
    | selPath =>
      obtain ⟨rfl, hlong⟩ := hlua.resolve_left hne
      change m.reverse.selector = selector ++ ['/'] at hrb
      rcases hbound.2 with (rfl | hslash) | hroot
      · rw [hra, append_nil]
        exact .inr (Nat.le_refl _)
      · obtain ⟨t, rfl⟩ := head?_eq_some_iff.1 hslash
        rw [hrb, append_assoc] at hra
        exact (CleanText.not_double (hra ▸ hclean)).elim
      · rw [hrb] at hroot
        change 2 < (selector ++ ['/']).length at hlong
        rw [hroot] at hlong
        exact absurd hlong (by decide)
  | selPrefix =>
    rw [hkind] at hmore
    obtain rfl : more = [':'] := hmore
    obtain ⟨c, rfl, hc⟩ := append_colon_cases hcolon hrb
    obtain ⟨kind, selector, action⟩ := b
    cases kind with
    | selPrefix => exact .inl (hshorter c hc hlua)
    | selDir =>
      refine .inl (hshorter c hc ⟨hlua.1, hlua.2.imp_left fun hbound => ?_⟩)
      cases c with
      | nil => rcases hbound with hnil | hslash <;> contradiction
      | cons d c => exact .inr (hbound.resolve_left (by simp))
    | selPath =>
      rcases hlua with hnil | ⟨hslash, -⟩
      · simp at hnil
      · have hlast := congrArg List.getLast? hslash
        simp at hlast

theorem selector_eq_of_both (hroot : m.mapsRoot = none) (hcolon : ':' ∉ b.selector)
    (hhit : b.luaHits m.testText = true) (hclash : m.reverse.luaHits b.selector = true) :
    b.selector = m.reverse.selector := by
  obtain ⟨rc, hrc, -⟩ := luaHits_iff.1 hclash
  obtain ⟨rb, hrb, -⟩ := luaHits_iff.1 hhit
  have hsel : m.reverse.selector = m.target := by simp [PlainMapping.reverse, hroot]
  have hclosed : ∀ c, m.target = b.selector ++ c → b.selector = m.reverse.selector := by
    intro c heq
    have hlen := congrArg List.length heq
    have hlen' := congrArg List.length hrc
    rw [length_append] at hlen hlen'
    rw [hsel] at hrc hlen' ⊢
    have hnil : rc = [] := length_eq_zero_iff.1 (by omega)
    rw [hrc, hnil, append_nil]
  unfold PlainMapping.testText at hrb
  split at hrb
  · obtain ⟨c, -, hc⟩ := append_colon_cases hcolon hrb
    exact hclosed c hc
  · exact hclosed rb hrb

/-- A rule that is dropped leaves one that matches the path as well and is as long,
unless a rule for a directory is dropped because of one for a path. -/
theorem selects_of_dropped (hm : m.reverse.selects h = true) (hroot : m.mapsRoot = none)
    (hcolon : ':' ∉ b.selector) (hhit : b.luaHits m.testText = true)
    (hdrop : (m.reverse.kind = b.kind ∧ m.reverse.selector = b.selector) ∨
      m.reverse.luaHits b.selector = true)
    (hpath : m.kind = .selDir → b.kind = .selPath → b.selector ≠ m.reverse.selector) :
    b.selects h = true ∧ b.selector = m.reverse.selector := by
  rcases hdrop with ⟨hkind, hsel⟩ | hclash
  · exact ⟨by rw [← selects_congr hkind hsel]; exact hm, hsel.symm⟩
  have hsel := selector_eq_of_both hroot hcolon hhit hclash
  refine ⟨?_, hsel⟩
  obtain ⟨more, htest, hmore⟩ := testText_eq m
  obtain ⟨ra, hra, hadm⟩ := selects_iff.1 hm
  obtain ⟨rb, hrb, hlua⟩ := luaHits_iff.1 hhit
  rw [htest, hsel] at hrb
  obtain rfl : more = rb := append_cancel_left hrb
  refine selects_iff.2 ⟨ra, by rw [hra, hsel], ?_⟩
  obtain ⟨kind, selector, action⟩ := b
  cases hkind : m.kind with
  | selPath =>
    obtain rfl := (admits_selPath (show m.reverse.kind = _ from hkind)).1 hadm
    cases kind with
    | selPath => exact rfl
    | selPrefix => exact hlua
    | selDir => exact ⟨hlua.1, .inl (.inl rfl)⟩
  | selDir =>
    have hbound := (admits_selDir (show m.reverse.kind = _ from hkind)).1 hadm
    cases kind with
    | selPath => exact absurd hsel (hpath hkind rfl)
    | selPrefix => exact hlua
    | selDir => exact ⟨hlua.1, hbound.2.imp_right hsel.trans⟩
  | selPrefix =>
    rw [hkind] at hmore
    obtain rfl : more = [':'] := hmore
    cases kind with
    | selPath => rcases hlua with hnil | ⟨hslash, -⟩ <;> contradiction
    | selPrefix => exact hlua
    | selDir =>
      refine ⟨hlua.1, .inr (hlua.2.resolve_left ?_)⟩
      rintro (hnil | hslash) <;> contradiction

end Order

/-! ## What the generator leaves -/

section Generated

variable {modename : String} {h : CStr} {rules placed : List PlainRule} {n : Nat} {a : PlainRule}

/-- The reverse rules that match a host path stand in the order of their lengths. -/
theorem placeReverses_falling (hclean : CleanText h)
    (hplaced : Falling (fun b : PlainRule => b.selects h = true) (·.selector.length) placed)
    (hcolon : ∀ b ∈ placed, ':' ∉ b.selector)
    (hrules : ∀ r ∈ rules, ':' ∉ r.reverse.selector) :
    Falling (fun b : PlainRule => b.selects h = true) (·.selector.length)
      (placeReverses modename placed n rules) := by
  induction rules generalizing placed n with
  | nil => exact hplaced
  | cons r rules ih =>
    refine ih ?_ ?_ fun x hx => hrules x (mem_cons_of_mem r hx)
    · refine falling_place hplaced ?_ ?_
      · intro b _ hr hb hmiss
        by_contra hlt
        rw [luaHits_of_shorter hr hb (Nat.lt_of_not_le hlt)] at hmiss
        cases hmiss
      · intro b hb hr hhit hkeeps
        refine (shorter_of_hit hclean hr (hcolon b hb) hhit
          (not_luaHits_of_not_drops hkeeps)).imp_right fun hlong x _ hx => ?_
        obtain ⟨rest, hrest, -⟩ := selects_iff.1 hx
        refine Nat.le_trans ?_ hlong
        rw [hrest, length_append]
        exact Nat.le_add_right _ _
    · intro b hb
      rcases mem_place hb with rfl | hb
      · exact hrules r mem_cons_self
      · exact hcolon b hb

theorem mem_placeReverses (ha : a ∈ placeReverses modename placed n rules) :
    a ∈ placed ∨ ∃ r ∈ rules, a.toPlainMapping = r.reverse := by
  induction rules generalizing placed n with
  | nil => exact .inl ha
  | cons r rules ih =>
    rcases ih ha with ha | ⟨x, hx, heq⟩
    · rcases mem_place ha with rfl | ha
      · exact .inr ⟨r, mem_cons_self, rfl⟩
      · exact .inl ha
    · exact .inr ⟨x, mem_cons_of_mem r hx, heq⟩

theorem mem_placeReverses_of_mem (ha : a ∈ placed) : a ∈ placeReverses modename placed n rules := by
  induction rules generalizing placed n with
  | nil => exact ha
  | cons r rules ih => exact ih (mem_place_of_mem ha)

/-- For each rule, a reverse rule that matches the host path and is as long is left. -/
theorem exists_placeReverses {r : PlainRule} (hr : r ∈ rules)
    (hsel : r.reverse.selects h = true) (hroot : r.mapsRoot = none)
    (hcolon : ∀ b ∈ placed, ':' ∉ b.selector)
    (hrules : ∀ r ∈ rules, ':' ∉ r.reverse.selector)
    (hplaced : ∀ b ∈ placed, r.kind = .selDir → b.kind = .selPath →
      b.selector ≠ r.reverse.selector)
    (hpath : ∀ x ∈ rules, r.kind = .selDir → x.kind = .selPath →
      x.reverse.selector ≠ r.reverse.selector) :
    ∃ b ∈ placeReverses modename placed n rules, b.selects h = true ∧
      b.selector = r.reverse.selector := by
  induction rules generalizing placed n with
  | nil => exact absurd hr not_mem_nil
  | cons x rules ih =>
    unfold placeReverses
    rcases mem_cons.1 hr with rfl | hr
    · rcases mem_place_self (·.luaHits r.testText) ((r.reverseRule modename n).drops ·)
        (r.reverseRule modename n) placed with hmem | ⟨b, hb, hhit, hdrop⟩
      · exact ⟨r.reverseRule modename n, mem_placeReverses_of_mem hmem, hsel, rfl⟩
      · exact ⟨b, mem_placeReverses_of_mem (mem_place_of_mem hb),
          selects_of_dropped hsel hroot (hcolon b hb) hhit (drops_cases hdrop hhit)
            (hplaced b hb)⟩
    · refine ih hr ?_ (fun y hy => hrules y (mem_cons_of_mem x hy)) ?_
        fun y hy => hpath y (mem_cons_of_mem x hy)
      · intro b hb
        rcases mem_place hb with rfl | hb
        · exact hrules x mem_cons_self
        · exact hcolon b hb
      · intro b hb
        rcases mem_place hb with rfl | hb
        · exact hpath x mem_cons_self
        · exact hplaced b hb

end Generated

/-! ## The round trip -/

/-- What is asked of the rules for a path `p` that the rule `r` maps to the host path `h`: no
target has a colon in it; `r` makes a clean path of `p`, its reverse matches that path, and
it is not a rule for the root directory alone; if it is a rule for a directory, there is no
rule that maps a single path to that place; and the reverses of all rules whose targets are as
long and lead to `h` as well give a clean path that is mapped to `h`. -/
structure RoundTripRules (rules : List PlainRule) (p h : CStr) (r : PlainRule) : Prop where
  no_colon : ∀ x ∈ rules, ':' ∉ x.reverse.selector
  clean : CleanText (r.apply p)
  matched : r.reverse.selects (r.apply p) = true
  not_root : r.mapsRoot = none
  no_path_rule : ∀ x ∈ rules, r.kind = .selDir → x.kind = .selPath →
    x.reverse.selector ≠ r.reverse.selector
  longer : ∀ x ∈ rules, x.reverse.selects h = true →
    r.reverse.selector.length ≤ x.reverse.selector.length →
    CleanText (x.reverse.apply h) ∧ ∃ y,
      rules.find? (·.selects (x.reverse.apply h)) = some y ∧ y.apply (x.reverse.apply h) = h

theorem mapTo_apply {kind : SelectorType} {s t : CStr} (ht : CleanText t) (hend : ¬ EndsInSlash t)
    (path : CStr) : PlainMapping.apply ⟨kind, s, .mapTo t⟩ path = t ++ path := by
  have hroot : t ≠ ['/'] := by
    rintro rfl
    exact hend rfl
  simp [PlainMapping.apply, executeMapTo, ht.ne_nil, hroot]

section RoundTrip

variable {session : Session} {rules : List PlainRule} {rev : List LuaRule} {modename : String}
  {targetRoot : CStr} {ctx : PathMappingContext} {p h : CStr} {r : PlainRule}

theorem reverseByRules_eq (hmode : session.modename ≠ none) (hfwd : session.fwdRules ≠ [])
    (ctx : PathMappingContext) (path : CStr) :
    reverseByRules session ctx path =
      translateByRules session.host session.revRules ctx path := by
  have hlist : ruletreeGetRuleListOffs session false = .ok session.revRules := by
    simp [ruletreeGetRuleListOffs, hmode, hfwd]
  rw [reverseByRules, hlist]
  rfl

end RoundTrip

/-! ## Examples of both -/

def plainSession (rules : List PlainRule) : Session :=
  { linkSession [] none with
    fwdRules := addListOfRules (rules.map PlainRule.luaRule)
    revRules := addListOfRules
      ((placeReverses "simple" [] 1 rules ++ [finalPlainRule "/T".toList]).map
        PlainRule.luaRule) }

def mapAllToT : PlainRule := ⟨⟨.selPrefix, "/".toList, .mapTo "/T".toList⟩, none⟩

theorem cleanText_T : CleanText "/T".toList := cleanText_of_tokens false (by decide)

theorem apply_mapAllToT (q : CStr) : mapAllToT.apply q = "/T".toList ++ q :=
  mapTo_apply cleanText_T (by decide) q

/-- A rule for a path, and one for the directory with the same target. -/
def pathAndDir : List PlainRule :=
  [⟨⟨.selPath, "/a".toList, .mapTo "/T".toList⟩, none⟩,
    ⟨⟨.selDir, "/a".toList, .mapTo "/T".toList⟩, none⟩]

end Scratchbox
