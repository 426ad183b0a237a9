import Scratchbox.Lib.Placing
import Scratchbox.PathTexts
import Scratchbox.ReverseRules

/-!
# Plain rules and their reverses

Rules with one selector and one of the actions `use_orig_path`, `map_to` and
`replace_by`, without conditions. The reverse of a plain rule is a plain rule again
(`PlainMapping.reverse`), so that the loader, the matcher and the translator are
described once for both directions, and the generator becomes a fold of
`Placing.place` (`reverseRules_plain`).
-/

namespace Scratchbox

open List

/-! ## Plain rules -/

inductive PlainAction where
  | useOrigPath
  | mapTo (target : CStr)
  | replaceBy (target : CStr)
  deriving DecidableEq

/-- A selector and an action. -/
structure PlainMapping where
  kind : SelectorType
  selector : CStr
  action : PlainAction
  deriving DecidableEq

structure PlainRule extends PlainMapping where
  name : Option String := none
  deriving DecidableEq

def PlainRule.table (r : PlainRule) : RuleTable :=
  let table : RuleTable :=
    match r.kind with
    | .selDir => { name := r.name, selDir := some r.selector }
    | .selPrefix => { name := r.name, selPrefix := some r.selector }
    | .selPath => { name := r.name, selPath := some r.selector }
  match r.action with
  | .useOrigPath => { table with useOrigPath := true }
  | .mapTo target => { table with mapTo := some target }
  | .replaceBy target => { table with replaceBy := some target }

def PlainRule.luaRule (r : PlainRule) : LuaRule := { r.table with }

def PlainMapping.fields (m : PlainMapping) : FsRuleFields where
  ruleOffs := 1
  selectorType := some m.kind
  selector := some m.selector
  actionType :=
    match m.action with
    | .useOrigPath => .useOrigPath
    | .mapTo _ => .mapTo
    | .replaceBy _ => .replaceBy
  actionStr :=
    match m.action with
    | .useOrigPath => none
    | .mapTo target => some target
    | .replaceBy target => some target

theorem addOneRule_plain (r : PlainRule) :
    addOneRuleToRuleTree r.luaRule = some ⟨r.fields, []⟩ := by
  obtain ⟨⟨kind, selector, action⟩, name⟩ := r
  cases kind with
  | selPath => cases action <;> rfl
  | selPrefix => cases action <;> rfl
  | selDir => cases action <;> rfl

theorem addListOfRules_plain (rules : List PlainRule) :
    addListOfRules (rules.map PlainRule.luaRule) = rules.map fun r => ⟨r.fields, []⟩ := by
  induction rules with
  | nil => rfl
  | cons r rules ih => simp [addListOfRules, addOneRule_plain, ih]

/-! ## Selection -/

def PlainMapping.selects (m : PlainMapping) (path : CStr) : Bool :=
  (ruletreeTestPathMatch path m.fields).isSome

/-- What may follow a selector in a path that it matches. -/
def PlainMapping.Admits (m : PlainMapping) (rest : CStr) : Prop :=
  match m.kind with
  | .selPath => rest = []
  | .selPrefix => m.selector ≠ []
  | .selDir => m.selector ≠ [] ∧ (AtBoundary rest ∨ m.selector = ['/'])

variable {rest : CStr}

theorem atBoundary_iff_head? : AtBoundary rest ↔ rest.head? = some '/' ∨ rest.head? = none := by
  rw [AtBoundary, head?_eq_none_iff, or_comm]

theorem getElem?_behind (s rest : CStr) : (s ++ rest)[s.length]? = rest.head? := by
  rw [getElem?_append_right (Nat.le_refl _), Nat.sub_self, head?_eq_getElem?]

theorem rootSelector_iff {s : CStr} : s.length = 1 ∧ (s ++ rest).head? = some '/' ↔ s = ['/'] := by
  constructor
  · rintro ⟨hlen, hhead⟩
    obtain ⟨c, rfl⟩ := length_eq_one_iff.1 hlen
    cases hhead
    rfl
  · rintro rfl
    exact ⟨rfl, rfl⟩

variable {m : PlainMapping} {path : CStr} {ctx : PathMappingContext} {rules : List PlainRule}
  {host : Host}

/-- A rule matches the paths that are its selector with something admitted behind it. -/
theorem selects_iff :
    m.selects path = true ↔ ∃ rest, path = m.selector ++ rest ∧ m.Admits rest := by
  obtain ⟨kind, selector, action⟩ := m
  simp only [PlainMapping.selects, PlainMapping.fields, PlainMapping.Admits]
  cases kind with
  | selPath =>
    simp only [ruletreeTestPathMatch]
    split <;> simp_all
  | selPrefix =>
    simp only [ruletreeTestPathMatch]
    constructor
    · intro h
      split at h
      · rename_i hm
        obtain ⟨rest, rfl⟩ := hm.2
        exact ⟨rest, rfl, hm.1⟩
      · cases h
    · rintro ⟨rest, rfl, hne⟩
      rw [if_pos ⟨hne, prefix_append _ _⟩]
      rfl
  | selDir =>
    simp only [ruletreeTestPathMatch]
    constructor
    · intro h
      split at h
      · rename_i hm
        obtain ⟨hne, -, hnext, rest, rfl⟩ := hm
        rw [getElem?_behind, rootSelector_iff, ← or_assoc, ← atBoundary_iff_head?] at hnext
        exact ⟨rest, rfl, hne, hnext⟩
      · cases h
    · rintro ⟨rest, rfl, hne, hnext⟩
      have hroot : selector.length = 1 ∧ (selector ++ rest).head? = some '/' ↔ selector = ['/'] :=
        rootSelector_iff
      rw [atBoundary_iff_head?, or_assoc, ← hroot, ← getElem?_behind selector rest] at hnext
      rw [if_pos ⟨hne, by simp, hnext, prefix_append _ _⟩]
      rfl

theorem testPathMatch_length {n : Nat} (h : ruletreeTestPathMatch path m.fields = some n) :
    n = m.selector.length := by
  obtain ⟨kind, selector, action⟩ := m
  simp only [PlainMapping.fields, ruletreeTestPathMatch] at h
  cases kind <;> dsimp only at h <;> split at h <;> first | exact (Option.some.inj h).symm | cases h

theorem ruletreeFindStep_plain (ctx : PathMappingContext) :
    ruletreeFindStep ctx path ⟨m.fields, []⟩ =
      if m.selects path then .found ⟨m.fields, []⟩ m.selector.length else .next := by
  have hsubtree : m.fields.actionType ≠ .subtree := by
    obtain ⟨kind, selector, action⟩ := m
    cases action <;> simp [PlainMapping.fields]
  rw [ruletreeFindStep, if_neg (by simp [PlainMapping.fields])]
  unfold PlainMapping.selects
  cases hm : ruletreeTestPathMatch path m.fields with
  | none => rfl
  | some n =>
    dsimp only
    rw [if_neg (by simp [PlainMapping.fields]), if_neg (by simp [PlainMapping.fields]),
      if_neg hsubtree, testPathMatch_length hm]
    rfl

theorem ruletreeFindRule_plain (ctx : PathMappingContext) (path : CStr) (rules : List PlainRule) :
    ruletreeFindRule ctx path (rules.map fun r => ⟨r.fields, []⟩) =
      (rules.find? (·.selects path)).map fun r => (⟨r.fields, []⟩, r.selector.length) := by
  induction rules with
  | nil => rfl
  | cons r rules ih =>
    rw [map_cons, ruletreeFindRule, ruletreeFindStep_plain]
    cases hsel : r.selects path with
    | false => simp [hsel, ih]
    | true => simp [hsel]

/-! ## Translation -/

def PlainMapping.apply (m : PlainMapping) (path : CStr) : CStr :=
  match m.action with
  | .useOrigPath => path
  | .mapTo target => executeMapTo path (some target)
  | .replaceBy target =>
    if m.kind = .selPath then target else target ++ path.drop m.selector.length

theorem executeReplaceRule_plain (h : m.selects path = true) (target : CStr) :
    ruletreeExecuteReplaceRule path (some target) m.fields =
      .ok (some (if m.kind = .selPath then target
        else target ++ path.drop m.selector.length)) := by
  obtain ⟨rest, rfl, hrest⟩ := selects_iff.1 h
  have hlen : ¬ (m.selector ++ rest).length < m.selector.length := by simp
  obtain ⟨kind, selector, action⟩ := m
  cases kind with
  | selPath =>
    obtain rfl : rest = [] := hrest
    simp [ruletreeExecuteReplaceRule, PlainMapping.fields]
  | selPrefix =>
    simp only [ruletreeExecuteReplaceRule, PlainMapping.fields]
    rw [if_neg hlen]
    rfl
  | selDir =>
    simp only [ruletreeExecuteReplaceRule, PlainMapping.fields]
    rw [if_neg hlen]
    rfl

theorem executeRule_plain (h : m.selects path = true) (host : Host) :
    executeRule host ⟨m.fields, []⟩ path = .ok { path := some (m.apply path), flags := {} } := by
  have hreplace := executeReplaceRule_plain h
  obtain ⟨kind, selector, action⟩ := m
  cases action with
  | useOrigPath => rfl
  | mapTo target => rfl
  | replaceBy target =>
    change (ruletreeExecuteReplaceRule path (some target) _ >>= _) = _
    rw [hreplace]
    rfl

def translateByRules (host : Host) (rules : List FsRule) (ctx : PathMappingContext)
    (path : CStr) : Except Fault (Option CStr) :=
  match ruletreeGetMappingRequirements rules ctx (splitPathToPathList path) with
  | none => .ok none
  | some req => do
    let t ← ruletreeTranslatePath host (some req.rule) path
    pure (if t.errormsg.isSome then none else t.hostPath)

theorem translateByRules_plain {r : PlainRule} (hpath : CleanText path)
    (hfind : rules.find? (·.selects path) = some r) (hclean : CleanText (r.apply path)) :
    translateByRules host (addListOfRules (rules.map PlainRule.luaRule)) ctx path =
      .ok (some (r.apply path)) := by
  have hsel : r.selects path = true := by simpa using find?_some hfind
  have htranslate := ruletreeTranslatePath_ok (executeRule_plain hsel host) rfl hclean.head?
    (hclean.cleaned host)
  rw [translateByRules, ruletreeGetMappingRequirements, hpath.printed, addListOfRules_plain,
    ruletreeFindRule_plain, hfind]
  dsimp only [Option.map_some]
  rw [htranslate]
  rfl

theorem translateByRules_no_rule (hpath : CleanText path)
    (hfind : rules.find? (·.selects path) = none) :
    translateByRules host (addListOfRules (rules.map PlainRule.luaRule)) ctx path = .ok none := by
  rw [translateByRules, ruletreeGetMappingRequirements, hpath.printed, addListOfRules_plain,
    ruletreeFindRule_plain, hfind]
  rfl

/-! ## Reverses -/

/-- The place to which a rule maps, `d_path`. -/
def PlainMapping.target (m : PlainMapping) : CStr :=
  match m.action with
  | .useOrigPath => m.selector
  | .mapTo target => target ++ m.selector
  | .replaceBy target => target

/-- The rule that maps the root directory to another place. -/
def PlainMapping.mapsRoot (m : PlainMapping) : Option CStr :=
  match m.kind, m.action with
  | .selPath, .mapTo target => if m.selector = ['/'] then some target else none
  | _, _ => none

def PlainMapping.reverse (m : PlainMapping) : PlainMapping where
  kind := m.kind
  selector := m.mapsRoot.getD m.target
  action :=
    match m.action with
    | .useOrigPath => .useOrigPath
    | .mapTo _ | .replaceBy _ => .replaceBy m.selector

def PlainRule.reverseRule (modename : String) (n : Nat) (r : PlainRule) : PlainRule where
  toPlainMapping := r.reverse
  name := some (revRuleName modename r.table n)

/-- The path with which the position of the reverse rule is found. -/
def PlainMapping.testText (m : PlainMapping) : CStr :=
  if m.kind = .selPrefix then m.target ++ [':'] else m.target

def PlainRule.revRule (r : PlainRule) : RevRule := { r.table with }

def PlainMapping.luaHits (m : PlainMapping) (path : CStr) : Bool :=
  match m.kind with
  | .selPath => testPath path m.selector
  | .selPrefix => testPrefix path m.selector
  | .selDir => testDir path m.selector

theorem luaSbTestPathMatch_dir (path dir : CStr) :
    (luaSbTestPathMatch path (some dir) none none).isSome = testDir path dir := by
  cases h : testDir path dir <;> simp [luaSbTestPathMatch, Option.filter, h]

theorem luaSbTestPathMatch_pre (path pre : CStr) :
    (luaSbTestPathMatch path none (some pre) none).isSome = testPrefix path pre := by
  cases h : testPrefix path pre <;> simp [luaSbTestPathMatch, Option.filter, h]

theorem luaSbTestPathMatch_path (path rulePath : CStr) :
    (luaSbTestPathMatch path none none (some rulePath)).isSome = testPath path rulePath := by
  cases h : testPath path rulePath <;> simp [luaSbTestPathMatch, Option.filter, h]

theorem revRule_hits (r : PlainRule) (path : CStr) : r.revRule.hits path = r.luaHits path := by
  obtain ⟨⟨kind, selector, action⟩, name⟩ := r
  cases kind with
  | selPath => cases action <;> exact luaSbTestPathMatch_path path selector
  | selPrefix => cases action <;> exact luaSbTestPathMatch_pre path selector
  | selDir => cases action <;> exact luaSbTestPathMatch_dir path selector

/-- What may follow a selector for the generator's matcher. -/
def PlainMapping.LuaAdmits (m : PlainMapping) (rest : CStr) : Prop :=
  match m.kind with
  | .selPath => rest = [] ∨ (rest = ['/'] ∧ 2 < (m.selector ++ rest).length)
  | .selPrefix => m.selector ≠ []
  | .selDir => m.selector ≠ [] ∧ (AtBoundary rest ∨ m.selector = ['/'])

theorem luaHits_iff :
    m.luaHits path = true ↔ ∃ rest, path = m.selector ++ rest ∧ m.LuaAdmits rest := by
  obtain ⟨kind, selector, action⟩ := m
  cases kind with
  | selPath =>
    simp only [PlainMapping.luaHits, PlainMapping.LuaAdmits, testPath, decide_eq_true_eq]
    constructor
    · rintro (rfl | ⟨hlen, rfl⟩)
      · exact ⟨[], (append_nil _).symm, .inl rfl⟩
      · exact ⟨['/'], rfl, .inr ⟨rfl, hlen⟩⟩
    · rintro ⟨rest, rfl, rfl | ⟨rfl, hlen⟩⟩
      · exact .inl (append_nil _)
      · exact .inr ⟨hlen, rfl⟩
  | selPrefix =>
    simp only [PlainMapping.luaHits, PlainMapping.LuaAdmits, testPrefix, decide_eq_true_eq]
    constructor
    · rintro ⟨hne, rest, rfl⟩
      exact ⟨rest, rfl, hne⟩
    · rintro ⟨rest, rfl, hne⟩
      exact ⟨hne, prefix_append _ _⟩
  | selDir =>
    simp only [PlainMapping.luaHits, PlainMapping.LuaAdmits, testDir, decide_eq_true_eq]
    constructor
    · rintro ⟨hne, ⟨rest, rfl⟩, hnext⟩
      rw [getElem?_behind, rootSelector_iff, or_comm, ← atBoundary_iff_head?] at hnext
      exact ⟨rest, rfl, hne, hnext⟩
    · rintro ⟨rest, rfl, hne, hnext⟩
      refine ⟨hne, prefix_append _ _, ?_⟩
      rwa [getElem?_behind, rootSelector_iff, or_comm, ← atBoundary_iff_head?]

/-! ## The generator on plain rules -/

theorem reverseInputRule_plain (modename : String) (outputRules : List RevRule) (n : Nat)
    (r : PlainRule) :
    reverseInputRule modename outputRules n r.luaRule =
      .ok (addReverseRule outputRules (r.reverseRule modename n).revRule (some r.testText)) := by
  obtain ⟨⟨kind, selector, action⟩, name⟩ := r
  cases kind with
  | selPath =>
    -- the selector of the root directory is treated in its own way
    by_cases hroot : selector = ['/']
    · subst hroot
      cases action <;> rfl
    · cases action <;>
        simp [reverseInputRule, reverseOneRule, reverseOneRuleXxxx, reversePlainRule,
          reverseAction, reverseSelector, concatenate, hroot, PlainRule.luaRule, PlainRule.table,
          PlainRule.reverseRule, PlainRule.revRule, PlainMapping.reverse, PlainMapping.mapsRoot,
          PlainMapping.target, PlainMapping.testText, Except.map, Except.bind, bind, pure,
          Except.pure]
  | selPrefix => cases action <;> rfl
  | selDir => cases action <;> rfl

theorem addReverseRule_eq_place (outputRules : List RevRule) (newRule : RevRule) (text : CStr) :
    addReverseRule outputRules newRule (some text) =
      Placing.place (·.hits text) (conflictDrops newRule) newRule outputRules := by
  have hcons : ∀ (r : RevRule) (rs : List RevRule), r.hits text = false →
      addReverseRule (r :: rs) newRule (some text) =
        r :: addReverseRule rs newRule (some text) := by
    intro r rs hmiss
    simp only [addReverseRule, testRevRulePosition, Option.bind_some, findIdx?_cons, hmiss,
      Bool.false_eq_true, if_false]
    cases hidx : rs.findIdx? (·.hits text) with
    | none => simp
    | some idx =>
      simp only [Option.map_some, getElem?_cons_succ]
      cases rs[idx]? with
      | none => rfl
      | some olderRule =>
        dsimp only
        split
        · rfl
        · rw [insertIdx_succ_cons]
  induction outputRules with
  | nil => rfl
  | cons r rs ih =>
    rcases Placing.place_cases (·.hits text) (conflictDrops newRule) r with
      hmiss | ⟨hhit, hdrops⟩ | ⟨hhit, hdrops⟩
    · rw [hcons r rs hmiss, ih]
      simp [Placing.place, hmiss]
    · simp [Placing.place, addReverseRule, testRevRulePosition, findIdx?_cons, hhit, hdrops]
    · simp [Placing.place, addReverseRule, testRevRulePosition, findIdx?_cons, hhit, hdrops]

/-- The new rule `a` is dropped because of the older rule `b`. -/
def PlainRule.drops (a b : PlainRule) : Bool := conflictDrops a.revRule b.revRule

def placeReverses (modename : String) (placed : List PlainRule) (n : Nat) :
    List PlainRule → List PlainRule
  | [] => placed
  | r :: rules =>
    placeReverses modename
      (Placing.place (·.luaHits r.testText) ((r.reverseRule modename n).drops ·)
        (r.reverseRule modename n) placed)
      (n + 1) rules

theorem reverseRules_plain (modename : String) (placed : List PlainRule) (n : Nat)
    (rules : List PlainRule) :
    reverseRules modename (placed.map PlainRule.revRule) n (rules.map PlainRule.luaRule) =
      .ok ((placeReverses modename placed n rules).map PlainRule.revRule) := by
  induction rules generalizing placed n with
  | nil => rfl
  | cons r rules ih =>
    have hplace : addReverseRule (placed.map PlainRule.revRule)
        (r.reverseRule modename n).revRule (some r.testText) =
        (Placing.place (·.luaHits r.testText) ((r.reverseRule modename n).drops ·)
          (r.reverseRule modename n) placed).map PlainRule.revRule := by
      rw [addReverseRule_eq_place, Placing.place_map]
      simp only [revRule_hits]
      rfl
    rw [map_cons, reverseRules, reverseInputRule_plain, hplace]
    exact ih _ _

def finalPlainRule (targetRoot : CStr) : PlainRule where
  kind := .selPath
  selector := targetRoot
  action := .replaceBy ['/']
  name := some "Final root dir rule"

/-- If the file can be read, its rules are the reverse rules as they were placed. -/
theorem createReverseRules_plain {modename : String} {targetRoot : CStr}
    {rules : List PlainRule} {rev : List LuaRule}
    (h : createReverseRules modename targetRoot (rules.map PlainRule.luaRule) = .ok (some rev)) :
    rev = (placeReverses modename [] 1 rules ++ [finalPlainRule targetRoot]).map
      PlainRule.luaRule := by
  have hrules := reverseRules_plain modename [] 1 rules
  rw [map_nil] at hrules
  rw [createReverseRules, hrules] at h
  have hprinted : printedRules targetRoot ((placeReverses modename [] 1 rules).map
      PlainRule.revRule) = some rev := Except.ok.inj h
  rw [printedRules, printedTables] at hprinted
  obtain ⟨-, hprinted⟩ := Option.ite_none_right_eq_some.1 hprinted
  rw [← Option.some.inj hprinted, map_append, map_append, map_map, map_map]
  rfl

end Scratchbox
