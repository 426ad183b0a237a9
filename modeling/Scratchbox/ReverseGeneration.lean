import Mathlib.Data.List.InsertIdx
import Scratchbox.PlainRules

/-!
# The generation of reverse rules as a whole

What the generator adds to its output list does not depend on this list, so a generation is a list
of reversals that are placed in order (`reverseRules_run`), up to the Lua error that may stop it.

The script is meant to write no rules if one of them is flagged with an error, but the variable
`allow_reversing` is tested before `print_rules` sees the flags (`reverse_file_fail_safe_iff`).
Texts are written without escapes: only those without quotes, backslashes and line breaks are read
back.
-/

namespace Scratchbox

/-! ## Reversals -/

/-- A reverse rule that has been made, and the text with which its position is found. -/
structure Reversal where
  newRule : RevRule
  testPath : Option CStr

/-- The reversals that are made, and the error that stops the script after them. -/
structure Generation where
  made : List Reversal
  error : Option LuaError := none

def Generation.andThen (g h : Generation) : Generation :=
  match g.error with
  | some e => { made := g.made, error := some e }
  | none => { made := g.made ++ h.made, error := h.error }

def Generation.ofReversal : Except LuaError Reversal → Generation
  | .ok r => { made := [r] }
  | .error e => { made := [], error := some e }

def placeReversals (outputRules : List RevRule) (made : List Reversal) : List RevRule :=
  made.foldl (fun out r => addReverseRule out r.newRule r.testPath) outputRules

def Generation.run (g : Generation) (outputRules : List RevRule) : Except LuaError (List RevRule) :=
  match g.error with
  | some e => .error e
  | none => .ok (placeReversals outputRules g.made)

theorem Generation.run_andThen (g h : Generation) (outputRules : List RevRule) :
    (g.andThen h).run outputRules = g.run outputRules >>= h.run := by
  obtain ⟨made, error⟩ := g
  cases error with
  | some e => rfl
  | none =>
    obtain ⟨made', error'⟩ := h
    cases error' with
    | some e => rfl
    | none => exact congrArg Except.ok List.foldl_append

def plainReversal (modename : String) (n : Nat) (forwardPath : Option CStr) (rule : RuleTable) :
    Except LuaError Reversal := do
  let name := revRuleName modename rule n
  let error :=
    if forwardPath.isNone then
      some ("--ERROR: Rule '" ++ name ++ "' does not contain 'prefix' 'dir' or 'path'")
    else none
  match ← reverseAction rule forwardPath { name := some name, error } with
  | (none, newRule) => pure { newRule, testPath := none }
  | (some dPath, newRule) =>
    let (testPath, newRule) := reverseSelector rule dPath newRule
    pure { newRule, testPath }

theorem reversePlainRule_run (modename : String) (outputRules : List RevRule) (n : Nat)
    (forwardPath : Option CStr) (rule : RuleTable) :
    reversePlainRule modename outputRules n forwardPath rule =
      (Generation.ofReversal (plainReversal modename n forwardPath rule)).run outputRules := by
  unfold reversePlainRule plainReversal
  dsimp only
  generalize reverseAction rule forwardPath _ = action
  cases action with
  | error e => rfl
  | ok result =>
    obtain ⟨dPath, newRule⟩ := result
    cases dPath with
    | none => rfl
    | some dPath => rfl

mutual

/-- The reversals of `reverse_one_rule_xxxx`. -/
def ruleReversals (modename : String) (n : Nat) (forwardPath : Option CStr)
    (view : RuleTable → RuleTable) : LuaRule → Generation
  | ⟨table, actions, _, thenActions⟩ =>
    let rule := view table
    if rule.useOrigPath || rule.forceOrigPath || rule.forceOrigPathUnlessChroot then
      .ofReversal (plainReversal modename n forwardPath rule)
    else
      match actions, thenActions with
      | some as, _ =>
        actionReversals modename (revRuleName modename rule n) rule forwardPath 1 as
      | none, some as =>
        actionReversals modename (revRuleName modename rule n) rule forwardPath 1 as
      | none, none => .ofReversal (plainReversal modename n forwardPath rule)

/-- The reversals of `reverse_conditional_actions`. -/
def actionReversals (modename : String) (revName : String) (rule : RuleTable)
    (forwardPath : Option CStr) (a : Nat) : List LuaRule → Generation
  | [] => { made := [] }
  | action :: actions =>
    (ruleReversals modename a forwardPath (rule.asAction revName a) action).andThen
      (actionReversals modename revName rule forwardPath (a + 1) actions)

end

mutual

/-- The reversals of `reverse_rules`. -/
def reversals (modename : String) (n : Nat) : List LuaRule → Generation
  | [] => { made := [] }
  | rule :: inputRules =>
    (inputReversals modename n rule).andThen (reversals modename (n + 1) inputRules)

def inputReversals (modename : String) (n : Nat) : LuaRule → Generation
  | ⟨table, actions, rules, thenActions⟩ =>
    if table.virtualPath then { made := [] }
    else
      match rules with
      | some rs => reversals modename 1 rs
      | none =>
        if table.unionDir.isSome then { made := [] }
        else ruleReversals modename n ((table.selPrefix.or table.selPath).or table.selDir) id
          ⟨table, actions, none, thenActions⟩

end

section Run

variable (modename : String)

mutual

theorem reverseOneRuleXxxx_run (outputRules : List RevRule) (n : Nat) (forwardPath : Option CStr)
    (view : RuleTable → RuleTable) : ∀ rule : LuaRule,
    reverseOneRuleXxxx modename outputRules n forwardPath view rule =
      (ruleReversals modename n forwardPath view rule).run outputRules
  | ⟨table, actions, rules, thenActions⟩ => by
    rw [reverseOneRuleXxxx.eq_def, ruleReversals.eq_def]
    dsimp only
    split
    · exact reversePlainRule_run ..
    · cases actions with
      | some as => exact reverseConditionalActions_run ..
      | none =>
        cases thenActions with
        | some as => exact reverseConditionalActions_run ..
        | none => exact reversePlainRule_run ..

theorem reverseConditionalActions_run (outputRules : List RevRule) (revName : String)
    (rule : RuleTable) (forwardPath : Option CStr) (a : Nat) : ∀ actions : List LuaRule,
    reverseConditionalActions modename outputRules revName rule forwardPath a actions =
      (actionReversals modename revName rule forwardPath a actions).run outputRules
  | [] => by
    rw [reverseConditionalActions, actionReversals]
    rfl
  | action :: actions => by
    rw [reverseConditionalActions, actionReversals, Generation.run_andThen,
      reverseOneRuleXxxx_run outputRules a forwardPath (rule.asAction revName a) action]
    refine bind_congr fun out => ?_
    exact reverseConditionalActions_run out revName rule forwardPath (a + 1) actions

end

mutual

/-- A generation places its reversals one after the other. -/
theorem reverseRules_run (outputRules : List RevRule) (n : Nat) : ∀ rules : List LuaRule,
    reverseRules modename outputRules n rules = (reversals modename n rules).run outputRules
  | [] => by
    rw [reverseRules, reversals]
    rfl
  | rule :: rules => by
    rw [reverseRules, reversals, Generation.run_andThen,
      reverseInputRule_run outputRules n rule]
    exact bind_congr fun out => reverseRules_run out (n + 1) rules

theorem reverseInputRule_run (outputRules : List RevRule) (n : Nat) : ∀ rule : LuaRule,
    reverseInputRule modename outputRules n rule =
      (inputReversals modename n rule).run outputRules
  | ⟨table, actions, rules, thenActions⟩ => by
    rw [reverseInputRule.eq_def, inputReversals.eq_def]
    dsimp only
    split
    · rfl
    · cases rules with
      | some rs => exact reverseRules_run outputRules 1 rs
      | none =>
        dsimp only
        split
        · rfl
        · exact reverseOneRuleXxxx_run ..

end

end Run

/-! ## The origin of reversals -/

theorem Generation.mem_andThen {g h : Generation} {r : Reversal} (hr : r ∈ (g.andThen h).made) :
    r ∈ g.made ∨ r ∈ h.made := by
  obtain ⟨made, error⟩ := g
  cases error with
  | some e => exact .inl hr
  | none => exact List.mem_append.1 hr

theorem Generation.mem_ofReversal {x : Except LuaError Reversal} {r : Reversal}
    (hr : r ∈ (Generation.ofReversal x).made) : x = .ok r := by
  cases x with
  | error e => exact absurd hr List.not_mem_nil
  | ok r' => rw [List.mem_singleton.1 hr]

/-- What has to be shown of all reversals that are made. A condition on tables holds for the
parts of a rule; it gives a condition on what is reversed, the table of a rule or an action in the
view of its rule, together with the forward path. -/
structure ReversalRule (modename : String) (P : Reversal → Prop) (Table : RuleTable → Prop)
    (Seen : RuleTable → Option CStr → Prop) (Rule : LuaRule → Prop)
    (Rules : List LuaRule → Prop) : Prop where
  cons {rule : LuaRule} {rules : List LuaRule} : Rules (rule :: rules) → Rule rule ∧ Rules rules
  parts {rule : LuaRule} : Rule rule → Table rule.toRuleTable ∧
    (∀ as, rule.actions = some as → Rules as) ∧ (∀ rs, rule.rules = some rs → Rules rs) ∧
    ∀ as, rule.thenActions = some as → Rules as
  start {table : RuleTable} : Table table →
    Seen table ((table.selPrefix.or table.selPath).or table.selDir)
  action {rule action : RuleTable} {forwardPath : Option CStr} (n a : Nat) :
    Seen rule forwardPath → Table action →
    Seen (rule.asAction (revRuleName modename rule n) a action) forwardPath
  made {rule : RuleTable} {forwardPath : Option CStr} {n : Nat} {r : Reversal} :
    Seen rule forwardPath → plainReversal modename n forwardPath rule = .ok r → P r

section Origin

variable {modename : String} {P : Reversal → Prop} {Table : RuleTable → Prop}
  {Seen : RuleTable → Option CStr → Prop} {Rule : LuaRule → Prop} {Rules : List LuaRule → Prop}
  (h : ReversalRule modename P Table Seen Rule Rules)

include h

mutual

theorem forall_ruleReversals (n : Nat) {forwardPath : Option CStr}
    {view : RuleTable → RuleTable} : ∀ rule : LuaRule, Rule rule →
    Seen (view rule.toRuleTable) forwardPath →
    ∀ r ∈ (ruleReversals modename n forwardPath view rule).made, P r
  | ⟨table, actions, rules, thenActions⟩, hrule, hseen => by
    obtain ⟨-, hactions, -, hthen⟩ := h.parts hrule
    have hplain := fun r hr => h.made (n := n) (r := r) hseen (Generation.mem_ofReversal hr)
    rw [ruleReversals.eq_def]
    dsimp only
    split
    · exact hplain
    · cases actions with
      | some as => exact forall_actionReversals n hseen 1 as (hactions as rfl)
      | none =>
        cases thenActions with
        | some as => exact forall_actionReversals n hseen 1 as (hthen as rfl)
        | none => exact hplain

theorem forall_actionReversals (n : Nat) {rule : RuleTable} {forwardPath : Option CStr}
    (hseen : Seen rule forwardPath) (a : Nat) : ∀ actions : List LuaRule, Rules actions →
    ∀ r ∈ (actionReversals modename (revRuleName modename rule n) rule forwardPath a
      actions).made, P r
  | [], _ => by
    rw [actionReversals]
    exact fun r hr => absurd hr List.not_mem_nil
  | action :: actions, hactions => by
    intro r hr
    rw [actionReversals] at hr
    obtain ⟨haction, hactions⟩ := h.cons hactions
    rcases Generation.mem_andThen hr with hr | hr
    · have hseen' := h.action n a hseen (h.parts haction).1
      exact forall_ruleReversals a action haction hseen' r hr
    · exact forall_actionReversals n hseen (a + 1) actions hactions r hr

end

mutual

theorem forall_reversals (n : Nat) : ∀ rules : List LuaRule, Rules rules →
    ∀ r ∈ (reversals modename n rules).made, P r
  | [], _ => by
    rw [reversals]
    exact fun r hr => absurd hr List.not_mem_nil
  | rule :: rules, hrules => by
    intro r hr
    rw [reversals] at hr
    rcases Generation.mem_andThen hr with hr | hr
    · exact forall_inputReversals n rule (h.cons hrules).1 r hr
    · exact forall_reversals (n + 1) rules (h.cons hrules).2 r hr

theorem forall_inputReversals (n : Nat) : ∀ rule : LuaRule, Rule rule →
    ∀ r ∈ (inputReversals modename n rule).made, P r
  | ⟨table, actions, rules, thenActions⟩, hrule => by
    intro r hr
    obtain ⟨htable, -, hrules, -⟩ := h.parts hrule
    rw [inputReversals.eq_def] at hr
    dsimp only at hr
    split at hr
    · exact absurd hr List.not_mem_nil
    · cases rules with
      | some rs => exact forall_reversals 1 rs (hrules rs rfl) r hr
      | none =>
        dsimp only at hr
        split at hr
        · exact absurd hr List.not_mem_nil
        · exact forall_ruleReversals h n _ hrule (h.start htable) r hr

end

end Origin

/-! ## Texts that can be written -/

def PlainOption (text : Option CStr) : Prop := ∀ t ∈ text, PlainText t

/-- No text that is written for a rule has a quote, a backslash or a line break. -/
structure RuleTable.PlainWritten (rule : RuleTable) : Prop where
  name : PlainOption (rule.name.map String.toList)
  selPrefix : PlainOption rule.selPrefix
  selPath : PlainOption rule.selPath
  selDir : PlainOption rule.selDir
  replaceBy : PlainOption rule.replaceBy

/-- The same for all texts that the generator uses. -/
structure RuleTable.PlainTexts (rule : RuleTable) : Prop extends rule.PlainWritten where
  mapTo : PlainOption rule.mapTo
  ifExistsThenMapTo : PlainOption rule.ifExistsThenMapTo
  ifExistsThenReplaceBy : PlainOption rule.ifExistsThenReplaceBy
  ifExistsIn : PlainOption rule.ifExistsIn

mutual

def LuaRule.PlainTexts : LuaRule → Prop
  | ⟨table, actions, rules, thenActions⟩ =>
    table.PlainTexts ∧ (match actions with | some as => AllPlainTexts as | none => True) ∧
      (match rules with | some rs => AllPlainTexts rs | none => True) ∧
      match thenActions with | some as => AllPlainTexts as | none => True

def AllPlainTexts : List LuaRule → Prop
  | [] => True
  | rule :: rules => rule.PlainTexts ∧ AllPlainTexts rules

end

theorem PlainText.append {text more : CStr} (h : PlainText text) (hmore : PlainText more) :
    PlainText (text ++ more) :=
  fun c hc => (List.mem_append.1 hc).elim (h c) (hmore c)

theorem plainOption_none : PlainOption none := fun t ht => by cases ht

theorem plainOption_some {text : CStr} : PlainOption (some text) ↔ PlainText text :=
  ⟨fun h => h text rfl, fun h t ht => by cases ht; exact h⟩

theorem plainText_toString (n : Nat) : PlainText (toString n).toList := by
  intro c hc
  have hdigit : c.isDigit = true :=
    Nat.isDigit_of_mem_toDigits (by decide) (by decide) (Nat.toList_repr ▸ hc)
  refine ⟨?_, ?_, ?_, ?_⟩ <;> rintro rfl <;> exact absurd hdigit (by decide)

section Plain

variable {modename : String} {rule : RuleTable} {newRule newRule' : RevRule} {n : Nat}
  {forwardPath dPath : Option CStr}

theorem plainText_revRuleName (hmode : PlainText modename.toList) (h : rule.PlainTexts) (n : Nat) :
    PlainText (revRuleName modename rule n).toList := by
  obtain ⟨⟨hname, hpre, hpath, hdir, -⟩, -⟩ := h
  unfold revRuleName
  simp only [String.toList_append]
  refine ((((PlainText.append (by decide) hmode).append (by decide)).append ?_).append
    (by decide)).append (plainText_toString n) |>.append (by decide)
  cases name : rule.name with
  | some text => exact hname _ (by rw [name]; rfl)
  | none =>
    rw [Option.getD_none]
    split
    · simp only [String.toList_append, String.toList_ofList]
      exact .append (by decide) (hpre _ ‹_›)
    · simp only [String.toList_append, String.toList_ofList]
      exact .append (by decide) (hdir _ ‹_›)
    · simp only [String.toList_append, String.toList_ofList]
      exact .append (by decide) (hpath _ ‹_›)
    · decide

theorem reverseAction_plain (h : reverseAction rule forwardPath newRule = .ok (dPath, newRule'))
    (hrule : rule.PlainTexts) (hforward : PlainOption forwardPath)
    (hnew : newRule.PlainWritten) : PlainOption dPath ∧ newRule'.PlainWritten := by
  obtain ⟨hname, hpre, hpath, hdir, hreplace⟩ := hnew
  have hreplaced : { newRule with replaceBy := forwardPath }.PlainWritten :=
    ⟨hname, hpre, hpath, hdir, hforward⟩
  have hmapped {target : CStr} (htarget : PlainText target)
      (h : (concatenate target forwardPath).map (fun dPath =>
        (some dPath, { newRule with replaceBy := forwardPath })) = .ok (dPath, newRule')) :
      PlainOption dPath ∧ newRule'.PlainWritten := by
    cases hfwd : forwardPath with
    | none =>
      rw [hfwd] at h
      cases h
    | some path =>
      rw [hfwd] at h hreplaced hforward
      cases h
      exact ⟨plainOption_some.2 (htarget.append (plainOption_some.1 hforward)), hreplaced⟩
  unfold reverseAction at h
  dsimp only at h
  split at h
  · cases h
    exact ⟨hforward, hname, hpre, hpath, hdir, hreplace⟩
  split at h
  · cases h
    exact ⟨hforward, hname, hpre, hpath, hdir, hreplace⟩
  split at h
  · cases h
    exact ⟨hforward, hname, hpre, hpath, hdir, hreplace⟩
  split at h
  · exact hmapped (hrule.mapTo _ ‹_›) h
  split at h
  · cases h
    exact ⟨plainOption_some.2 (hrule.replaceBy _ ‹_›), hreplaced⟩
  split at h
  · cases h
    exact ⟨plainOption_none, hname, hpre, hpath, hdir, hreplace⟩
  split at h
  · exact hmapped (hrule.ifExistsThenMapTo _ ‹_›) h
  split at h
  · cases h
    exact ⟨plainOption_some.2 (hrule.ifExistsThenReplaceBy _ ‹_›), hreplaced⟩
  split at h
  · cases h
    exact ⟨plainOption_some.2 (hrule.ifExistsIn _ ‹_›), hreplaced⟩
  split at h
  · cases h
    exact ⟨plainOption_none, hname, hpre, hpath, hdir, hreplace⟩
  · cases h
    exact ⟨plainOption_none, hname, hpre, hpath, hdir, hreplace⟩

theorem reverseSelector_plain (hrule : rule.PlainTexts) {place : CStr} (hplace : PlainText place)
    (hnew : newRule.PlainWritten) : (reverseSelector rule place newRule).2.PlainWritten := by
  obtain ⟨hname, hpre, hpath, hdir, hreplace⟩ := hnew
  have hplace' := plainOption_some.2 hplace
  unfold reverseSelector
  split
  · exact ⟨hname, hplace', hpath, hdir, hreplace⟩
  split
  · exact ⟨hname, hpre, hpath, hplace', hreplace⟩
  split
  · split
    · refine ⟨hname, hpre, plainOption_some.2 ?_, hdir, hreplace⟩
      cases htarget : rule.mapTo with
      | none => exact hplace
      | some target => exact hrule.mapTo _ htarget
    · exact ⟨hname, hpre, hplace', hdir, hreplace⟩
  · exact ⟨hname, hpre, hpath, hdir, hreplace⟩

def Generation.Plain (g : Generation) : Prop := ∀ r ∈ g.made, r.newRule.PlainWritten

theorem plainReversal_plain (hmode : PlainText modename.toList) (hrule : rule.PlainTexts)
    (hforward : PlainOption forwardPath) {r : Reversal}
    (h : plainReversal modename n forwardPath rule = .ok r) : r.newRule.PlainWritten := by
  unfold plainReversal at h
  dsimp only at h
  generalize hnew : ({ name := some (revRuleName modename rule n), error := _ } : RevRule) =
    newRule at h
  have hplain : newRule.PlainWritten := by
    subst hnew
    exact ⟨plainOption_some.2 (plainText_revRuleName hmode hrule n), plainOption_none,
      plainOption_none, plainOption_none, plainOption_none⟩
  obtain ⟨⟨dPath, newRule'⟩, haction, h⟩ := Except.bind_eq_ok_iff.1 h
  obtain ⟨hplace, hplain'⟩ := reverseAction_plain haction hrule hforward hplain
  cases dPath with
  | none =>
    cases h
    exact hplain'
  | some place =>
    cases h
    exact reverseSelector_plain hrule (plainOption_some.1 hplace) hplain'

theorem asAction_plain {action : RuleTable} {revName : String} (hname : PlainText revName.toList)
    (hrule : rule.PlainTexts) (a : Nat) (haction : action.PlainTexts) :
    (rule.asAction revName a action).PlainTexts := by
  refine ⟨⟨plainOption_some.2 ?_, hrule.selPrefix, hrule.selPath, hrule.selDir,
    haction.replaceBy⟩, haction.mapTo, haction.ifExistsThenMapTo, haction.ifExistsThenReplaceBy,
    haction.ifExistsIn⟩
  simp only [String.toList_append]
  exact (hname.append (by decide)).append (plainText_toString a)

theorem plainOption_forwardPath (h : rule.PlainTexts) :
    PlainOption ((rule.selPrefix.or rule.selPath).or rule.selDir) := by
  intro t ht
  rcases Option.or_eq_some_iff.1 ht with hor | ⟨-, hdir⟩
  · rcases Option.or_eq_some_iff.1 hor with hpre | ⟨-, hpath⟩
    · exact h.selPrefix t hpre
    · exact h.selPath t hpath
  · exact h.selDir t hdir

theorem reversalRule_plain (hmode : PlainText modename.toList) :
    ReversalRule modename (fun r => r.newRule.PlainWritten) RuleTable.PlainTexts
      (fun rule forwardPath => rule.PlainTexts ∧ PlainOption forwardPath) LuaRule.PlainTexts
      AllPlainTexts where
  cons h := by rwa [AllPlainTexts] at h
  parts {rule} h := by
    obtain ⟨table, actions, rules, thenActions⟩ := rule
    rw [LuaRule.PlainTexts.eq_def] at h
    refine ⟨h.1, ?_, ?_, ?_⟩
    · rintro as rfl
      exact h.2.1
    · rintro rs rfl
      exact h.2.2.1
    · rintro as rfl
      exact h.2.2.2
  start h := ⟨h, plainOption_forwardPath h⟩
  action n a h haction :=
    ⟨asAction_plain (plainText_revRuleName hmode h.1 n) h.1 a haction, h.2⟩
  made h := plainReversal_plain hmode h.1 h.2

/-- What the generator makes of such rules can be written. -/
theorem reversals_plain (hmode : PlainText modename.toList) (n : Nat) (rules : List LuaRule)
    (h : AllPlainTexts rules) : (reversals modename n rules).Plain :=
  forall_reversals (reversalRule_plain hmode) n rules h

end Plain

theorem mem_addReverseRule {outputRules : List RevRule} {newRule rule : RevRule}
    {testPath : Option CStr} (h : rule ∈ addReverseRule outputRules newRule testPath) :
    rule ∈ outputRules ∨ rule = newRule := by
  unfold addReverseRule at h
  split at h
  · exact (List.mem_append.1 h).imp_right List.mem_singleton.1
  · split at h
    · exact (List.mem_append.1 h).imp_right List.mem_singleton.1
    · split at h
      · exact .inl h
      · exact (List.eq_or_mem_of_mem_insertIdx h).symm

theorem mem_placeReversals {outputRules : List RevRule} {made : List Reversal} {rule : RevRule}
    (h : rule ∈ placeReversals outputRules made) :
    rule ∈ outputRules ∨ ∃ r ∈ made, rule = r.newRule := by
  induction made generalizing outputRules with
  | nil => exact .inl h
  | cons r made ih =>
    rcases ih h with hout | ⟨r', hr', heq⟩
    · exact (mem_addReverseRule hout).imp_right fun heq => ⟨r, List.mem_cons_self, heq⟩
    · exact .inr ⟨r', List.mem_cons_of_mem r hr', heq⟩

theorem RuleTable.PlainWritten.readsBack {rule : RuleTable} (h : rule.PlainWritten) :
    rule.written.all Scratchbox.readsBack = true := by
  obtain ⟨hname, hpre, hpath, hdir, hreplace⟩ := h
  refine List.all_eq_true.2 fun text htext => PlainText.readsBack ?_
  obtain ⟨option, hoption, htext⟩ := List.mem_filterMap.1 htext
  simp only [List.mem_cons, List.not_mem_nil, or_false] at hoption
  rcases hoption with rfl | rfl | rfl | rfl | rfl
  · exact hname text htext
  · exact hpre text htext
  · exact hpath text htext
  · exact hdir text htext
  · exact hreplace text htext

/-- A file with such rules is read back. -/
theorem printedRules_plain {targetRoot : CStr} (hroot : PlainText targetRoot) {g : Generation}
    (h : g.Plain) :
    printedRules targetRoot (placeReversals [] g.made) =
      some ((printedTables targetRoot (placeReversals [] g.made)).map fun table =>
        { table with }) := by
  refine if_pos (List.all_eq_true.2 fun table htable => ?_)
  rcases List.mem_append.1 htable with htable | htable
  · obtain ⟨rule, hrule, rfl⟩ := List.mem_map.1 htable
    obtain ⟨r, hr, rfl⟩ := (mem_placeReversals hrule).resolve_left List.not_mem_nil
    exact (h r hr).readsBack
  · obtain rfl := List.mem_singleton.1 htable
    refine RuleTable.PlainWritten.readsBack ⟨?_, ?_, ?_, ?_, ?_⟩
    · exact plainOption_some.2 (by decide)
    · exact plainOption_none
    · exact plainOption_some.2 hroot
    · exact plainOption_none
    · exact plainOption_some.2 (by decide)

/-! ## The file -/

/-- The variables `allow_reversing` and `reversing_disabled_message`. -/
structure GeneratorState where
  allowReversing : Bool := true
  reversingDisabledMessage : String := ""

/-- `print_rules`, as far as it changes the variables. -/
def printRules (st : GeneratorState) : List RevRule → GeneratorState
  | [] => st
  | rule :: rules =>
    match rule.error with
    | some message =>
      printRules { allowReversing := false, reversingDisabledMessage := message } rules
    | none => printRules st rules

/-- The file of one mode: a list of rules, which are not defined if it cannot be read, or
nil and a message in a comment. -/
inductive RevRuleFile where
  | rules (reverseFsMappingRules : Option (List LuaRule))
  | failed (message : String)

/-- The body of the loop over the modes. The variables are set anew for each mode. -/
def writeReverseRules (_st : GeneratorState) (modename : String) (targetRoot : CStr)
    (fsMappingRules : List LuaRule) : Except LuaError (RevRuleFile × GeneratorState) := do
  let st : GeneratorState := { allowReversing := true, reversingDisabledMessage := "" }
  let revRules ← reverseRules modename [] 1 fsMappingRules
  if st.allowReversing then
    pure (.rules (printedRules targetRoot revRules), printRules st revRules)
  else pure (.failed st.reversingDisabledMessage, st)

/-- The rules that are defined by what has been written. If the script is stopped, only comments
have been. -/
def definedRules : Except LuaError (RevRuleFile × GeneratorState) → Option (List LuaRule)
  | .ok (.rules rules, _) => rules
  | .ok (.failed _, _) => none
  | .error _ => none

/-! ## Flagged rules -/

/-- A rule is flagged with an error: a reverse rule that has been made, or the one at which the
script is stopped. -/
def Generation.Flagged (g : Generation) : Prop :=
  g.error ≠ none ∨ ∃ r ∈ g.made, r.newRule.error ≠ none

/-- The file of a mode defines no rules if one is flagged, and otherwise all rules that were
generated. -/
structure FailSafe (st : GeneratorState) (modename : String) (targetRoot : CStr)
    (rules : List LuaRule) : Prop where
  flagged : (reversals modename 1 rules).Flagged →
    definedRules (writeReverseRules st modename targetRoot rules) = none
  complete : ¬ (reversals modename 1 rules).Flagged →
    ∃ revRules, reverseRules modename [] 1 rules = .ok revRules ∧
      definedRules (writeReverseRules st modename targetRoot rules) =
        some ((printedTables targetRoot revRules).map fun table => { table with })

theorem definedRules_run (st : GeneratorState) (modename : String) (targetRoot : CStr)
    (rules : List LuaRule) :
    definedRules (writeReverseRules st modename targetRoot rules) =
      ((reversals modename 1 rules).run []).toOption.bind (printedRules targetRoot) := by
  rw [writeReverseRules, reverseRules_run]
  cases (reversals modename 1 rules).run [] with
  | error e => rfl
  | ok revRules => rfl

/-- A file whose texts have no quotes, backslashes or line breaks is fail-safe exactly if no
reverse rule that is made is flagged, or the script is stopped by an error. -/
theorem reverse_file_fail_safe_iff (st : GeneratorState) {modename : String} {targetRoot : CStr}
    {rules : List LuaRule} (hmode : PlainText modename.toList) (hroot : PlainText targetRoot)
    (hrules : AllPlainTexts rules) :
    FailSafe st modename targetRoot rules ↔
      (reversals modename 1 rules).error ≠ none ∨
        ∀ r ∈ (reversals modename 1 rules).made, r.newRule.error = none := by
  have hdefined := definedRules_run st modename targetRoot rules
  have hrun := reverseRules_run modename [] 1 rules
  have hprinted := printedRules_plain hroot (reversals_plain hmode 1 rules hrules)
  constructor
  · intro hsafe
    refine or_iff_not_imp_left.2 fun herror r hr => by_contra fun hflag => ?_
    have hnone := hsafe.flagged (.inr ⟨r, hr, hflag⟩)
    rw [hdefined, Generation.run, not_not.1 herror] at hnone
    exact absurd (hprinted.symm.trans hnone) (Option.some_ne_none _)
  · intro hcond
    constructor
    · intro hflagged
      rw [hdefined, Generation.run]
      cases herror : (reversals modename 1 rules).error with
      | some e => rfl
      | none =>
        rcases hflagged with hstop | ⟨r, hr, hflag⟩
        · exact absurd herror hstop
        · exact absurd (hcond.resolve_left (not_not.2 herror) r hr) hflag
    · intro hnot
      have herror : (reversals modename 1 rules).error = none :=
        not_not.1 fun h => hnot (.inl h)
      refine ⟨placeReversals [] (reversals modename 1 rules).made, ?_, ?_⟩
      · rw [hrun, Generation.run, herror]
      · rw [hdefined, Generation.run, herror]
        exact hprinted

/-- A rule without a name that maps a directory. -/
def directoryRule : LuaRule where
  selDir := some "/d".toList
  mapTo := some "/t".toList

/-- Nothing is flagged, and the file has the reverse of the rule. -/
theorem directory_rule_is_written :
    FailSafe {} "simple" "/t".toList [directoryRule] := by
  have hplain : directoryRule.PlainTexts := by
    rw [LuaRule.PlainTexts.eq_def]
    exact ⟨⟨⟨plainOption_none, plainOption_none, plainOption_none, plainOption_some.2 (by decide),
      plainOption_none⟩, plainOption_some.2 (by decide), plainOption_none, plainOption_none,
      plainOption_none⟩, trivial, trivial, trivial⟩
  refine (reverse_file_fail_safe_iff {} (by decide) (by decide) ?_).2 (.inr fun r hr => ?_)
  · rw [AllPlainTexts, AllPlainTexts]
    exact ⟨hplain, trivial⟩
  · cases List.mem_singleton.1 hr
    rfl

/-- A rule with a `custom_map_funct`. -/
def customRule : LuaRule where
  selPrefix := some "/p".toList
  customMapFunct := some .other

/-- Its reverse rule is flagged, and the file defines rules. -/
theorem flagged_rules_are_written :
    (reversals "simple" 1 [customRule]).Flagged ∧
      (definedRules (writeReverseRules {} "simple" "/t".toList [customRule])).isSome = true :=
  ⟨.inr ⟨_, List.mem_singleton.2 rfl, nofun⟩, rfl⟩

end Scratchbox
