import Scratchbox.LevelSafety

/-!
# The search for a rule

`ruletree_find_rule` walks through a list of rules and calls itself for the list behind a subtree
rule. It writes two variables of the caller on the way; what the caller reads belongs to the rule
that is returned (`findRuleLoop_writes`). Without conditions, the search is the first match in
depth-first order (`rule_search_is_first_match`).
-/

namespace Scratchbox

/-! ## The search with its output pointers -/

/-- The variables at `min_path_lenp` and `rule_p`. Nothing is written to a NULL pointer. -/
structure FindOutputs where
  minPathLenp : Option Nat
  ruleP : Option (Option FsRule)

def FindOutputs.setMinPathLen (out : FindOutputs) (n : Nat) : FindOutputs :=
  { out with minPathLenp := out.minPathLenp.map fun _ => n }

def FindOutputs.setRule (out : FindOutputs) (rule : Option FsRule) : FindOutputs :=
  { out with ruleP := out.ruleP.map fun _ => rule }

section Search

variable (ctx : PathMappingContext) (fnClass : UInt32) (virtualPath : CStr)

mutual

def findRuleLoop : List FsRule → FindOutputs → Option FsRule × FindOutputs
  | [], out => (none, out)
  | rule :: rules, out =>
    match findRuleIteration rule out with
    | (some result, out) => (result, out)
    | (none, out) => findRuleLoop rules out

/-- One iteration: what is returned from inside the loop, if anything. -/
def findRuleIteration : FsRule → FindOutputs → Option (Option FsRule) × FindOutputs
  | ⟨rp, ruleListLink⟩, out =>
    if rp.conditionType.isSome then (some none, out)
    else if rp.selectorType.isNone then (none, out)
    else
      match ruletreeTestPathMatch virtualPath rp with
      | none => (none, out)
      | some minPathLen =>
        if rp.funcClass ≠ 0 ∧ rp.funcClass &&& fnClass = 0 then (none, out)
        else if rp.binaryName.isSome ∧ rp.binaryName ≠ some ctx.pmcBinaryName then (none, out)
        else
          let out := out.setMinPathLen minPathLen
          if rp.actionType = .subtree then
            if ruleListLink = [] then (none, out)
            else
              match findRuleLoop ruleListLink ((out.setMinPathLen 0).setRule none) with
              | (some rule, out) => (some (some rule), out)
              | (none, out) => (none, out)
          else (some (some ⟨rp, ruleListLink⟩), out.setRule (some ⟨rp, ruleListLink⟩))

end

/-- `ruletree_find_rule` with its output pointers. -/
def ruletreeFindRuleOut (rules : List FsRule) (out : FindOutputs) : Option FsRule × FindOutputs :=
  findRuleLoop ctx fnClass virtualPath rules ((out.setMinPathLen 0).setRule none)

end Search

/-! ## What the caller reads -/

/-- The variables as they belong to the rule that is returned. -/
def FindOutputs.answer (out : FindOutputs) (rule : FsRule) (n : Nat) : FindOutputs :=
  (out.setMinPathLen n).setRule (some rule)

/-- The same pointers are NULL: after an answer, nothing else remains of the variables. -/
def FindOutputs.SamePointers (out out' : FindOutputs) : Prop :=
  ∀ rule n, out'.answer rule n = out.answer rule n

theorem FindOutputs.SamePointers.refl (out : FindOutputs) : out.SamePointers out :=
  fun _ _ => rfl

theorem FindOutputs.SamePointers.trans {out out' out'' : FindOutputs} (h : out.SamePointers out')
    (h' : out'.SamePointers out'') : out.SamePointers out'' :=
  fun rule n => (h' rule n).trans (h rule n)

theorem FindOutputs.samePointers_setMinPathLen (out : FindOutputs) (n : Nat) :
    out.SamePointers (out.setMinPathLen n) := by
  intro rule m
  simp [answer, setMinPathLen, setRule, Option.map_map, Function.comp_def]

theorem FindOutputs.samePointers_cleared (out : FindOutputs) :
    out.SamePointers ((out.setMinPathLen 0).setRule none) := by
  intro rule m
  simp [answer, setMinPathLen, setRule, Option.map_map, Function.comp_def]

inductive StepWrites (out : FindOutputs) :
    FindStep → Option (Option FsRule) × FindOutputs → Prop
  | fail : StepWrites out .fail (some none, out)
  | next {out' : FindOutputs} (h : out.SamePointers out') : StepWrites out .next (none, out')
  | found (rule : FsRule) (n : Nat) :
      StepWrites out (.found rule n) (some (some rule), out.answer rule n)

inductive SearchWrites (out : FindOutputs) :
    Option (FsRule × Nat) → Option FsRule × FindOutputs → Prop
  | notFound {out' : FindOutputs} (h : out.SamePointers out') :
      SearchWrites out none (none, out')
  | found (rule : FsRule) (n : Nat) :
      SearchWrites out (some (rule, n)) (some rule, out.answer rule n)

theorem SearchWrites.of_samePointers {out out' : FindOutputs} {plain : Option (FsRule × Nat)}
    {result : Option FsRule × FindOutputs} (h : SearchWrites out' plain result)
    (hsame : out.SamePointers out') : SearchWrites out plain result := by
  cases h with
  | notFound h => exact .notFound (hsame.trans h)
  | found rule n =>
    rw [hsame rule n]
    exact .found rule n

section Writes

variable (ctx : PathMappingContext) (fnClass : UInt32) (path : CStr)

mutual

/-- The search with pointers is the plain one. -/
theorem findRuleLoop_writes : ∀ (rules : List FsRule) (out : FindOutputs),
    SearchWrites out (ruletreeFindRule { ctx with pmcFnClass := fnClass } path rules)
      (findRuleLoop ctx fnClass path rules out)
  | [], out => by
    rw [ruletreeFindRule, findRuleLoop]
    exact .notFound (.refl out)
  | rule :: rules, out => by
    have hstep := findRuleIteration_writes rule out
    rw [ruletreeFindRule, findRuleLoop]
    generalize ruletreeFindStep { ctx with pmcFnClass := fnClass } path rule = step at hstep ⊢
    generalize findRuleIteration ctx fnClass path rule out = result at hstep ⊢
    cases hstep with
    | fail => exact .notFound (.refl out)
    | next hsame => exact (findRuleLoop_writes rules _).of_samePointers hsame
    | found r n => exact .found r n

theorem findRuleIteration_writes : ∀ (rule : FsRule) (out : FindOutputs),
    StepWrites out (ruletreeFindStep { ctx with pmcFnClass := fnClass } path rule)
      (findRuleIteration ctx fnClass path rule out)
  | ⟨rp, link⟩, out => by
    rw [ruletreeFindStep, findRuleIteration]
    split
    · exact .fail
    cases hmatch : ruletreeTestPathMatch path rp with
    | none =>
      dsimp only
      rw [ite_self]
      exact .next (.refl out)
    | some n =>
      have hselector : ¬ rp.selectorType.isNone = true := by
        intro hnone
        rw [ruletreeTestPathMatch, Option.isNone_iff_eq_none.1 hnone] at hmatch
        cases hmatch
      rw [if_neg hselector]
      dsimp only
      split
      · exact .next (.refl out)
      split
      · exact .next (.refl out)
      by_cases hsubtree : rp.actionType = .subtree
      · rw [if_pos hsubtree, if_pos hsubtree]
        have hlen := out.samePointers_setMinPathLen n
        cases link with
        | nil =>
          rw [ruletreeFindRule, if_pos rfl]
          exact .next hlen
        | cons rule rules =>
          -- the subtree is searched with cleared variables
          have hsub := (findRuleLoop_writes (rule :: rules)
            (((out.setMinPathLen n).setMinPathLen 0).setRule none)).of_samePointers
              (hlen.trans (FindOutputs.samePointers_cleared _))
          rw [if_neg (List.cons_ne_nil _ _)]
          generalize ruletreeFindRule { ctx with pmcFnClass := fnClass } path (rule :: rules) =
            plain at hsub ⊢
          generalize findRuleLoop ctx fnClass path (rule :: rules) _ = result at hsub ⊢
          cases hsub with
          | notFound hsame => exact .next hsame
          | found r m => exact .found r m
      · rw [if_neg hsubtree, if_neg hsubtree]
        exact .found _ n

end

end Writes

/-! ## Rules in depth-first order -/

/-- A rule with the subtree rules around it, the outermost first. -/
structure Occurrence where
  enclosing : List FsRule
  rule : FsRule

mutual

/-- The rules that are not subtrees, in depth-first order. -/
def occurrences : List FsRule → List Occurrence
  | [] => []
  | rule :: rules => ruleOccurrences rule ++ occurrences rules

def ruleOccurrences : FsRule → List Occurrence
  | ⟨rp, link⟩ =>
    if rp.actionType = .subtree then
      (occurrences link).map fun o => { o with enclosing := ⟨rp, link⟩ :: o.enclosing }
    else [{ enclosing := [], rule := ⟨rp, link⟩ }]

end

mutual

/-- No rule of the list, or of a list behind a subtree rule, has a condition. -/
def unconditioned : List FsRule → Bool
  | [] => true
  | rule :: rules => ruleUnconditioned rule && unconditioned rules

def ruleUnconditioned : FsRule → Bool
  | ⟨rp, link⟩ => rp.conditionType.isNone && (rp.actionType ≠ .subtree || unconditioned link)

end

def FsRule.applies (binaryName : CStr) (fnClass : UInt32) (path : CStr) (rule : FsRule) : Bool :=
  (ruletreeTestPathMatch path rule.toFsRuleFields).isSome &&
    (rule.funcClass = 0 || rule.funcClass &&& fnClass ≠ 0) &&
    (rule.binaryName = none || rule.binaryName = some binaryName)

/-- The rule and all subtree rules around it match. -/
def Occurrence.applies (binaryName : CStr) (fnClass : UInt32) (path : CStr) (o : Occurrence) :
    Bool :=
  o.enclosing.all (FsRule.applies binaryName fnClass path) &&
    o.rule.applies binaryName fnClass path

def FindStep.rule? : FindStep → Option FsRule
  | .found rule _ => some rule
  | _ => none

section FirstMatch

variable (ctx : PathMappingContext) (path : CStr)

theorem ruletreeFindStep_applies {rp : FsRuleFields} (link : List FsRule)
    (hcond : rp.conditionType = none) :
    (ruletreeFindStep ctx path ⟨rp, link⟩).rule? =
        (if FsRule.applies ctx.pmcBinaryName ctx.pmcFnClass path ⟨rp, link⟩ then
          if rp.actionType = .subtree then (ruletreeFindRule ctx path link).map Prod.fst
          else some ⟨rp, link⟩
        else none) ∧
      ruletreeFindStep ctx path ⟨rp, link⟩ ≠ .fail := by
  rw [ruletreeFindStep, if_neg (by simp [hcond])]
  cases hmatch : ruletreeTestPathMatch path rp with
  | none =>
    rw [if_neg (by simp [FsRule.applies, hmatch])]
    exact ⟨rfl, nofun⟩
  | some n =>
    dsimp only
    by_cases hclass : rp.funcClass ≠ 0 ∧ rp.funcClass &&& ctx.pmcFnClass = 0
    · rw [if_pos hclass, if_neg (by simp [FsRule.applies, hclass.1, hclass.2])]
      exact ⟨rfl, nofun⟩
    by_cases hname : rp.binaryName.isSome ∧ rp.binaryName ≠ some ctx.pmcBinaryName
    · obtain ⟨name, heq⟩ := Option.isSome_iff_exists.1 hname.1
      have hne : name ≠ ctx.pmcBinaryName := fun h => hname.2 (by rw [heq, h])
      rw [if_neg hclass, if_pos hname, if_neg (by simp [FsRule.applies, heq, hne])]
      exact ⟨rfl, nofun⟩
    have happlies : FsRule.applies ctx.pmcBinaryName ctx.pmcFnClass path ⟨rp, link⟩ = true := by
      cases heq : rp.binaryName with
      | none => simpa [FsRule.applies, hmatch, heq, or_iff_not_imp_left] using hclass
      | some name =>
        have hsame : name = ctx.pmcBinaryName := by simpa [heq] using hname
        simpa [FsRule.applies, hmatch, heq, hsame, or_iff_not_imp_left] using hclass
    rw [if_neg hclass, if_neg hname, if_pos happlies]
    by_cases hsubtree : rp.actionType = .subtree
    · rw [if_pos hsubtree, if_pos hsubtree]
      cases ruletreeFindRule ctx path link with
      | none => exact ⟨rfl, nofun⟩
      | some found => exact ⟨rfl, nofun⟩
    · rw [if_neg hsubtree, if_neg hsubtree]
      exact ⟨rfl, nofun⟩

theorem Occurrence.applies_enclose (binaryName : CStr) (fnClass : UInt32) (rule : FsRule)
    (o : Occurrence) :
    Occurrence.applies binaryName fnClass path { o with enclosing := rule :: o.enclosing } =
      (rule.applies binaryName fnClass path && o.applies binaryName fnClass path) :=
  Bool.and_assoc ..

mutual

/-- Without conditions, the first rule in depth-first order that applies is found. -/
theorem ruletreeFindRule_occurrences : ∀ rules : List FsRule, unconditioned rules = true →
    (ruletreeFindRule ctx path rules).map Prod.fst =
      ((occurrences rules).find?
        (Occurrence.applies ctx.pmcBinaryName ctx.pmcFnClass path)).map Occurrence.rule
  | [], _ => by rw [ruletreeFindRule, occurrences]; rfl
  | rule :: rules, h => by
    rw [unconditioned, Bool.and_eq_true] at h
    have hrest := ruletreeFindRule_occurrences rules h.2
    obtain ⟨hrule, hfail⟩ := ruletreeFindStep_occurrences rule h.1
    rw [occurrences, List.find?_append, ruletreeFindRule, Option.map_or, ← hrule, ← hrest]
    cases hstep : ruletreeFindStep ctx path rule with
    | fail => exact absurd hstep hfail
    | next => rfl
    | found r n => rfl

theorem ruletreeFindStep_occurrences : ∀ rule : FsRule, ruleUnconditioned rule = true →
    (ruletreeFindStep ctx path rule).rule? =
        ((ruleOccurrences rule).find?
          (Occurrence.applies ctx.pmcBinaryName ctx.pmcFnClass path)).map Occurrence.rule ∧
      ruletreeFindStep ctx path rule ≠ .fail
  | ⟨rp, link⟩, h => by
    rw [ruleUnconditioned, Bool.and_eq_true] at h
    have hcond : rp.conditionType = none := Option.isNone_iff_eq_none.1 h.1
    refine ⟨(ruletreeFindStep_applies ctx path link hcond).1.trans ?_,
      (ruletreeFindStep_applies ctx path link hcond).2⟩
    rw [ruleOccurrences]
    by_cases hsub : rp.actionType = .subtree
    · have hlink := ruletreeFindRule_occurrences link (by simpa [hsub] using h.2)
      rw [if_pos hsub, if_pos hsub, hlink, List.find?_map, Option.map_map]
      cases happlies : FsRule.applies ctx.pmcBinaryName ctx.pmcFnClass path ⟨rp, link⟩ with
      | true => simp [Function.comp_def, Occurrence.applies_enclose, happlies]
      | false =>
        have hnone : (occurrences link).find? (fun _ => false) = none :=
          List.find?_eq_none.2 fun _ _ => Bool.false_ne_true
        simp [Function.comp_def, Occurrence.applies_enclose, happlies, hnone]
    · rw [if_neg hsub, if_neg hsub]
      cases happlies : FsRule.applies ctx.pmcBinaryName ctx.pmcFnClass path ⟨rp, link⟩ with
      | true => simp [Occurrence.applies, happlies]
      | false => simp [Occurrence.applies, happlies]

end

end FirstMatch

theorem ruletreeTestPathMatch_length {path : CStr} {rp : FsRuleFields} {n : Nat}
    (h : ruletreeTestPathMatch path rp = some n) : n = (rp.selector.getD []).length := by
  unfold ruletreeTestPathMatch at h
  cases hselector : rp.selector with
  | none =>
    rw [hselector] at h
    cases htype : rp.selectorType with
    | none => simp [htype] at h
    | some kind => cases kind <;> simp [htype] at h
  | some selector =>
    rw [hselector] at h
    cases htype : rp.selectorType with
    | none => simp [htype] at h
    | some kind =>
      cases kind with
      | selPath => simp_all
      | selPrefix => simp_all
      | selDir => simp_all

/-- The search returns the first rule in depth-first order such that it and all subtree rules
around it match, and gives the caller that rule and the length of its selector. -/
theorem rule_search_is_first_match (ctx : PathMappingContext) (fnClass : UInt32) (path : CStr)
    {rules : List FsRule} (h : unconditioned rules = true) (out : FindOutputs) :
    (ruletreeFindRuleOut ctx fnClass path rules out).1 =
        ((occurrences rules).find?
          (Occurrence.applies ctx.pmcBinaryName fnClass path)).map Occurrence.rule ∧
      ∀ rule, (ruletreeFindRuleOut ctx fnClass path rules out).1 = some rule →
        (ruletreeFindRuleOut ctx fnClass path rules out).2 =
          { minPathLenp := out.minPathLenp.map fun _ => (rule.selector.getD []).length
            ruleP := out.ruleP.map fun _ => some rule } := by
  have hwrites := (findRuleLoop_writes ctx fnClass path rules
    ((out.setMinPathLen 0).setRule none)).of_samePointers out.samePointers_cleared
  have hfirst := ruletreeFindRule_occurrences { ctx with pmcFnClass := fnClass } path rules h
  rw [← hfirst, ruletreeFindRuleOut]
  cases hfind : ruletreeFindRule { ctx with pmcFnClass := fnClass } path rules with
  | none =>
    rw [hfind] at hwrites
    generalize findRuleLoop ctx fnClass path rules _ = result at hwrites ⊢
    cases hwrites with
    | notFound hsame => exact ⟨rfl, nofun⟩
  | some found =>
    obtain ⟨rule, n⟩ := found
    have hlen := ruletreeTestPathMatch_length (ruletreeFindRule_match hfind)
    rw [hfind] at hwrites
    generalize findRuleLoop ctx fnClass path rules _ = result at hwrites ⊢
    cases hwrites with
    | found =>
      refine ⟨rfl, ?_⟩
      rintro rule' heq
      cases heq
      rw [hlen]
      rfl

/-- A subtree for `/a` with a rule for `/a/b`, and a rule for all paths. -/
def subtreeExampleRules : List FsRule :=
  [{ ruleOffs := 1, selectorType := some .selDir, selector := some "/a".toList
     actionType := .subtree
     ruleListLink :=
      [{ ruleOffs := 2, selectorType := some .selPath, selector := some "/a/b".toList
         actionType := .useOrigPath }] },
    { ruleOffs := 3, selectorType := some .selPrefix, selector := some "/".toList
      actionType := .useOrigPath }]

/-- The subtree `/a` has a rule for `/a/b` only; the search for `/a/c` goes on behind it. -/
theorem rule_search_leaves_subtree :
    (ruletreeFindRuleOut { pmcBinaryName := "sh".toList, pmcFnClass := 0 } 1 "/a/c".toList
        subtreeExampleRules ⟨some 7, some none⟩).1 =
      ((occurrences subtreeExampleRules).find?
        (Occurrence.applies "sh".toList 1 "/a/c".toList)).map Occurrence.rule :=
  (rule_search_is_first_match { pmcBinaryName := "sh".toList, pmcFnClass := 0 } 1 "/a/c".toList
    (by decide) ⟨some 7, some none⟩).1

end Scratchbox
