import Scratchbox.ResolutionFacts

/-!
# The components of the selector

`sb_path_resolution` skips the components that belong to the selector of the rule
before it looks at the first one. The skipping cannot run over the end of the
list, because a selector is never longer than a path it matches, and the paths
that are translated afterwards are at least as long as the selector
(`skip_selected`).
-/

namespace Scratchbox

open List

/-! ## Lengths -/

/-- The number of characters of the components, each with a slash. -/
def textLength : List Component → Nat
  | [] => 0
  | c :: cs => c.val.length + 1 + textLength cs

theorem textLength_append (cs cs' : List Component) :
    textLength (cs ++ cs') = textLength cs + textLength cs' := by
  induction cs with
  | nil => simp [textLength]
  | cons c cs ih =>
    rw [cons_append, textLength, textLength, ih]
    omega

theorem length_join (c : Component) (cs : List Component) :
    (Token.join '/' (c :: cs)).length + 1 = textLength (c :: cs) := by
  induction cs generalizing c with
  | nil => simp [textLength]
  | cons d cs ih =>
    have h := ih d
    rw [Token.join_cons_cons, length_append, length_cons, textLength]
    omega

theorem textLength_le_length (cs : List Component) (trailing : Bool) :
    textLength cs ≤ (absoluteString cs trailing).length := by
  cases cs with
  | nil => exact Nat.zero_le _
  | cons c cs =>
    rw [← length_join, absoluteString, length_append, length_cons]
    omega

theorem length_absoluteString_le (cs : List Component) (trailing : Bool) :
    (absoluteString cs trailing).length ≤ textLength cs + 1 := by
  cases cs with
  | nil => exact Nat.le_refl _
  | cons c cs =>
    rw [← length_join, absoluteString, length_append, length_cons]
    cases trailing <;> simp

variable {path : CStr}

theorem ruletreeTestPathMatch_le {rp : FsRuleFields} {n : Nat}
    (h : ruletreeTestPathMatch path rp = some n) : n ≤ path.length := by
  unfold ruletreeTestPathMatch at h
  split at h
  · split at h
    · rename_i hpath
      cases h
      exact Nat.le_of_eq (congrArg List.length hpath.symm)
    · cases h
  · split at h
    · rename_i hmatch
      cases h
      exact hmatch.2.length_le
    · cases h
  · split at h
    · rename_i hmatch
      cases h
      exact hmatch.2.1
    · cases h
  · cases h

mutual

variable {ctx : PathMappingContext}

/-- The rule that is found matches the path, and its selector gives the length. -/
theorem ruletreeFindRule_match :
    ∀ {rules : List FsRule} {r : FsRule} {n : Nat},
      ruletreeFindRule ctx path rules = some (r, n) →
      ruletreeTestPathMatch path r.toFsRuleFields = some n
  | [], r, n, h => by
    rw [ruletreeFindRule] at h
    cases h
  | rule :: rules, r, n, h => by
    rw [ruletreeFindRule] at h
    cases hstep : ruletreeFindStep ctx path rule with
    | fail =>
      rw [hstep] at h
      cases h
    | next =>
      rw [hstep] at h
      exact ruletreeFindRule_match h
    | found r' n' =>
      rw [hstep] at h
      cases h
      exact ruletreeFindStep_match hstep

theorem ruletreeFindStep_match :
    ∀ {rule r : FsRule} {n : Nat},
      ruletreeFindStep ctx path rule = .found r n →
      ruletreeTestPathMatch path r.toFsRuleFields = some n
  | ⟨rp, link⟩, r, n, h => by
    rw [ruletreeFindStep] at h
    split at h
    · cases h
    · cases hmatch : ruletreeTestPathMatch path rp with
      | none =>
        simp only [hmatch] at h
        cases h
      | some len =>
        simp only [hmatch] at h
        repeat' split at h
        · cases h
        · cases h
        · rename_i hsub
          cases h
          exact ruletreeFindRule_match hsub
        · cases h
        · cases h
          exact hmatch

end

variable {ctx : PathMappingContext} {minLen : Nat} {before rest : List PathEntry}
  {source : PathEntryList} {session : Session} {w : WalkContext}

theorem ruletreeFindRule_le {rules : List FsRule} {r : FsRule} {n : Nat}
    (h : ruletreeFindRule ctx path rules = some (r, n)) : n ≤ path.length :=
  ruletreeTestPathMatch_le (ruletreeFindRule_match h)

/-! ## Skipping -/

/-- The skipping stops inside the list if the path is long enough, and what was
skipped is as long as the selector. -/
theorem skipComponents_some
    (h : minLen ≤ 1 + textLength (components before.reverse) + textLength (components rest)) :
    ∃ before' rest',
      skipComponents minLen (1 + textLength (components before.reverse)) before rest =
        some (before', rest') ∧
      minLen ≤ 1 + textLength (components before'.reverse) := by
  induction rest generalizing before with
  | nil =>
    rw [components_nil, textLength, Nat.add_zero] at h
    exact ⟨before, [], by rw [skipComponents, if_neg (by omega)], h⟩
  | cons work next ih =>
    rw [skipComponents]
    by_cases hlt : 1 + textLength (components before.reverse) < minLen
    · have hstep : 1 + textLength (components (work :: before).reverse) =
          1 + textLength (components before.reverse) + work.pePathComponent.val.length + 1 := by
        rw [reverse_cons, components_append, textLength_append]
        simp only [components_cons, components_nil, textLength]
        omega
      rw [components_cons, textLength] at h
      rw [if_pos hlt, ← hstep]
      exact ih (by omega)
    · rw [if_neg hlt]
      exact ⟨before, work :: next, rfl, by omega⟩

theorem skip_of_le (habs : source.plFlags.absolute = true)
    (hle : minLen ≤ (pathListToString source).length) :
    ∃ before rest, skipComponents minLen 1 [] source.plFirst = some (before, rest) ∧
      before.reverse ++ rest = source.plFirst ∧
      minLen ≤ 1 + textLength (components before.reverse) := by
  rw [pathListToString_absolute habs] at hle
  have hlen : minLen ≤ 1 + textLength (components ([] : List PathEntry).reverse) +
      textLength (components source.plFirst) := by
    have h := Nat.le_trans hle (length_absoluteString_le _ _)
    simp only [reverse_nil, components_nil, textLength]
    omega
  obtain ⟨before, rest, hskip, hskipped⟩ := skipComponents_some hlen
  exact ⟨before, rest, hskip, skipComponents_split hskip, hskipped⟩

theorem skip_selected {req : MappingRequirements} (habs : source.plFlags.absolute = true)
    (hreq : ruletreeGetMappingRequirements session.fwdRules ctx source = some req) :
    ∃ before rest, skipComponents req.minPathLen 1 [] source.plFirst = some (before, rest) ∧
      before.reverse ++ rest = source.plFirst ∧
      req.minPathLen ≤ 1 + textLength (components before.reverse) :=
  skip_of_le habs (ruletreeFindRule_le (ruletreeGetMappingRequirements_rule hreq))

theorem firstComponents_isPrefix {entries : List PathEntry}
    (hsplit : before.reverse ++ rest = entries) :
    components (before.reverse ++ rest.take 1) <+: components entries := by
  refine ⟨components (rest.drop 1), ?_⟩
  rw [← components_append, append_assoc, take_append_drop, hsplit]

end Scratchbox
