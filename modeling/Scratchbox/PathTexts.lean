import Mathlib.Data.List.TakeWhile
import Scratchbox.RuleTree

/-!
# Clean path texts

The texts of clean absolute paths. Rules work on texts: they put one text before another. A clean
text comes out of it if the first one does not end in a slash (`CleanText.append`).
-/

namespace Scratchbox

open List Token

/-- The text of an absolute path without `.`, `..` and repeated slashes. -/
def CleanText (s : CStr) : Prop := ∃ cs trailing, Clean cs ∧ s = absoluteString cs trailing

def EndsInSlash (s : CStr) : Prop := s.getLast? = some '/'

instance (s : CStr) : Decidable (EndsInSlash s) := inferInstanceAs (Decidable (_ = _))

variable {s t a b rest : CStr} {cs : List Component}

theorem CleanText.head? (h : CleanText s) : s.head? = some '/' := by
  obtain ⟨cs, trailing, -, rfl⟩ := h
  exact head?_absoluteString cs trailing

theorem CleanText.ne_nil (h : CleanText s) : s ≠ [] := by
  obtain ⟨cs, trailing, -, rfl⟩ := h
  exact absoluteString_ne_nil cs trailing

theorem CleanText.cleaned (h : CleanText s) (host : Host) :
    cleanAndLogFsMappingResult host s = .ok (some s) := by
  obtain ⟨cs, trailing, hcs, rfl⟩ := h
  exact cleanAndLogFsMappingResult_absoluteString host hcs trailing

theorem CleanText.printed (h : CleanText s) : pathListToString (splitPathToPathList s) = s := by
  obtain ⟨cs, trailing, hcs, rfl⟩ := h
  rw [pathListToString_absolute (by simp)]
  simp only [splitPathToPathList_plFirst, components_freshEntries, tokens_absoluteString,
    splitPathToPathList_plFlags]
  cases cs with
  | nil => rfl
  | cons c cs => rw [openEnd_absoluteString]

/-! ## Putting texts together -/

theorem absoluteString_slash (h : cs ≠ []) :
    absoluteString cs true = absoluteString cs false ++ ['/'] := by
  obtain ⟨c, cs, rfl⟩ := exists_cons_of_ne_nil h
  simp [absoluteString]

theorem absoluteString_append {ds : List Component} (hcs : cs ≠ []) (hds : ds ≠ [])
    (trailing : Bool) :
    absoluteString (cs ++ ds) trailing = absoluteString cs false ++ absoluteString ds trailing := by
  have hjoin := join_append hcs hds
  obtain ⟨c, cs, rfl⟩ := exists_cons_of_ne_nil hcs
  obtain ⟨d, ds, rfl⟩ := exists_cons_of_ne_nil hds
  simp only [cons_append] at hjoin
  simp [absoluteString, hjoin]

theorem absoluteString_concat (cs : List Component) (c : Component) :
    absoluteString (cs ++ [c]) false = absoluteString cs true ++ c.val := by
  have hsingle : absoluteString [c] false = '/' :: c.val := append_nil _
  cases cs with
  | nil => exact hsingle
  | cons d ds =>
    rw [absoluteString_append (cons_ne_nil d ds) (cons_ne_nil c []),
      absoluteString_slash (cons_ne_nil d ds), append_assoc, hsingle]
    rfl

theorem not_endsInSlash_absoluteString (h : cs ≠ []) : ¬ EndsInSlash (absoluteString cs false) := by
  obtain ⟨c, cs, rfl⟩ := exists_cons_of_ne_nil h
  simp only [EndsInSlash, absoluteString, Bool.false_eq_true, if_false, append_nil]
  rw [getLast?_cons_of_ne_nil (join_cons_ne_nil _ _)]
  exact getLast?_join _

theorem endsInSlash_absoluteString (cs : List Component) :
    EndsInSlash (absoluteString cs true) := by
  cases cs with
  | nil => rfl
  | cons c cs =>
    rw [EndsInSlash, absoluteString_slash (cons_ne_nil c cs), getLast?_append]
    rfl

theorem CleanText.closed (h : CleanText s) (hend : ¬ EndsInSlash s) :
    ∃ cs, cs ≠ [] ∧ Clean cs ∧ s = absoluteString cs false := by
  obtain ⟨cs, trailing, hcs, rfl⟩ := h
  have hne : cs ≠ [] := by
    rintro rfl
    exact hend rfl
  cases trailing with
  | false => exact ⟨cs, hne, hcs, rfl⟩
  | true => exact absurd (endsInSlash_absoluteString cs) hend

theorem CleanText.append (hs : CleanText s) (hend : ¬ EndsInSlash s) (ht : CleanText t) :
    CleanText (s ++ t) := by
  obtain ⟨cs, hne, hcs, rfl⟩ := hs.closed hend
  obtain ⟨ds, trailing, hds, rfl⟩ := ht
  by_cases hdne : ds = []
  · subst hdne
    exact ⟨cs, true, hcs, (absoluteString_slash hne).symm⟩
  · exact ⟨cs ++ ds, trailing, hcs.append hds, (absoluteString_append hne hdne trailing).symm⟩

theorem CleanText.spaced (h : CleanText s) : Token.Spaced '/' s := by
  obtain ⟨cs, trailing, -, rfl⟩ := h
  have hclosed : ∀ cs, Token.Spaced '/' (absoluteString cs false) := by
    intro cs
    cases cs with
    | nil => exact .singleton _
    | cons c cs =>
      simp only [absoluteString, Bool.false_eq_true, if_false, append_nil]
      refine isChain_cons.2 ⟨fun y hy _ hslash => ?_, spaced_join _⟩
      exact head?_join (c :: cs) (hslash ▸ hy)
  by_cases hne : cs = []
  · subst hne
    exact .singleton _
  · cases trailing with
    | false => exact hclosed cs
    | true =>
      rw [absoluteString_slash hne]
      refine isChain_append.2 ⟨hclosed cs, .singleton _, fun x hx y _ hslash => ?_⟩
      subst hslash
      exact absurd hx (not_endsInSlash_absoluteString hne)

theorem CleanText.not_double (h : CleanText (s ++ '/' :: '/' :: t)) : False :=
  (isChain_append_cons_cons.1 h.spaced).2.1 rfl rfl

theorem cleanText_of_tokens {s : CStr} (trailing : Bool)
    (h : absoluteString (tokens '/' s) trailing = s ∧
      Component.dot ∉ tokens '/' s ∧ Component.dotdot ∉ tokens '/' s) :
    CleanText s := ⟨_, trailing, ⟨h.2.1, h.2.2⟩, h.1.symm⟩

/-! ## Boundaries -/

/-- What may follow a directory: nothing, or a slash. -/
def AtBoundary (rest : CStr) : Prop := rest = [] ∨ rest.head? = some '/'

end Scratchbox
