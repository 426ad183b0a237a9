import Mathlib.Data.List.Chain

/-!
# Tokens of a list cut at a separator

A list is cut at every occurrence of a separator and the empty pieces are
dropped; what is left are its tokens. A token carries the proof that it is not
empty and does not contain the separator, so that writing tokens out and cutting
them again is the identity (`tokens_join`). `openEnd` says whether the last
piece was empty, that is, whether the list ends at a separator.
-/

/-- A nonempty list without the separator. -/
structure Token {α : Type} (sep : α) where
  val : List α
  ne_nil : val ≠ []
  sep_not_mem : sep ∉ val
  deriving DecidableEq

namespace Token

open List

variable {α : Type} {sep : α} {s : List α}

/-! ## Writing out -/

/-- The tokens written out with one separator between neighbours. -/
def join (sep : α) : List (Token sep) → List α
  | [] => []
  | [t] => t.val
  | t :: ts => t.val ++ sep :: join sep ts

@[simp] theorem join_singleton (t : Token sep) : join sep [t] = t.val := rfl

@[simp] theorem join_cons_cons (t u : Token sep) (ts : List (Token sep)) :
    join sep (t :: u :: ts) = t.val ++ sep :: join sep (u :: ts) := rfl

theorem join_cons_ne_nil (t : Token sep) (ts : List (Token sep)) : join sep (t :: ts) ≠ [] := by
  cases ts with
  | nil => exact t.ne_nil
  | cons u ts => simp

theorem join_append {ts us : List (Token sep)} (ht : ts ≠ []) (hu : us ≠ []) :
    join sep (ts ++ us) = join sep ts ++ sep :: join sep us := by
  induction ts with
  | nil => exact absurd rfl ht
  | cons t ts ih =>
    cases ts with
    | nil =>
      obtain ⟨u, us, rfl⟩ := exists_cons_of_ne_nil hu
      rfl
    | cons t' ts =>
      have hrec := ih (cons_ne_nil t' ts)
      simp only [cons_append, join_cons_cons] at hrec ⊢
      rw [hrec, append_assoc, cons_append]

theorem head?_join (ts : List (Token sep)) : (join sep ts).head? ≠ some sep := by
  cases ts with
  | nil => simp [join]
  | cons t ts =>
    obtain ⟨c, cs, hc⟩ := exists_cons_of_ne_nil t.ne_nil
    have hne : c ≠ sep := by
      rintro rfl
      exact t.sep_not_mem (by simp [hc])
    cases ts with
    | nil => simpa [hc] using hne
    | cons u ts => simpa [hc] using hne

theorem getLast?_join (ts : List (Token sep)) : (join sep ts).getLast? ≠ some sep := by
  induction ts with
  | nil => simp [join]
  | cons t ts ih =>
    cases ts with
    | nil =>
      intro h
      exact t.sep_not_mem (mem_of_getLast? h)
    | cons u ts =>
      rw [join_cons_cons, getLast?_append_of_ne_nil _ (cons_ne_nil _ _)]
      rwa [getLast?_cons_of_ne_nil (join_cons_ne_nil u ts)]

/-- No two neighbours are separators. -/
def Spaced (sep : α) (s : List α) : Prop := s.IsChain fun x y => x = sep → y ≠ sep

theorem spaced_of_not_mem (h : sep ∉ s) : Spaced sep s := by
  induction s with
  | nil => exact .nil
  | cons c s ih =>
    refine isChain_cons.2 ⟨fun y _ hc => ?_, ih fun hmem => h (mem_cons_of_mem c hmem)⟩
    exact absurd (hc ▸ mem_cons_self) h

theorem spaced_join (ts : List (Token sep)) : Spaced sep (join sep ts) := by
  induction ts with
  | nil => exact .nil
  | cons t ts ih =>
    cases ts with
    | nil => exact spaced_of_not_mem t.sep_not_mem
    | cons u ts =>
      rw [join_cons_cons]
      refine isChain_append.2 ⟨spaced_of_not_mem t.sep_not_mem, ?_, fun x hx y _ hxsep => ?_⟩
      · refine isChain_cons.2 ⟨fun y hy _ hysep => ?_, ih⟩
        exact head?_join (u :: ts) (hysep ▸ hy)
      · have hmem : x ∈ t.val := mem_of_getLast? hx
        rw [hxsep] at hmem
        exact absurd hmem t.sep_not_mem

/-! ## Cutting -/

variable [DecidableEq α] {c : α}

/-- The token with the given elements, if they form one. -/
def ofList? (sep : α) (s : List α) : Option (Token sep) :=
  if h : s ≠ [] ∧ sep ∉ s then some ⟨s, h.1, h.2⟩ else none

@[simp] theorem ofList?_nil : ofList? sep [] = none := rfl

@[simp] theorem ofList?_val (t : Token sep) : ofList? sep t.val = some t :=
  dif_pos ⟨t.ne_nil, t.sep_not_mem⟩

def tokens (sep : α) (s : List α) : List (Token sep) :=
  (s.splitOn sep).filterMap (ofList? sep)

/-- The list ends at a separator (or is empty): the last piece is empty. -/
def openEnd (sep : α) (s : List α) : Bool :=
  (s.splitOn sep).getLast? = some []

@[simp] theorem tokens_nil : tokens sep [] = [] := rfl

@[simp] theorem openEnd_nil : openEnd sep [] = true := by simp [openEnd]

theorem tokens_append_sep (s t : List α) :
    tokens sep (s ++ sep :: t) = tokens sep s ++ tokens sep t := by
  simp only [tokens, splitOn_append_cons_self, filterMap_append]

theorem openEnd_append_sep (s t : List α) : openEnd sep (s ++ sep :: t) = openEnd sep t := by
  have hne := splitOn_ne_nil sep t
  simp only [openEnd, splitOn_append_cons_self]
  rw [getLast?_append_of_ne_nil _ hne]

@[simp] theorem tokens_cons_sep (s : List α) : tokens sep (sep :: s) = tokens sep s :=
  tokens_append_sep [] s

@[simp] theorem openEnd_cons_sep (s : List α) : openEnd sep (sep :: s) = openEnd sep s :=
  openEnd_append_sep [] s

theorem tokens_val (t : Token sep) : tokens sep t.val = [t] := by
  simp [tokens, splitOn_eq_singleton t.sep_not_mem]

theorem openEnd_val (t : Token sep) : openEnd sep t.val = false := by
  simp [openEnd, splitOn_eq_singleton t.sep_not_mem, t.ne_nil]

/-- Writing tokens out and cutting the result gives them back. -/
@[simp] theorem tokens_join (ts : List (Token sep)) : tokens sep (join sep ts) = ts := by
  induction ts with
  | nil => rfl
  | cons t ts ih =>
    cases ts with
    | nil => exact tokens_val t
    | cons u ts => rw [join_cons_cons, tokens_append_sep, tokens_val, ih, singleton_append]

theorem openEnd_join (t : Token sep) (ts : List (Token sep)) :
    openEnd sep (join sep (t :: ts)) = false := by
  induction ts generalizing t with
  | nil => exact openEnd_val t
  | cons u ts ih => rw [join_cons_cons, openEnd_append_sep, ih]

@[simp] theorem tokens_dropWhile (s : List α) :
    tokens sep (s.dropWhile (· = sep)) = tokens sep s := by
  induction s with
  | nil => rfl
  | cons c s ih =>
    by_cases hc : c = sep
    · subst hc
      simpa using ih
    · simp [hc]

@[simp] theorem openEnd_dropWhile (s : List α) :
    openEnd sep (s.dropWhile (· = sep)) = openEnd sep s := by
  induction s with
  | nil => rfl
  | cons c s ih =>
    by_cases hc : c = sep
    · subst hc
      simpa using ih
    · simp [hc]

theorem tokens_cons_ne_nil (hc : c ≠ sep) (s : List α) : tokens sep (c :: s) ≠ [] := by
  by_cases hs : sep ∈ s
  · obtain ⟨a, t, rfl, ha⟩ := eq_append_cons_of_mem hs
    have hmem : sep ∉ c :: a := by simp [ha, Ne.symm hc]
    rw [← cons_append, tokens_append_sep,
      tokens_val (⟨c :: a, cons_ne_nil c a, hmem⟩ : Token sep)]
    simp
  · have hmem : sep ∉ c :: s := by simp [hs, Ne.symm hc]
    rw [tokens_val (⟨c :: s, cons_ne_nil c s, hmem⟩ : Token sep)]
    simp

theorem openEnd_of_tokens_eq_nil (h : tokens sep s = []) : openEnd sep s = true := by
  induction s with
  | nil => exact openEnd_nil
  | cons c s ih =>
    by_cases hc : c = sep
    · subst hc
      rw [openEnd_cons_sep]
      exact ih (by rwa [tokens_cons_sep] at h)
    · exact absurd h (tokens_cons_ne_nil hc s)

/-- A token written behind any list lengthens its last token, or is a new one. -/
theorem tokens_append_val (s : List α) (t : Token sep) :
    openEnd sep (s ++ t.val) = false ∧
      ∃ ts u, tokens sep (s ++ t.val) = ts ++ [u] ∧ t.val <:+ u.val := by
  by_cases hs : sep ∈ s
  · obtain ⟨a, b, hab, -⟩ := eq_append_cons_of_mem hs
    obtain ⟨hopen, ts, u, htokens, hsuffix⟩ := tokens_append_val b t
    rw [hab, append_assoc, cons_append]
    refine ⟨by rwa [openEnd_append_sep], tokens sep a ++ ts, u, ?_, hsuffix⟩
    rw [tokens_append_sep, htokens, append_assoc]
  · have hmem : sep ∉ s ++ t.val := by simp [hs, t.sep_not_mem]
    let u : Token sep := ⟨s ++ t.val, by simp [t.ne_nil], hmem⟩
    exact ⟨openEnd_val u, [], u, tokens_val u, suffix_append _ _⟩
termination_by s.length
decreasing_by
  rw [hab, List.length_append, List.length_cons]
  omega

/-! ## Gluing -/

theorem length_tokens_cons_cons {d : α} (hc : c ≠ sep) (hd : d ≠ sep) (s : List α) :
    (tokens sep (c :: d :: s)).length = (tokens sep (d :: s)).length := by
  by_cases hs : sep ∈ s
  · obtain ⟨a, t, rfl, ha⟩ := eq_append_cons_of_mem hs
    have hlong : sep ∉ c :: d :: a := by simp [ha, Ne.symm hc, Ne.symm hd]
    have hshort : sep ∉ d :: a := by simp [ha, Ne.symm hd]
    rw [← cons_append, ← cons_append, tokens_append_sep, tokens_append_sep,
      tokens_val (⟨c :: d :: a, cons_ne_nil _ _, hlong⟩ : Token sep),
      tokens_val (⟨d :: a, cons_ne_nil _ _, hshort⟩ : Token sep)]
    rfl
  · have hlong : sep ∉ c :: d :: s := by simp [hs, Ne.symm hc, Ne.symm hd]
    have hshort : sep ∉ d :: s := by simp [hs, Ne.symm hd]
    rw [tokens_val (⟨c :: d :: s, cons_ne_nil _ _, hlong⟩ : Token sep),
      tokens_val (⟨d :: s, cons_ne_nil _ _, hshort⟩ : Token sep)]
    rfl

theorem tokens_singleton (hc : c ≠ sep) :
    tokens sep [c] = [⟨[c], List.cons_ne_nil _ _, by simpa using Ne.symm hc⟩] :=
  tokens_val ⟨[c], cons_ne_nil _ _, by simpa using Ne.symm hc⟩

theorem length_tokens_glue {t : List α} (hs : s ≠ []) (hlast : s.getLast? ≠ some sep) (ht : t ≠ [])
    (hhead : t.head? ≠ some sep) :
    (tokens sep (s ++ t)).length + 1 = (tokens sep s).length + (tokens sep t).length := by
  induction s with
  | nil => exact absurd rfl hs
  | cons c s ih =>
    cases s with
    | nil =>
      obtain ⟨d, t, rfl⟩ := exists_cons_of_ne_nil ht
      have hc : c ≠ sep := by simpa using hlast
      have hd : d ≠ sep := by simpa using hhead
      rw [singleton_append, length_tokens_cons_cons hc hd, tokens_singleton hc,
        length_singleton, Nat.add_comm]
    | cons d s =>
      have hrest := ih (cons_ne_nil _ _) (by simpa using hlast)
      simp only [cons_append] at hrest ⊢
      by_cases hc : c = sep
      · subst hc
        rw [tokens_cons_sep, tokens_cons_sep]
        exact hrest
      by_cases hd : d = sep
      · subst hd
        have hcut : ∀ u, tokens d (c :: d :: u) = tokens d [c] ++ tokens d (d :: u) := by
          intro u
          rw [tokens_cons_sep]
          exact tokens_append_sep [c] u
        rw [hcut, hcut, length_append, length_append, Nat.add_assoc, hrest,
          Nat.add_assoc]
      · rw [length_tokens_cons_cons hc hd, length_tokens_cons_cons hc hd]
        exact hrest

end Token
