import Mathlib.Data.List.Basic

/-!
# Placing elements before those that hide them

A list that is searched from the front is built by placing one element after the
other: a new one goes before the first element that would be found in its stead, and
is dropped if that element blocks it. If being found first is a matter of a rank, on
the elements that are looked for, then the ranks fall along the list
(`falling_place`), and a search finds an element of the highest rank
(`le_of_find?`).
-/

namespace Placing

open List

variable {α : Type}

/-- The list with `a` placed before the first element that is hit. -/
def place (hit blocks : α → Bool) (a : α) : List α → List α
  | [] => [a]
  | b :: l =>
    if hit b then if blocks b then b :: l else a :: b :: l
    else b :: place hit blocks a l

variable {hit blocks : α → Bool} {a b x : α} {l : List α}

theorem place_cons_of_miss (h : hit b = false) :
    place hit blocks a (b :: l) = b :: place hit blocks a l := by simp [place, h]

theorem place_cons_of_blocks (h : hit b = true) (hblocks : blocks b = true) :
    place hit blocks a (b :: l) = b :: l := by simp [place, h, hblocks]

theorem place_cons_of_hit (h : hit b = true) (hblocks : blocks b = false) :
    place hit blocks a (b :: l) = a :: b :: l := by simp [place, h, hblocks]

theorem place_cases (hit blocks : α → Bool) (b : α) :
    hit b = false ∨ (hit b = true ∧ blocks b = true) ∨ (hit b = true ∧ blocks b = false) := by
  cases hit b
  · exact .inl rfl
  · cases blocks b
    · exact .inr (.inr ⟨rfl, rfl⟩)
    · exact .inr (.inl ⟨rfl, rfl⟩)

theorem mem_place (h : x ∈ place hit blocks a l) : x = a ∨ x ∈ l := by
  induction l with
  | nil => exact .inl (mem_singleton.1 h)
  | cons b l ih =>
    rcases place_cases hit blocks b with hmiss | ⟨hhit, hblocks⟩ | ⟨hhit, hblocks⟩
    · rw [place_cons_of_miss hmiss] at h
      rcases mem_cons.1 h with rfl | h
      · exact .inr mem_cons_self
      · exact (ih h).imp_right (mem_cons_of_mem b)
    · rw [place_cons_of_blocks hhit hblocks] at h
      exact .inr h
    · rw [place_cons_of_hit hhit hblocks] at h
      exact mem_cons.1 h

theorem mem_place_of_mem (h : x ∈ l) : x ∈ place hit blocks a l := by
  induction l with
  | nil => exact absurd h not_mem_nil
  | cons b l ih =>
    rcases place_cases hit blocks b with hmiss | ⟨hhit, hblocks⟩ | ⟨hhit, hblocks⟩
    · rw [place_cons_of_miss hmiss]
      rcases mem_cons.1 h with rfl | h
      · exact mem_cons_self
      · exact mem_cons_of_mem b (ih h)
    · rwa [place_cons_of_blocks hhit hblocks]
    · rw [place_cons_of_hit hhit hblocks]
      exact mem_cons_of_mem a h

theorem mem_place_self (hit blocks : α → Bool) (a : α) (l : List α) :
    a ∈ place hit blocks a l ∨ ∃ b ∈ l, hit b = true ∧ blocks b = true := by
  induction l with
  | nil => exact .inl (mem_singleton.2 rfl)
  | cons b l ih =>
    rcases place_cases hit blocks b with hmiss | ⟨hhit, hblocks⟩ | ⟨hhit, hblocks⟩
    · rw [place_cons_of_miss hmiss]
      rcases ih with h | ⟨c, hc, h⟩
      · exact .inl (mem_cons_of_mem b h)
      · exact .inr ⟨c, mem_cons_of_mem b hc, h⟩
    · exact .inr ⟨b, mem_cons_self, hhit, hblocks⟩
    · rw [place_cons_of_hit hhit hblocks]
      exact .inl mem_cons_self

theorem place_map {β : Type} (f : β → α) (b : β) (l : List β) :
    place hit blocks (f b) (l.map f) =
      (place (fun x => hit (f x)) (fun x => blocks (f x)) b l).map f := by
  induction l with
  | nil => rfl
  | cons c l ih =>
    simp only [map_cons, place, ih]
    split
    · split
      · rfl
      · rfl
    · rfl

/-- A relation between earlier and later elements is kept if the elements that are missed are
related to the new one, and the new one to the element that it is put before and, through it, to
those behind. -/
theorem pairwise_place {R : α → α → Prop} (h : l.Pairwise R)
    (hmiss : ∀ b ∈ l, hit b = false → R b a)
    (hhit : ∀ b ∈ l, hit b = true → blocks b = false → R a b ∧ ∀ x ∈ l, R b x → R a x) :
    (place hit blocks a l).Pairwise R := by
  induction l with
  | nil => exact pairwise_singleton _ _
  | cons b l ih =>
    obtain ⟨hb, hl⟩ := pairwise_cons.1 h
    rcases place_cases hit blocks b with hb' | ⟨hhit', hblocks⟩ | ⟨hhit', hblocks⟩
    · rw [place_cons_of_miss hb']
      refine pairwise_cons.2 ⟨fun x hx => ?_, ih hl ?_ ?_⟩
      · rcases mem_place hx with rfl | hx
        · exact hmiss b mem_cons_self hb'
        · exact hb x hx
      · exact fun c hc => hmiss c (mem_cons_of_mem b hc)
      · intro c hc hc' hblocks
        obtain ⟨hac, hbehind⟩ := hhit c (mem_cons_of_mem b hc) hc' hblocks
        exact ⟨hac, fun x hx => hbehind x (mem_cons_of_mem b hx)⟩
    · rwa [place_cons_of_blocks hhit' hblocks]
    · obtain ⟨hab, hbehind⟩ := hhit b mem_cons_self hhit' hblocks
      rw [place_cons_of_hit hhit' hblocks]
      refine pairwise_cons.2 ⟨fun x hx => ?_, h⟩
      rcases mem_cons.1 hx with rfl | hmem
      · exact hab
      · exact hbehind x hx (hb x hmem)

/-- If no element hits what a later one is for, each element is the first that hits it. -/
theorem find?_of_pairwise {hits : α → Bool} (hb : b ∈ l) (hself : hits b = true)
    (h : l.Pairwise fun x y => y = b → hits x = false) : l.find? hits = some b := by
  induction l with
  | nil => exact absurd hb not_mem_nil
  | cons c l ih =>
    obtain ⟨hc, hl⟩ := pairwise_cons.1 h
    rcases mem_cons.1 hb with rfl | hmem
    · exact find?_cons_of_pos hself
    · rw [find?_cons_of_neg (by simp [hc b hmem rfl])]
      exact ih hmem hl

/-! ## Ranks -/

variable {concerned : α → Prop} {rank : α → Nat}

/-- The ranks of the elements that are looked for fall along the list. -/
def Falling (concerned : α → Prop) (rank : α → Nat) (l : List α) : Prop :=
  l.Pairwise fun x y => concerned x → concerned y → rank y ≤ rank x

/-- Ranks still fall when an element is placed that is hit by all elements of a lower
rank, and is put before an element of at most its own rank, or has the highest rank. -/
theorem falling_place (h : Falling concerned rank l)
    (hmiss : ∀ b ∈ l, concerned a → concerned b → hit b = false → rank a ≤ rank b)
    (hhit : ∀ b ∈ l, concerned a → hit b = true → blocks b = false →
      (concerned b ∧ rank b ≤ rank a) ∨ ∀ x ∈ l, concerned x → rank x ≤ rank a) :
    Falling concerned rank (place hit blocks a l) := by
  refine pairwise_place h (fun b hb hb' hcb hca => hmiss b hb hca hcb hb') ?_
  intro b hb hhit' hblocks
  refine ⟨fun hca hcb => ?_, fun x hx hbx hca hcx => ?_⟩
  · rcases hhit b hb hca hhit' hblocks with ⟨-, hle⟩ | hall
    · exact hle
    · exact hall b hb hcb
  · rcases hhit b hb hca hhit' hblocks with ⟨hcb, hle⟩ | hall
    · exact Nat.le_trans (hbx hcb hcx) hle
    · exact hall x hx hcx

theorem le_of_find? {p : α → Bool} (hp : ∀ x, p x = true ↔ concerned x)
    (h : Falling concerned rank l) (hfind : l.find? p = some a) (hb : b ∈ l)
    (hcb : concerned b) : rank b ≤ rank a := by
  induction l with
  | nil => exact absurd hb not_mem_nil
  | cons c l ih =>
    obtain ⟨hc, hl⟩ := pairwise_cons.1 h
    cases hpc : p c with
    | true =>
      rw [find?_cons_of_pos hpc] at hfind
      obtain rfl := Option.some.inj hfind
      rcases mem_cons.1 hb with rfl | hb
      · exact Nat.le_refl _
      · exact hc b hb ((hp c).1 hpc) hcb
    | false =>
      rw [find?_cons_of_neg (by simp [hpc])] at hfind
      rcases mem_cons.1 hb with rfl | hb
      · exact absurd ((hp b).2 hcb) (by simp [hpc])
      · exact ih hl hfind hb

end Placing
