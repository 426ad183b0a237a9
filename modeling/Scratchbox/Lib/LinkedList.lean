import Mathlib.Data.List.Nodup
import Mathlib.Data.List.Perm.Subperm
import Mathlib.Logic.Function.Basic

/-!
# Doubly linked lists in memory

A memory holds cells, each with a value and two links. `Linked` describes a piece of a list by
the addresses and values of its cells: the links of every cell are the ones to its neighbours. A
piece can be cut and joined (`linked_append`), it depends on its own cells only
(`Linked.congr`), and its two ends can be changed (`Linked.setNext`, `Linked.setPrev`).
-/

namespace LinkedList

open List Function

variable {α : Type}

structure Cell (α : Type) where
  value : α
  prev : Option Nat
  next : Option Nat

/-- The cells that are in use. Addresses from `fresh` on have never been used. -/
structure Memory (α : Type) where
  cells : Nat → Option (Cell α)
  fresh : Nat
  unused : ∀ a, fresh ≤ a → cells a = none

namespace Memory

def empty : Memory α := ⟨fun _ => none, 0, fun _ _ => rfl⟩

theorem lt_fresh {mem : Memory α} {a : Nat} {c : Cell α} (h : mem.cells a = some c) :
    a < mem.fresh := by
  refine Nat.lt_of_not_le fun hle => ?_
  rw [mem.unused a hle] at h
  cases h

def write (mem : Memory α) (a : Nat) (c : Cell α) (h : (mem.cells a).isSome) : Memory α where
  cells := Function.update mem.cells a (some c)
  fresh := mem.fresh
  unused b hb := by
    obtain ⟨c', hc'⟩ := Option.isSome_iff_exists.1 h
    have hne : b ≠ a := fun heq => Nat.not_lt.2 hb (heq ▸ lt_fresh hc')
    rw [Function.update_of_ne hne]
    exact mem.unused b hb

/-- The link to the next cell; `none` if the cell is not in use. -/
def setNext (mem : Memory α) (a : Nat) (next : Option Nat) : Option (Memory α) :=
  match h : mem.cells a with
  | none => none
  | some c => some (mem.write a { c with next } (by rw [h]; rfl))

/-- The link to the cell before; `none` if the cell is not in use. -/
def setPrev (mem : Memory α) (a : Nat) (prev : Option Nat) : Option (Memory α) :=
  match h : mem.cells a with
  | none => none
  | some c => some (mem.write a { c with prev } (by rw [h]; rfl))

/-- The cell is given back. -/
def free (mem : Memory α) (a : Nat) : Memory α where
  cells := Function.update mem.cells a none
  fresh := mem.fresh
  unused b hb := by
    rcases eq_or_ne b a with rfl | hne
    · exact Function.update_self ..
    · rw [Function.update_of_ne hne]
      exact mem.unused b hb

/-- A new cell, at the address `fresh`. -/
def alloc (mem : Memory α) (c : Cell α) : Memory α where
  cells := Function.update mem.cells mem.fresh (some c)
  fresh := mem.fresh + 1
  unused b hb := by
    rw [Function.update_of_ne (Nat.ne_of_gt hb)]
    exact mem.unused b (Nat.le_of_succ_le hb)

/-- The link behind a cell, if there is a cell. -/
def setNextOf (mem : Memory α) (p next : Option Nat) : Option (Memory α) :=
  match p with
  | none => some mem
  | some a => mem.setNext a next

/-- The link before a cell, if there is a cell. -/
def setPrevOf (mem : Memory α) (p prev : Option Nat) : Option (Memory α) :=
  match p with
  | none => some mem
  | some a => mem.setPrev a prev

/-- New cells for some values, each linked behind the one before; `last` is the end of the list
so far. -/
def allocList : Memory α → Option Nat → List α → Option (Memory α)
  | mem, _, [] => some mem
  | mem, last, v :: vs =>
    ((mem.alloc ⟨v, last, none⟩).setNextOf last (some mem.fresh)).bind fun mem' =>
      mem'.allocList (some mem.fresh) vs

/-- The last cell of a list that begins at `a`, within the given number of steps. -/
def endOf (mem : Memory α) : Nat → Nat → Option Nat
  | 0, _ => none
  | n + 1, a => (mem.cells a).bind fun c =>
    match c.next with
    | none => some a
    | some b => mem.endOf n b

def valuesUntil (mem : Memory α) (last : Option Nat) : Nat → Option Nat → Option (List α)
  | _, none => some []
  | 0, some _ => none
  | n + 1, some a => (mem.cells a).bind fun c =>
    if last = some a then some [c.value]
    else (mem.valuesUntil last n c.next).map (c.value :: ·)

def freeList : Memory α → Nat → Option Nat → Option (Memory α)
  | mem, _, none => some mem
  | _, 0, some _ => none
  | mem, n + 1, some a => (mem.cells a).bind fun c => (mem.free a).freeList n c.next

variable {mem mem' : Memory α} {a : Nat} {c : Cell α}

theorem setNext_eq (h : mem.cells a = some c) (next : Option Nat) :
    ∃ mem', mem.setNext a next = some mem' ∧
      mem'.cells = Function.update mem.cells a (some { c with next }) ∧
      mem'.fresh = mem.fresh := by
  unfold setNext
  split
  · rename_i hnone
    rw [hnone] at h
    cases h
  · rename_i c' hc'
    obtain rfl : c' = c := Option.some.inj (hc'.symm.trans h)
    exact ⟨_, rfl, rfl, rfl⟩

theorem setPrev_eq (h : mem.cells a = some c) (prev : Option Nat) :
    ∃ mem', mem.setPrev a prev = some mem' ∧
      mem'.cells = Function.update mem.cells a (some { c with prev }) ∧
      mem'.fresh = mem.fresh := by
  unfold setPrev
  split
  · rename_i hnone
    rw [hnone] at h
    cases h
  · rename_i c' hc'
    obtain rfl : c' = c := Option.some.inj (hc'.symm.trans h)
    exact ⟨_, rfl, rfl, rfl⟩

end Memory

/-! ## Pieces of lists -/

/-- The cells of a piece, in order. -/
abbrev Nodes (α : Type) := List (Nat × α)

def addresses (nodes : Nodes α) : List Nat := nodes.map Prod.fst

def values (nodes : Nodes α) : List α := nodes.map Prod.snd

/-- The first cell, or what comes after an empty piece. -/
def firstOf : Nodes α → Option Nat → Option Nat
  | [], stop => stop
  | (a, _) :: _, _ => some a

/-- The last cell, or what comes before an empty piece. -/
def lastOf : Option Nat → Nodes α → Option Nat
  | prev, [] => prev
  | _, (a, _) :: rest => lastOf (some a) rest

/-- The cells are linked with each other, with `prev` before them and `stop` behind. -/
def Linked (cells : Nat → Option (Cell α)) : Option Nat → Nodes α → Option Nat → Prop
  | _, [], _ => True
  | prev, (a, v) :: rest, stop =>
    cells a = some ⟨v, prev, firstOf rest stop⟩ ∧ Linked cells (some a) rest stop

variable {cells cells' : Nat → Option (Cell α)} {prev stop : Option Nat}

@[simp] theorem addresses_append (xs ys : Nodes α) :
    addresses (xs ++ ys) = addresses xs ++ addresses ys := map_append

@[simp] theorem values_append (xs ys : Nodes α) : values (xs ++ ys) = values xs ++ values ys :=
  map_append

theorem firstOf_append (xs ys : Nodes α) (stop : Option Nat) :
    firstOf (xs ++ ys) stop = firstOf xs (firstOf ys stop) := by
  cases xs with
  | nil => rfl
  | cons x xs => rfl

theorem lastOf_append (prev : Option Nat) (xs ys : Nodes α) :
    lastOf prev (xs ++ ys) = lastOf (lastOf prev xs) ys := by
  induction xs generalizing prev with
  | nil => rfl
  | cons x xs ih => exact ih (some x.1)

theorem exists_lastOf (a : Nat) (xs : Nodes α) :
    ∃ last, lastOf (some a) xs = some last ∧ last ∈ a :: addresses xs := by
  induction xs generalizing a with
  | nil => exact ⟨a, rfl, mem_cons_self⟩
  | cons x xs ih =>
    obtain ⟨last, hlast, hmem⟩ := ih x.1
    exact ⟨last, hlast, mem_cons_of_mem a hmem⟩

variable {xs ys nodes : Nodes α} {a : Nat} {mem : Memory α} {v : α} {n : Nat} {rest : Nodes α}

/-- A piece is cut, or two pieces are joined. -/
theorem linked_append :
    Linked cells prev (xs ++ ys) stop ↔
      Linked cells prev xs (firstOf ys stop) ∧ Linked cells (lastOf prev xs) ys stop := by
  induction xs generalizing prev with
  | nil => exact (true_and _).symm ▸ Iff.rfl
  | cons x xs ih =>
    obtain ⟨a, v⟩ := x
    rw [cons_append, Linked, Linked, lastOf, ih, firstOf_append, and_assoc]

/-- Only the cells of the piece matter. -/
theorem Linked.congr (h : Linked cells prev nodes stop)
    (hsame : ∀ a ∈ addresses nodes, cells' a = cells a) : Linked cells' prev nodes stop := by
  induction nodes generalizing prev with
  | nil => trivial
  | cons x rest ih =>
    obtain ⟨a, v⟩ := x
    refine ⟨(hsame a mem_cons_self).trans h.1, ih h.2 fun b hb => ?_⟩
    exact hsame b (mem_cons_of_mem a hb)

theorem Linked.update (h : Linked cells prev nodes stop) (ha : a ∉ addresses nodes)
    (c : Option (Cell α)) : Linked (Function.update cells a c) prev nodes stop :=
  h.congr fun b hb => update_of_ne (fun heq : b = a => ha (heq ▸ hb)) c cells

theorem Linked.used (h : Linked cells prev nodes stop) (ha : a ∈ addresses nodes) :
    (cells a).isSome := by
  induction nodes generalizing prev with
  | nil => cases ha
  | cons x rest ih =>
    obtain ⟨b, v⟩ := x
    rcases mem_cons.1 ha with rfl | ha
    · exact Option.isSome_iff_exists.2 ⟨_, h.1⟩
    · exact ih h.2 ha

theorem Linked.lt_fresh (h : Linked mem.cells prev nodes stop) (ha : a ∈ addresses nodes) :
    a < mem.fresh := by
  obtain ⟨c, hc⟩ := Option.isSome_iff_exists.1 (h.used ha)
  exact Memory.lt_fresh hc

/-- The link behind the last cell is changed. -/
theorem Linked.setNext (h : Linked mem.cells prev (xs ++ [(a, v)]) stop) (ha : a ∉ addresses xs)
    (stop' : Option Nat) :
    ∃ mem', mem.setNext a stop' = some mem' ∧ Linked mem'.cells prev (xs ++ [(a, v)]) stop' ∧
      (∀ b, b ≠ a → mem'.cells b = mem.cells b) ∧ mem'.fresh = mem.fresh := by
  obtain ⟨hxs, hcell, -⟩ := linked_append.1 h
  obtain ⟨mem', hset, hcells, hfresh⟩ := Memory.setNext_eq hcell stop'
  refine ⟨mem', hset, ?_, fun b hb => ?_, hfresh⟩
  · rw [hcells]
    refine linked_append.2 ⟨hxs.update ha _, ?_, trivial⟩
    exact update_self ..
  · rw [hcells, update_of_ne hb]

/-- The link before the first cell is changed. -/
theorem Linked.setPrev (h : Linked mem.cells prev ((a, v) :: rest) stop) (ha : a ∉ addresses rest)
    (prev' : Option Nat) :
    ∃ mem', mem.setPrev a prev' = some mem' ∧ Linked mem'.cells prev' ((a, v) :: rest) stop ∧
      (∀ b, b ≠ a → mem'.cells b = mem.cells b) ∧ mem'.fresh = mem.fresh := by
  obtain ⟨mem', hset, hcells, hfresh⟩ := Memory.setPrev_eq h.1 prev'
  refine ⟨mem', hset, ⟨?_, ?_⟩, fun b hb => ?_, hfresh⟩
  · rw [hcells]
    exact update_self ..
  · rw [hcells]
    exact h.2.update ha _
  · rw [hcells, update_of_ne hb]

/-! ## Whole lists -/

/-- A list in memory: its cells are linked and different from each other. -/
structure Chain (mem : Memory α) (nodes : Nodes α) : Prop where
  linked : Linked mem.cells none nodes none
  nodup : (addresses nodes).Nodup

theorem chain_nil (mem : Memory α) : Chain mem [] := ⟨trivial, nodup_nil⟩

theorem Chain.length_le (h : Chain mem nodes) : nodes.length ≤ mem.fresh := by
  have hsub : addresses nodes ⊆ List.range mem.fresh := fun a ha =>
    mem_range.2 (h.linked.lt_fresh ha)
  have hle := (h.nodup.subperm hsub).length_le
  rwa [addresses, length_map, length_range] at hle

theorem Chain.cell (h : Chain mem (xs ++ (a, v) :: ys)) :
    mem.cells a = some ⟨v, lastOf none xs, firstOf ys none⟩ :=
  (linked_append.1 h.linked).2.1

theorem Linked.setPrevOf (h : Linked mem.cells prev ys none) (hnodup : (addresses ys).Nodup)
    (prev' : Option Nat) :
    ∃ mem', mem.setPrevOf (firstOf ys none) prev' = some mem' ∧ Linked mem'.cells prev' ys none ∧
      (∀ b, b ∉ addresses ys → mem'.cells b = mem.cells b) ∧ mem'.fresh = mem.fresh := by
  cases ys with
  | nil => exact ⟨mem, rfl, trivial, fun _ _ => rfl, rfl⟩
  | cons y ys =>
    obtain ⟨a, v⟩ := y
    obtain ⟨mem', hset, hlinked, hsame, hfresh⟩ := h.setPrev (nodup_cons.1 hnodup).1 prev'
    refine ⟨mem', hset, hlinked, fun b hb => hsame b fun heq => hb ?_, hfresh⟩
    exact heq ▸ mem_cons_self

theorem Linked.setNextOf (h : Linked mem.cells none xs stop) (hnodup : (addresses xs).Nodup)
    (stop' : Option Nat) :
    ∃ mem', mem.setNextOf (lastOf none xs) stop' = some mem' ∧ Linked mem'.cells none xs stop' ∧
      (∀ b, b ∉ addresses xs → mem'.cells b = mem.cells b) ∧ mem'.fresh = mem.fresh := by
  rcases eq_nil_or_concat xs with rfl | ⟨init, ⟨a, v⟩, rfl⟩
  · exact ⟨mem, rfl, trivial, fun _ _ => rfl, rfl⟩
  · rw [concat_eq_append] at h hnodup ⊢
    have ha : a ∉ addresses init := by
      rw [addresses_append] at hnodup
      exact fun hmem => (nodup_append.1 hnodup).2.2 a hmem a mem_cons_self rfl
    obtain ⟨mem', hset, hlinked, hsame, hfresh⟩ := h.setNext ha stop'
    refine ⟨mem', ?_, hlinked, fun b hb => hsame b fun heq => hb ?_, hfresh⟩
    · rw [lastOf_append]
      exact hset
    · rw [heq, addresses_append]
      exact mem_append_right _ mem_cons_self

theorem nodup_parts (h : (addresses (xs ++ (a, v) :: ys)).Nodup) :
    (addresses xs).Nodup ∧ (addresses ys).Nodup ∧ a ∉ addresses xs ∧ a ∉ addresses ys ∧
      ∀ b ∈ addresses xs, b ∉ addresses ys := by
  rw [addresses_append] at h
  obtain ⟨hxs, hays, hdisjoint⟩ := nodup_append.1 h
  obtain ⟨ha, hys⟩ := nodup_cons.1 hays
  refine ⟨hxs, hys, fun hmem => ?_, ha, fun b hb hmem => ?_⟩
  · exact hdisjoint a hmem a mem_cons_self rfl
  · exact hdisjoint b hb b (mem_cons_of_mem a hmem) rfl

theorem Chain.unlink (h : Chain mem (xs ++ (a, v) :: ys)) :
    ∃ mem₁ mem₂, mem.setNextOf (lastOf none xs) (firstOf ys none) = some mem₁ ∧
      mem₁.setPrevOf (firstOf ys none) (lastOf none xs) = some mem₂ ∧
      Chain (mem₂.free a) (xs ++ ys) := by
  obtain ⟨hxs, hys, haxs, hays, hdisjoint⟩ := nodup_parts h.nodup
  obtain ⟨hbefore, -, hafter⟩ := linked_append.1 h.linked
  obtain ⟨mem₁, hnext, hbefore₁, hsame₁, -⟩ := hbefore.setNextOf hxs (firstOf ys none)
  have hafter₁ : Linked mem₁.cells (some a) ys none :=
    hafter.congr fun b hb => hsame₁ b fun hmem => hdisjoint b hmem hb
  obtain ⟨mem₂, hprev, hafter₂, hsame₂, -⟩ := hafter₁.setPrevOf hys (lastOf none xs)
  have hbefore₂ : Linked mem₂.cells none xs (firstOf ys none) :=
    hbefore₁.congr fun b hb => hsame₂ b (hdisjoint b hb)
  refine ⟨mem₁, mem₂, hnext, hprev, linked_append.2 ⟨?_, ?_⟩, ?_⟩
  · exact hbefore₂.update haxs none
  · exact hafter₂.update hays none
  · rw [addresses_append]
    exact nodup_append.2 ⟨hxs, hys, fun b hb c hc heq => hdisjoint b hb (heq ▸ hc)⟩

/-! ## New lists -/

/-- The cells that `allocList` makes, from the address `n` on. -/
def newNodes : Nat → List α → Nodes α
  | _, [] => []
  | n, v :: vs => (n, v) :: newNodes (n + 1) vs

@[simp] theorem values_newNodes (n : Nat) (vs : List α) : values (newNodes n vs) = vs := by
  induction vs generalizing n with
  | nil => rfl
  | cons v vs ih => exact congrArg (v :: ·) (ih (n + 1))

theorem le_of_mem_newNodes {vs : List α} (h : a ∈ addresses (newNodes n vs)) : n ≤ a := by
  induction vs generalizing n with
  | nil => cases h
  | cons v vs ih =>
    rcases mem_cons.1 h with rfl | h
    · exact Nat.le_refl a
    · exact Nat.le_of_succ_le (ih h)

theorem nodup_newNodes (n : Nat) (vs : List α) : (addresses (newNodes n vs)).Nodup := by
  induction vs generalizing n with
  | nil => exact nodup_nil
  | cons v vs ih =>
    exact nodup_cons.2 ⟨fun h => Nat.lt_irrefl n (le_of_mem_newNodes h), ih (n + 1)⟩

theorem allocList_spec (h : Linked mem.cells none nodes none) (hnodup : (addresses nodes).Nodup)
    (vs : List α) :
    ∃ mem', mem.allocList (lastOf none nodes) vs = some mem' ∧
      Linked mem'.cells none (nodes ++ newNodes mem.fresh vs) none ∧
      ∀ b, b < mem.fresh → b ∉ addresses nodes → mem'.cells b = mem.cells b := by
  induction vs generalizing mem nodes with
  | nil => exact ⟨mem, rfl, by rwa [newNodes, append_nil], fun _ _ _ => rfl⟩
  | cons v vs ih =>
    have hfresh : mem.fresh ∉ addresses nodes := fun hmem => Nat.lt_irrefl _ (h.lt_fresh hmem)
    have hnew : Linked (mem.alloc ⟨v, lastOf none nodes, none⟩).cells none nodes none :=
      h.update hfresh _
    obtain ⟨mem₁, hset, hlinked, hsame, hfresh₁⟩ := hnew.setNextOf hnodup (some mem.fresh)
    have hcell : mem₁.cells mem.fresh = some ⟨v, lastOf none nodes, none⟩ :=
      (hsame mem.fresh hfresh).trans (update_self ..)
    have hchain : Linked mem₁.cells none (nodes ++ [(mem.fresh, v)]) none :=
      linked_append.2 ⟨hlinked, hcell, trivial⟩
    have hnodup₁ : (addresses (nodes ++ [(mem.fresh, v)])).Nodup := by
      rw [addresses_append]
      refine nodup_append.2 ⟨hnodup, nodup_singleton _, fun b hb c hc heq => hfresh ?_⟩
      have hc' : c = mem.fresh := mem_singleton.1 hc
      rwa [← hc', ← heq]
    have hfresh₁' : mem₁.fresh = mem.fresh + 1 := hfresh₁
    obtain ⟨mem', halloc, hlinked', hsame'⟩ := ih hchain hnodup₁
    rw [hfresh₁', append_assoc] at hlinked'
    rw [lastOf_append] at halloc
    refine ⟨mem', ?_, hlinked', fun b hb hmem => ?_⟩
    · rw [Memory.allocList, hset]
      exact halloc
    · have hne : b ≠ mem.fresh := Nat.ne_of_lt hb
      have hmem₁ : b ∉ addresses (nodes ++ [(mem.fresh, v)]) := by
        rw [addresses_append]
        exact fun hin => (mem_append.1 hin).elim hmem fun hin =>
          hne (mem_singleton.1 hin)
      rw [hsame' b (by rw [hfresh₁']; exact Nat.lt_succ_of_lt hb) hmem₁, hsame b hmem]
      exact update_of_ne hne _ _

/-! ## Following the links -/

theorem endOf_spec (h : Linked mem.cells prev ((a, v) :: rest) none)
    (hn : rest.length < n) : mem.endOf n a = lastOf (some a) rest := by
  induction rest generalizing prev a v n with
  | nil =>
    obtain ⟨n, rfl⟩ := Nat.exists_eq_succ_of_ne_zero (Nat.ne_zero_of_lt hn)
    rw [Memory.endOf, h.1]
    rfl
  | cons x rest ih =>
    obtain ⟨n, rfl⟩ := Nat.exists_eq_succ_of_ne_zero (Nat.ne_zero_of_lt hn)
    rw [Memory.endOf, h.1]
    exact ih h.2 (Nat.lt_of_succ_lt_succ hn)

theorem valuesUntil_none (h : Linked mem.cells prev nodes none) (hn : nodes.length ≤ n) :
    mem.valuesUntil none n (firstOf nodes none) = some (values nodes) := by
  induction nodes generalizing prev n with
  | nil => cases n <;> rfl
  | cons x rest ih =>
    obtain ⟨n, rfl⟩ := Nat.exists_eq_succ_of_ne_zero (Nat.ne_zero_of_lt hn)
    rw [firstOf, Memory.valuesUntil, h.1, Option.bind_some, if_neg (Option.some_ne_none _).symm,
      ih h.2 (Nat.le_of_succ_le_succ hn)]
    rfl

theorem valuesUntil_last (h : Linked mem.cells prev ((a, v) :: xs ++ ys) none)
    (hnodup : (addresses ((a, v) :: xs ++ ys)).Nodup) (hn : xs.length < n) :
    mem.valuesUntil (lastOf (some a) xs) n (some a) = some (values ((a, v) :: xs)) := by
  induction xs generalizing prev a v n with
  | nil =>
    obtain ⟨n, rfl⟩ := Nat.exists_eq_succ_of_ne_zero (Nat.ne_zero_of_lt hn)
    rw [Memory.valuesUntil, h.1]
    exact if_pos rfl
  | cons x xs ih =>
    obtain ⟨b, w⟩ := x
    obtain ⟨n, rfl⟩ := Nat.exists_eq_succ_of_ne_zero (Nat.ne_zero_of_lt hn)
    -- the last cell is behind this one
    have hlast : lastOf (some b) xs ≠ some a := by
      intro heq
      obtain ⟨last, hlast, hmem⟩ := exists_lastOf b xs
      obtain rfl : last = a := Option.some.inj (hlast.symm.trans heq)
      have hbehind : last ∈ addresses ((b, w) :: xs ++ ys) := by
        rw [addresses_append]
        exact mem_append_left _ hmem
      exact (nodup_cons.1 hnodup).1 hbehind
    have hrest := ih h.2 (nodup_cons.1 hnodup).2 (Nat.lt_of_succ_lt_succ hn)
    rw [lastOf, Memory.valuesUntil, h.1, Option.bind_some, if_neg hlast]
    exact congrArg (Option.map (v :: ·)) hrest

theorem freeList_spec (h : Linked mem.cells prev nodes none) (hnodup : (addresses nodes).Nodup)
    (hn : nodes.length ≤ n) :
    ∃ mem', mem.freeList n (firstOf nodes none) = some mem' ∧
      ∀ b, b ∉ addresses nodes → mem'.cells b = mem.cells b := by
  induction nodes generalizing mem prev n with
  | nil => exact ⟨mem, by cases n <;> rfl, fun _ _ => rfl⟩
  | cons x rest ih =>
    obtain ⟨a, v⟩ := x
    obtain ⟨n, rfl⟩ := Nat.exists_eq_succ_of_ne_zero (Nat.ne_zero_of_lt hn)
    obtain ⟨ha, hrest⟩ := nodup_cons.1 hnodup
    have hfreed : Linked (mem.free a).cells (some a) rest none := h.2.update ha none
    obtain ⟨mem', hfree, hsame⟩ := ih hfreed hrest (Nat.le_of_succ_le_succ hn)
    refine ⟨mem', ?_, fun b hb => ?_⟩
    · rw [firstOf, Memory.freeList, h.1]
      exact hfree
    · rw [hsame b fun hmem => hb (mem_cons_of_mem a hmem)]
      exact update_of_ne (fun heq : b = a => hb (heq ▸ mem_cons_self)) _ _

end LinkedList
