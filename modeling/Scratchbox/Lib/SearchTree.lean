import Mathlib.Data.List.Perm.Basic
import Mathlib.Order.MinMax

/-!
# Search trees linked through a store

A binary search tree whose nodes are cells of a store, linked by the places of the
cells (place `0` is no cell). `Represents` says which tree hangs below a place. A
search walks down from the root and remembers the cell it looked at last and the side
on which it left it; linking a new cell there is the insertion of its key
(`Represents.insert`).
-/

namespace SearchTree

open List

variable {K V : Type}

inductive Side
  | less
  | more
  deriving DecidableEq

structure Cell (K V : Type) where
  key : K
  value : V
  less : Nat
  more : Nat

def Cell.link (cell : Cell K V) (place : Nat) : Side → Cell K V
  | .less => { cell with less := place }
  | .more => { cell with more := place }

/-- What a node of the tree holds, with the place of its cell. -/
structure Node (K V : Type) where
  place : Nat
  key : K
  value : V

inductive Tree (K V : Type)
  | leaf
  | node (less : Tree K V) (here : Node K V) (more : Tree K V)

namespace Tree

def nodes : Tree K V → List (Node K V)
  | leaf => []
  | node less here more => less.nodes ++ here :: more.nodes

def height : Tree K V → Nat
  | leaf => 0
  | node less _ more => max less.height more.height + 1

/-- The keys are smaller on the one side of every node and greater on the other. -/
def Ordered [LT K] : Tree K V → Prop
  | leaf => True
  | node less here more =>
    less.Ordered ∧ more.Ordered ∧
      (∀ n ∈ less.nodes, n.key < here.key) ∧ ∀ n ∈ more.nodes, here.key < n.key

end Tree

/-- How a search ends: at the node with the key, or below the last node it looked at. -/
inductive Descent (K V : Type)
  | found (node : Node K V)
  | missing (last : Option (Nat × Side))

section Search

variable [LinearOrder K]

namespace Tree

def search (key : K) : Tree K V → Option (Nat × Side) → Descent K V
  | leaf, last => .missing last
  | node less here more, _ =>
    if key = here.key then .found here
    else if key < here.key then less.search key (some (here.place, .less))
    else more.search key (some (here.place, .more))

def insert (new : Node K V) : Tree K V → Tree K V
  | leaf => node leaf new leaf
  | node less here more =>
    if new.key < here.key then node (less.insert new) here more
    else node less here (more.insert new)

end Tree

variable {key : K} {new n : Node K V} {t : Tree K V} {last : Option (Nat × Side)}

/-! ### Searching an ordered tree -/

theorem mem_of_search_found (h : t.search key last = .found n) : n ∈ t.nodes ∧ n.key = key := by
  induction t generalizing last with
  | leaf => cases h
  | node less here more ihless ihmore =>
    rw [Tree.search] at h
    rw [Tree.nodes, mem_append, mem_cons]
    split at h
    next heq =>
      cases h
      exact ⟨.inr (.inl rfl), heq.symm⟩
    next =>
      split at h
      · exact ⟨.inl (ihless h).1, (ihless h).2⟩
      · exact ⟨.inr (.inr (ihmore h).1), (ihmore h).2⟩

theorem search_of_mem (hordered : t.Ordered) (hn : n ∈ t.nodes) :
    t.search n.key last = .found n := by
  induction t generalizing last with
  | leaf => cases hn
  | node less here more ihless ihmore =>
    obtain ⟨hless, hmore, hbelow, habove⟩ := hordered
    rw [Tree.search]
    rcases mem_append.1 hn with hn | hn
    · have hlt : n.key < here.key := hbelow n hn
      rw [if_neg hlt.ne, if_pos hlt, ihless hless hn]
    · rcases mem_cons.1 hn with rfl | hn
      · rw [if_pos rfl]
      · have hlt : here.key < n.key := habove n hn
        rw [if_neg hlt.ne', if_neg hlt.not_gt, ihmore hmore hn]

theorem search_missing_iff (hordered : t.Ordered) :
    (∃ at', t.search key last = .missing at') ↔ ∀ n ∈ t.nodes, n.key ≠ key := by
  constructor
  · rintro ⟨at', h⟩ n hn rfl
    rw [search_of_mem hordered hn] at h
    cases h
  · intro h
    cases hs : t.search key last with
    | found n => exact absurd (mem_of_search_found hs).2 (h n (mem_of_search_found hs).1)
    | missing at' => exact ⟨at', rfl⟩

theorem Tree.Ordered.nodup_keys (hordered : t.Ordered) : (t.nodes.map Node.key).Nodup := by
  suffices hpairwise : t.nodes.Pairwise fun a b => a.key < b.key from
    pairwise_map.2 (hpairwise.imp fun hlt => hlt.ne)
  induction t with
  | leaf => exact .nil
  | node less here more ihless ihmore =>
    obtain ⟨hless, hmore, hbelow, habove⟩ := hordered
    refine pairwise_append.2 ⟨ihless hless, pairwise_cons.2 ⟨habove, ihmore hmore⟩, ?_⟩
    intro a ha b hb
    rcases mem_cons.1 hb with rfl | hb
    · exact hbelow a ha
    · exact (hbelow a ha).trans (habove b hb)

/-- A search that found nothing ended below a node of the tree, unless the tree is empty. -/
theorem search_missing_place {at' : Option (Nat × Side)} (h : t.search key last = .missing at') :
    (t = .leaf ∧ at' = last) ∨ ∃ n ∈ t.nodes, ∃ side, at' = some (n.place, side) := by
  induction t generalizing last with
  | leaf =>
    cases h
    exact .inl ⟨rfl, rfl⟩
  | node less here more ihless ihmore =>
    right
    rw [Tree.search] at h
    have hbelow : ∀ {sub : Tree K V} {side},
        (∀ n ∈ sub.nodes, n ∈ (Tree.node less here more).nodes) →
        ((sub = .leaf ∧ at' = some (here.place, side)) ∨
          ∃ n ∈ sub.nodes, ∃ side, at' = some (n.place, side)) →
        ∃ n ∈ (Tree.node less here more).nodes, ∃ side, at' = some (n.place, side) := by
      rintro sub side hsub (⟨-, hat⟩ | ⟨n, hn, hat⟩)
      · exact ⟨here, by simp [Tree.nodes], side, hat⟩
      · exact ⟨n, hsub n hn, hat⟩
    split at h
    · cases h
    · split at h
      · exact hbelow (fun n hn => by simp [Tree.nodes, hn]) (ihless h)
      · exact hbelow (fun n hn => by simp [Tree.nodes, hn]) (ihmore h)

/-! ### Inserting -/

theorem nodes_insert_perm : (t.insert new).nodes.Perm (new :: t.nodes) := by
  induction t with
  | leaf => exact .refl _
  | node less here more ihless ihmore =>
    rw [Tree.insert]
    split
    · exact ihless.append_right (here :: more.nodes)
    · show (less.nodes ++ here :: (more.insert new).nodes).Perm
        (new :: (less.nodes ++ here :: more.nodes))
      refine (List.Perm.append_left less.nodes ((ihmore.cons here).trans
        (List.Perm.swap new here more.nodes))).trans ?_
      exact perm_middle

theorem mem_nodes_insert : n ∈ (t.insert new).nodes ↔ n = new ∨ n ∈ t.nodes := by
  rw [nodes_insert_perm.mem_iff, mem_cons]

theorem Tree.Ordered.insert (hordered : t.Ordered) (hnew : ∀ n ∈ t.nodes, n.key ≠ new.key) :
    (t.insert new).Ordered := by
  induction t with
  | leaf => exact ⟨trivial, trivial, by simp [Tree.nodes], by simp [Tree.nodes]⟩
  | node less here more ihless ihmore =>
    obtain ⟨hless, hmore, hbelow, habove⟩ := hordered
    have hhere : here.key ≠ new.key := hnew here (by simp [Tree.nodes])
    rw [Tree.insert]
    split
    next hlt =>
      refine ⟨ihless hless fun n hn => hnew n (by simp [Tree.nodes, hn]), hmore, ?_, habove⟩
      intro n hn
      rcases mem_nodes_insert.1 hn with rfl | hn
      · exact hlt
      · exact hbelow n hn
    next hlt =>
      refine ⟨hless, ihmore hmore fun n hn => hnew n (by simp [Tree.nodes, hn]), hbelow, ?_⟩
      intro n hn
      rcases mem_nodes_insert.1 hn with rfl | hn
      · exact lt_of_le_of_ne (not_lt.1 hlt) hhere
      · exact habove n hn

end Search

/-! ## Trees in a store -/

variable {cells cells' : Nat → Option (Cell K V)} {place root : Nat} {t u : Tree K V} {n : Node K V}

/-- The tree that hangs below a place. -/
inductive Represents (cells : Nat → Option (Cell K V)) : Nat → Tree K V → Prop
  | leaf : Represents cells 0 .leaf
  | node {place : Nat} {cell : Cell K V} {tless tmore : Tree K V} (hplace : place ≠ 0)
      (hcell : cells place = some cell) (hless : Represents cells cell.less tless)
      (hmore : Represents cells cell.more tmore) :
      Represents cells place (.node tless ⟨place, cell.key, cell.value⟩ tmore)

theorem Represents.cell_of_mem (h : Represents cells place t) (hn : n ∈ t.nodes) :
    n.place ≠ 0 ∧ ∃ cell, cells n.place = some cell ∧ cell.key = n.key ∧ cell.value = n.value := by
  induction h with
  | leaf => cases hn
  | node hplace hcell hless hmore ihless ihmore =>
    rcases mem_append.1 hn with hn | hn
    · exact ihless hn
    · rcases mem_cons.1 hn with rfl | hn
      · exact ⟨hplace, _, hcell, rfl, rfl⟩
      · exact ihmore hn

theorem Represents.key_eq (ht : Represents cells place t) (hu : Represents cells root u)
    {m : Node K V} (hn : n ∈ t.nodes) (hm : m ∈ u.nodes) (heq : n.place = m.place) :
    n.key = m.key := by
  obtain ⟨-, cell, hcell, hkey, -⟩ := ht.cell_of_mem hn
  obtain ⟨-, cell', hcell', hkey', -⟩ := hu.cell_of_mem hm
  rw [heq, hcell'] at hcell
  cases hcell
  rw [← hkey, hkey']

theorem Represents.congr (h : Represents cells place t)
    (hsame : ∀ n ∈ t.nodes, cells' n.place = cells n.place) : Represents cells' place t := by
  induction h with
  | leaf => exact .leaf
  | @node place cell tless tmore hplace hcell hless hmore ihless ihmore =>
    have hhere := hsame ⟨place, cell.key, cell.value⟩ (by simp [Tree.nodes])
    refine .node hplace (hhere.trans hcell) (ihless fun n hn => ?_) (ihmore fun n hn => ?_)
    · exact hsame n (by simp [Tree.nodes, hn])
    · exact hsame n (by simp [Tree.nodes, hn])

/-- In a store where links only lead forward the height of a tree is bounded. -/
theorem Represents.height_le {bound : Nat} (h : Represents cells place t)
    (hforward : ∀ p cell, cells p = some cell →
      p < bound ∧ (cell.less ≠ 0 → p < cell.less) ∧ (cell.more ≠ 0 → p < cell.more)) :
    t.height ≤ bound - place := by
  induction h with
  | leaf => exact Nat.zero_le _
  | @node place cell tless tmore hplace hcell hless hmore ihless ihmore =>
    obtain ⟨hbound, hl, hm⟩ := hforward place cell hcell
    have hside : ∀ {link : Nat} {sub : Tree K V}, Represents cells link sub →
        sub.height ≤ bound - link → (link ≠ 0 → place < link) → sub.height + 1 ≤ bound - place := by
      intro link sub hsub hheight hlink
      cases hsub with
      | leaf => exact Nat.sub_pos_of_lt hbound
      | node hne =>
        have := hlink hne
        omega
    show max tless.height tmore.height + 1 ≤ bound - place
    rcases max_choice tless.height tmore.height with hmax | hmax
    · rw [hmax]
      exact hside hless ihless hl
    · rw [hmax]
      exact hside hmore ihmore hm

section Insert

variable [LinearOrder K] {key : K} {value : V} {last : Option (Nat × Side)} {lastPlace : Nat}
  {side : Side}

/-- A search for the key leaves the cell on this side, where nothing is linked yet. -/
def Cell.EndsAt (cell : Cell K V) (key : K) : Side → Prop
  | .less => key < cell.key ∧ cell.less = 0
  | .more => ¬ key < cell.key ∧ cell.more = 0

theorem Represents.endsAt (h : Represents cells root t) (hnonempty : t ≠ .leaf)
    (hsearch : t.search key last = .missing (some (lastPlace, side))) :
    ∃ cell, cells lastPlace = some cell ∧ cell.EndsAt key side := by
  induction h generalizing last with
  | leaf => exact absurd rfl hnonempty
  | @node place cell tless tmore hplace hcell hless hmore ihless ihmore =>
    rw [Tree.search] at hsearch
    split at hsearch
    · cases hsearch
    · split at hsearch
      next hlt =>
        generalize hlink : cell.less = link at hless
        cases hless with
        | leaf =>
          cases hsearch
          exact ⟨cell, hcell, hlt, hlink⟩
        | node => exact ihless (by simp) hsearch
      next hlt =>
        generalize hlink : cell.more = link at hmore
        cases hmore with
        | leaf =>
          cases hsearch
          exact ⟨cell, hcell, hlt, hlink⟩
        | node => exact ihmore (by simp) hsearch

/-- Linking a new cell where the search for its key ended inserts its node. -/
theorem Represents.insert (h : Represents cells root t) (hordered : t.Ordered) {new : Nat}
    (hnonempty : t ≠ .leaf) (hsearch : t.search key last = .missing (some (lastPlace, side)))
    (hnew : new ≠ 0) (hfresh : cells new = none) (hcell : cells' new = some ⟨key, value, 0, 0⟩)
    (hlink : cells' lastPlace = (cells lastPlace).map (·.link new side))
    (hother : ∀ p, p ≠ new → p ≠ lastPlace → cells' p = cells p) :
    Represents cells' root (t.insert ⟨new, key, value⟩) := by
  have hsingle : Represents cells' new (.node .leaf ⟨new, key, value⟩ .leaf) :=
    Represents.node hnew hcell .leaf .leaf
  induction h generalizing last with
  | leaf => exact absurd rfl hnonempty
  | @node place cell tless tmore hplace hplaceCell hless hmore ihless ihmore =>
    obtain ⟨holess, homore, hbelow, habove⟩ := hordered
    have hplaceNew : place ≠ new := by
      rintro rfl
      rw [hfresh] at hplaceCell
      cases hplaceCell
    -- A part of the tree without the last place keeps its cells.
    have hkeep : ∀ {link : Nat} {sub : Tree K V}, Represents cells link sub →
        (∀ n ∈ sub.nodes, n.place ≠ lastPlace) → Represents cells' link sub := by
      intro link sub hsub hne
      refine hsub.congr fun n hn => hother n.place ?_ (hne n hn)
      intro heq
      obtain ⟨-, c, hc, -⟩ := hsub.cell_of_mem hn
      rw [heq, hfresh] at hc
      cases hc
    -- The two sides share no place, and neither has the place between them.
    have hhere : ∀ {sub : Tree K V} {link : Nat}, Represents cells link sub → ∀ n ∈ sub.nodes,
        n.key ≠ cell.key → n.place ≠ place := by
      intro sub link hsub n hn hne heq
      obtain ⟨-, c, hc, hkey, -⟩ := hsub.cell_of_mem hn
      rw [heq, hplaceCell] at hc
      cases hc
      exact hne hkey.symm
    have hsides : ∀ n ∈ tless.nodes, ∀ m ∈ tmore.nodes, n.place ≠ m.place := by
      intro n hn m hm heq
      have hkey := hless.key_eq hmore hn hm heq
      exact ((hbelow n hn).trans (habove m hm)).ne hkey
    rw [Tree.search] at hsearch
    rw [Tree.insert]
    split at hsearch
    · cases hsearch
    · split at hsearch
      next hlt =>
        rw [if_pos hlt]
        rcases search_missing_place hsearch with ⟨rfl, hat⟩ | ⟨n, hn, side', hat⟩
        · cases hat
          have hcell' : cells' place = some (cell.link new .less) := by rw [hlink, hplaceCell]; rfl
          have hmore' := hkeep hmore fun m hm => hhere hmore m hm (habove m hm).ne'
          have hnode := Represents.node hplace hcell' hsingle hmore'
          exact hnode
        · cases hat
          have hne : place ≠ n.place := (hhere hless n hn (hbelow n hn).ne).symm
          have hcell' := (hother place hplaceNew hne).trans hplaceCell
          have hnonleaf : tless ≠ .leaf := by rintro rfl; cases hn
          exact Represents.node hplace hcell' (ihless holess hnonleaf hsearch)
            (hkeep hmore fun m hm => (hsides n hn m hm).symm)
      next hlt =>
        rw [if_neg hlt]
        rcases search_missing_place hsearch with ⟨rfl, hat⟩ | ⟨n, hn, side', hat⟩
        · cases hat
          have hcell' : cells' place = some (cell.link new .more) := by rw [hlink, hplaceCell]; rfl
          have hless' := hkeep hless fun m hm => hhere hless m hm (hbelow m hm).ne
          have hnode := Represents.node hplace hcell' hless' hsingle
          exact hnode
        · cases hat
          have hne : place ≠ n.place := (hhere hmore n hn (habove n hn).ne').symm
          have hcell' := (hother place hplaceNew hne).trans hplaceCell
          have hnonleaf : tmore ≠ .leaf := by rintro rfl; cases hn
          exact Represents.node hplace hcell' (hkeep hless fun m hm => hsides m hm n hn)
            (ihmore homore hnonleaf hsearch)

end Insert

end SearchTree
