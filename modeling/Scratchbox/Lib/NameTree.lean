import Mathlib.Data.List.Nodup
import Mathlib.Data.List.Perm.Basic

/-!
# Trees of names in a store

A catalog is a chain of entries, each with a name and a value; the value of an entry can be
another catalog. In a store, an entry is a cell with three fields, and the value field holds
either a plain value or the address of the first entry of the other catalog.

Results:
1. `seenAt_update`, `seenAt_addLast`: what a change of one entry leaves as it is.
2. `Rep.update`, `Rep.addLast`: how the cells of the store have to be written for it.
-/

/-- The first entry of a catalog: its address, name and value, the catalog it leads to, and the
entries behind it. An entry with a plain value leads to `nil`. -/
inductive NameTree (K V : Type) where
  | nil
  | entry (addr : V) (name : K) (value : V) (sub next : NameTree K V)

namespace NameTree

open List

variable {K V : Type} (null : V)

/-- The address of the first entry. -/
def head : NameTree K V → V
  | nil => null
  | entry addr _ _ _ _ => addr

def field (value : V) : NameTree K V → V
  | nil => value
  | entry addr _ _ _ _ => addr

def plain (value : V) : NameTree K V → V
  | nil => value
  | entry _ _ _ _ _ => null

def addrs : NameTree K V → List V
  | nil => []
  | entry addr _ _ sub next => addr :: (sub.addrs ++ next.addrs)

/-- An entry without its name and what is behind it. -/
structure Node (K V : Type) where
  addr : V
  value : V
  sub : NameTree K V

/-- What a lookup sees of an entry: its address, its value field and its plain value. -/
def Node.seen (node : Node K V) : V × V × V :=
  (node.addr, field node.value node.sub, plain null node.value node.sub)

/-- A new entry without a value at the end of a catalog. -/
def addLast (addr : V) (name : K) : NameTree K V → NameTree K V
  | nil => entry addr name null nil nil
  | entry b m value sub next => entry b m value sub (next.addLast addr name)

def lastAddr : NameTree K V → V
  | nil => null
  | entry addr _ _ _ nil => addr
  | entry _ _ _ _ (entry b m value sub next) => (entry b m value sub next).lastAddr

/-- The number of entries of a catalog. -/
def chainLength : NameTree K V → Nat
  | nil => 0
  | entry _ _ _ _ next => next.chainLength + 1

section Chains

variable {null} {t : NameTree K V} {n : K}

theorem plain_addLast (addr value : V) (t : NameTree K V) :
    plain null value (t.addLast null addr n) = null := by
  cases t <;> rfl

theorem addrs_addLast (t : NameTree K V) (addr : V) (n : K) :
    (t.addLast null addr n).addrs.Perm (addr :: t.addrs) := by
  induction t with
  | nil => exact .refl _
  | entry b m value sub next _ ihnext =>
    have hbehind : (sub.addrs ++ (next.addLast null addr n).addrs).Perm
        (addr :: (sub.addrs ++ next.addrs)) :=
      (ihnext.append_left sub.addrs).trans perm_middle
    exact (hbehind.cons b).trans (.swap addr b _)

theorem chainLength_le (t : NameTree K V) : t.chainLength ≤ t.addrs.length := by
  induction t with
  | nil => exact Nat.le_refl 0
  | entry addr m value sub next _ ihnext =>
    rw [chainLength, addrs, length_cons, length_append]
    exact Nat.succ_le_succ (Nat.le_trans ihnext (Nat.le_add_left _ _))

variable (null) in
theorem lastAddr_mem (h : t ≠ nil) : t.lastAddr null ∈ t.addrs := by
  induction t with
  | nil => exact absurd rfl h
  | entry addr m value sub next _ ihnext =>
    cases next with
    | nil => exact mem_cons_self
    | entry b m' value' sub' next' =>
      rw [lastAddr, addrs]
      exact mem_cons_of_mem _ (mem_append_right _ (ihnext nofun))

theorem field_addLast (h : t ≠ nil) (addr value : V) :
    field value (t.addLast null addr n) = field value t := by
  cases t with
  | nil => exact absurd rfl h
  | entry b m w sub next => rfl

end Chains

section Lookup

variable [DecidableEq K]

def entryAt : NameTree K V → List K → Option (Node K V)
  | nil, _ => none
  | entry _ _ _ _ _, [] => none
  | entry addr m value sub next, n :: rest =>
    if m = n then
      match rest with
      | [] => some ⟨addr, value, sub⟩
      | n' :: rest' => sub.entryAt (n' :: rest')
    else next.entryAt (n :: rest)

/-- What a lookup sees at a path. -/
def seenAt (t : NameTree K V) (p : List K) : Option (V × V × V) :=
  (t.entryAt p).map (Node.seen null)

/-- The value field of the entry at a path. -/
def get (t : NameTree K V) (p : List K) : V := ((t.seenAt null p).map (·.2.1)).getD null

def plainAt (t : NameTree K V) (p : List K) : V := ((t.seenAt null p).map (·.2.2)).getD null

/-- The entry at a path gets another value, and leads to another catalog. -/
def update (g : V → NameTree K V → V × NameTree K V) : NameTree K V → List K → NameTree K V
  | nil, _ => nil
  | entry addr m value sub next, [] => entry addr m value sub next
  | entry addr m value sub next, n :: rest =>
    if m = n then
      match rest with
      | [] => entry addr m (g value sub).1 (g value sub).2 next
      | n' :: rest' => entry addr m value (sub.update g (n' :: rest')) next
    else entry addr m value sub (next.update g (n :: rest))

variable {null} {t sub next : NameTree K V} {addr value : V} {m n : K} {p q r : List K}
  {g : V → NameTree K V → V × NameTree K V}

theorem entryAt_nil_path (t : NameTree K V) : t.entryAt [] = none := by
  cases t <;> rfl

theorem entryAt_here : (entry addr n value sub next).entryAt [n] = some ⟨addr, value, sub⟩ := by
  rw [entryAt, if_pos rfl]

theorem entryAt_below (hr : r ≠ []) :
    (entry addr n value sub next).entryAt (n :: r) = sub.entryAt r := by
  cases r with
  | nil => exact absurd rfl hr
  | cons n' r => rw [entryAt, if_pos rfl]

theorem entryAt_behind (h : m ≠ n) :
    (entry addr m value sub next).entryAt (n :: r) = next.entryAt (n :: r) := by
  cases r <;> rw [entryAt, if_neg h]

theorem update_here :
    (entry addr n value sub next).update g [n] =
      entry addr n (g value sub).1 (g value sub).2 next := by
  rw [update, if_pos rfl]

theorem update_below (hr : r ≠ []) :
    (entry addr n value sub next).update g (n :: r) =
      entry addr n value (sub.update g r) next := by
  cases r with
  | nil => exact absurd rfl hr
  | cons n' r => rw [update, if_pos rfl]

theorem update_behind (h : m ≠ n) :
    (entry addr m value sub next).update g (n :: r) =
      entry addr m value sub (next.update g (n :: r)) := by
  cases r <;> rw [update, if_neg h]

theorem update_entry (p : List K) : ∃ value' sub' next',
    (entry addr m value sub next).update g p = entry addr m value' sub' next' := by
  cases p with
  | nil => exact ⟨value, sub, next, rfl⟩
  | cons n r =>
    by_cases h : m = n
    · subst h
      cases r with
      | nil => exact ⟨_, _, _, update_here⟩
      | cons n' r => exact ⟨_, _, _, update_below (cons_ne_nil _ _)⟩
    · exact ⟨_, _, _, update_behind h⟩

theorem head_update (t : NameTree K V) (p : List K) : head null (t.update g p) = head null t := by
  cases t with
  | nil => rfl
  | entry addr m value sub next =>
    obtain ⟨_, _, _, same⟩ := update_entry p
    rw [same]
    rfl

variable (null) in
theorem seen_update (t : NameTree K V) (addr value : V) (p : List K) :
    Node.seen null ⟨addr, value, t.update g p⟩ = Node.seen null ⟨addr, value, t⟩ := by
  cases t with
  | nil => rfl
  | entry b m w sub next =>
    obtain ⟨_, _, _, same⟩ := update_entry p
    rw [same]
    rfl

/-- Induction along the path to an entry. -/
@[elab_as_elim]
theorem entryAt_induct {node : Node K V}
    {motive : ∀ (t : NameTree K V) (p : List K), t.entryAt p = some node → Prop}
    {t : NameTree K V} {p : List K} (h : t.entryAt p = some node)
    (here : ∀ n next, motive (entry node.addr n node.value node.sub next) [n] entryAt_here)
    (below : ∀ addr n value sub next r (hr : r ≠ []) (h : sub.entryAt r = some node),
      motive sub r h → motive (entry addr n value sub next) (n :: r) ((entryAt_below hr).trans h))
    (behind : ∀ addr m value sub next n r (hm : m ≠ n) (h : next.entryAt (n :: r) = some node),
      motive next (n :: r) h →
      motive (entry addr m value sub next) (n :: r) ((entryAt_behind hm).trans h)) :
    motive t p h := by
  induction t generalizing p with
  | nil => cases h
  | entry addr m value sub next ihsub ihnext =>
    cases p with
    | nil => cases h
    | cons n r =>
      by_cases hm : m = n
      · subst hm
        cases r with
        | nil =>
          cases entryAt_here.symm.trans h
          exact here m next
        | cons n' r =>
          have hr : n' :: r ≠ [] := cons_ne_nil _ _
          exact below addr m value sub next _ hr ((entryAt_below hr).symm.trans h) (ihsub _)
      · exact behind addr m value sub next n r hm ((entryAt_behind hm).symm.trans h) (ihnext _)

/-! ## Lookups after a change -/

theorem seenAt_entry (n : K) (q : List K) :
    (entry addr m value sub next).seenAt null (n :: q) =
      if m = n then if q = [] then some (Node.seen null ⟨addr, value, sub⟩) else sub.seenAt null q
      else next.seenAt null (n :: q) := by
  by_cases hm : m = n
  · subst hm
    rw [if_pos rfl, seenAt]
    split
    next hq => rw [hq, entryAt_here, Option.map_some]
    next hq => rw [entryAt_below hq, seenAt]
  · rw [if_neg hm, seenAt, entryAt_behind hm, seenAt]

theorem seenAt_nil (t : NameTree K V) : t.seenAt null [] = none := by
  rw [seenAt, entryAt_nil_path, Option.map_none]

/-- A change is seen only where it was made, and below. -/
theorem seenAt_update (t : NameTree K V) (h : ¬ p <+: q) :
    (t.update g p).seenAt null q = t.seenAt null q := by
  induction t generalizing p q with
  | nil => rfl
  | entry addr m value sub next ihsub ihnext =>
    cases p with
    | nil => rfl
    | cons n r =>
      cases q with
      | nil => rw [seenAt_nil, seenAt_nil]
      | cons n' q =>
        by_cases hm : m = n
        · subst hm
          by_cases hr : r = []
          · subst hr
            have hn' : m ≠ n' := fun heq => h (heq ▸ cons_prefix_cons.2 ⟨rfl, nil_prefix⟩)
            rw [update_here, seenAt_entry, seenAt_entry, if_neg hn', if_neg hn']
          · rw [update_below hr, seenAt_entry, seenAt_entry, seen_update]
            split
            next hn' => rw [ihsub fun hrq => h (cons_prefix_cons.2 ⟨hn', hrq⟩)]
            next => rfl
        · rw [update_behind hm, seenAt_entry, seenAt_entry, ihnext h]

theorem entryAt_update_self {node : Node K V} (h : t.entryAt p = some node) :
    (t.update g p).entryAt p =
      some ⟨node.addr, (g node.value node.sub).1, (g node.value node.sub).2⟩ := by
  induction h using entryAt_induct with
  | here n next => rw [update_here, entryAt_here]
  | below addr n value sub next r hr _ ih => rw [update_below hr, entryAt_below hr, ih]
  | behind addr m value sub next n r hm _ ih => rw [update_behind hm, entryAt_behind hm, ih]

theorem entryAt_append {node : Node K V} (h : t.entryAt p = some node) (hr : r ≠ []) :
    t.entryAt (p ++ r) = node.sub.entryAt r := by
  induction h using entryAt_induct with
  | here n next => rw [singleton_append, entryAt_below hr]
  | below addr n value sub next q hq _ ih =>
    rw [cons_append, entryAt_below (append_ne_nil_of_left_ne_nil hq r), ih]
  | behind addr m value sub next n q hm _ ih =>
    rw [cons_append, entryAt_behind hm, ← cons_append, ih]

theorem entryAt_eq_none (h : t.entryAt [n] = none) (r : List K) : t.entryAt (n :: r) = none := by
  induction t with
  | nil => rfl
  | entry addr m value sub next _ ihnext =>
    have hm : m ≠ n := by
      rintro rfl
      rw [entryAt_here] at h
      cases h
    rw [entryAt_behind hm] at h ⊢
    exact ihnext h

/-- A new entry is seen without a value, and the others as before. -/
theorem seenAt_addLast (t : NameTree K V) (h : t.entryAt [n] = none) (addr : V) (q : List K) :
    (t.addLast null addr n).seenAt null q =
      if q = [n] then some (addr, null, null) else t.seenAt null q := by
  cases q with
  | nil => rw [seenAt_nil, seenAt_nil, if_neg (cons_ne_nil _ _).symm]
  | cons n' q =>
    induction t with
    | nil =>
      rw [addLast, seenAt_entry]
      by_cases hn : n = n'
      · subst hn
        by_cases hq : q = []
        · rw [hq, if_pos rfl, if_pos rfl, if_pos rfl]
          rfl
        · rw [if_pos rfl, if_neg hq, if_neg fun heq => hq (List.cons.inj heq).2]
          rfl
      · rw [if_neg hn, if_neg fun heq => hn (List.cons.inj heq).1.symm]
    | entry b m value sub next _ ihnext =>
      have hm : m ≠ n := by
        rintro rfl
        rw [entryAt_here] at h
        cases h
      rw [entryAt_behind hm] at h
      rw [addLast, seenAt_entry, seenAt_entry, ihnext h]
      by_cases hn : m = n'
      · have hne : n' :: q ≠ [n] := by
          intro heq
          cases heq
          exact hm hn
        rw [if_pos hn, if_neg hne, if_pos hn]
      · rw [if_neg hn, if_neg hn]

/-- A new entry at the end of the catalog that a path leads to. -/
def grow (null addr : V) (n : K) (t : NameTree K V) : List K → NameTree K V
  | [] => t.addLast null addr n
  | m :: p => t.update (fun value sub => (value, sub.addLast null addr n)) (m :: p)

def catalogAt (t : NameTree K V) : List K → NameTree K V
  | [] => t
  | m :: p => ((t.entryAt (m :: p)).map Node.sub).getD nil

/-- There can be a catalog at a path: it is the root, or an entry without a plain value. -/
def Open (null : V) (t : NameTree K V) : List K → Prop
  | [] => True
  | m :: p => ∃ node, t.entryAt (m :: p) = some node ∧ plain null node.value node.sub = null

theorem catalogAt_of_entryAt {node : Node K V} (h : t.entryAt p = some node) :
    t.catalogAt p = node.sub := by
  cases p with
  | nil =>
    rw [entryAt_nil_path] at h
    cases h
  | cons m p =>
    rw [catalogAt, h]
    rfl

theorem entryAt_catalogAt (hopen : t.Open null p) (hr : r ≠ []) :
    t.entryAt (p ++ r) = (t.catalogAt p).entryAt r := by
  cases p with
  | nil => rfl
  | cons m p =>
    obtain ⟨node, hnode, -⟩ := hopen
    rw [entryAt_append hnode hr, catalogAt_of_entryAt hnode]

theorem ne_nil_of_entryAt {node : Node K V} (h : t.entryAt p = some node) : t ≠ nil := by
  rintro rfl
  cases h

theorem open_of_entryAt {node : Node K V} (h : t.entryAt p = some node)
    (hplain : plain null node.value node.sub = null) : t.Open null p := by
  cases p with
  | nil => trivial
  | cons m p => exact ⟨node, h, hplain⟩

theorem head_grow (h : t ≠ nil) (addr : V) (n : K) (p : List K) :
    head null (t.grow null addr n p) = head null t := by
  cases p with
  | nil =>
    cases t with
    | nil => exact absurd rfl h
    | entry b m value sub next => rfl
  | cons m p => exact head_update t (m :: p)

/-- A new entry is seen without a value, and the others as before; only the entry that leads to
the catalog can have got a value. -/
theorem seenAt_grow (hopen : t.Open null p) (hnew : t.entryAt (p ++ [n]) = none) (addr : V)
    (hq : q ≠ p) :
    (t.grow null addr n p).seenAt null q =
      if q = p ++ [n] then some (addr, null, null) else t.seenAt null q := by
  cases p with
  | nil => exact seenAt_addLast t hnew addr q
  | cons m p =>
    obtain ⟨node, hnode, -⟩ := hopen
    rw [entryAt_append hnode (cons_ne_nil n [])] at hnew
    by_cases hbegins : m :: p <+: q
    · obtain ⟨r, rfl⟩ := hbegins
      have hr : r ≠ [] := by
        rintro rfl
        exact hq (append_nil _)
      have hupdated := entryAt_update_self (g := fun value sub => (value, sub.addLast null addr n))
        hnode
      rw [grow, seenAt, entryAt_append hupdated hr, seenAt, entryAt_append hnode hr]
      refine (seenAt_addLast node.sub hnew addr r).trans ?_
      by_cases hrn : r = [n]
      · rw [hrn, if_pos rfl, if_pos rfl]
      · rw [if_neg hrn, if_neg fun heq => hrn (append_cancel_left heq)]
        rfl
    · have hne : q ≠ m :: p ++ [n] := by
        rintro rfl
        exact hbegins (prefix_append _ _)
      rw [if_neg hne]
      exact seenAt_update t hbegins

theorem entryAt_grow_self {node : Node K V} (h : t.entryAt p = some node) (addr : V) :
    (t.grow null addr n p).entryAt p =
      some ⟨node.addr, node.value, node.sub.addLast null addr n⟩ := by
  cases p with
  | nil =>
    rw [entryAt_nil_path] at h
    cases h
  | cons m p => exact entryAt_update_self h

theorem plainAt_grow (hopen : t.Open null p) (hnew : t.entryAt (p ++ [n]) = none) (addr : V)
    (q : List K) : (t.grow null addr n p).plainAt null q = t.plainAt null q := by
  by_cases hq : q = p
  · subst hq
    cases q with
    | nil => rw [plainAt, plainAt, seenAt, seenAt, entryAt_nil_path, entryAt_nil_path]
    | cons m q =>
      obtain ⟨node, hnode, hplain⟩ := hopen
      rw [plainAt, plainAt, seenAt, seenAt, entryAt_grow_self hnode, hnode]
      exact (plain_addLast addr node.value node.sub).trans hplain.symm
  · rw [plainAt, plainAt, seenAt_grow hopen hnew addr hq]
    by_cases hqn : q = p ++ [n]
    · rw [if_pos hqn, hqn, seenAt, hnew]
      rfl
    · rw [if_neg hqn]

theorem get_grow (hopen : t.Open null p) (hnew : t.entryAt (p ++ [n]) = none) (addr : V)
    (hq : q ≠ p) : (t.grow null addr n p).get null q = t.get null q := by
  rw [get, get, seenAt_grow hopen hnew addr hq]
  by_cases hqn : q = p ++ [n]
  · rw [if_pos hqn, hqn, seenAt, hnew]
    rfl
  · rw [if_neg hqn]

def setValue (v : V) (t : NameTree K V) (p : List K) : NameTree K V :=
  t.update (fun _ _ => (v, nil)) p

theorem get_setValue_self {node : Node K V} (h : t.entryAt p = some node) (v : V) :
    (t.setValue v p).get null p = v := by
  rw [get, seenAt, setValue, entryAt_update_self h]
  rfl

theorem get_setValue_other (t : NameTree K V) (h : ¬ p <+: q) (v : V) :
    (t.setValue v p).get null q = t.get null q := by
  rw [get, get, setValue, seenAt_update t h]

/-! ## Addresses -/

/-- The addresses that a change of one entry keeps, the address of the entry among them. -/
theorem exists_addrs_update {node : Node K V} (h : t.entryAt p = some node)
    (g : V → NameTree K V → V × NameTree K V) :
    ∃ rest, node.addr ∈ rest ∧ t.addrs.Perm (node.sub.addrs ++ rest) ∧
      (t.update g p).addrs.Perm ((g node.value node.sub).2.addrs ++ rest) := by
  induction h using entryAt_induct with
  | here n next =>
    rw [update_here]
    exact ⟨node.addr :: next.addrs, mem_cons_self, perm_middle.symm,
      perm_middle.symm⟩
  | below addr n value sub next r hr _ ih =>
    obtain ⟨rest, hmem, hold, hnew⟩ := ih
    have hshift {l l' : List V} (same : l.Perm (l' ++ rest)) :
        (addr :: (l ++ next.addrs)).Perm (l' ++ addr :: (rest ++ next.addrs)) := by
      have hbehind := same.append_right next.addrs
      rw [append_assoc] at hbehind
      exact (hbehind.cons addr).trans perm_middle.symm
    rw [update_below hr]
    exact ⟨addr :: (rest ++ next.addrs), mem_cons_of_mem _ (mem_append_left _ hmem),
      hshift hold, hshift hnew⟩
  | behind addr m value sub next n r hm _ ih =>
    obtain ⟨rest, hmem, hold, hnew⟩ := ih
    have hshift {l l' : List V} (same : l.Perm (l' ++ rest)) :
        (addr :: (sub.addrs ++ l)).Perm (l' ++ addr :: (sub.addrs ++ rest)) :=
      ((same.append_left sub.addrs).cons addr).trans
        (((perm_append_comm_assoc sub.addrs l' rest).cons addr).trans perm_middle.symm)
    rw [update_behind hm]
    exact ⟨addr :: (sub.addrs ++ rest), mem_cons_of_mem _ (mem_append_right _ hmem),
      hshift hold, hshift hnew⟩

theorem addr_mem {node : Node K V} (h : t.entryAt p = some node) : node.addr ∈ t.addrs := by
  obtain ⟨rest, hmem, hold, -⟩ := exists_addrs_update h fun v s => (v, s)
  exact hold.mem_iff.2 (mem_append_right _ hmem)

theorem sub_addrs_subset {node : Node K V} (h : t.entryAt p = some node) :
    ∀ a ∈ node.sub.addrs, a ∈ t.addrs := by
  obtain ⟨rest, -, hold, -⟩ := exists_addrs_update h fun v s => (v, s)
  exact fun a ha => hold.mem_iff.2 (mem_append_left _ ha)

theorem addr_notMem_sub {node : Node K V} (h : t.entryAt p = some node) (hnodup : t.addrs.Nodup) :
    node.addr ∉ node.sub.addrs := by
  obtain ⟨rest, hmem, hold, -⟩ := exists_addrs_update h fun v s => (v, s)
  intro hsub
  exact (nodup_append.1 (hold.nodup_iff.1 hnodup)).2.2 _ hsub _ hmem rfl

theorem catalogAt_addrs (t : NameTree K V) (p : List K) :
    (∀ a ∈ (t.catalogAt p).addrs, a ∈ t.addrs) ∧ (t.addrs.Nodup → (t.catalogAt p).addrs.Nodup) := by
  cases p with
  | nil => exact ⟨fun _ ha => ha, id⟩
  | cons m p =>
    cases hnode : t.entryAt (m :: p) with
    | none =>
      rw [catalogAt, hnode]
      exact ⟨nofun, fun _ => nodup_nil⟩
    | some node =>
      rw [catalogAt_of_entryAt hnode]
      refine ⟨sub_addrs_subset hnode, fun hnodup => ?_⟩
      obtain ⟨rest, -, hold, -⟩ := exists_addrs_update hnode fun v s => (v, s)
      exact (nodup_append.1 (hold.nodup_iff.1 hnodup)).1

theorem nodup_setValue {node : Node K V} (h : t.entryAt p = some node) (hnodup : t.addrs.Nodup)
    (v : V) : (t.setValue v p).addrs.Nodup := by
  obtain ⟨rest, -, hold, hnew⟩ := exists_addrs_update h fun _ _ => (v, nil)
  exact hnew.nodup_iff.2 (nodup_append.1 (hold.nodup_iff.1 hnodup)).2.1

theorem addrs_grow (hopen : t.Open null p) (addr : V) (n : K) :
    (t.grow null addr n p).addrs.Perm (addr :: t.addrs) := by
  cases p with
  | nil => exact addrs_addLast t addr n
  | cons m p =>
    obtain ⟨node, hnode, -⟩ := hopen
    obtain ⟨rest, -, hold, hnew⟩ :=
      exists_addrs_update hnode fun value sub => (value, sub.addLast null addr n)
    exact hnew.trans
      (((addrs_addLast node.sub addr n).append_right rest).trans (hold.symm.cons addr))

theorem nodup_grow (hopen : t.Open null p) (hnodup : t.addrs.Nodup) {addr : V}
    (hfresh : addr ∉ t.addrs) (n : K) : (t.grow null addr n p).addrs.Nodup :=
  (addrs_grow hopen addr n).nodup_iff.2 (nodup_cons.2 ⟨hfresh, hnodup⟩)

end Lookup

/-! ## In a store -/

/-- The fields of an entry, and the plain value among them. -/
structure Cell (K V : Type) where
  name : K
  value : V
  plain : V
  next : V

/-- All entries of a tree are in the store. -/
def Rep (E : V → Cell K V → Prop) : NameTree K V → Prop
  | nil => True
  | entry addr name value sub next =>
    E addr ⟨name, field value sub, plain null value sub, head null next⟩ ∧ sub.Rep E ∧ next.Rep E

section Store

variable {null} {t : NameTree K V} {E E' : V → Cell K V → Prop}

section

variable (h : t.Rep null E) {addr : V} {n : K}

include h

theorem Rep.mono (hkept : ∀ a ∈ t.addrs, ∀ c, E a c → E' a c) :
    t.Rep null E' := by
  induction t with
  | nil => trivial
  | entry addr m value sub next ihsub ihnext =>
    obtain ⟨hcell, hsub, hnext⟩ := h
    refine ⟨hkept addr mem_cons_self _ hcell, ihsub hsub fun a ha => ?_,
      ihnext hnext fun a ha => ?_⟩
    · exact hkept a (mem_cons_of_mem _ (mem_append_left _ ha))
    · exact hkept a (mem_cons_of_mem _ (mem_append_right _ ha))

/-- A new entry at the end of a catalog that is not empty: the link of the last entry is
written. -/
theorem Rep.addLast (ht : t ≠ nil) (hnodup : t.addrs.Nodup)
    (hlast : ∀ c, E (t.lastAddr null) c → E' (t.lastAddr null) { c with next := addr })
    (hkept : ∀ a ∈ t.addrs, a ≠ t.lastAddr null → ∀ c, E a c → E' a c)
    (hnew : E' addr ⟨n, null, null, null⟩) : (t.addLast null addr n).Rep null E' := by
  induction t with
  | nil => exact absurd rfl ht
  | entry b m value sub next _ ihnext =>
    obtain ⟨hcell, hsub, hnext⟩ := h
    obtain ⟨hb, hrest⟩ := nodup_cons.1 hnodup
    obtain ⟨-, hnextdup, hdisjoint⟩ := nodup_append.1 hrest
    have hin : ∀ a ∈ sub.addrs, a ∈ (entry b m value sub next).addrs := fun a ha =>
      mem_cons_of_mem _ (mem_append_left _ ha)
    cases next with
    | nil =>
      refine ⟨hlast _ hcell, hsub.mono fun a ha => hkept a (hin a ha) ?_, hnew, trivial, trivial⟩
      intro heq
      have hfirst : a = b := heq
      exact hb (mem_append_left _ (hfirst ▸ ha))
    | entry b' m' value' sub' next' =>
      have hmem := lastAddr_mem null (t := entry b' m' value' sub' next') nofun
      refine ⟨hkept b mem_cons_self ?_ _ hcell,
        hsub.mono fun a ha => hkept a (hin a ha) ?_,
        ihnext hnext nofun hnextdup hlast fun a ha => hkept a ?_⟩
      · intro heq
        exact hb (mem_append_right _ (heq ▸ hmem))
      · intro heq
        exact hdisjoint a ha _ hmem heq
      · exact mem_cons_of_mem _ (mem_append_right _ ha)

variable [DecidableEq K] {p : List K} {node : Node K V}

theorem Rep.entryAt (hnode : t.entryAt p = some node) :
    (∃ c, E node.addr c ∧ c.value = field node.value node.sub ∧
      c.plain = NameTree.plain null node.value node.sub) ∧ node.sub.Rep null E := by
  induction hnode using entryAt_induct with
  | here n next => exact ⟨⟨_, h.1, rfl, rfl⟩, h.2.1⟩
  | below addr n value sub next r _ _ ih => exact ih h.2.1
  | behind addr m value sub next n r _ _ ih => exact ih h.2.2

theorem Rep.catalogAt (p : List K) : (t.catalogAt p).Rep null E := by
  cases p with
  | nil => exact h
  | cons m p =>
    cases hnode : t.entryAt (m :: p) with
    | none =>
      rw [NameTree.catalogAt, hnode]
      trivial
    | some node =>
      rw [catalogAt_of_entryAt hnode]
      exact (h.entryAt hnode).2

/-- A change of one entry: its value field is written. -/
theorem Rep.update {g : V → NameTree K V → V × NameTree K V}
    (hnodup : t.addrs.Nodup) (hnode : t.entryAt p = some node)
    (hself : ∀ c, c.value = field node.value node.sub →
      c.plain = NameTree.plain null node.value node.sub → E node.addr c →
      E' node.addr { c with
        value := field (g node.value node.sub).1 (g node.value node.sub).2
        plain := NameTree.plain null (g node.value node.sub).1 (g node.value node.sub).2 })
    (hkept : ∀ a ∈ t.addrs, a ≠ node.addr → a ∉ node.sub.addrs → ∀ c, E a c → E' a c)
    (hsub : (g node.value node.sub).2.Rep null E') : (t.update g p).Rep null E' := by
  induction hnode using entryAt_induct with
  | here n next =>
    obtain ⟨hcell, -, hnextrep⟩ := h
    obtain ⟨haddr, hrest⟩ := nodup_cons.1 hnodup
    have hdisjoint := (nodup_append.1 hrest).2.2
    rw [update_here]
    refine ⟨hself _ rfl rfl hcell, hsub, hnextrep.mono fun a ha => ?_⟩
    refine hkept a (mem_cons_of_mem _ (mem_append_right _ ha)) (fun heq => ?_)
      fun hin => hdisjoint a hin a ha rfl
    exact haddr (mem_append_right _ (heq ▸ ha))
  | below addr n value sub next r hr hnode ih =>
    obtain ⟨hcell, hsubrep, hnextrep⟩ := h
    obtain ⟨haddr, hrest⟩ := nodup_cons.1 hnodup
    obtain ⟨hsubdup, -, hdisjoint⟩ := nodup_append.1 hrest
    have hmem := addr_mem hnode
    have hsubset := sub_addrs_subset hnode
    rw [update_below hr]
    refine ⟨?_, ih hsubrep hsubdup fun a ha =>
      hkept a (mem_cons_of_mem _ (mem_append_left _ ha)), hnextrep.mono fun a ha => ?_⟩
    · have hseen := seen_update null (g := g) sub addr value r
      rw [Node.seen, Node.seen, Prod.mk.injEq, Prod.mk.injEq] at hseen
      rw [hseen.2.1, hseen.2.2]
      refine hkept addr mem_cons_self (fun heq => ?_) (fun hin => ?_) _ hcell
      · exact haddr (mem_append_left _ (heq ▸ hmem))
      · exact haddr (mem_append_left _ (hsubset _ hin))
    · refine hkept a (mem_cons_of_mem _ (mem_append_right _ ha)) (fun heq => ?_)
        fun hin => hdisjoint _ (hsubset a hin) a ha rfl
      exact hdisjoint _ hmem a ha heq.symm
  | behind addr m value sub next n r hm hnode ih =>
    obtain ⟨hcell, hsubrep, hnextrep⟩ := h
    obtain ⟨haddr, hrest⟩ := nodup_cons.1 hnodup
    obtain ⟨-, hnextdup, hdisjoint⟩ := nodup_append.1 hrest
    have hmem := addr_mem hnode
    have hsubset := sub_addrs_subset hnode
    rw [update_behind hm]
    refine ⟨?_, hsubrep.mono fun a ha => ?_, ih hnextrep hnextdup fun a ha =>
      hkept a (mem_cons_of_mem _ (mem_append_right _ ha))⟩
    · rw [head_update]
      refine hkept addr mem_cons_self (fun heq => ?_) (fun hin => ?_) _ hcell
      · exact haddr (mem_append_right _ (heq ▸ hmem))
      · exact haddr (mem_append_right _ (hsubset _ hin))
    · refine hkept a (mem_cons_of_mem _ (mem_append_left _ ha)) (fun heq => ?_)
        fun hin => hdisjoint a ha _ (hsubset a hin) rfl
      exact hdisjoint a ha _ hmem heq

theorem Rep.setValue (hnodup : t.addrs.Nodup) (hnode : t.entryAt p = some node)
    {v : V} (hself : ∀ c, E node.addr c → E' node.addr { c with value := v, plain := v })
    (hkept : ∀ a ∈ t.addrs, a ≠ node.addr → ∀ c, E a c → E' a c) :
    (t.setValue v p).Rep null E' :=
  h.update hnodup hnode (fun c _ _ => hself c) (fun a ha hne _ => hkept a ha hne) trivial

/-- A new entry of a catalog that is not empty: the link of its last entry is written. -/
theorem Rep.grow_link (hnodup : t.addrs.Nodup) (hopen : t.Open null p)
    (hcatalog : t.catalogAt p ≠ nil) (hlast : ∀ c, E ((t.catalogAt p).lastAddr null) c →
      E' ((t.catalogAt p).lastAddr null) { c with next := addr })
    (hkept : ∀ a ∈ t.addrs, a ≠ (t.catalogAt p).lastAddr null → ∀ c, E a c → E' a c)
    (hnew : E' addr ⟨n, null, null, null⟩) : (t.grow null addr n p).Rep null E' := by
  cases p with
  | nil => exact h.addLast hcatalog hnodup hlast hkept hnew
  | cons m p =>
    obtain ⟨node, hnode, hplain⟩ := hopen
    have hsubdup := (catalogAt_addrs t (m :: p)).2 hnodup
    rw [catalogAt_of_entryAt hnode] at hcatalog hlast hkept hsubdup
    have hmem := lastAddr_mem null hcatalog
    have hself : node.addr ≠ node.sub.lastAddr null := fun heq =>
      addr_notMem_sub hnode hnodup (heq ▸ hmem)
    refine h.update hnodup hnode (fun c hvalue hcplain hcell => ?_)
      (fun a ha _ hnot => hkept a ha fun heq => hnot (heq ▸ hmem)) ?_
    · have hsame : { c with
          value := field node.value (node.sub.addLast null addr n)
          plain := NameTree.plain null node.value (node.sub.addLast null addr n) } = c := by
        rw [field_addLast hcatalog, plain_addLast, ← hvalue, ← hplain, ← hcplain]
      show E' node.addr { c with
          value := field node.value (node.sub.addLast null addr n)
          plain := NameTree.plain null node.value (node.sub.addLast null addr n) }
      rw [hsame]
      exact hkept _ (addr_mem hnode) hself c hcell
    · exact (h.entryAt hnode).2.addLast hcatalog hsubdup hlast
        (fun a ha => hkept a (sub_addrs_subset hnode a ha)) hnew

/-- The first entry of a catalog: the value field of the entry that leads to it is written. -/
theorem Rep.grow_first (hnodup : t.addrs.Nodup) (hnode : t.entryAt p = some node)
    (hempty : node.sub = nil)
    (hself : ∀ c, E node.addr c → E' node.addr { c with value := addr, plain := null })
    (hkept : ∀ a ∈ t.addrs, a ≠ node.addr → ∀ c, E a c → E' a c)
    (hnew : E' addr ⟨n, null, null, null⟩) : (t.grow null addr n p).Rep null E' := by
  cases p with
  | nil =>
    rw [entryAt_nil_path] at hnode
    cases hnode
  | cons m p =>
    refine h.update hnodup hnode (fun c _ _ hcell => ?_) (fun a ha hne _ => hkept a ha hne) ?_
    · rw [hempty]
      exact hself c hcell
    · rw [hempty]
      exact ⟨hnew, trivial, trivial⟩

end

end Store

end NameTree
